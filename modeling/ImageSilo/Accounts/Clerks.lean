import ImageSilo.Accounts.Bystanders

/-! The services of the accounts take no lock of an image or of a path, and make no image. -/
namespace ImageSilo.Accounts

open Go Concurrent Storage

/-- The four actions on the mutexes. -/
def mutexed : Action → Bool
  | .sync .lockCredentials | .sync .unlockCredentials => true
  | .sync .lockMutations | .sync .unlockMutations => true
  | _ => false

def keyed : Action → Bool
  | .sync (.lockImage _) | .sync (.lockAlias _) => true
  | _ => false

def synced : Action → Bool
  | .sync _ => true
  | _ => false

/-- Neither a row of an image nor a file of one is made by the action, and no row is removed. -/
def idle : Action → Bool
  | .statement (.createImage _) | .statement (.createImport _ _) => false
  | .statement (.updateContent _) | .statement (.deleteImage _) => false
  | .file (.rename _ _ _) => false
  | _ => true

/-- The program knows nothing of the mutexes. -/
abbrev Unmutexed {α : Type} (p : Call α) : Prop := p.Only fun a => mutexed a = false

/-- The program can stand under a mutex, and makes no image. -/
abbrev Inner {α : Type} (p : Call α) : Prop :=
  p.Only fun a => mutexed a = false ∧ keyed a = false ∧ idle a = true

/-- The program asks for no lock, and makes no image. -/
abbrev Lockless {α : Type} (p : Call α) : Prop :=
  p.Only fun a => synced a = false ∧ idle a = true

variable {P : Platform} {α : Type}

/-- What is said of every action that a program can ask for may be weakened. -/
theorem only_mono {allowed allowed' : Action → Prop} {p : Call α} (only : p.Only allowed)
    (weaker : ∀ a, allowed a → allowed' a) : p.Only allowed' := by
  induction p with
  | done v => trivial
  | act a next ih => exact ⟨weaker a only.1, fun r => ih r (only.2 r)⟩

theorem only_and {allowed allowed' allowed'' : Action → Prop} {p : Call α} (only : p.Only allowed)
    (only' : p.Only allowed') (both : ∀ a, allowed a → allowed' a → allowed'' a) :
    p.Only allowed'' := by
  induction p with
  | done v => trivial
  | act a next ih => exact ⟨both a only.1 only'.1, fun r => ih r (only.2 r) (only'.2 r)⟩

theorem Lockless.inner {p : Call α} (only : Lockless p) : Inner p := by
  refine only_mono only ?_
  intro a other
  cases a with
  | sync s => cases other.1
  | _ => exact ⟨rfl, rfl, other.2⟩

theorem Inner.unmutexed {p : Call α} (only : Inner p) : Unmutexed p :=
  only_mono only fun _ other => other.1

section Programs

theorem change_inner {q : Statement} {f : Except DatabaseError q.Value → Call α}
    (quiet : idle (.statement q) = true) (rest : ∀ r, Inner (f r)) :
    Inner (do beginChange; let r ← statement q; f r) :=
  .bind (.perform ⟨rfl, rfl, rfl⟩) fun _ => .bind (.perform ⟨rfl, rfl, quiet⟩) rest

theorem endChange_inner {p : Call α} (rest : Inner p) : Inner (do endChange; p) :=
  .bind (.perform ⟨rfl, rfl, rfl⟩) fun _ => rest

/-- The step of an index, and the end of the change. -/
theorem sessionChange_inner {p : Call α} {s : Auth.SessionStep} (rest : Inner p) :
    Inner (do sessionStep s; endChange; p) :=
  .bind (.perform ⟨rfl, rfl, rfl⟩) fun _ => endChange_inner rest

theorem newRandomToken_lockless {text : GoString} : Lockless (newRandomToken P text) :=
  .bind (.perform ⟨rfl, rfl⟩) fun _ => .pure _

theorem createSessionFor_inner {admin : Auth.Admin} {now : Time} :
    Inner (createSessionFor P admin now) := by
  refine .bind newRandomToken_lockless.inner fun token => ?_
  split
  · exact .pure _
  refine .bind newRandomToken_lockless.inner fun csrf => ?_
  split
  · exact .pure _
  refine .bind (.perform ⟨rfl, rfl, rfl⟩) fun id => ?_
  split
  · exact .pure _
  refine change_inner rfl fun created => ?_
  split
  · exact endChange_inner (.pure _)
  · exact sessionChange_inner (.pure _)

theorem loginLocked_inner {email password : GoString} {now : Time} :
    Inner (loginLocked P email password now) := by
  refine .bind (.perform ⟨rfl, rfl, rfl⟩) fun found => ?_
  split
  · split <;> exact .pure _
  · exact .pure _
  · split
    · exact .pure _
    · exact .pure _
    · exact createSessionFor_inner

theorem updateProfileLocked_inner {identity : Auth.SessionIdentity} {displayName email : GoString}
    {now : Time} : Inner (updateProfileLocked identity displayName email now) := by
  refine change_inner rfl fun updated => ?_
  split
  · exact endChange_inner (.pure _)
  · exact endChange_inner (.pure _)
  · exact endChange_inner (.pure _)
  · exact sessionChange_inner (.pure _)

theorem hashPassword_lockless {password : GoString} : Lockless (hashPassword password) := by
  unfold hashPassword
  split
  · exact .pure _
  · split
    · exact .pure _
    · exact .perform ⟨rfl, rfl⟩

theorem changePasswordLocked_inner {adminID sessionToken currentPassword newPassword : GoString}
    {now : Time} :
    Inner (changePasswordLocked P adminID sessionToken currentPassword newPassword now) := by
  refine .bind (.perform ⟨rfl, rfl, rfl⟩) fun found => ?_
  split
  · exact .pure _
  split
  · exact .pure _
  · exact .pure _
  refine .bind hashPassword_lockless.inner fun hashed => ?_
  split
  · exact .pure _
  refine change_inner rfl fun changed => ?_
  split
  · exact endChange_inner (.pure _)
  · exact sessionChange_inner (.pure _)

theorem logout_inner {token : GoString} : Inner (logout P token) := by
  unfold logout
  split
  · exact .pure _
  refine change_inner rfl fun deleted => ?_
  split
  · exact endChange_inner (.pure _)
  · exact sessionChange_inner (.pure _)

theorem cleanupSessions_inner {now : Time} : Inner (cleanupSessions now) := by
  refine change_inner rfl fun deleted => ?_
  split
  · exact endChange_inner (.pure _)
  · exact sessionChange_inner (.pure _)

theorem cleanupTokens_inner {now : Time} : Inner (cleanupTokens now) :=
  .bind (.perform ⟨rfl, rfl, rfl⟩) fun _ => .bind (.perform ⟨rfl, rfl, rfl⟩) fun _ => .perform ⟨rfl, rfl, rfl⟩

theorem beginRebuild_inner : Inner beginRebuild :=
  .bind (.perform ⟨rfl, rfl, rfl⟩) fun _ => .perform ⟨rfl, rfl, rfl⟩

theorem endRebuild_inner {v : α} : Inner (do endRebuild; pure v) :=
  .bind (.perform ⟨rfl, rfl, rfl⟩) fun _ => .pure _

theorem loadSessions_inner {now : Time} : Inner (loadSessions now) := by
  refine .bind beginRebuild_inner fun _ => .bind ?_ fun listed => ?_
  · exact .bind (.perform ⟨rfl, rfl, rfl⟩) fun _ => .pure _
  split
  · exact endRebuild_inner
  · exact .bind (.perform ⟨rfl, rfl, rfl⟩) fun _ => endRebuild_inner

theorem loadTokens_inner {now : Time} : Inner (loadTokens now) := by
  refine .bind beginRebuild_inner fun _ => .bind ?_ fun listed => ?_
  · exact .bind (.perform ⟨rfl, rfl, rfl⟩) fun _ => .pure _
  split
  · exact endRebuild_inner
  · exact .bind (.perform ⟨rfl, rfl, rfl⟩) fun _ => endRebuild_inner

end Programs

/-- The program makes no image. -/
abbrev Idle {α : Type} (p : Call α) : Prop := p.Only fun a => idle a = true

section Idling

theorem Inner.idle {p : Call α} (only : Inner p) : Idle p := only_mono only fun _ other => other.2.2

theorem openImage_idle {key : GoString} : Idle (openImage key) := by
  unfold openImage
  split
  · exact .pure _
  · exact .perform rfl

theorem removeKey_idle {folder : Folder} {key : GoString} : Idle (removeKey folder key) := by
  unfold removeKey
  split
  · exact .pure _
  · exact .perform rfl

theorem beginAliasChange_idle {path : GoString} : Idle (beginAliasChange path) :=
  .bind (.perform rfl) fun _ => .perform rfl

theorem endAliasChange_idle {path : GoString} : Idle (endAliasChange path) :=
  .bind (.perform rfl) fun _ => .perform rfl

/-- A repository method that only maps the error of its statement. -/
theorem mapped_idle {q : Statement} {f : Except DatabaseError q.Value → α}
    (quiet : idle (.statement q) = true) : Idle (statement q >>= fun r => (pure (f r) : Call α)) :=
  .bind (.perform quiet) fun _ => .pure _

theorem createAlias_idle {path imageID source : GoString} {now : Time} :
    Idle (createAlias P path imageID source now) := by
  unfold createAlias
  split
  · exact .pure _
  split
  · exact .pure _
  split
  · exact .pure _
  refine .bind (.perform rfl) fun id => ?_
  split
  · exact .pure _
  refine .bind (.perform rfl) fun _ => .bind beginAliasChange_idle fun _ => ?_
  refine .bind (.bind (.perform rfl) fun affected => ?_) fun created => ?_
  · split <;> exact .pure _
  split
  · exact .bind endAliasChange_idle fun _ => .bind (.perform rfl) fun _ => .pure _
  · exact .bind (.perform rfl) fun _ => .bind endAliasChange_idle fun _ =>
      .bind (.perform rfl) fun _ => .pure _

theorem deleteAlias_idle {id : GoString} : Idle (deleteAlias P id) := by
  unfold deleteAlias
  split
  · exact .pure _
  refine .bind (mapped_idle rfl) fun found => ?_
  split
  · exact .pure _
  refine .bind beginAliasChange_idle fun _ => .bind (mapped_idle rfl) fun deleted => ?_
  split
  · exact .bind endAliasChange_idle fun _ => .pure _
  · exact .bind (.perform rfl) fun _ => .bind endAliasChange_idle fun _ => .pure _

theorem changeVisibility_idle {id : GoString} {visibility : Visibility} :
    Idle (changeVisibility id visibility) := by
  unfold changeVisibility
  split
  · exact .pure _
  refine .bind (.perform rfl) fun _ => .bind ?_ fun _ => .bind (.perform rfl) fun _ => .pure _
  refine .bind (.perform rfl) fun _ => .bind (mapped_idle rfl) fun updated => ?_
  split
  · exact .bind (.perform rfl) fun _ => .pure _
  · exact .bind (.perform rfl) fun _ => .pure _
  · exact .bind (.perform rfl) fun _ => .bind (.perform rfl) fun _ => .pure _

theorem scan_idle : Idle scan := by
  refine .bind (.perform rfl) fun records => ?_
  split
  · exact .pure _
  refine .bind (.perform rfl) fun images => ?_
  split
  · exact .pure _
  refine .bind (.perform rfl) fun thumbnails => ?_
  split
  · exact .pure _
  refine .bind (.perform rfl) fun temporary => ?_
  split <;> exact .pure _

theorem inspect_idle {now : Time} : Idle (inspect now) := by
  refine .bind scan_idle fun scanned => ?_
  split <;> exact .pure _

theorem cleanFolder_idle {folder : Folder} {referenced : GoString → Bool} {cutoff : Time}
    (entries : List FileEntry) : Idle (cleanFolder folder referenced cutoff entries) := by
  induction entries with
  | nil => exact .pure _
  | cons entry rest ih =>
      unfold cleanFolder
      split
      · exact ih
      · exact .bind removeKey_idle fun _ => .bind ih fun _ => .pure _

theorem persistentStats_idle {now : Time} : Idle (persistentStats now) := by
  refine .bind (.perform rfl) fun totals => ?_
  split
  · exact .pure _
  refine .bind (.perform rfl) fun aliases => ?_
  split
  · exact .pure _
  refine .bind (.perform rfl) fun sessions => ?_
  split
  · exact .pure _
  · exact .bind (.perform rfl) fun _ => .pure _

theorem daily_idle {age : Int} : Idle (daily age) := by
  refine .bind (.perform rfl) fun now => .bind scan_idle fun scanned => ?_
  split
  · exact .pure _
  refine .bind (cleanFolder_idle _) fun _ => .bind (cleanFolder_idle _) fun _ =>
    .bind (cleanFolder_idle _) fun _ => .bind persistentStats_idle fun persistent => ?_
  split
  · exact .pure _
  · exact .bind (.bind (.perform rfl) fun _ => .bind (.perform rfl) fun _ =>
      .bind (.perform rfl) fun _ => .bind (.perform rfl) fun _ => .pure _) fun _ => .pure _

theorem build_idle : Idle (Delivery.build P deliverySource) := by
  have size (key : GoString) : Idle (storedSize key) := by
    refine .bind openImage_idle fun opened => ?_
    split <;> exact .pure _
  refine .bind (.perform rfl) fun rows => ?_
  split
  · exact .pure _
  rename_i rows
  refine .bind ?_ fun loaded => ?_
  · generalize Delivery.Loading.start = l
    induction rows generalizing l with
    | nil => exact .pure _
    | cons row rest ih =>
        refine .bind (size _) fun size => ?_
        split
        · exact .pure _
        · exact ih _
  split
  · exact .pure _
  refine .bind (.perform rfl) fun aliases => ?_
  split <;> exact .pure _

theorem authenticateSession_idle {token : GoString} {now : Time} :
    Idle (authenticateSession P token now) := by
  unfold authenticateSession
  split
  · exact .pure _
  · exact .perform rfl

theorem authenticateToken_idle {plaintext : GoString} {now : Time} :
    Idle (authenticateToken P plaintext now) := by
  unfold authenticateToken
  split
  · exact .pure _
  · exact .perform rfl

theorem tokenAccess_idle {authorization : GoString} : Idle (tokenAccess P authorization) := by
  unfold tokenAccess
  split
  · exact .pure _
  refine .bind (.perform rfl) fun now => .bind authenticateToken_idle fun identity => ?_
  split <;> exact .pure _

theorem serveTarget_idle {r : ImageRequest} {target : Delivery.Target} :
    Idle (serveTarget P r target) := by
  have opens : Idle (serveFile target) := by
    refine .bind openImage_idle fun opened => ?_
    split <;> exact .pure _
  have access : Idle (privateImageAccess P r) := by
    unfold privateImageAccess
    split
    · exact tokenAccess_idle
    refine .bind (.perform rfl) fun now => .bind authenticateSession_idle fun identity => ?_
    split
    · exact .pure _
    · exact tokenAccess_idle
  unfold serveTarget
  split
  · refine .bind access fun access => ?_
    split
    · exact .pure _
    · exact .pure _
    · exact opens
  · exact opens

theorem serveAliasUnlocked_idle {r : ImageRequest} : Idle (serveAliasUnlocked P r) := by
  unfold serveAliasUnlocked
  split
  · exact .pure _
  split
  · exact .pure _
  refine .bind (.perform rfl) fun target => ?_
  split
  · exact serveTarget_idle
  unfold serveMigration
  split
  · exact .pure _
  refine .bind (.perform rfl) fun opened => ?_
  split <;> exact .pure _

theorem serve_idle {r : ImageRequest} : Idle (serve P r) := by
  unfold serve
  split
  · unfold serveUnlocked
    split
    · exact .pure _
    split
    · exact serveAliasUnlocked_idle
    refine .bind (.perform rfl) fun target => ?_
    split
    · exact .pure _
    · exact serveTarget_idle
  · exact serveAliasUnlocked_idle

theorem load_inner {now : Time} : Inner (load P now) := by
  have confined : Inner (Delivery.build P deliverySource) := by
    refine only_and build_confined build_idle ?_
    rintro a (⟨q, rfl, -⟩ | ⟨b, rfl⟩) quiet <;> exact ⟨rfl, rfl, quiet⟩
  refine .bind confined fun built => ?_
  split
  · exact .pure _
  refine .bind (.bind (.perform ⟨rfl, rfl, rfl⟩) fun _ => .pure _) fun sessions => ?_
  split
  · exact .pure _
  refine .bind (.bind (.perform ⟨rfl, rfl, rfl⟩) fun _ => .pure _) fun tokens => ?_
  split <;> exact .pure _

theorem rebuild_inner {now : Time} : Inner (rebuild P now) := by
  refine .bind beginRebuild_inner fun _ => .bind load_inner fun loaded => ?_
  split
  · exact endRebuild_inner
  · exact .bind (.perform ⟨rfl, rfl, rfl⟩) fun _ => .bind (.perform ⟨rfl, rfl, rfl⟩) fun _ =>
      .bind (.perform ⟨rfl, rfl, rfl⟩) fun _ => endRebuild_inner

end Idling

end ImageSilo.Accounts
