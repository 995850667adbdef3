import ImageSilo.Accounts.Docket

/-! Each program of the account services is walked once, from the docket of an idle call to one that owes
nothing. -/
namespace ImageSilo.Accounts

open Go Concurrent Publication

variable {P : Platform} {α : Type} {d : Docket}

section Changes

/-- A change: the shared side of the rebuild lock, a statement, and the step that follows it. -/
theorem change_abides {q : Statement} {f : Except DatabaseError q.Value → Call α}
    {Q : α → Docket → Prop} (idle : d.Idle) (allowed : Docket.allows P { d with hold := .shared } q)
    (next : ∀ r, Abides P (f r) (Docket.recordStatement { d with hold := .shared } q r) Q) :
    Abides P (do beginChange; let r ← statement q; f r) d Q :=
  .seq (sync_abides idle trivial (.seq (statement_abides ⟨idle.session, idle.token⟩ allowed next)))

theorem endChange_abides {p : Call α} {Q : α → Docket → Prop} (idle : d.Idle)
    (rest : Abides P p { d with hold := .free } Q) : Abides P (do endChange; p) d Q :=
  .seq (sync_abides idle trivial rest)

/-- The step after a change, and the end of the change. -/
theorem sessionChange_abides {p : Call α} {s : Auth.SessionStep} {Q : α → Docket → Prop}
    (owed : d.session = some s) (quiet : d.token = none)
    (rest : Abides P p { d with session := none, hold := .free } Q) :
    Abides P (do sessionStep s; endChange; p) d Q :=
  .seq (sessionStep_abides owed (endChange_abides ⟨rfl, quiet⟩ rest))

/-- An operation between the two sides of the credentials mutex. -/
theorem credentials_abides {p : Call α} {Q : α → Docket → Prop} (idle : d.Idle)
    (free : d.credentials = false)
    (inside : Abides P p { d with credentials := true, admin := none } fun v d' =>
      d'.Idle ∧ d'.credentials = true ∧ Q v { d' with credentials := false, admin := none }) :
    Abides P (do sync .lockCredentials; let r ← p; sync .unlockCredentials; pure r) d Q := by
  refine .seq (sync_abides idle free (.bind inside ?_))
  rintro r d' ⟨idle', held, q⟩
  exact .seq (sync_abides idle' held (.done q))

end Changes

section Sessions

/-- What an operation under the credentials mutex leaves its docket with. -/
abbrev Inside {β : Type} (_ : β) (d : Docket) : Prop := d.Idle ∧ d.credentials = true

theorem newRandomToken_abides {text : GoString}
    {Q : Except Error (GoString × Digest) → Docket → Prop} (idle : d.Idle)
    (failed : ∀ e, Q (.error e) d)
    (drawn : ∀ token, Q (.ok (token, P.sha256 token)) { d with drawn := token :: d.drawn }) :
    Abides P (newRandomToken P text) d Q := by
  refine .seq (request_abides idle fun r => ?_)
  cases r with
  | error e => exact failed e
  | ok token => exact drawn token

theorem createSessionFor_abides {admin : Auth.Admin} {email password : GoString} {now : Time}
    (idle : d.Idle) (held : d.credentials = true) (read : d.admin = some admin)
    (asked : d.request = .login email password now)
    (verified : P.verifyPassword password admin.passwordHash = some true) :
    Abides P (createSessionFor P admin now) d Inside := by
  refine .seq (newRandomToken_abides idle (fun _ => ⟨idle, held⟩) fun token => ?_)
  refine .seq (newRandomToken_abides ⟨idle.session, idle.token⟩
    (fun _ => ⟨⟨idle.session, idle.token⟩, held⟩) fun csrfToken => ?_)
  refine .seq (request_abides ⟨idle.session, idle.token⟩ fun id => ?_)
  match id with
  | .error e => exact ⟨⟨idle.session, idle.token⟩, held⟩
  | .ok sessionID =>
      refine change_abides ⟨idle.session, idle.token⟩ ⟨rfl, held, admin, email, password, now, token,
        read, rfl, asked, verified, ?_, rfl⟩ fun created => ?_
      · exact List.mem_cons_of_mem _ List.mem_cons_self
      match created with
      | .error e =>
          exact endChange_abides ⟨idle.session, idle.token⟩
            (.done ⟨⟨idle.session, idle.token⟩, held⟩)
      | .ok _ =>
          refine sessionChange_abides ?_ idle.token (.done ⟨⟨rfl, idle.token⟩, held⟩)
          exact congrArg (Option.map _) read

theorem loginLocked_abides {email password : GoString} {now : Time} (idle : d.Idle)
    (held : d.credentials = true) (asked : d.request = .login email password now) :
    Abides P (loginLocked P email password now) d Inside := by
  refine .seq (statement_abides idle held fun found => ?_)
  match found with
  | .error .noRows =>
      dsimp only
      split
      · exact ⟨idle, held⟩
      · exact ⟨idle, held⟩
  | .error .unique => exact ⟨idle, held⟩
  | .error .failed => exact ⟨idle, held⟩
  | .ok admin =>
      dsimp only
      split
      · exact ⟨⟨idle.session, idle.token⟩, held⟩
      · exact ⟨⟨idle.session, idle.token⟩, held⟩
      · rename_i verified
        exact createSessionFor_abides ⟨idle.session, idle.token⟩ held rfl asked
          (verifyPassword_true P verified)

theorem updateProfileLocked_abides {identity : Auth.SessionIdentity} {displayName email : GoString}
    {now : Time} (idle : d.Idle) (held : d.credentials = true) :
    Abides P (updateProfileLocked identity displayName email now) d Inside := by
  refine change_abides idle ⟨rfl, held⟩ fun updated => ?_
  match updated with
  | .error .unique =>
      exact endChange_abides ⟨idle.session, idle.token⟩
        (.done ⟨⟨idle.session, idle.token⟩, held⟩)
  | .error .noRows =>
      exact endChange_abides ⟨idle.session, idle.token⟩
        (.done ⟨⟨idle.session, idle.token⟩, held⟩)
  | .error .failed =>
      exact endChange_abides ⟨idle.session, idle.token⟩
        (.done ⟨⟨idle.session, idle.token⟩, held⟩)
  | .ok false =>
      exact endChange_abides ⟨idle.session, idle.token⟩
        (.done ⟨⟨idle.session, idle.token⟩, held⟩)
  | .ok true => exact sessionChange_abides rfl idle.token (.done ⟨⟨rfl, idle.token⟩, held⟩)

theorem logout_abides {token : GoString} (idle : d.Idle) :
    Abides P (logout P token) d fun _ d' => d'.Idle := by
  unfold logout
  split
  · exact .done idle
  refine change_abides idle rfl fun deleted => ?_
  match deleted with
  | .error e => exact endChange_abides ⟨idle.session, idle.token⟩ (.done ⟨idle.session, idle.token⟩)
  | .ok _ => exact sessionChange_abides rfl idle.token (.done ⟨rfl, idle.token⟩)

theorem cleanupSessions_abides {now : Time} (idle : d.Idle) (timed : timeOf d.request = some now) :
    Abides P (cleanupSessions now) d fun _ d' => d'.Idle := by
  refine change_abides idle ⟨rfl, timed⟩ fun deleted => ?_
  match deleted with
  | .error e => exact endChange_abides ⟨idle.session, idle.token⟩ (.done ⟨idle.session, idle.token⟩)
  | .ok _ => exact sessionChange_abides rfl idle.token (.done ⟨rfl, idle.token⟩)

/-- What a change of the password tells. -/
def Changed (r : Except Error Unit) (d : Docket) : Prop := r = .ok () → d.changed = true

theorem changePasswordLocked_abides {identity : Auth.SessionIdentity}
    {sessionToken currentPassword newPassword : GoString} {now : Time} (idle : d.Idle)
    (held : d.credentials = true)
    (asked : d.request = .changePassword identity sessionToken currentPassword newPassword now) :
    Abides P (changePasswordLocked P identity.adminID sessionToken currentPassword newPassword now) d
      fun r d' => d'.Idle ∧ d'.credentials = true ∧
        Changed r { d' with credentials := false, admin := none } := by
  refine .seq (statement_abides idle held fun found => ?_)
  match found with
  | .error e => exact ⟨idle, held, by simp [Changed]⟩
  | .ok admin =>
      dsimp only
      split
      · exact ⟨⟨idle.session, idle.token⟩, held, by simp [Changed]⟩
      · exact ⟨⟨idle.session, idle.token⟩, held, by simp [Changed]⟩
      unfold hashPassword
      split
      · exact .seq (.done ⟨⟨idle.session, idle.token⟩, held, by simp [Changed]⟩)
      split
      · exact .seq (.done ⟨⟨idle.session, idle.token⟩, held, by simp [Changed]⟩)
      refine .seq (request_abides ⟨idle.session, idle.token⟩ fun hashed => ?_)
      match hashed with
      | .error e => exact ⟨⟨idle.session, idle.token⟩, held, by simp [Changed]⟩
      | .ok newHash =>
          refine change_abides ⟨idle.session, idle.token⟩
            ⟨rfl, held, identity, sessionToken, currentPassword, newPassword, asked, rfl, rfl⟩
            fun changed => ?_
          match changed with
          | .error e =>
              exact endChange_abides ⟨idle.session, idle.token⟩
                (.done ⟨⟨idle.session, idle.token⟩, held, by simp [Changed]⟩)
          | .ok _ =>
              exact sessionChange_abides rfl idle.token
                (.done ⟨⟨rfl, idle.token⟩, held, fun _ => rfl⟩)

end Sessions

section Loading

theorem beginRebuild_abides {p : Call α} {Q : α → Docket → Prop} (idle : d.Idle)
    (inside : Abides P p { d with hold := .exclusive } Q) : Abides P (do beginRebuild; p) d Q :=
  .seq (.seq (sync_abides idle trivial (sync_abides ⟨idle.session, idle.token⟩ trivial inside)))

theorem endRebuild_abides {v : α} (idle : d.Idle) :
    Abides P (do endRebuild; pure v) d fun _ d' => d'.Idle :=
  .seq (sync_abides idle trivial (.done ⟨idle.session, idle.token⟩))

theorem listActiveSessions_abides {now : Time}
    {Q : Except DatabaseError Auth.SessionIndex → Docket → Prop} (idle : d.Idle)
    (rebuilding : d.hold = .exclusive) (timed : timeOf d.request = some now)
    (failed : ∀ e, Q (.error e) d) (loaded : ∀ m, Q (.ok m) { d with sessions := some m }) :
    Abides P (listActiveSessions now) d Q := by
  refine .seq (statement_abides idle ⟨rebuilding, timed⟩ fun rows => ?_)
  match rows with
  | .error e => exact failed e
  | .ok rows => exact loaded (mapOf rows)

theorem listActiveTokens_abides {now : Time}
    {Q : Except DatabaseError ApiToken.Index → Docket → Prop} (idle : d.Idle)
    (rebuilding : d.hold = .exclusive) (timed : timeOf d.request = some now)
    (failed : ∀ e, Q (.error e) d) (loaded : ∀ m, Q (.ok m) { d with tokens := some m }) :
    Abides P (listActiveTokens now) d Q := by
  refine .seq (statement_abides idle ⟨rebuilding, timed⟩ fun rows => ?_)
  match rows with
  | .error e => exact failed e
  | .ok rows => exact loaded (mapOf rows)

/-- The loaded sessions take the place of the index. -/
theorem replaceSessions_abides {m : Auth.SessionIndex} {Q : Unit → Docket → Prop} (idle : d.Idle)
    (rebuilding : d.hold = .exclusive) (loaded : d.sessions = some m) (next : Q () d) :
    Abides P (sessionStep (.replace m)) d Q := by
  refine request_abides (.inr ⟨idle, rebuilding, m, loaded, rfl⟩) fun _ => ?_
  rwa [show d.record (.sessionStep (.replace m)) () = d from ?_]
  obtain ⟨_, _, _, _, _, _, session, _, _, _, _, _, _⟩ := d
  obtain rfl : session = none := idle.session
  rfl

theorem replaceTokens_abides {m : ApiToken.Index} {Q : Unit → Docket → Prop} (idle : d.Idle)
    (rebuilding : d.hold = .exclusive) (loaded : d.tokens = some m) (next : Q () d) :
    Abides P (tokenStep (.replace m)) d Q := by
  refine request_abides (.inr ⟨idle, .inl ⟨rebuilding, m, loaded, rfl⟩⟩) fun _ => ?_
  rwa [show d.record (.tokenStep (.replace m)) () = d from ?_]
  obtain ⟨_, _, _, _, _, _, _, token, _, _, _, _, _⟩ := d
  obtain rfl : token = none := idle.token
  rfl

theorem loadSessions_abides {now : Time} (idle : d.Idle) (timed : timeOf d.request = some now) :
    Abides P (loadSessions now) d fun _ d' => d'.Idle := by
  have idle' : Docket.Idle { d with hold := .exclusive } := ⟨idle.session, idle.token⟩
  refine beginRebuild_abides idle (.seq (listActiveSessions_abides idle' rfl timed ?_ ?_))
  · exact fun _ => endRebuild_abides idle'
  · intro m
    have idle' : Docket.Idle { d with hold := .exclusive, sessions := some m } :=
      ⟨idle.session, idle.token⟩
    exact .seq (replaceSessions_abides idle' rfl rfl (endRebuild_abides idle'))

theorem loadTokens_abides {now : Time} (idle : d.Idle) (timed : timeOf d.request = some now) :
    Abides P (loadTokens now) d fun _ d' => d'.Idle := by
  have idle' : Docket.Idle { d with hold := .exclusive } := ⟨idle.session, idle.token⟩
  refine beginRebuild_abides idle (.seq (listActiveTokens_abides idle' rfl timed ?_ ?_))
  · exact fun _ => endRebuild_abides idle'
  · intro m
    have idle' : Docket.Idle { d with hold := .exclusive, tokens := some m } :=
      ⟨idle.session, idle.token⟩
    exact .seq (replaceTokens_abides idle' rfl rfl (endRebuild_abides idle'))

/-- What a rebuild has read when it goes on to replace the indexes. -/
def Ready (r : Except Delivery.LoadError Loaded) (d : Docket) : Prop :=
  d.Idle ∧ d.hold = .exclusive ∧
    ∀ loaded, r = .ok loaded → d.sessions = some loaded.sessions ∧ d.tokens = some loaded.tokens

theorem load_abides {now : Time} (idle : d.Idle) (rebuilding : d.hold = .exclusive)
    (timed : timeOf d.request = some now) : Abides P (load P now) d Ready := by
  refine .bind (build_confined.abides idle) ?_
  rintro built d' rfl
  match built with
  | .error e => exact .done ⟨idle, rebuilding, by simp⟩
  | .ok delivery =>
      refine .seq (listActiveSessions_abides idle rebuilding timed ?_ ?_)
      · exact fun _ => .done ⟨idle, rebuilding, by simp⟩
      intro sessions
      have idle' : Docket.Idle { d' with sessions := some sessions } := ⟨idle.session, idle.token⟩
      refine .seq (listActiveTokens_abides idle' rebuilding timed ?_ ?_)
      · exact fun _ => .done ⟨idle', rebuilding, by simp⟩
      intro tokens
      refine .done ⟨⟨idle.session, idle.token⟩, rebuilding, ?_⟩
      rintro loaded ⟨⟩
      exact ⟨rfl, rfl⟩

theorem rebuild_abides {now : Time} (idle : d.Idle) (timed : timeOf d.request = some now) :
    Abides P (rebuild P now) d fun _ d' => d'.Idle := by
  refine beginRebuild_abides idle (.bind (Q := Ready) ?_ ?_)
  · exact load_abides ⟨idle.session, idle.token⟩ rfl timed
  · rintro r d' ⟨idle', rebuilding, loaded⟩
    match r with
    | .error e => exact endRebuild_abides idle'
    | .ok loading =>
        obtain ⟨sessions, tokens⟩ := loaded loading rfl
        refine .seq (request_abides idle' fun _ => ?_)
        refine .seq (replaceSessions_abides idle' rebuilding sessions ?_)
        exact .seq (replaceTokens_abides idle' rebuilding tokens (endRebuild_abides idle'))

end Loading

section Tokens

/-- A token mutation: the mutex, the shared side of the rebuild lock and a statement. -/
theorem mutation_abides {q : Statement} {f : Except DatabaseError q.Value → Call α}
    {Q : α → Docket → Prop} (idle : d.Idle) (free : d.mutations = false)
    (allowed : Docket.allows P { d with mutations := true, hold := .shared } q)
    (next : ∀ r, Abides P (f r)
      (Docket.recordStatement { d with mutations := true, hold := .shared } q r) Q) :
    Abides P (do sync .lockMutations; beginChange; let r ← statement q; f r) d Q :=
  .seq (sync_abides idle free (change_abides ⟨idle.session, idle.token⟩ allowed next))

theorem endMutation_abides {v : α} {Q : α → Docket → Prop} (idle : d.Idle)
    (held : d.mutations = true) (q : Q v { d with hold := .free, mutations := false }) :
    Abides P (do endChange; sync .unlockMutations; pure v) d Q :=
  endChange_abides idle (.seq (sync_abides ⟨idle.session, idle.token⟩ held (.done q)))

theorem createToken_abides {name : GoString} {scopes : List (Option ApiToken.Scope)}
    {expiresAt : Option Time} {now : Time} (idle : d.Idle) (free : d.mutations = false) :
    Abides P (createToken P name scopes expiresAt now) d fun _ d' => d'.Idle := by
  unfold createToken
  dsimp only
  split
  · exact .done idle
  split
  · exact .done idle
  split
  · exact .done idle
  refine .seq (newRandomToken_abides idle (fun _ => idle) fun plaintext => ?_)
  refine .seq (request_abides ⟨idle.session, idle.token⟩ fun id => ?_)
  match id with
  | .error e => exact ⟨idle.session, idle.token⟩
  | .ok id =>
      refine mutation_abides ⟨idle.session, idle.token⟩ free ⟨rfl, rfl, rfl⟩ fun created => ?_
      match created with
      | .error e =>
          exact endMutation_abides ⟨idle.session, idle.token⟩ rfl ⟨idle.session, idle.token⟩
      | .ok _ =>
          exact .seq (tokenStep_abides rfl
            (endMutation_abides ⟨idle.session, rfl⟩ rfl ⟨idle.session, rfl⟩))

/-- What a revocation tells: the token is gone, or it was gone before. -/
def Revoked (id : GoString) (r : Except Error Unit) (d : Docket) : Prop :=
  (r = .ok () → d.gone = some id) ∧ (r = .error .tokenNotFound → d.missed = some id)

theorem recordToken_remove {id : GoString} {hash : Digest} (asked : d.request = .revokeToken id) :
    d.recordToken (.remove hash) = { d with token := none, gone := some id } := by
  unfold Docket.recordToken
  rw [asked]

theorem revokeToken_abides {id : GoString} (idle : d.Idle) (free : d.mutations = false)
    (asked : d.request = .revokeToken id) :
    Abides P (revokeToken id) d fun r d' => d'.Idle ∧ Revoked id r d' := by
  refine mutation_abides idle free ⟨rfl, rfl, asked⟩ fun revoked => ?_
  match revoked with
  | .error e =>
      have idle' : Docket.Idle (Docket.recordStatement { d with mutations := true, hold := .shared }
          (.revokeToken id) (.error e)) := by
        cases e <;> exact ⟨idle.session, idle.token⟩
      refine endMutation_abides idle' (by cases e <;> rfl) ⟨⟨idle'.session, idle'.token⟩, ?_⟩
      cases e with
      | noRows => exact ⟨by simp, fun _ => rfl⟩
      | _ => simp [Revoked]
  | .ok hash =>
      have same : (Docket.recordStatement { d with mutations := true, hold := .shared }
        (.revokeToken id) (.ok hash)).request = .revokeToken id := asked
      refine .seq (tokenStep_abides rfl ?_)
      rw [recordToken_remove same]
      exact endMutation_abides ⟨idle.session, rfl⟩ rfl ⟨⟨idle.session, rfl⟩, fun _ => rfl, by simp⟩

theorem cleanupTokens_abides {now : Time} (idle : d.Idle) (timed : timeOf d.request = some now) :
    Abides P (cleanupTokens now) d fun _ d' => d'.Idle := by
  refine .seq (sync_abides idle trivial (.seq ?_))
  refine request_abides (.inr ⟨⟨idle.session, idle.token⟩, .inr ⟨rfl, now, timed, rfl⟩⟩) fun _ => ?_
  exact sync_abides ⟨idle.session, rfl⟩ trivial ⟨idle.session, rfl⟩

end Tokens

/-- What the result of a call says about its docket. -/
def Docket.tells (d : Docket) : Request → Result → Prop
  | .changePassword _ _ _ _ _, .passwordChanged r => Changed r d
  | .revokeToken id, .tokenRevoked r => Revoked id r d
  | _, _ => True

theorem Docket.begin_idle (request : Request) : (Docket.begin request).Idle := ⟨rfl, rfl⟩

theorem returning_abides {p : Call α} {f : α → Result} {Q : Result → Docket → Prop}
    (h : Abides P p d fun v d' => Q (f v) d') : Abides P (returning p f) d Q :=
  .seq (h.mono fun _ _ q => .done q)

/-- Every request keeps to its docket and ends owing nothing. -/
theorem docket_obeys (request : Request) :
    Abides P (request.program P) (Docket.begin request) fun r d => d.Idle ∧ d.tells request r := by
  have idle := Docket.begin_idle request
  have aside {β : Type} {p : Call β} {f : β → Result} (h : Bystander p)
      (told : ∀ v d, Docket.tells d request (f v)) : Abides P (returning p f) (Docket.begin request)
      fun r d => d.Idle ∧ d.tells request r :=
    returning_abides ((h.abides idle).mono fun v d' idle' => ⟨idle', told v d'⟩)
  cases request with
  | upload => exact aside upload_aside fun _ _ => trivial
  | importImage => exact aside importImage_aside fun _ _ => trivial
  | createAlias => exact aside createAlias_aside fun _ _ => trivial
  | deleteAlias => exact aside deleteAlias_aside fun _ _ => trivial
  | deleteImage => exact aside deleteImage_aside fun _ _ => trivial
  | changeVisibility => exact aside changeVisibility_aside fun _ _ => trivial
  | convertToWebP => exact aside convertToWebP_aside fun _ _ => trivial
  | inspect => exact aside inspect_aside fun _ _ => trivial
  | daily => exact aside daily_aside fun _ _ => trivial
  | serve => exact aside serve_aside fun _ _ => trivial
  | authenticateSession => exact aside authenticateSession_aside fun _ _ => trivial
  | authenticateToken => exact aside authenticateToken_aside fun _ _ => trivial
  | rebuild => exact returning_abides ((rebuild_abides idle rfl).mono fun _ _ h => ⟨h, trivial⟩)
  | login =>
      refine returning_abides ((credentials_abides idle rfl ?_).mono fun _ _ h => ⟨h, trivial⟩)
      refine (loginLocked_abides ⟨rfl, rfl⟩ rfl rfl).mono ?_
      rintro _ d' ⟨idle', held⟩
      exact ⟨idle', held, idle'.session, idle'.token⟩
  | logout => exact returning_abides ((logout_abides idle).mono fun _ _ h => ⟨h, trivial⟩)
  | updateProfile identity displayName email now =>
      refine returning_abides (.mono (Q := fun _ d => d.Idle) ?_ fun _ _ h => ⟨h, trivial⟩)
      unfold updateProfile
      split
      · exact .done idle
      split
      · exact .done idle
      refine credentials_abides idle rfl ((updateProfileLocked_abides ⟨rfl, rfl⟩ rfl).mono ?_)
      rintro _ d' ⟨idle', held⟩
      exact ⟨idle', held, idle'.session, idle'.token⟩
  | changePassword =>
      refine returning_abides (credentials_abides idle rfl ?_)
      refine (changePasswordLocked_abides ⟨rfl, rfl⟩ rfl rfl).mono ?_
      rintro _ d' ⟨idle', held, changed⟩
      exact ⟨idle', held, ⟨idle'.session, idle'.token⟩, changed⟩
  | cleanupSessions =>
      exact returning_abides ((cleanupSessions_abides idle rfl).mono fun _ _ h => ⟨h, trivial⟩)
  | loadSessions =>
      exact returning_abides ((loadSessions_abides idle rfl).mono fun _ _ h => ⟨h, trivial⟩)
  | createToken =>
      exact returning_abides ((createToken_abides idle rfl).mono fun _ _ h => ⟨h, trivial⟩)
  | revokeToken => exact returning_abides (revokeToken_abides idle rfl rfl)
  | cleanupTokens =>
      exact returning_abides ((cleanupTokens_abides idle rfl).mono fun _ _ h => ⟨h, trivial⟩)
  | loadTokens =>
      exact returning_abides ((loadTokens_abides idle rfl).mono fun _ _ h => ⟨h, trivial⟩)

variable (P) in
/-- The dockets of all calls. -/
abbrev dockets (requests : Nat → Request) : Watch (machine P) Result where
  discipline := docketDiscipline P
  begin i := Docket.begin (requests i)
  Final i r d := d.Idle ∧ d.tells (requests i) r

end ImageSilo.Accounts
