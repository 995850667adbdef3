import ImageSilo.System.Requests

/-! The services of images, aliases and migrations touch neither the accounts nor their indexes and
mutexes. -/
namespace ImageSilo.Accounts

open Go Concurrent Storage

/-- The statements of the packages `auth` and `apitoken`. -/
def ofAccounts : Statement → Bool
  | .findAdminByEmail _ | .findAdminByID _ | .updateProfile _ _ _ _ | .createSession _
  | .deleteSessionByHash _ | .deleteExpiredSessions _ | .changePassword _ _ _ _
  | .listActiveSessions _ | .createToken _ _ | .revokeToken _ | .listActiveTokens _ => true
  | _ => false

def concerned : Action → Bool
  | .statement q => ofAccounts q
  | .sessionStep _ | .tokenStep _ => true
  | .sync .lockCredentials | .sync .unlockCredentials => true
  | .sync .lockMutations | .sync .unlockMutations => true
  | _ => false

/-- The program does nothing with the accounts. -/
abbrev Bystander {α : Type} (p : Call α) : Prop := p.Only fun a => concerned a = false

/-- The program works on rows and files alone, other than those of the accounts. -/
abbrev Confined {α : Type} (p : Call α) : Prop :=
  p.Only fun a => (∃ q, a = .statement q ∧ ofAccounts q = false) ∨ ∃ b, a = .file b

variable {P : Platform} {α : Type}

theorem request_aside {a : Action} (aside : concerned a = false) : Bystander (request a) :=
  .perform aside

section Files

theorem removeTemporary_aside {path : GoString} : Bystander (removeTemporary path) :=
  .bind (request_aside rfl) fun _ => .pure _

theorem discard_aside {path : GoString} {e : Error} :
    Bystander (discard path e : Call (Except Error α)) :=
  .bind removeTemporary_aside fun _ => .pure _

theorem removeUnless_aside {path source : GoString} : Bystander (removeUnless path source) := by
  unfold removeUnless
  split
  · exact removeTemporary_aside
  · exact .pure _

theorem removeOptional_aside {path : Option GoString} : Bystander (removeOptional path) := by
  cases path with
  | none => exact .pure _
  | some path => exact removeTemporary_aside

theorem inspectFile_aside {ref : FileRef} {limits : Processor.Limits} :
    Bystander (inspectFile ref limits) :=
  .bind (request_aside rfl) fun _ => .pure _

theorem commitTemporary_aside {path key : GoString} : Bystander (commitTemporary path key) := by
  unfold commitTemporary
  split
  · exact .pure _
  · refine .bind (request_aside rfl) fun present => ?_
    split
    · exact .pure _
    · exact .pure _
    · exact request_aside rfl

theorem commitThumbnailTemporary_aside {path id : GoString} :
    Bystander (commitThumbnailTemporary path id) := by
  unfold commitThumbnailTemporary
  split
  · exact .pure _
  · exact request_aside rfl

theorem commitThumbnail_aside {path : Option GoString} {id : GoString} :
    Bystander (commitThumbnail path id) := by
  cases path with
  | none => exact .pure _
  | some path =>
      refine .bind commitThumbnailTemporary_aside fun committed => ?_
      split <;> exact .pure _

theorem removeKey_aside {folder : Folder} {key : GoString} : Bystander (removeKey folder key) := by
  unfold removeKey
  split
  · exact .pure _
  · exact request_aside rfl

theorem openImage_aside {key : GoString} : Bystander (openImage key) := by
  unfold openImage
  split
  · exact .pure _
  · exact request_aside rfl

theorem releaseLease_aside : Bystander releaseLease :=
  .bind (request_aside rfl) fun _ => .pure _

theorem rollback_aside {key id : GoString} {committed : Bool} {e : Error} :
    Bystander (rollback key id committed e : Call (Except Error α)) := by
  refine .bind removeKey_aside fun _ => ?_
  split
  · exact .bind removeKey_aside fun _ => .pure _
  · exact .pure _

/-- A repository method that only maps the error of its statement. -/
theorem mapped_aside {q : Statement} {f : Except DatabaseError q.Value → α}
    (aside : ofAccounts q = false) : Bystander (statement q >>= fun r => (pure (f r) : Call α)) :=
  .bind (request_aside aside) fun _ => .pure _

end Files

section Staging

theorem stageReader_aside {defaultMaxBytes maxBytes : Int} {reader : Reader} :
    Bystander (stageReader P defaultMaxBytes reader maxBytes) := by
  refine .bind (request_aside rfl) fun made => ?_
  split
  · exact .pure _
  refine .bind (request_aside rfl) fun copied => .bind (request_aside rfl) fun closed => ?_
  repeat' split
  all_goals first | exact discard_aside | exact .pure _

theorem prepareThumbnail_aside {input : GoString} : Bystander (prepareThumbnail input) := by
  refine .bind (request_aside rfl) fun made => ?_
  split
  · exact .pure _
  refine .bind (request_aside rfl) fun closed => ?_
  split
  · exact discard_aside
  refine .bind (request_aside rfl) fun thumbnail => ?_
  split
  · exact .pure _
  refine .bind removeTemporary_aside fun _ => ?_
  split <;> exact .pure _

theorem transformImage_aside {path : GoString} {size : Int} {options : UploadOptions}
    {metadata : Processor.Metadata} : Bystander (transformImage path size options metadata) := by
  unfold transformImage
  dsimp only
  split
  · exact .pure _
  refine .bind (request_aside rfl) fun made => ?_
  split
  · exact .pure _
  refine .bind (request_aside rfl) fun closed => ?_
  split
  · exact discard_aside
  refine .bind (request_aside rfl) fun transformed => ?_
  split
  · exact discard_aside
  refine .bind (request_aside rfl) fun size => ?_
  split
  · exact discard_aside
  split
  · exact .bind removeTemporary_aside fun _ => .pure _
  refine .bind inspectFile_aside fun inspected => ?_
  repeat' split
  all_goals first | exact discard_aside | exact .pure _

theorem prepareImage_aside {path : GoString} {size : Int} {options : UploadOptions} :
    Bystander (prepareImage path size options) := by
  refine .bind inspectFile_aside fun inspected => ?_
  split
  · exact .pure _
  refine .bind transformImage_aside fun transformed => ?_
  split
  · exact .pure _
  refine .bind prepareThumbnail_aside fun thumbnail => ?_
  split
  · exact .bind removeUnless_aside fun _ => .pure _
  · exact .pure _

theorem prepareImport_aside {path : GoString} {limits : Processor.Limits} :
    Bystander (prepareImport path limits) := by
  refine .bind inspectFile_aside fun inspected => ?_
  split
  · exact .pure _
  refine .bind prepareThumbnail_aside fun thumbnail => ?_
  split <;> exact .pure _

end Staging

section Barrier

theorem beginAliasChange_aside {path : GoString} : Bystander (beginAliasChange path) :=
  .bind (request_aside rfl) fun _ => request_aside rfl

theorem endAliasChange_aside {path : GoString} : Bystander (endAliasChange path) :=
  .bind (request_aside rfl) fun _ => request_aside rfl

/-- An operation between the two sides of the lock of an image. -/
theorem imageLock_aside {p : Call α} {id : GoString} (inside : Bystander p) :
    Bystander (do lockImage id; let r ← p; unlockImage id; pure r) :=
  .bind (request_aside rfl) fun _ => .bind inside fun _ => .bind (request_aside rfl) fun _ => .pure _

end Barrier

section Images

theorem publishImage_aside {value : Image} {committed : Bool} :
    Bystander (publishImage value committed) := by
  refine .bind (request_aside rfl) fun _ => .bind (request_aside rfl) fun _ => ?_
  refine .bind (mapped_aside rfl) fun created => ?_
  split
  · exact .bind (request_aside rfl) fun _ => .bind (request_aside rfl) fun _ => rollback_aside
  · exact .bind (request_aside rfl) fun _ => .bind (request_aside rfl) fun _ =>
      .bind (request_aside rfl) fun _ => .pure _

theorem commitPrepared_aside {staged : Staged} {name : GoString} {options : UploadOptions} {now : Time}
    {prepared : Prepared} : Bystander (commitPrepared staged name options now prepared) := by
  refine .bind ?_ fun stored => ?_
  · unfold storedDigest
    split
    · exact request_aside rfl
    · exact .pure _
  split
  · exact .pure _
  refine .bind (request_aside rfl) fun id => ?_
  split
  · exact .pure _
  refine .bind commitTemporary_aside fun committed => ?_
  split
  · exact .pure _
  refine .bind commitThumbnail_aside fun thumbnail => ?_
  split
  · exact rollback_aside
  · exact publishImage_aside

theorem commitStagedUpload_aside {staged : Staged} {name : GoString} {options : UploadOptions}
    {now : Time} : Bystander (commitStagedUpload staged name options now) := by
  unfold commitStagedUpload
  split
  · exact .pure _
  split
  · exact .pure _
  refine .bind (request_aside rfl) fun active => ?_
  split
  · exact .pure _
  refine .bind prepareImage_aside fun prepared => .bind releaseLease_aside fun _ => ?_
  split
  · exact .pure _
  · exact .bind commitPrepared_aside fun _ => .bind removeOptional_aside fun _ =>
      .bind removeUnless_aside fun _ => .pure _

theorem upload_aside {reader : Reader} {name : GoString} {options : UploadOptions} {now : Time} :
    Bystander (upload P reader name options now) := by
  unfold upload
  split
  · exact .pure _
  refine .bind (request_aside rfl) fun acquired => ?_
  split
  · exact .pure _
  refine .bind stageReader_aside fun staged => ?_
  split
  · exact .bind releaseLease_aside fun _ => .pure _
  · exact .bind commitStagedUpload_aside fun _ => .bind removeTemporary_aside fun _ =>
      .bind releaseLease_aside fun _ => .pure _

theorem deleteImage_aside {id : GoString} : Bystander (deleteImage P id) := by
  unfold deleteImage
  split
  · exact .pure _
  refine imageLock_aside (.bind (request_aside rfl) fun _ => .bind (mapped_aside rfl) fun deleted => ?_)
  split
  · exact .bind (request_aside rfl) fun _ => .pure _
  · exact .bind (request_aside rfl) fun _ => .bind (request_aside rfl) fun _ =>
      .bind removeKey_aside fun _ => .bind removeKey_aside fun _ => .pure _

theorem changeVisibility_aside {id : GoString} {visibility : Visibility} :
    Bystander (changeVisibility id visibility) := by
  unfold changeVisibility
  split
  · exact .pure _
  refine imageLock_aside (.bind (request_aside rfl) fun _ => .bind (mapped_aside rfl) fun updated => ?_)
  split
  · exact .bind (request_aside rfl) fun _ => .pure _
  · exact .bind (request_aside rfl) fun _ => .pure _
  · exact .bind (request_aside rfl) fun _ => .bind (request_aside rfl) fun _ => .pure _

end Images

section Conversions

theorem finishConversion_aside {value : Image} {old : GoString} {thumbnail : Option GoString} :
    Bystander (finishConversion value old thumbnail) := by
  unfold finishConversion
  split
  · exact .bind commitThumbnailTemporary_aside fun _ => .bind removeKey_aside fun _ => .pure _
  · exact .bind removeKey_aside fun _ => .bind removeKey_aside fun _ => .pure _

theorem replaceContent_aside {value : Image} {old : GoString} {thumbnail : Option GoString} :
    Bystander (replaceContent value old thumbnail) := by
  refine .bind (request_aside rfl) fun _ => .bind (mapped_aside rfl) fun updated => ?_
  split
  · exact .bind (request_aside rfl) fun _ => .bind removeKey_aside fun _ => .pure _
  · exact .bind (request_aside rfl) fun _ => .bind removeKey_aside fun _ => .pure _
  · exact .bind (request_aside rfl) fun _ => .bind (request_aside rfl) fun _ =>
      finishConversion_aside

theorem publishConversion_aside {value : Image} {source metadata : Processor.Metadata}
    {stored : Int × Digest} {output : GoString} {thumbnail : Option GoString} :
    Bystander (publishConversion value source metadata stored output thumbnail) := by
  refine .bind (request_aside rfl) fun id => ?_
  split
  · exact .pure _
  refine .bind commitTemporary_aside fun committed => ?_
  split
  · exact .pure _
  · exact .bind (request_aside rfl) fun _ => replaceContent_aside

theorem withThumbnail_aside {thumbnail : Option GoString}
    {publish : Option GoString → Call (Except Error ConversionResult × Option GoString)}
    (inside : Bystander (publish thumbnail)) : Bystander (withThumbnail publish thumbnail) :=
  .bind inside fun _ => .bind removeOptional_aside fun _ => .pure _

theorem convertThumbnail_aside {value : Image} {source metadata : Processor.Metadata}
    {stored : Int × Digest} {output : GoString} :
    Bystander (convertThumbnail value source metadata stored output) := by
  refine .bind (request_aside rfl) fun made => ?_
  split
  · exact .pure _
  refine .bind (request_aside rfl) fun closed => ?_
  split
  · exact discard_aside
  refine .bind (request_aside rfl) fun thumbnail => ?_
  split
  · exact withThumbnail_aside publishConversion_aside
  split
  · exact withThumbnail_aside publishConversion_aside
  · exact discard_aside

theorem convertOutput_aside {value : Image} {source : Processor.Metadata}
    {options : Processor.Options} {output : GoString} :
    Bystander (convertOutput value source options output) := by
  refine .bind (request_aside rfl) fun transformed => ?_
  split
  · exact .pure _
  refine .bind inspectFile_aside fun inspected => ?_
  split
  · exact .pure _
  split
  · exact .pure _
  refine .bind (request_aside rfl) fun hashed => ?_
  split
  · exact .pure _
  · exact convertThumbnail_aside

theorem convertToWebP_aside {id : GoString} {options : Processor.Options} :
    Bystander (convertToWebP P id options) := by
  unfold convertToWebP
  split
  · exact .pure _
  refine imageLock_aside (.bind (request_aside rfl) fun acquired => ?_)
  split
  · exact .pure _
  refine .bind (.bind (mapped_aside rfl) fun found => ?_) fun _ =>
    .bind (request_aside rfl) fun _ => .pure _
  split
  · exact .pure _
  split
  · exact .pure _
  split
  · exact .pure _
  refine .bind inspectFile_aside fun inspected => ?_
  split
  · exact .pure _
  refine .bind (request_aside rfl) fun made => ?_
  split
  · exact .pure _
  refine .bind (request_aside rfl) fun closed => ?_
  split
  · exact discard_aside
  · exact .bind convertOutput_aside fun _ => .bind removeTemporary_aside fun _ => .pure _

end Conversions

section Imports

theorem publishImport_aside {value : Image} {mapping : Alias} {committed : Bool} :
    Bystander (publishImport value mapping committed) := by
  refine .bind (request_aside rfl) fun _ => .bind beginAliasChange_aside fun _ => ?_
  refine .bind (mapped_aside rfl) fun created => ?_
  split
  · exact .bind endAliasChange_aside fun _ => .bind (request_aside rfl) fun _ => rollback_aside
  · exact .bind (request_aside rfl) fun _ => .bind (request_aside rfl) fun _ =>
      .bind endAliasChange_aside fun _ => .bind (request_aside rfl) fun _ => .pure _

theorem commitImport_aside {staged : Staged} {name path : GoString} {options : ImportOptions}
    {now : Time} {metadata : Processor.Metadata} {thumbnail : Option GoString} :
    Bystander (commitImport staged name path options now metadata thumbnail) := by
  refine .bind (request_aside rfl) fun imageID => ?_
  split
  · exact .pure _
  refine .bind (request_aside rfl) fun aliasID => ?_
  split
  · exact .pure _
  refine .bind commitTemporary_aside fun committed => ?_
  split
  · exact .pure _
  refine .bind commitThumbnail_aside fun thumbnail => ?_
  split
  · exact rollback_aside
  · exact publishImport_aside

theorem importStaged_aside {staged : Staged} {name path : GoString} {options : ImportOptions}
    {now : Time} : Bystander (importStaged P staged name path options now) := by
  unfold importStaged
  split
  · exact .pure _
  split
  · exact .pure _
  refine .bind (request_aside rfl) fun active => ?_
  split
  · exact .pure _
  split
  · exact .pure _
  split
  · exact .pure _
  refine .bind (mapped_aside rfl) fun present => ?_
  split
  · exact .pure _
  · exact .pure _
  refine .bind prepareImport_aside fun prepared => .bind releaseLease_aside fun _ => ?_
  split
  · exact .pure _
  · exact .bind commitImport_aside fun _ => .bind removeOptional_aside fun _ => .pure _

theorem importImage_aside {reader : Reader} {name path : GoString} {options : ImportOptions}
    {now : Time} : Bystander (importImage P reader name path options now) := by
  unfold importImage
  split
  · exact .pure _
  refine .bind (request_aside rfl) fun acquired => ?_
  split
  · exact .pure _
  refine .bind stageReader_aside fun staged => ?_
  split
  · exact .bind releaseLease_aside fun _ => .pure _
  · exact .bind importStaged_aside fun _ => .bind removeTemporary_aside fun _ =>
      .bind releaseLease_aside fun _ => .pure _

theorem createAlias_aside {path imageID source : GoString} {now : Time} :
    Bystander (createAlias P path imageID source now) := by
  unfold createAlias
  split
  · exact .pure _
  split
  · exact .pure _
  split
  · exact .pure _
  refine .bind (request_aside rfl) fun id => ?_
  split
  · exact .pure _
  refine .bind (request_aside rfl) fun _ => .bind beginAliasChange_aside fun _ => ?_
  refine .bind (.bind (request_aside rfl) fun affected => ?_) fun created => ?_
  · split <;> exact .pure _
  split
  · exact .bind endAliasChange_aside fun _ => .bind (request_aside rfl) fun _ => .pure _
  · exact .bind (request_aside rfl) fun _ => .bind endAliasChange_aside fun _ =>
      .bind (request_aside rfl) fun _ => .pure _

theorem deleteAlias_aside {id : GoString} : Bystander (deleteAlias P id) := by
  unfold deleteAlias
  split
  · exact .pure _
  refine .bind (mapped_aside rfl) fun found => ?_
  split
  · exact .pure _
  refine .bind beginAliasChange_aside fun _ => .bind (mapped_aside rfl) fun deleted => ?_
  split
  · exact .bind endAliasChange_aside fun _ => .pure _
  · exact .bind (request_aside rfl) fun _ => .bind endAliasChange_aside fun _ => .pure _

end Imports

section Maintenance

theorem scan_aside : Bystander scan := by
  refine .bind (request_aside rfl) fun records => ?_
  split
  · exact .pure _
  refine .bind (request_aside rfl) fun images => ?_
  split
  · exact .pure _
  refine .bind (request_aside rfl) fun thumbnails => ?_
  split
  · exact .pure _
  refine .bind (request_aside rfl) fun temporary => ?_
  split <;> exact .pure _

theorem inspect_aside {now : Time} : Bystander (inspect now) := by
  refine .bind scan_aside fun scanned => ?_
  split <;> exact .pure _

theorem cleanFolder_aside {folder : Folder} {referenced : GoString → Bool} {cutoff : Time}
    (entries : List FileEntry) : Bystander (cleanFolder folder referenced cutoff entries) := by
  induction entries with
  | nil => exact .pure _
  | cons entry rest ih =>
      unfold cleanFolder
      split
      · exact ih
      · exact .bind removeKey_aside fun _ => .bind ih fun _ => .pure _

theorem persistentStats_aside {now : Time} : Bystander (persistentStats now) := by
  refine .bind (request_aside rfl) fun totals => ?_
  split
  · exact .pure _
  refine .bind (request_aside rfl) fun aliases => ?_
  split
  · exact .pure _
  refine .bind (request_aside rfl) fun sessions => ?_
  split
  · exact .pure _
  · exact .bind (request_aside rfl) fun _ => .pure _

theorem daily_aside {age : Int} : Bystander (daily age) := by
  refine .bind (request_aside rfl) fun now => .bind scan_aside fun scanned => ?_
  split
  · exact .pure _
  refine .bind (cleanFolder_aside _) fun _ => .bind (cleanFolder_aside _) fun _ =>
    .bind (cleanFolder_aside _) fun _ => .bind persistentStats_aside fun persistent => ?_
  split
  · exact .pure _
  · exact .bind (.bind (request_aside rfl) fun _ => .bind (request_aside rfl) fun _ =>
      .bind (request_aside rfl) fun _ => .bind (request_aside rfl) fun _ => .pure _) fun _ => .pure _

/-- `Build` reads no accounts. -/
theorem build_confined : Confined (Delivery.build P deliverySource) := by
  have size (key : GoString) : Confined (storedSize key) := by
    refine .bind ?_ fun opened => ?_
    · unfold openImage
      split
      · exact .pure _
      · exact .perform (.inr ⟨_, rfl⟩)
    · split <;> exact .pure _
  refine .bind (.perform (.inl ⟨_, rfl, rfl⟩)) fun rows => ?_
  split
  · exact .pure _
  rename_i rows
  refine .bind ?_ fun loaded => ?_
  · generalize Delivery.Loading.start = l
    induction rows generalizing l with
    | nil => exact .pure _
    | cons row rest ih =>
        refine .bind (size _) fun size => ?_
        split
        · exact .pure _
        · exact ih _
  split
  · exact .pure _
  refine .bind (.perform (.inl ⟨_, rfl, rfl⟩)) fun aliases => ?_
  split <;> exact .pure _

end Maintenance

section Delivery

theorem authenticateSession_aside {token : GoString} {now : Time} :
    Bystander (authenticateSession P token now) := by
  unfold authenticateSession
  split
  · exact .pure _
  · exact request_aside rfl

theorem authenticateToken_aside {plaintext : GoString} {now : Time} :
    Bystander (authenticateToken P plaintext now) := by
  unfold authenticateToken
  split
  · exact .pure _
  · exact request_aside rfl

theorem tokenAccess_aside {authorization : GoString} : Bystander (tokenAccess P authorization) := by
  unfold tokenAccess
  split
  · exact .pure _
  refine .bind (request_aside rfl) fun now => .bind authenticateToken_aside fun identity => ?_
  split <;> exact .pure _

theorem privateImageAccess_aside {r : ImageRequest} : Bystander (privateImageAccess P r) := by
  unfold privateImageAccess
  split
  · exact tokenAccess_aside
  refine .bind (request_aside rfl) fun now => .bind authenticateSession_aside fun identity => ?_
  split
  · exact .pure _
  · exact tokenAccess_aside

theorem serveTarget_aside {r : ImageRequest} {target : Delivery.Target} :
    Bystander (serveTarget P r target) := by
  have file : Bystander (serveFile target) := by
    refine .bind openImage_aside fun opened => ?_
    split <;> exact .pure _
  unfold serveTarget
  split
  · refine .bind privateImageAccess_aside fun access => ?_
    split
    · exact .pure _
    · exact .pure _
    · exact file
  · exact file

theorem serveAliasUnlocked_aside {r : ImageRequest} : Bystander (serveAliasUnlocked P r) := by
  unfold serveAliasUnlocked
  split
  · exact .pure _
  split
  · exact .pure _
  refine .bind (request_aside rfl) fun target => ?_
  split
  · exact serveTarget_aside
  unfold serveMigration
  split
  · exact .pure _
  refine .bind (request_aside rfl) fun opened => ?_
  split <;> exact .pure _

theorem serve_aside {r : ImageRequest} : Bystander (serve P r) := by
  unfold serve
  split
  · unfold serveUnlocked
    split
    · exact .pure _
    split
    · exact serveAliasUnlocked_aside
    refine .bind (request_aside rfl) fun target => ?_
    split
    · exact .pure _
    · exact serveTarget_aside
  · exact serveAliasUnlocked_aside

end Delivery

end ImageSilo.Accounts
