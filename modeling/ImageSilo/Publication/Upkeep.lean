import ImageSilo.Accounts.Clerks

/-! The chores of a call are the files it has placed that have no row yet, and those whose row it has
removed. -/
namespace ImageSilo.Publication

open Go Concurrent Storage Accounts

structure Chores where
  image : Option GoString
  row : Option Image
  placed : Option GoString
  thumb : Option GoString
  doomed : Option GoString
  bare : Option GoString
  /-- The call has given its image another file, and still has the lock. -/
  updated : Bool

def Chores.none : Chores := ⟨.none, .none, .none, .none, .none, .none, false⟩

/-- Nothing is left to do. -/
structure Chores.Done (d : Chores) : Prop where
  placed : d.placed = .none
  thumb : d.thumb = .none
  doomed : d.doomed = .none
  bare : d.bare = .none

/-- The files that the row is for have been placed. -/
def Chores.readyFor (d : Chores) (v : Image) : Prop :=
  d.placed = some v.storageKey ∧ ∀ k ∈ d.thumb, k = v.id

def Chores.permits (d : Chores) : Action → Prop
  | .statement (.createImage v) | .statement (.createImport v _) => d.readyFor v
  | .statement (.updateContent v) => d.placed = some v.storageKey ∧ d.doomed = .none ∧ d.image ≠ .none
  | .statement (.deleteImage _) => d.doomed = .none ∧ d.bare = .none ∧ d.updated = false
  | .file (.rename _ .images _) => d.placed = .none
  | .file (.rename _ .thumbnails id) => validKey id = true ∧
      (d.updated = false → d.thumb = .none) ∧ (d.updated = true → d.image = some id)
  | _ => True

/-- Removals succeed, the key of a row is one that a file can have, and a row is found by its
identifier. -/
def Chores.reports : (a : Action) → Response a → Prop
  | .statement (.deleteImage _), .ok v => validKey v.storageKey = true
  | .statement (.getImage id), .ok v => v.id = id
  | .file (.remove _ _), r => r = .ok ()
  | _, _ => True

def Chores.recordFile (d : Chores) : (b : FileAction) → b.Response → Chores
  | .rename _ .images k, .ok _ => { d with placed := some k }
  | .rename _ .thumbnails id, .ok _ => if d.updated then d else { d with thumb := some id }
  | .remove .images k, _ =>
      { d with
        placed := d.placed.filter fun k' => k' != k
        doomed := d.doomed.filter fun k' => k' != k }
  | .remove .thumbnails id, _ =>
      { d with
        thumb := d.thumb.filter fun k' => k' != id
        bare := d.bare.filter fun k' => k' != id }
  | _, _ => d

def Chores.recordStatement (d : Chores) : (q : Statement) → Except DatabaseError q.Value → Chores
  | .getImage id, .ok v => if d.image = some id then { d with row := some v } else d
  | .createImage _, .ok _ | .createImport _ _, .ok _ => { d with placed := .none, thumb := .none }
  | .updateContent _, .ok true =>
      { d with placed := .none, doomed := d.row.map Image.storageKey, updated := true }
  | .deleteImage id, .ok v =>
      { d with doomed := some v.storageKey, bare := (some id).filter validKey }
  | _, _ => d

def Chores.record (d : Chores) : (a : Action) → Response a → Chores
  | .sync (.lockImage id), _ => { d with image := some id }
  | .sync (.unlockImage _), _ => { d with image := .none, updated := false }
  | .statement q, r => d.recordStatement q r
  | .file b, r => d.recordFile b r
  | _, _ => d

abbrev choreDiscipline : Discipline Action Response where
  Ledger := Chores
  Permits d a := d.permits a
  Reports _ a r := Chores.reports a r
  record d a r := d.record a r

/-- From these chores the program does what the chores allow, and ends in `Q`. -/
abbrev Tends {α : Type} (p : Call α) (d : Chores) (Q : α → Chores → Prop) : Prop :=
  p.Obeys choreDiscipline Q d

variable {P : Platform} {α : Type} {d : Chores}

theorem Chores.recordFile_done (done : d.Done) {b : FileAction} (r : b.Response)
    (quiet : idle (.file b) = true) : (d.recordFile b r).Done := by
  obtain ⟨image, row, placed, thumb, doomed, bare, updated⟩ := d
  obtain ⟨rfl, rfl, rfl, rfl⟩ := done
  unfold Chores.recordFile
  split
  · cases quiet
  · cases quiet
  · exact ⟨rfl, rfl, rfl, rfl⟩
  · exact ⟨rfl, rfl, rfl, rfl⟩
  · exact ⟨rfl, rfl, rfl, rfl⟩

/-- A program that makes no image leaves a call without chores as it is. -/
theorem idle_tends {p : Call α} (only : Idle p) (done : d.Done) : Tends p d fun _ d' => d'.Done := by
  refine Program.Only.obeys (D := choreDiscipline) Chores.Done only ?_ ?_ done
  · intro d a _ quiet
    change d.permits a
    unfold Chores.permits
    split
    all_goals first
      | cases quiet
      | trivial
  · intro d a r done quiet
    change (d.record a r).Done
    unfold Chores.record
    split
    · exact ⟨done.placed, done.thumb, done.doomed, done.bare⟩
    · exact ⟨done.placed, done.thumb, done.doomed, done.bare⟩
    · unfold Chores.recordStatement
      split
      · split <;> exact ⟨done.placed, done.thumb, done.doomed, done.bare⟩
      all_goals first
        | cases quiet
        | exact done
    · exact Chores.recordFile_done done _ quiet
    · exact done

/-- The action is no business of the chores. -/
def mild : Action → Bool
  | .sync (.lockImage _) | .sync (.unlockImage _) => false
  | .statement (.getImage _) => false
  | .file (.remove .images _) | .file (.remove .thumbnails _) => false
  | a => idle a

abbrev Mild {α : Type} (p : Call α) : Prop := p.Only fun a => mild a = true

theorem Mild.tends {p : Call α} (only : Mild p) : Tends p d fun _ d' => d' = d := by
  refine Program.Only.obeys (D := choreDiscipline) (fun d' => d' = d) only ?_ ?_ rfl
  · rintro d a rfl quiet
    change d.permits a
    unfold Chores.permits
    split
    all_goals first
      | cases quiet
      | trivial
  · rintro d a r rfl quiet
    change d.record a r = d
    unfold Chores.record
    split
    · cases quiet
    · cases quiet
    · unfold Chores.recordStatement
      split
      all_goals first
        | cases quiet
        | rfl
    · unfold Chores.recordFile
      split
      all_goals first
        | cases quiet
        | rfl
    · rfl

section Steps

variable {β : Type} {Q : β → Chores → Prop}

/-- A mild program before another one. -/
theorem Mild.seq {p : Call α} {f : α → Call β} (only : Mild p) (rest : ∀ v, Tends (f v) d Q) :
    Tends (p >>= f) d Q := by
  refine Program.Obeys.bind only.tends ?_
  rintro v _ rfl
  exact rest v

theorem removeTemporary_mild {path : GoString} : Mild (removeTemporary path) :=
  .bind (.perform rfl) fun _ => .pure _

theorem discard_mild {path : GoString} {e : Error} : Mild (discard path e : Call (Except Error α)) :=
  .bind removeTemporary_mild fun _ => .pure _

theorem removeUnless_mild {path source : GoString} : Mild (removeUnless path source) := by
  unfold removeUnless
  split
  · exact removeTemporary_mild
  · exact .pure _

theorem removeOptional_mild {path : Option GoString} : Mild (removeOptional path) := by
  cases path with
  | none => exact .pure _
  | some path => exact removeTemporary_mild

theorem inspectFile_mild {ref : FileRef} {limits : Processor.Limits} :
    Mild (inspectFile ref limits) :=
  .bind (.perform rfl) fun _ => .pure _

theorem releaseLease_mild : Mild releaseLease := .bind (.perform rfl) fun _ => .pure _

theorem stageReader_mild {defaultMaxBytes maxBytes : Int} {reader : Reader} :
    Mild (stageReader P defaultMaxBytes reader maxBytes) := by
  refine .bind (.perform rfl) fun made => ?_
  split
  · exact .pure _
  refine .bind (.perform rfl) fun copied => .bind (.perform rfl) fun closed => ?_
  repeat' split
  all_goals first | exact discard_mild | exact .pure _

theorem prepareThumbnail_mild {input : GoString} : Mild (prepareThumbnail input) := by
  refine .bind (.perform rfl) fun made => ?_
  split
  · exact .pure _
  refine .bind (.perform rfl) fun closed => ?_
  split
  · exact discard_mild
  refine .bind (.perform rfl) fun thumbnail => ?_
  split
  · exact .pure _
  refine .bind removeTemporary_mild fun _ => ?_
  split <;> exact .pure _

theorem transformImage_mild {path : GoString} {size : Int} {options : UploadOptions}
    {metadata : Processor.Metadata} : Mild (transformImage path size options metadata) := by
  unfold transformImage
  dsimp only
  split
  · exact .pure _
  refine .bind (.perform rfl) fun made => ?_
  split
  · exact .pure _
  refine .bind (.perform rfl) fun closed => ?_
  split
  · exact discard_mild
  refine .bind (.perform rfl) fun transformed => ?_
  split
  · exact discard_mild
  refine .bind (.perform rfl) fun size => ?_
  split
  · exact discard_mild
  split
  · exact .bind removeTemporary_mild fun _ => .pure _
  refine .bind inspectFile_mild fun inspected => ?_
  repeat' split
  all_goals first | exact discard_mild | exact .pure _

theorem prepareImage_mild {path : GoString} {size : Int} {options : UploadOptions} :
    Mild (prepareImage path size options) := by
  refine .bind inspectFile_mild fun inspected => ?_
  split
  · exact .pure _
  refine .bind transformImage_mild fun transformed => ?_
  split
  · exact .pure _
  refine .bind prepareThumbnail_mild fun thumbnail => ?_
  split
  · exact .bind removeUnless_mild fun _ => .pure _
  · exact .pure _

theorem prepareImport_mild {path : GoString} {limits : Processor.Limits} :
    Mild (prepareImport path limits) := by
  refine .bind inspectFile_mild fun inspected => ?_
  split
  · exact .pure _
  refine .bind prepareThumbnail_mild fun thumbnail => ?_
  split <;> exact .pure _

theorem storedDigest_mild {staged : Staged} {path : GoString} : Mild (storedDigest staged path) := by
  unfold storedDigest
  split
  · exact .perform rfl
  · exact .pure _

theorem commitTemporary_tends {path key : GoString} {f : Except Error Unit → Call β}
    (unplaced : d.placed = .none) (failed : ∀ e, Tends (f (.error e)) d Q)
    (committed : validKey key = true → Tends (f (.ok ())) { d with placed := some key } Q) :
    Tends (commitTemporary path key >>= f) d Q := by
  unfold commitTemporary
  split
  · exact failed _
  rename_i valid
  refine (Program.obeys_bind ..).mpr ((Program.obeys_bind ..).mpr ⟨trivial, fun present _ => ?_⟩)
  match present with
  | .error e => exact failed e
  | .ok true => exact failed _
  | .ok false =>
      refine ⟨unplaced, fun renamed _ => ?_⟩
      match renamed with
      | .error e => exact failed e
      | .ok _ => exact committed (by simpa using valid)

theorem commitThumbnailTemporary_tends {path id : GoString} {f : Except Error Unit → Call β}
    (unplaced : d.updated = false → d.thumb = .none) (own : d.updated = true → d.image = some id)
    (failed : ∀ e, Tends (f (.error e)) d Q)
    (committed : validKey id = true →
      Tends (f (.ok ())) (if d.updated then d else { d with thumb := some id }) Q) :
    Tends (commitThumbnailTemporary path id >>= f) d Q := by
  unfold commitThumbnailTemporary
  split
  · exact failed _
  rename_i invalid
  have valid : validKey id = true := by simpa using invalid
  refine (Program.obeys_bind ..).mpr ⟨⟨valid, unplaced, own⟩, fun renamed _ => ?_⟩
  match renamed with
  | .error e => exact failed e
  | .ok _ => exact committed valid

/-- A removal of a key that a file can have. -/
theorem removeKey_tends {folder : Folder} {key : GoString} {f : Except Error Unit → Call β}
    (valid : validKey key = true)
    (removed : Tends (f (.ok ())) (d.recordFile (.remove folder key) (.ok ())) Q) :
    Tends (removeKey folder key >>= f) d Q := by
  unfold removeKey
  rw [if_neg (by simp [valid])]
  refine (Program.obeys_bind ..).mpr ⟨trivial, fun r reported => ?_⟩
  obtain rfl : r = .ok () := reported
  exact removed

/-- A removal of any key. -/
theorem removeAny_tends {folder : Folder} {key : GoString} {f : Except Error Unit → Call β}
    (removed : validKey key = true →
      Tends (f (.ok ())) (d.recordFile (.remove folder key) (.ok ())) Q)
    (refused : validKey key = false → Tends (f (.error .storage)) d Q) :
    Tends (removeKey folder key >>= f) d Q := by
  cases valid : validKey key with
  | true => exact removeKey_tends valid (removed valid)
  | false =>
      unfold removeKey
      rw [if_pos (by simp [valid])]
      exact refused valid

theorem createImage_tends {v : Image} {f : Except Error Unit → Call β} (ready : d.readyFor v)
    (failed : ∀ e, Tends (f (.error e)) d Q)
    (stored : Tends (f (.ok ())) { d with placed := .none, thumb := .none } Q) :
    Tends (createImage v >>= f) d Q := by
  refine (Program.obeys_bind ..).mpr ((Program.obeys_bind ..).mpr ⟨ready, fun created _ => ?_⟩)
  match created with
  | .error e => exact failed _
  | .ok _ => exact stored

theorem createImport_tends {v : Image} {m : Alias} {f : Except Error Unit → Call β}
    (ready : d.readyFor v) (failed : ∀ e, Tends (f (.error e)) d Q)
    (stored : Tends (f (.ok ())) { d with placed := .none, thumb := .none } Q) :
    Tends (createImport v m >>= f) d Q := by
  refine (Program.obeys_bind ..).mpr ((Program.obeys_bind ..).mpr ⟨ready, fun created _ => ?_⟩)
  match created with
  | .error e => exact failed _
  | .ok _ => exact stored

theorem lockImage_tends {id : GoString} {p : Call β} (rest : Tends p { d with image := some id } Q) :
    Tends (do lockImage id; p) d Q :=
  (Program.obeys_bind ..).mpr ⟨trivial, fun _ _ => rest⟩

theorem unlockImage_tends {id : GoString} {p : Call β}
    (rest : Tends p { d with image := .none, updated := false } Q) :
    Tends (do unlockImage id; p) d Q :=
  (Program.obeys_bind ..).mpr ⟨trivial, fun _ _ => rest⟩

end Steps

section Uploads

/-- A call that has placed a file for an image, and a thumbnail if there was one. -/
def Chores.placing (image : Option GoString) (key : GoString) (committed : Bool) : Chores :=
  ⟨image, .none, some key, if committed then some key else .none, .none, .none, false⟩

theorem rollback_tends {key : GoString} {committed : Bool} {e : Error} (valid : validKey key = true) :
    Tends (rollback key key committed e : Call (Except Error α)) (.placing .none key committed)
      fun _ d => d.Done := by
  refine removeKey_tends valid ?_
  split
  · rename_i made
    refine removeKey_tends valid ?_
    refine ⟨?_, ?_, rfl, rfl⟩
    · simp [Chores.recordFile, Chores.placing]
    · simp [Chores.recordFile, Chores.placing, made]
  · rename_i unmade
    refine ⟨?_, ?_, rfl, rfl⟩
    · simp [Chores.recordFile, Chores.placing]
    · simp [Chores.recordFile, Chores.placing, unmade]

theorem placing_ready (image : Option GoString) {committed : Bool} {v : Image}
    (same : v.storageKey = v.id) : (Chores.placing image v.id committed).readyFor v := by
  refine ⟨by rw [same]; rfl, ?_⟩
  intro k thumb
  cases committed with
  | true => exact (Option.some.inj thumb).symm
  | false => cases thumb

theorem publishImage_tends {v : Image} {committed : Bool} (valid : validKey v.id = true)
    (same : v.storageKey = v.id) :
    Tends (publishImage v committed) (.placing .none v.id committed) fun _ d => d.Done := by
  refine lockImage_tends (Mild.seq (.perform rfl) fun _ => ?_)
  refine createImage_tends (placing_ready (some v.id) same) (fun e => ?_) ?_
  · refine Mild.seq (.perform rfl) fun _ => unlockImage_tends ?_
    rw [same]
    exact rollback_tends valid
  · refine Mild.seq (.perform rfl) fun _ => Mild.seq (.perform rfl) fun _ => unlockImage_tends ?_
    exact ⟨rfl, rfl, rfl, rfl⟩

theorem commitThumbnail_tends {β : Type} {Q : β → Chores → Prop} {path : Option GoString}
    (id : GoString) {f : Except Error Bool → Call β}
    (failed : ∀ e, Tends (f (.error e)) (.placing .none id false) Q)
    (committed : ∀ made, Tends (f (.ok made)) (.placing .none id made) Q) :
    Tends (commitThumbnail path id >>= f) (.placing .none id false) Q := by
  cases path with
  | none => exact committed false
  | some path =>
      refine (Program.obeys_bind ..).mpr ?_
      refine commitThumbnailTemporary_tends (fun _ => rfl) nofun (fun e => failed e) ?_
      exact fun _ => committed true

theorem commitPrepared_tends {staged : Staged} {name : GoString} {options : UploadOptions} {now : Time}
    {prepared : Prepared} : Tends (commitPrepared staged name options now prepared) .none
      fun _ d => d.Done := by
  refine storedDigest_mild.seq fun stored => ?_
  match stored with
  | .error e => exact ⟨rfl, rfl, rfl, rfl⟩
  | .ok stored =>
      refine Mild.seq (.perform rfl) fun made => ?_
      match made with
      | .error e => exact ⟨rfl, rfl, rfl, rfl⟩
      | .ok id =>
          refine commitTemporary_tends rfl (fun e => ⟨rfl, rfl, rfl, rfl⟩) fun valid => ?_
          refine commitThumbnail_tends id (fun e => rollback_tends valid) fun made => ?_
          exact publishImage_tends (v := uploadedImage staged name options now prepared stored id)
            valid rfl

theorem commitStagedUpload_tends {staged : Staged} {name : GoString} {options : UploadOptions}
    {now : Time} : Tends (commitStagedUpload staged name options now) .none fun _ d => d.Done := by
  unfold commitStagedUpload
  split
  · exact ⟨rfl, rfl, rfl, rfl⟩
  split
  · exact ⟨rfl, rfl, rfl, rfl⟩
  refine Mild.seq (.perform rfl) fun active => ?_
  split
  · exact ⟨rfl, rfl, rfl, rfl⟩
  refine prepareImage_mild.seq fun prepared => releaseLease_mild.seq fun _ => ?_
  split
  · exact ⟨rfl, rfl, rfl, rfl⟩
  · refine Program.Obeys.bind commitPrepared_tends ?_
    intro result d done
    exact removeOptional_mild.seq fun _ => removeUnless_mild.seq fun _ => done

theorem upload_tends {reader : Reader} {name : GoString} {options : UploadOptions} {now : Time} :
    Tends (upload P reader name options now) .none fun _ d => d.Done := by
  unfold upload
  split
  · exact ⟨rfl, rfl, rfl, rfl⟩
  refine Mild.seq (.perform rfl) fun acquired => ?_
  split
  · exact ⟨rfl, rfl, rfl, rfl⟩
  refine Mild.seq stageReader_mild fun staged => ?_
  match staged with
  | .error e => exact releaseLease_mild.seq fun _ => ⟨rfl, rfl, rfl, rfl⟩
  | .ok staged =>
      refine Program.Obeys.bind commitStagedUpload_tends ?_
      intro result d done
      exact removeTemporary_mild.seq fun _ => releaseLease_mild.seq fun _ => done

theorem beginAliasChange_mild {path : GoString} : Mild (beginAliasChange path) :=
  .bind (.perform rfl) fun _ => .perform rfl

theorem endAliasChange_mild {path : GoString} : Mild (endAliasChange path) :=
  .bind (.perform rfl) fun _ => .perform rfl

theorem publishImport_tends {v : Image} {m : Alias} {committed : Bool} (valid : validKey v.id = true)
    (same : v.storageKey = v.id) :
    Tends (publishImport v m committed) (.placing .none v.id committed) fun _ d => d.Done := by
  refine lockImage_tends (beginAliasChange_mild.seq fun _ => ?_)
  refine createImport_tends (placing_ready (some v.id) same) (fun e => ?_) ?_
  · refine endAliasChange_mild.seq fun _ => unlockImage_tends ?_
    rw [same]
    exact rollback_tends valid
  · refine Mild.seq (.perform rfl) fun _ => Mild.seq (.perform rfl) fun _ =>
      endAliasChange_mild.seq fun _ => unlockImage_tends ?_
    exact ⟨rfl, rfl, rfl, rfl⟩

theorem commitImport_tends {staged : Staged} {name path : GoString} {options : ImportOptions}
    {now : Time} {metadata : Processor.Metadata} {thumbnail : Option GoString} :
    Tends (commitImport staged name path options now metadata thumbnail) .none
      fun _ d => d.Done := by
  refine Mild.seq (.perform rfl) fun made => ?_
  match made with
  | .error e => exact ⟨rfl, rfl, rfl, rfl⟩
  | .ok id =>
      refine Mild.seq (.perform rfl) fun made => ?_
      match made with
      | .error e => exact ⟨rfl, rfl, rfl, rfl⟩
      | .ok aliasID =>
          refine commitTemporary_tends rfl (fun e => ⟨rfl, rfl, rfl, rfl⟩) fun valid => ?_
          refine commitThumbnail_tends id (fun e => rollback_tends valid) fun made => ?_
          exact publishImport_tends (v := importedImage staged name options now metadata id) valid rfl

theorem importPrepared_tends {staged : Staged} {name path : GoString} {options : ImportOptions}
    {now : Time} : Tends (importPrepared staged name path options now) .none fun _ d => d.Done := by
  refine prepareImport_mild.seq fun prepared => releaseLease_mild.seq fun _ => ?_
  match prepared with
  | .error e => exact ⟨rfl, rfl, rfl, rfl⟩
  | .ok (metadata, thumbnail) =>
      refine Program.Obeys.bind commitImport_tends ?_
      intro result d done
      exact removeOptional_mild.seq fun _ => done

theorem importStaged_tends {staged : Staged} {name path : GoString} {options : ImportOptions}
    {now : Time} : Tends (importStaged P staged name path options now) .none fun _ d => d.Done := by
  unfold importStaged
  split
  · exact ⟨rfl, rfl, rfl, rfl⟩
  split
  · exact ⟨rfl, rfl, rfl, rfl⟩
  refine Mild.seq (.perform rfl) fun active => ?_
  split
  · exact ⟨rfl, rfl, rfl, rfl⟩
  split
  · exact ⟨rfl, rfl, rfl, rfl⟩
  split
  · exact ⟨rfl, rfl, rfl, rfl⟩
  refine Mild.seq (.bind (.perform rfl) fun _ => .pure _) fun known => ?_
  match known with
  | .error e => exact ⟨rfl, rfl, rfl, rfl⟩
  | .ok true => exact ⟨rfl, rfl, rfl, rfl⟩
  | .ok false => exact importPrepared_tends

theorem importImage_tends {reader : Reader} {name path : GoString} {options : ImportOptions}
    {now : Time} : Tends (importImage P reader name path options now) .none fun _ d => d.Done := by
  unfold importImage
  split
  · exact ⟨rfl, rfl, rfl, rfl⟩
  refine Mild.seq (.perform rfl) fun acquired => ?_
  split
  · exact ⟨rfl, rfl, rfl, rfl⟩
  refine Mild.seq stageReader_mild fun staged => ?_
  match staged with
  | .error e => exact releaseLease_mild.seq fun _ => ⟨rfl, rfl, rfl, rfl⟩
  | .ok staged =>
      refine Program.Obeys.bind importStaged_tends ?_
      intro result d done
      exact removeTemporary_mild.seq fun _ => releaseLease_mild.seq fun _ => done

end Uploads

section Deletions

/-- A call that has deleted the row of an image, with the key of the file that is left. -/
def Chores.deleting (id : GoString) (doomed : Option GoString) : Chores :=
  ⟨some id, .none, .none, .none, doomed, (some id).filter validKey, false⟩

theorem deleteImage_tends {id : GoString} :
    Tends (deleteImage P id) .none fun _ d => d.Done := by
  unfold deleteImage
  split
  · exact ⟨rfl, rfl, rfl, rfl⟩
  refine lockImage_tends (Program.Obeys.bind (Q := fun _ (d : Chores) => d.Done) ?_
    fun result d done => unlockImage_tends ⟨done.placed, done.thumb, done.doomed, done.bare⟩)
  refine Mild.seq (.perform rfl) fun _ => ?_
  refine (Program.obeys_bind ..).mpr ((Program.obeys_bind ..).mpr ⟨⟨rfl, rfl, rfl⟩, fun r valid => ?_⟩)
  match r with
  | .error e => exact Mild.seq (.perform rfl) fun _ => ⟨rfl, rfl, rfl, rfl⟩
  | .ok deleted =>
      refine Mild.seq (.perform rfl) fun _ => Mild.seq (.perform rfl) fun _ => ?_
      refine removeKey_tends (d := .deleting id (some deleted.storageKey)) valid ?_
      have unlinked : (Chores.deleting id (some deleted.storageKey)).recordFile
          (.remove .images deleted.storageKey) (.ok ()) = .deleting id none := by
        simp [Chores.recordFile, Chores.deleting]
      rw [unlinked]
      refine removeAny_tends (fun usable => ?_) fun unusable => ?_
      · refine ⟨rfl, rfl, rfl, ?_⟩
        simp [Chores.recordFile, Chores.deleting, Option.filter, usable]
      · refine ⟨rfl, rfl, rfl, ?_⟩
        simp [Chores.deleting, Option.filter, unusable]

end Deletions

section Conversions

/-- A call that holds the lock of the image whose row it has read. -/
def Chores.holding (v : Image) (placed : Option GoString) : Chores :=
  ⟨some v.id, some v, placed, .none, .none, .none, false⟩

/-- A call that has given the image another file. -/
def Chores.finishing (v : Image) : Chores :=
  ⟨some v.id, some v, .none, .none, some v.storageKey, .none, true⟩

theorem finishConversion_tends {v w : Image} {thumbnail : Option GoString} (same : w.id = v.id)
    (valid : validKey v.storageKey = true) :
    Tends (finishConversion w v.storageKey thumbnail) (.finishing v) fun _ d => d.Done := by
  have unlinks {β : Type} (f : Except Error Unit → β) : Tends (do
      let original ← removeKey .images v.storageKey
      pure (f original)) (.finishing v) fun _ d => d.Done := by
    refine removeKey_tends valid ⟨rfl, rfl, ?_, rfl⟩
    simp [Chores.recordFile, Chores.finishing]
  unfold finishConversion
  cases thumbnail with
  | some path =>
      refine commitThumbnailTemporary_tends nofun (fun _ => ?_) (fun e => ?_) fun _ => ?_
      · rw [same]
        rfl
      · exact unlinks _
      · exact unlinks _
  | none => exact removeAny_tends (fun _ => unlinks _) fun _ => unlinks _

theorem replaceContent_tends {v w : Image} {thumbnail : Option GoString} (same : w.id = v.id)
    (valid : validKey v.storageKey = true) (usable : validKey w.storageKey = true) :
    Tends (replaceContent w v.storageKey thumbnail)
      (.holding v (some w.storageKey)) fun _ d => d.Done := by
  have undone (e : Error) : Tends (do
      let _ ← removeKey .images w.storageKey
      pure ((.error e : Except Error ConversionResult), thumbnail))
      (.holding v (some w.storageKey)) fun _ d => d.Done := by
    refine removeKey_tends usable ⟨?_, rfl, rfl, rfl⟩
    simp [Chores.recordFile, Chores.holding]
  refine Mild.seq (.perform rfl) fun _ => ?_
  refine (Program.obeys_bind ..).mpr ((Program.obeys_bind ..).mpr ⟨⟨rfl, rfl, nofun⟩, fun r _ => ?_⟩)
  match r with
  | .error e => exact Mild.seq (.perform rfl) fun _ => undone _
  | .ok false => exact Mild.seq (.perform rfl) fun _ => undone _
  | .ok true =>
      exact Mild.seq (.perform rfl) fun _ => Mild.seq (.perform rfl) fun _ =>
        finishConversion_tends same valid

/-- The last part of a conversion, once its file is in place. -/
theorem dateContent_tends {v : Image} {metadata : Processor.Metadata} {stored : Int × Digest}
    {key summary : GoString} {thumbnail : Option GoString} (valid : validKey v.storageKey = true)
    (usable : validKey key = true) :
    Tends (do
        let now ← clockNow
        replaceContent (convertedImage v metadata stored key summary now) v.storageKey thumbnail)
      (.holding v (some key)) fun _ d => d.Done := by
  refine Mild.seq (.perform rfl) fun now => ?_
  generalize converted : convertedImage v metadata stored key summary now = w
  have same : w.id = v.id := by
    rw [← converted]
    simp only [convertedImage]
  obtain rfl : w.storageKey = key := by
    rw [← converted]
    simp only [convertedImage]
  exact replaceContent_tends same valid usable

theorem publishConversion_tends {v : Image} {source metadata : Processor.Metadata}
    {stored : Int × Digest} {output : GoString} {thumbnail : Option GoString}
    (valid : validKey v.storageKey = true) :
    Tends (publishConversion v source metadata stored output thumbnail) (.holding v none)
      fun _ d => d.Done := by
  refine Mild.seq (.perform rfl) fun made => ?_
  match made with
  | .error e => exact ⟨rfl, rfl, rfl, rfl⟩
  | .ok key =>
      refine commitTemporary_tends rfl (fun e => ⟨rfl, rfl, rfl, rfl⟩) fun usable => ?_
      exact dateContent_tends valid usable

theorem withThumbnail_tends {d : Chores} {thumbnail : Option GoString}
    {publish : Option GoString → Call (Except Error ConversionResult × Option GoString)}
    (inside : Tends (publish thumbnail) d fun _ d => d.Done) :
    Tends (withThumbnail publish thumbnail) d fun _ d => d.Done := by
  refine Program.Obeys.bind inside ?_
  rintro ⟨result, remaining⟩ d done
  exact removeOptional_mild.seq fun _ => done

theorem convertThumbnail_tends {v : Image} {source metadata : Processor.Metadata}
    {stored : Int × Digest} {output : GoString} (valid : validKey v.storageKey = true) :
    Tends (convertThumbnail v source metadata stored output) (.holding v none) fun _ d => d.Done := by
  have done : (Chores.holding v none).Done := ⟨rfl, rfl, rfl, rfl⟩
  refine Mild.seq (.perform rfl) fun made => ?_
  match made with
  | .error e => exact done
  | .ok path =>
      refine Mild.seq (.perform rfl) fun closed => ?_
      match closed with
      | .error e => exact discard_mild.tends.mono fun _ _ same => same ▸ done
      | .ok _ =>
          refine Mild.seq (.perform rfl) fun thumbnail => ?_
          split
          · exact withThumbnail_tends (publishConversion_tends valid)
          split
          · exact withThumbnail_tends (publishConversion_tends valid)
          · exact discard_mild.tends.mono fun _ _ same => same ▸ done

theorem convertOutput_tends {v : Image} {source : Processor.Metadata} {options : Processor.Options}
    {output : GoString} (valid : validKey v.storageKey = true) :
    Tends (convertOutput v source options output) (.holding v none) fun _ d => d.Done := by
  have done : (Chores.holding v none).Done := ⟨rfl, rfl, rfl, rfl⟩
  refine Mild.seq (.perform rfl) fun transformed => ?_
  split
  · exact done
  refine inspectFile_mild.seq fun inspected => ?_
  split
  · exact done
  split
  · exact done
  refine Mild.seq (.perform rfl) fun hashed => ?_
  match hashed with
  | .error e => exact done
  | .ok stored => exact convertThumbnail_tends valid

theorem getImage_tends {id : GoString} {β : Type} {Q : β → Chores → Prop}
    {f : Except Error Image → Call β}
    (failed : ∀ e, Tends (f (.error e)) { Chores.none with image := some id } Q)
    (found : ∀ v : Image, v.id = id → Tends (f (.ok v)) (.holding v none) Q) :
    Tends (getImage id >>= f) { Chores.none with image := some id } Q := by
  refine (Program.obeys_bind ..).mpr ((Program.obeys_bind ..).mpr ⟨trivial, fun r own => ?_⟩)
  match r with
  | .error e => exact failed _
  | .ok v =>
      have same : (v : Image).id = id := own
      have held : ({ Chores.none with image := some id } : Chores).recordStatement
          (.getImage id) (.ok v) = .holding v none := by
        simp [Chores.recordStatement, Chores.holding, Chores.none, same]
      have rest := found v same
      rw [← held] at rest
      exact rest

theorem convertGated_tends {id : GoString} {options : Processor.Options} :
    Tends (convertGated id options) { Chores.none with image := some id } fun _ d => d.Done := by
  refine getImage_tends (fun e => ⟨rfl, rfl, rfl, rfl⟩) ?_
  rintro v rfl
  have done : (Chores.holding v none).Done := ⟨rfl, rfl, rfl, rfl⟩
  dsimp only
  split
  · exact done
  split
  · exact done
  rename_i usable
  have valid : validKey v.storageKey = true := by simpa using usable
  refine inspectFile_mild.seq fun inspected => ?_
  match inspected with
  | .error e => exact done
  | .ok source =>
      refine Mild.seq (.perform rfl) fun made => ?_
      match made with
      | .error e => exact done
      | .ok output =>
          refine Mild.seq (.perform rfl) fun closed => ?_
          match closed with
          | .error e => exact discard_mild.tends.mono fun _ _ same => same ▸ done
          | .ok _ =>
              refine Program.Obeys.bind (convertOutput_tends valid) ?_
              intro result d done
              exact removeTemporary_mild.seq fun _ => done

theorem convertToWebP_tends {id : GoString} {options : Processor.Options} :
    Tends (convertToWebP P id options) .none fun _ d => d.Done := by
  unfold convertToWebP
  split
  · exact ⟨rfl, rfl, rfl, rfl⟩
  refine lockImage_tends (Program.Obeys.bind (Q := fun _ (d : Chores) => d.Done) ?_ fun result d done =>
    unlockImage_tends ⟨done.placed, done.thumb, done.doomed, done.bare⟩)
  refine Mild.seq (.perform rfl) fun acquired => ?_
  split
  · exact ⟨rfl, rfl, rfl, rfl⟩
  refine Program.Obeys.bind convertGated_tends ?_
  intro result d done
  exact Mild.seq (.perform rfl) fun _ => done

end Conversions

section Accounts

theorem createToken_idle {name : GoString} {scopes : List (Option ApiToken.Scope)}
    {expiresAt : Option Time} {now : Time} : Idle (createToken P name scopes expiresAt now) := by
  have generated (scopes : List ApiToken.Scope) (name : GoString) :
      Idle (generateToken P name scopes expiresAt now) := by
    refine .bind newRandomToken_lockless.inner.idle fun drawn => ?_
    split
    · exact .pure _
    refine .bind (.perform rfl) fun id => ?_
    split
    · exact .pure _
    refine .bind (.perform rfl) fun _ => .bind (.perform rfl) fun _ => .bind (.perform rfl) fun r => ?_
    split
    · exact .bind (.perform rfl) fun _ => .bind (.perform rfl) fun _ => .pure _
    · exact .bind (.perform rfl) fun _ => .bind (.perform rfl) fun _ => .bind (.perform rfl) fun _ =>
        .pure _
  unfold createToken
  dsimp only
  split
  · exact .pure _
  split
  · exact .pure _
  split
  · exact .pure _
  · exact generated _ _

theorem revokeToken_idle {id : GoString} : Idle (revokeToken id) := by
  refine .bind (.perform rfl) fun _ => .bind (.perform rfl) fun _ => .bind (.perform rfl) fun r => ?_
  split
  · exact .bind (.perform rfl) fun _ => .bind (.perform rfl) fun _ => .pure _
  · exact .bind (.perform rfl) fun _ => .bind (.perform rfl) fun _ => .bind (.perform rfl) fun _ =>
      .pure _

theorem credentials_idle {p : Call α} (inner : Inner p) :
    Idle (do sync .lockCredentials; let r ← p; sync .unlockCredentials; pure r) :=
  .bind (.perform rfl) fun _ => .bind inner.idle fun _ => .bind (.perform rfl) fun _ => .pure _

end Accounts

theorem returning_tends {p : Call α} {f : α → Result} (h : Tends p .none fun _ d => d.Done) :
    Tends (returning p f) .none fun _ d => d.Done :=
  (Program.obeys_bind ..).mpr (h.mono fun _ _ done => done)

/-- Every request ends without chores. -/
theorem request_tends (request : Request) :
    Tends (request.program P) .none fun _ d => d.Done := by
  have others {β : Type} {p : Call β} {f : β → Result} (h : Idle p) :
      Tends (returning p f) .none fun _ d => d.Done :=
    returning_tends (idle_tends h ⟨rfl, rfl, rfl, rfl⟩)
  cases request with
  | upload => exact returning_tends upload_tends
  | importImage => exact returning_tends importImage_tends
  | deleteImage => exact returning_tends deleteImage_tends
  | convertToWebP => exact returning_tends convertToWebP_tends
  | createAlias => exact others createAlias_idle
  | deleteAlias => exact others deleteAlias_idle
  | changeVisibility => exact others changeVisibility_idle
  | inspect => exact others inspect_idle
  | daily => exact others daily_idle
  | serve => exact others serve_idle
  | authenticateSession => exact others authenticateSession_idle
  | authenticateToken => exact others authenticateToken_idle
  | rebuild => exact others rebuild_inner.idle
  | logout => exact others logout_inner.idle
  | cleanupSessions => exact others cleanupSessions_inner.idle
  | loadSessions => exact others loadSessions_inner.idle
  | cleanupTokens => exact others cleanupTokens_inner.idle
  | loadTokens => exact others loadTokens_inner.idle
  | login => exact others (credentials_idle loginLocked_inner)
  | changePassword => exact others (credentials_idle changePasswordLocked_inner)
  | updateProfile =>
      refine others ?_
      unfold updateProfile
      split
      · exact .pure _
      split
      · exact .pure _
      · exact credentials_idle updateProfileLocked_inner
  | createToken => exact others createToken_idle
  | revokeToken => exact others revokeToken_idle

end ImageSilo.Publication
