import ImageSilo.Guarantees.Quiescence
import ImageSilo.Guarantees.Retries
import ImageSilo.Publication.Origins
import ImageSilo.Publication.Upkeep

/-! A file without a row is among the chores of a call, and no call ends before its chores are done. -/
namespace ImageSilo.Publication

open Go Concurrent Storage Tables Accounts

/-- A removal that is tried succeeds, and a deletion that takes effect says so. -/
def Tidy {P : Platform} (e : Event (machine P)) : Prop :=
  (∀ folder k, e.action = .file (.remove folder k) → e.choice ≠ .fault) ∧
    ∀ id, e.action = .statement (.deleteImage id) → e.choice ≠ .interrupted

/-- The process does not crash, and calls can tidy up after themselves. -/
def tidily (P : Platform) (requests : Nat → Request) : Setting (machine P) Result :=
  serving P requests False fun _ e => Tidy e

variable {P : Platform} {requests : Nat → Request} {σ₀ σ σ' : State} {ls : Nat → Ledger}
  {ds : Nat → Chores} {l : Ledger} {d : Chores} {i j : Nat} {a : Action} {c : Choice} {r : Response a}
  {k id : GoString} {v : Image}

section Steps

/-- What is in a directory after a step was there before, and the step has not removed it, or the step
has placed it there. -/
theorem stays_or_placed {folder : Folder} (durable : folder ≠ .temporary)
    (performed : σ.perform P i a c = some (r, σ')) (there : k ∈ σ'.files.directory folder) :
    k ∈ σ.files.directory folder ∧ (⟨a, r⟩ : Answer Response) ≠ ⟨.file (.remove folder k), .ok ()⟩ ∨
      ∃ path, (⟨a, r⟩ : Answer Response) = ⟨.file (.rename path folder k), .ok ()⟩ := by
  cases a with
  | file b =>
      obtain ⟨files, done, rfl⟩ := file_state performed
      have effect := file_effect done
      have output (left : Option Bytes) (path : GoString) (now : Time) :
          (left.elim (σ.files.drop .temporary path) fun content =>
            σ.files.put .temporary path ⟨.regular content, now⟩).directory folder =
              σ.files.directory folder := by
        cases left with
        | none => exact drop_other durable
        | some content => exact put_other durable
      cases effect with
      | created path unused absent =>
          refine .inl ⟨?_, by simp⟩
          rwa [← put_other durable]
      | wrote path content left r full =>
          rw [put_other durable] at there
          exact .inl ⟨there, by simp⟩
      | transformed input path metadata options plan r left =>
          rw [output] at there
          exact .inl ⟨there, by simp⟩
      | thumbnailed input path r left =>
          rw [output] at there
          exact .inl ⟨there, by simp⟩
      | renamed path folder' key entry was =>
          rw [renamed_directory] at there
          by_cases same : folder = folder'
          · subst same
            rw [put_same, Finmap.mem_insert] at there
            rcases there with rfl | there
            · exact .inr ⟨path, rfl⟩
            · rw [drop_other durable] at there
              exact .inl ⟨there, by simp⟩
          · rw [put_other same, drop_other durable] at there
            exact .inl ⟨there, by simp⟩
      | removed folder' key =>
          by_cases same : folder = folder'
          · subst same
            rw [drop_same, Finmap.mem_erase] at there
            refine .inl ⟨there.2, ?_⟩
            intro eq
            cases eq
            exact there.1 rfl
          · rw [drop_other same] at there
            refine .inl ⟨there, ?_⟩
            intro eq
            cases eq
            exact same rfl
      | none b r kept =>
          refine .inl ⟨there, ?_⟩
          intro eq
          cases eq
          exact kept
  | _ =>
      rw [(perform_frame performed).files (by simp)] at there
      exact .inl ⟨there, by simp⟩

/-- What has been stored is a row. -/
theorem stored_row (performed : σ.perform P i a c = some (r, σ')) (stores : v ∈ storedBy a r) :
    ∃ w ∈ σ'.database.images, w.id = v.id ∧ w.storageKey = v.storageKey := by
  unfold storedBy at stores
  split at stores
  · cases stores
    have change := statement_change performed
    generalize σ'.database = db' at change ⊢
    cases change with
    | created v db' stored =>
        rw [(insertImage_some stored).1]
        exact ⟨_, List.mem_append_right _ (List.mem_singleton.mpr rfl), storedImage_id v,
          storedImage_storageKey v⟩
    | none q r db' reading images aliases => exact absurd reading id
  · cases stores
    have change := statement_change performed
    generalize σ'.database = db' at change ⊢
    cases change with
    | imported v m db₁ db₂ stored mapped =>
        rw [(insertAlias_some mapped).1, (insertImage_some stored).1]
        exact ⟨_, List.mem_append_right _ (List.mem_singleton.mpr rfl), storedImage_id _,
          storedImage_storageKey _⟩
    | none q r db' reading images aliases => exact absurd reading id
  · cases stores
    have change := statement_change performed
    generalize σ'.database = db' at change ⊢
    cases change with
    | replaced v row db' found replaced =>
        refine ⟨_, ?_, (withContent_id row v).trans (image?_some found).2, withContent_storageKey row v⟩
        rw [(replaceImage_some replaced).1]
        exact List.mem_map.mpr ⟨row, (image?_some found).1, if_pos (withContent_id row v).symm⟩
    | none q r db' reading images aliases => exact absurd reading id
  · cases stores

end Steps

section Fates

/-- The ledger and the chores of a call name the same image, and the same row if the ledger has one. -/
structure Link (l : Ledger) (d : Chores) : Prop where
  image : d.image = l.image
  row : ∀ v, l.row = some v → d.row = some v

theorem Link.statement (h : Link l d) (q : Statement) (r : Except DatabaseError q.Value) :
    Link (l.recordStatement P q r) (d.recordStatement q r) := by
  cases q with
  | getImage id =>
      cases r with
      | error e => exact h
      | ok v =>
          change Link (if l.image = some id then { l with row := some v } else l)
            (if d.image = some id then { d with row := some v } else d)
          rw [h.image]
          split
          · exact ⟨rfl, fun _ known => known⟩
          · exact h
  | updateContent v =>
      cases r with
      | error e => exact h
      | ok found =>
          cases found with
          | false => exact h
          | true => exact ⟨h.image, nofun⟩
  | deleteImage id =>
      cases r with
      | error e => cases e <;> exact ⟨h.image, h.row⟩
      | ok v => exact ⟨h.image, nofun⟩
  | updateVisibility id visibility =>
      cases r with
      | error e => exact h
      | ok found =>
          cases found with
          | false => exact h
          | true => exact ⟨h.image, nofun⟩
  | createAlias m =>
      cases r with
      | error e => exact h
      | ok found => cases found <;> exact ⟨h.image, h.row⟩
  | deleteAlias id =>
      cases r with
      | error e => cases e <;> exact ⟨h.image, h.row⟩
      | ok path => exact ⟨h.image, h.row⟩
  | aliasPathByID id =>
      cases r with
      | error e => cases e <;> exact ⟨h.image, h.row⟩
      | ok path => exact ⟨h.image, h.row⟩
  | aliasRows =>
      cases r with
      | error e => exact h
      | ok rows =>
          have moved : ∃ progress, l.recordStatement P .aliasRows (.ok rows) =
              { l with progress := progress } := by
            unfold Ledger.recordStatement
            dsimp only
            split
            · split <;> exact ⟨_, rfl⟩
            · exact ⟨_, rfl⟩
          obtain ⟨progress, eq⟩ := moved
          rw [eq]
          exact ⟨h.image, h.row⟩
  | _ => cases r <;> exact ⟨h.image, h.row⟩

theorem Link.step (h : Link l d) (a : Action) (r : Response a) :
    Link (l.record P a r) (d.record a r) := by
  cases a with
  | sync s =>
      cases s with
      | lockImage id => exact ⟨rfl, h.row⟩
      | unlockImage id => exact ⟨rfl, nofun⟩
      | _ => exact ⟨h.image, h.row⟩
  | statement q => exact h.statement q r
  | file b =>
      have same : (d.recordFile b r).image = d.image ∧ (d.recordFile b r).row = d.row := by
        unfold Chores.recordFile
        split
        all_goals first
          | exact ⟨rfl, rfl⟩
          | (split <;> exact ⟨rfl, rfl⟩)
      obtain ⟨_, _, _, _, _, _, _, eq⟩ := recordFile_frame (P := P) l b r
      rw [Ledger.record, eq]
      exact ⟨same.1.trans h.image, fun v row => same.2.trans (h.row v row)⟩
  | index s =>
      obtain ⟨_, _, _, _, eq⟩ := recordIndex_frame l s
      rw [Ledger.record, eq]
      exact ⟨h.image, h.row⟩
  | newUUID => cases r <;> exact ⟨h.image, h.row⟩
  | _ => exact ⟨h.image, h.row⟩

/-- What an answer can change of the files among the chores. -/
inductive Recasts (d : Chores) : (a : Action) → Response a → Chores → Prop
  | same (a : Action) (r : Response a) (d' : Chores) : storedBy a r = none → d'.placed = d.placed →
      d'.thumb = d.thumb → d'.doomed = d.doomed → d'.bare = d.bare →
      (d'.updated = true → d.updated = true ∧
        (d'.image = d.image ∨ ∃ id, a = .sync (.lockImage id))) → Recasts d a r d'
  | created (v : Image) : d.readyFor v → Recasts d (.statement (.createImage v)) (.ok ())
      { d with placed := none, thumb := none }
  | imported (v : Image) (m : Alias) : d.readyFor v → Recasts d (.statement (.createImport v m)) (.ok ())
      { d with placed := none, thumb := none }
  | replaced (v : Image) : d.placed = some v.storageKey → d.doomed = none →
      Recasts d (.statement (.updateContent v)) (.ok true)
        { d with placed := none, doomed := d.row.map Image.storageKey, updated := true }
  | deleted (id : GoString) (v : Image) : d.doomed = none → d.bare = none → d.updated = false →
      validKey v.storageKey = true → Recasts d (.statement (.deleteImage id)) (.ok v)
        { d with doomed := some v.storageKey, bare := (some id).filter validKey }
  | placed (path key : GoString) : d.placed = none →
      Recasts d (.file (.rename path .images key)) (.ok ()) { d with placed := some key }
  | drawn (path id : GoString) : validKey id = true → d.thumb = none →
      Recasts d (.file (.rename path .thumbnails id)) (.ok ()) { d with thumb := some id }
  | redrawn (path id : GoString) : validKey id = true → d.updated = true → d.image = some id →
      Recasts d (.file (.rename path .thumbnails id)) (.ok ()) d
  | unlinked (key : GoString) : Recasts d (.file (.remove .images key)) (.ok ())
      { d with
        placed := d.placed.filter fun k => k != key
        doomed := d.doomed.filter fun k => k != key }
  | cleared (id : GoString) : Recasts d (.file (.remove .thumbnails id)) (.ok ())
      { d with
        thumb := d.thumb.filter fun k => k != id
        bare := d.bare.filter fun k => k != id }

theorem statement_recasts (q : Statement) (r : Except DatabaseError q.Value)
    (permits : d.permits (.statement q)) (reported : Chores.reports (.statement q) r) :
    Recasts d (.statement q) r (d.recordStatement q r) := by
  cases q with
  | createImage v =>
      cases r with
      | error e => exact .same _ _ _ rfl rfl rfl rfl rfl fun updated => ⟨updated, .inl rfl⟩
      | ok u => exact .created v permits
  | createImport v m =>
      cases r with
      | error e => exact .same _ _ _ rfl rfl rfl rfl rfl fun updated => ⟨updated, .inl rfl⟩
      | ok u => exact .imported v m permits
  | updateContent v =>
      cases r with
      | error e => exact .same _ _ _ rfl rfl rfl rfl rfl fun updated => ⟨updated, .inl rfl⟩
      | ok found =>
          cases found with
          | false => exact .same _ _ _ rfl rfl rfl rfl rfl fun updated => ⟨updated, .inl rfl⟩
          | true => exact .replaced v permits.1 permits.2.1
  | deleteImage id =>
      cases r with
      | error e => exact .same _ _ _ rfl rfl rfl rfl rfl fun updated => ⟨updated, .inl rfl⟩
      | ok v => exact .deleted id v permits.1 permits.2.1 permits.2.2 reported
  | getImage id =>
      cases r with
      | error e => exact .same _ _ _ rfl rfl rfl rfl rfl fun updated => ⟨updated, .inl rfl⟩
      | ok v =>
          change Recasts d _ _ (if d.image = some id then { d with row := some v } else d)
          split <;> exact .same _ _ _ rfl rfl rfl rfl rfl fun updated => ⟨updated, .inl rfl⟩
  | _ => cases r <;> exact .same _ _ _ rfl rfl rfl rfl rfl fun updated => ⟨updated, .inl rfl⟩

theorem record_recasts (a : Action) (r : Response a) (permits : d.permits a)
    (reported : Chores.reports a r) : Recasts d a r (d.record a r) := by
  cases a with
  | sync s =>
      cases s with
      | lockImage id =>
          exact .same _ _ _ rfl rfl rfl rfl rfl fun updated => ⟨updated, .inr ⟨id, rfl⟩⟩
      | unlockImage id => exact .same _ _ _ rfl rfl rfl rfl rfl nofun
      | _ => exact .same _ _ _ rfl rfl rfl rfl rfl fun updated => ⟨updated, .inl rfl⟩
  | statement q => exact statement_recasts q r permits reported
  | file b =>
      cases b with
      | rename path folder key =>
          cases r with
          | error e =>
              cases folder <;>
                exact .same _ _ _ rfl rfl rfl rfl rfl fun updated => ⟨updated, .inl rfl⟩
          | ok u =>
              cases folder with
              | images => exact .placed path key permits
              | thumbnails =>
                  change Recasts d _ _ (if d.updated = true then d else { d with thumb := some key })
                  split
                  · rename_i updated
                    exact .redrawn path key permits.1 updated (permits.2.2 updated)
                  · rename_i fresh
                    exact .drawn path key permits.1 (permits.2.1 (by simpa using fresh))
              | temporary =>
                  exact .same _ _ _ rfl rfl rfl rfl rfl fun updated => ⟨updated, .inl rfl⟩
      | remove folder key =>
          obtain rfl : r = .ok () := reported
          cases folder with
          | images => exact .unlinked key
          | thumbnails => exact .cleared key
          | temporary => exact .same _ _ _ rfl rfl rfl rfl rfl fun updated => ⟨updated, .inl rfl⟩
      | _ => cases r <;> exact .same _ _ _ rfl rfl rfl rfl rfl fun updated => ⟨updated, .inl rfl⟩
  | _ => exact .same _ _ _ rfl rfl rfl rfl rfl fun updated => ⟨updated, .inl rfl⟩

theorem filter_other {m : Option GoString} {k key : GoString} (some' : m = some k) (other : key ≠ k) :
    m.filter (fun k => k != key) = some k := by
  rw [some', Option.filter_some, if_pos (by simpa using Ne.symm other)]

/-- A placed file stays a chore until it has a row or is removed. -/
theorem placed_fate {d' : Chores} (noted : Recasts d a r d') (placed : d.placed = some k) :
    d'.placed = some k ∨ (∃ v ∈ storedBy a r, v.storageKey = k) ∨
      (⟨a, r⟩ : Answer Response) = ⟨.file (.remove .images k), .ok ()⟩ := by
  have stored {v : Image} (named : d.placed = some v.storageKey) : v.storageKey = k :=
    Option.some.inj (named.symm.trans placed)
  cases noted with
  | same a r d' _ same => exact .inl (same.trans placed)
  | created v ready => exact .inr (.inl ⟨v, rfl, stored ready.1⟩)
  | imported v m ready => exact .inr (.inl ⟨v, rfl, stored ready.1⟩)
  | replaced v named => exact .inr (.inl ⟨v, rfl, stored named⟩)
  | placed path key none =>
      rw [none] at placed
      cases placed
  | unlinked key =>
      by_cases same : key = k
      · exact .inr (.inr (by rw [same]))
      · exact .inl (filter_other placed same)
  | _ => exact .inl placed

/-- A doomed file stays a chore until it is removed. -/
theorem doomed_fate {d' : Chores} (noted : Recasts d a r d') (doomed : d.doomed = some k) :
    d'.doomed = some k ∨ (⟨a, r⟩ : Answer Response) = ⟨.file (.remove .images k), .ok ()⟩ := by
  cases noted with
  | same a r d' _ _ _ same => exact .inl (same.trans doomed)
  | replaced v _ none =>
      rw [none] at doomed
      cases doomed
  | deleted id v none =>
      rw [none] at doomed
      cases doomed
  | unlinked key =>
      by_cases same : key = k
      · exact .inr (by rw [same])
      · exact .inl (filter_other doomed same)
  | _ => exact .inl doomed

theorem thumb_fate {d' : Chores} (noted : Recasts d a r d') (thumb : d.thumb = some id) :
    d'.thumb = some id ∨ (∃ v ∈ storedBy a r, v.id = id) ∨
      (⟨a, r⟩ : Answer Response) = ⟨.file (.remove .thumbnails id), .ok ()⟩ := by
  cases noted with
  | same a r d' _ _ same => exact .inl (same.trans thumb)
  | created v ready => exact .inr (.inl ⟨v, rfl, (ready.2 id thumb).symm⟩)
  | imported v m ready => exact .inr (.inl ⟨v, rfl, (ready.2 id thumb).symm⟩)
  | drawn path key _ none =>
      rw [none] at thumb
      cases thumb
  | cleared key =>
      by_cases same : key = id
      · exact .inr (.inr (by rw [same]))
      · exact .inl (filter_other thumb same)
  | _ => exact .inl thumb

theorem bare_fate {d' : Chores} (noted : Recasts d a r d') (bare : d.bare = some id) :
    d'.bare = some id ∨ (⟨a, r⟩ : Answer Response) = ⟨.file (.remove .thumbnails id), .ok ()⟩ := by
  cases noted with
  | same a r d' _ _ _ _ same => exact .inl (same.trans bare)
  | deleted id v _ none =>
      rw [none] at bare
      cases bare
  | cleared key =>
      by_cases same : key = id
      · exact .inr (by rw [same])
      · exact .inl (filter_other bare same)
  | _ => exact .inl bare

end Fates

section Rows

/-- The row of an image after its row has been replaced by one with the same identifier. -/
theorem replaced_row {db db' : Database} {row : Image} (replaced : db.replaceImage row = some db')
    (member : v ∈ db.images) :
    (v.id = row.id ∧ row ∈ db'.images) ∨ (v.id ≠ row.id ∧ v ∈ db'.images) := by
  rw [(replaceImage_some replaced).1]
  by_cases same : v.id = row.id
  · exact .inl ⟨same, List.mem_map.mpr ⟨v, member, if_pos same⟩⟩
  · exact .inr ⟨same, List.mem_map.mpr ⟨v, member, if_neg same⟩⟩

/-- A deletion that fails and is not interrupted has no effect. -/
theorem failed_deletion {e : DatabaseError}
    (performed : σ.perform P i (.statement (.deleteImage id)) c = some (.error e, σ'))
    (seen : c ≠ .interrupted) : σ'.database = σ.database := by
  cases c with
  | interrupted => exact absurd rfl seen
  | normal =>
      obtain ⟨failed, rfl⟩ := Prod.mk.inj (Option.some.inj performed)
      exact execute_error failed
  | fault =>
      cases performed
      rfl
  | _ => cases performed

/-- A row keeps its key, or it is deleted, or it gets another file from the call that has read it. -/
theorem row_fate (recalled : Recalled σ.database σ.issued ls) (permitted : (ls i).permits P a)
    (performed : σ.perform P i a c = some (r, σ'))
    (seen : ∀ id, a = .statement (.deleteImage id) → c ≠ .interrupted)
    (member : v ∈ σ.database.images) :
    (∃ w ∈ σ'.database.images, w.id = v.id ∧ w.storageKey = v.storageKey) ∨
      (⟨a, r⟩ : Answer Response) = ⟨.statement (.deleteImage v.id), .ok v⟩ ∨
      ∃ u, (⟨a, r⟩ : Answer Response) = ⟨.statement (.updateContent u), .ok true⟩ ∧
        (ls i).row = some v ∧ ∃ w ∈ σ'.database.images, w.id = v.id := by
  cases a with
  | statement q =>
      obtain ⟨-, permitted⟩ := permitted
      have change := statement_change performed
      have kept (same : σ'.database.images = σ.database.images) :
          ∃ w ∈ σ'.database.images, w.id = v.id ∧ w.storageKey = v.storageKey :=
        ⟨v, same ▸ member, rfl, rfl⟩
      have unseen : ∀ id e, (⟨.statement q, r⟩ : Answer Response) =
          ⟨.statement (.deleteImage id), .error e⟩ → σ'.database = σ.database := by
        rintro id e eq
        cases eq
        exact failed_deletion performed (seen id rfl)
      generalize σ'.database = db' at change kept unseen ⊢
      cases change with
      | created u db' stored =>
          rw [(insertImage_some stored).1]
          exact .inl ⟨v, List.mem_append_left _ member, rfl, rfl⟩
      | imported u m db₁ db₂ stored mapped =>
          rw [(insertAlias_some mapped).1, (insertImage_some stored).1]
          exact .inl ⟨v, List.mem_append_left _ member, rfl, rfl⟩
      | erased id row found =>
          by_cases same : v.id = id
          · subst same
            obtain rfl : v = row := Option.some.inj ((image?_of_mem member).symm.trans found)
            exact .inr (.inl rfl)
          · exact .inl ⟨v, mem_removeImage.mpr ⟨member, same⟩, rfl, rfl⟩
      | erasedUnseen id row found =>
          -- only an interrupted deletion takes effect and fails
          exact .inl (kept (by rw [unseen id _ rfl]))
      | shown id visibility row db' found replaced =>
          rcases replaced_row replaced member with ⟨same, there⟩ | ⟨-, there⟩
          · obtain rfl : v = row :=
              Option.some.inj ((image?_of_mem member).symm.trans (same ▸ image?_of_mem (image?_some found).1))
            exact .inl ⟨_, there, rfl, rfl⟩
          · exact .inl ⟨v, there, rfl, rfl⟩
      | replaced u row db' found replaced =>
          obtain ⟨-, -, -, ⟨old, read, own, -⟩, -⟩ := permitted
          rcases replaced_row replaced member with ⟨same, there⟩ | ⟨-, there⟩
          · rw [withContent_id] at same
            have current : old = v := by
              have first := image?_of_mem (recalled.row i old read)
              have second := image?_of_mem member
              rw [own, ← (image?_some found).2, ← same, second] at first
              exact (Option.some.inj first).symm
            refine .inr (.inr ⟨u, rfl, current ▸ read, _, there, ?_⟩)
            rw [withContent_id, same]
          · exact .inl ⟨v, there, rfl, rfl⟩
      | aliased m db' present mapped =>
          rw [(insertAlias_some mapped).1]
          exact .inl ⟨v, member, rfl, rfl⟩
      | unaliased id row found => exact .inl ⟨v, member, rfl, rfl⟩
      | unaliasedUnseen id row found => exact .inl ⟨v, member, rfl, rfl⟩
      | none q r db' reading images aliases => exact .inl (kept images)
  | _ =>
      rw [(perform_frame performed).database (by simp)]
      exact .inl ⟨v, member, rfl, rfl⟩

end Rows

section Invariant

/-- A file that no row at the start refers to. -/
def StrayImage (σ : State) (k : GoString) : Prop :=
  k ∈ σ.files.images ∧ ∀ v ∈ σ.database.images, v.storageKey ≠ k

/-- A thumbnail of no row at the start, or with a name that no thumbnail is given. -/
def StrayThumbnail (σ : State) (id : GoString) : Prop :=
  id ∈ σ.files.thumbnails ∧ ∀ v ∈ σ.database.images, v.id = id → validKey id = false

/-- Every file is a stray, or has a row, or is among the chores of a call. -/
structure Kempt (σ₀ σ : State) (ls : Nat → Ledger) (ds : Nat → Chores) : Prop where
  links : ∀ j, Link (ls j) (ds j)
  valid : ∀ v ∈ σ.database.images, validKey v.storageKey = true
  placed : ∀ j k, (ds j).placed = some k → validKey k = true
  images : ∀ k ∈ σ.files.images, StrayImage σ₀ k ∨ (∃ v ∈ σ.database.images, v.storageKey = k) ∨
    ∃ j, (ds j).placed = some k ∨ (ds j).doomed = some k
  thumbnails : ∀ id ∈ σ.files.thumbnails, StrayThumbnail σ₀ id ∨ validKey id = true ∧
    ((∃ v ∈ σ.database.images, v.id = id) ∨ ∃ j, (ds j).thumb = some id ∨ (ds j).bare = some id)
  updated : ∀ j, (ds j).updated = true → ∃ v ∈ σ.database.images, (ds j).image = some v.id

/-- The answers that the chores rely on are the ones the system gives. -/
theorem Kempt.reports (h : Kempt σ₀ σ ls ds) (performed : σ.perform P i a c = some (r, σ'))
    (tidies : Tidy (⟨i, a, c, r⟩ : Event (machine P))) : Chores.reports a r := by
  unfold Chores.reports
  split
  · -- the answer is the row that was there
    have answer := (statement_answer performed (by simp)).1
    dsimp only [Database.execute] at answer
    split at answer
    · cases answer
    · rename_i row found
      cases answer
      exact h.valid _ (image?_some found).1
  · exact (getImage_reads performed).2
  · rename_i folder key r
    have tried := tidies.1 folder key rfl
    cases c with
    | normal =>
        cases performed
        rfl
    | fault => exact absurd rfl tried
    | _ => cases performed
  · trivial

/-- The chores after an action of caller `i`. -/
abbrev rechore (ds : Nat → Chores) (i : Nat) (a : Action) (r : Response a) : Nat → Chores :=
  Function.update ds i ((ds i).record a r)

theorem Kempt.images_step (h : Kempt σ₀ σ ls ds) (sound : Sound P requests σ ls)
    (permitted : (ls i).permits P a) (performed : σ.perform P i a c = some (r, σ'))
    (tidies : Tidy (⟨i, a, c, r⟩ : Event (machine P))) (noted : Recasts (ds i) a r ((ds i).record a r))
    (there : k ∈ σ'.files.images) :
    StrayImage σ₀ k ∨ (∃ v ∈ σ'.database.images, v.storageKey = k) ∨
      ∃ j, (rechore ds i a r j).placed = some k ∨ (rechore ds i a r j).doomed = some k := by
  have own (mine : ((ds i).record a r).placed = some k ∨ ((ds i).record a r).doomed = some k) :
      ∃ j, (rechore ds i a r j).placed = some k ∨ (rechore ds i a r j).doomed = some k :=
    ⟨i, by rwa [rechore, Function.update_self]⟩
  rcases stays_or_placed (by simp) performed there with ⟨was, kept⟩ | ⟨path, eq⟩
  · rcases h.images k was with stray | ⟨v, member, rfl⟩ | ⟨j, chore⟩
    · exact .inl stray
    · refine .inr ?_
      rcases row_fate sound.recalled permitted performed tidies.2 member with
        ⟨w, there, -, key⟩ | eq | ⟨u, eq, read, -⟩
      · exact .inl ⟨w, there, key⟩
      · cases eq
        exact .inr (own (.inr rfl))
      · cases eq
        refine .inr (own (.inr ?_))
        change (ds i).row.map Image.storageKey = some v.storageKey
        rw [(h.links i).row v read, Option.map_some]
    · by_cases self : j = i
      · subst self
        rcases chore with placed | doomed
        · rcases placed_fate noted placed with still | ⟨v, stores, rfl⟩ | removed
          · exact .inr (.inr (own (.inl still)))
          · obtain ⟨w, there, -, key⟩ := stored_row performed stores
            exact .inr (.inl ⟨w, there, key⟩)
          · exact absurd removed kept
        · rcases doomed_fate noted doomed with still | removed
          · exact .inr (.inr (own (.inr still)))
          · exact absurd removed kept
      · exact .inr (.inr ⟨j, by rwa [rechore, Function.update_of_ne self]⟩)
  · cases eq
    exact .inr (.inr (own (.inl rfl)))

theorem Kempt.thumbnails_step (h : Kempt σ₀ σ ls ds) (sound : Sound P requests σ ls)
    (permitted : (ls i).permits P a) (performed : σ.perform P i a c = some (r, σ'))
    (permits : (ds i).permits a) (tidies : Tidy (⟨i, a, c, r⟩ : Event (machine P)))
    (noted : Recasts (ds i) a r ((ds i).record a r)) (there : id ∈ σ'.files.thumbnails) :
    StrayThumbnail σ₀ id ∨ validKey id = true ∧ ((∃ v ∈ σ'.database.images, v.id = id) ∨
      ∃ j, (rechore ds i a r j).thumb = some id ∨ (rechore ds i a r j).bare = some id) := by
  have own (mine : ((ds i).record a r).thumb = some id ∨ ((ds i).record a r).bare = some id) :
      ∃ j, (rechore ds i a r j).thumb = some id ∨ (rechore ds i a r j).bare = some id :=
    ⟨i, by rwa [rechore, Function.update_self]⟩
  rcases stays_or_placed (by simp) performed there with ⟨was, kept⟩ | ⟨path, eq⟩
  · rcases h.thumbnails id was with stray | ⟨valid, ⟨v, member, rfl⟩ | ⟨j, chore⟩⟩
    · exact .inl stray
    · refine .inr ⟨valid, ?_⟩
      rcases row_fate sound.recalled permitted performed tidies.2 member with
        ⟨w, there, same, -⟩ | eq | ⟨u, -, -, w, there, same⟩
      · exact .inl ⟨w, there, same⟩
      · cases eq
        refine .inr (own (.inr ?_))
        change (some v.id).filter validKey = some v.id
        rw [Option.filter_some, if_pos valid]
      · exact .inl ⟨w, there, same⟩
    · refine .inr ⟨valid, ?_⟩
      by_cases self : j = i
      · subst self
        rcases chore with thumb | bare
        · rcases thumb_fate noted thumb with still | ⟨v, stores, rfl⟩ | removed
          · exact .inr (own (.inl still))
          · obtain ⟨w, there, same, -⟩ := stored_row performed stores
            exact .inl ⟨w, there, same⟩
          · exact absurd removed kept
        · rcases bare_fate noted bare with still | removed
          · exact .inr (own (.inr still))
          · exact absurd removed kept
      · exact .inr ⟨j, by rwa [rechore, Function.update_of_ne self]⟩
  · cases eq
    obtain ⟨valid, -, image⟩ := permits
    refine .inr ⟨valid, ?_⟩
    by_cases updated : (ds i).updated = true
    · -- the call has the lock of an image that is there
      obtain ⟨v, member, same⟩ := h.updated i updated
      rw [(perform_frame performed).database (by simp)]
      exact .inl ⟨v, member, Option.some.inj (same.symm.trans (image updated))⟩
    · refine .inr (own (.inl ?_))
      change (if (ds i).updated = true then ds i else { ds i with thumb := some id }).thumb = some id
      rw [if_neg updated]

/-- The image that a call has given another file is still there, since the call has its lock. -/
theorem Kempt.updated_step (h : Kempt σ₀ σ ls ds) (sound : Sound P requests σ ls)
    (permitted : (ls i).permits P a) (permits : (ds i).permits a)
    (performed : σ.perform P i a c = some (r, σ')) (tidies : Tidy (⟨i, a, c, r⟩ : Event (machine P)))
    (noted : Recasts (ds i) a r ((ds i).record a r)) (j : Nat)
    (updated : (rechore ds i a r j).updated = true) :
    ∃ v ∈ σ'.database.images, (rechore ds i a r j).image = some v.id := by
  have older (before : (ds j).updated = true) : ∃ v ∈ σ'.database.images, (ds j).image = some v.id := by
    obtain ⟨v, member, image⟩ := h.updated j before
    rcases row_fate sound.recalled permitted performed tidies.2 member with
      ⟨w, there, same, -⟩ | eq | ⟨u, -, -, w, there, same⟩
    · exact ⟨w, there, by rw [image, same]⟩
    · cases eq
      have held : (ls j).image = some v.id := by rw [← (h.links j).image, image]
      obtain rfl : j = i := sound.locks.image_holder held permitted.2.2.1
      have fresh : (ds j).updated = false := permits.2.2
      rw [fresh] at before
      cases before
    · exact ⟨w, there, by rw [image, same]⟩
  by_cases self : j = i
  · subst self
    rw [rechore, Function.update_self] at updated ⊢
    generalize (ds j).record a r = d' at noted updated ⊢
    cases noted with
    | same a r d' _ _ _ _ _ kept =>
        obtain ⟨before, image | ⟨id, rfl⟩⟩ := kept updated
        · rw [image]
          exact older before
        · obtain ⟨v, -, image⟩ := h.updated j before
          have free : (ls j).image = none := permitted.2.1
          rw [(h.links j).image, free] at image
          cases image
    | replaced v =>
        obtain ⟨w, there, same, -⟩ := stored_row (v := v) performed rfl
        refine ⟨w, there, ?_⟩
        change (ds j).image = some w.id
        rw [(h.links j).image, same]
        exact permitted.2.2.1
    | _ => exact older updated
  · rw [rechore, Function.update_of_ne self] at updated ⊢
    exact older updated

theorem Kempt.placed_step (h : Kempt σ₀ σ ls ds) (permitted : (ls i).permits P a)
    (noted : Recasts (ds i) a r ((ds i).record a r)) (j : Nat) (k : GoString)
    (placed : (rechore ds i a r j).placed = some k) : validKey k = true := by
  by_cases self : j = i
  · subst self
    rw [rechore, Function.update_self] at placed
    generalize (ds j).record a r = d' at noted placed
    cases noted with
    | same a r d' _ same => exact h.placed j k (same.symm.trans placed)
    | created v => cases placed
    | imported v m => cases placed
    | replaced v => cases placed
    | placed path key =>
        cases placed
        exact permitted.2.2.2.2
    | unlinked key => exact h.placed j k (Option.eq_some_of_filter_eq_some placed)
    | _ => exact h.placed j k placed
  · rw [rechore, Function.update_of_ne self] at placed
    exact h.placed j k placed

theorem storedBy_ready (permits : d.permits a) (stores : v ∈ storedBy a r) :
    d.placed = some v.storageKey := by
  unfold storedBy at stores
  split at stores
  · cases stores
    exact permits.1
  · cases stores
    exact permits.1
  · cases stores
    exact permits.1
  · cases stores

theorem Kempt.step (h : Kempt σ₀ σ ls ds) (sound : Sound P requests σ ls)
    (permitted : (ls i).permits P a) (permits : (ds i).permits a)
    (performed : σ.perform P i a c = some (r, σ')) (tidies : Tidy (⟨i, a, c, r⟩ : Event (machine P))) :
    Kempt σ₀ σ' (Function.update ls i ((ls i).record P a r)) (rechore ds i a r) where
  links j := by
    by_cases self : j = i
    · subst self
      rw [rechore, Function.update_self, Function.update_self]
      exact (h.links j).step a r
    · rw [rechore, Function.update_of_ne self, Function.update_of_ne self]
      exact h.links j
  valid v member := by
    rcases row_origin permitted performed member with ⟨u, old, -, key, -⟩ | ⟨u, f, stores, -, -, key, -⟩
    · rw [← key]
      exact h.valid u old
    · rw [← key]
      exact h.placed i _ (storedBy_ready permits stores)
  placed j k := h.placed_step permitted (record_recasts a r permits (h.reports performed tidies)) j k
  images _ := h.images_step sound permitted performed tidies
    (record_recasts a r permits (h.reports performed tidies))
  thumbnails _ := h.thumbnails_step sound permitted performed permits tidies
    (record_recasts a r permits (h.reports performed tidies))
  updated := h.updated_step sound permitted permits performed tidies
    (record_recasts a r permits (h.reports performed tidies))

theorem Kempt.environment (h : Kempt σ₀ σ ls ds) (moved : σ.environment σ') : Kempt σ₀ σ' ls ds := by
  obtain ⟨t, -, rfl⟩ := moved
  exact ⟨h.links, h.valid, h.placed, h.images, h.thumbnails, h.updated⟩

theorem Kempt.begin (valid : ∀ v ∈ σ.database.images, validKey v.storageKey = true) :
    Kempt σ σ (fun j => Ledger.begin (requests j)) fun _ => .none := by
  refine ⟨fun j => ⟨rfl, nofun⟩, valid, nofun, ?_, ?_, nofun⟩
  · intro k there
    by_cases row : ∃ v ∈ σ.database.images, v.storageKey = k
    · exact .inr (.inl row)
    · exact .inl ⟨there, fun v member key => row ⟨v, member, key⟩⟩
  · intro id there
    by_cases row : ∃ v ∈ σ.database.images, v.id = id ∧ validKey id = true
    · obtain ⟨v, member, same, valid⟩ := row
      exact .inr ⟨valid, .inl ⟨v, member, same⟩⟩
    · refine .inl ⟨there, fun v member same => ?_⟩
      by_contra valid
      exact row ⟨v, member, same, by simpa using valid⟩

end Invariant

section Runs

/-- The chores of all calls. -/
abbrev chores (P : Platform) : Watch (machine P) Result where
  discipline := choreDiscipline
  begin _ := Chores.none
  Final _ _ d := d.Done

theorem kempt_beside (σ₀ : State) :
    (watch P requests).KeepsBeside (chores P) (tidily P requests)
      (fun _ σ ls => Sound P requests σ ls ∧ True)
      fun τ σ ls ds => Kempt σ₀ σ ls ds ∧ Unbegun (fun _ => Chores.none) τ ds where
  call := by
    rintro τ w ls ds i a next c r σ - - ⟨sound, -⟩ ⟨kempt, rested⟩ - permitted permits performed tidies
    exact ⟨kempt.reports performed tidies,
      kempt.step sound permitted permits performed tidies, rested.step⟩
  environment := fun _ ⟨kempt, rested⟩ moved => ⟨kempt.environment moved, rested⟩
  crash := fun crashed => absurd crashed id

/-- The key of a row that `Build` has accepted is one that a file can have. -/
theorem built_valid (indexed : σ.Indexed P) : ∀ v ∈ σ.database.images, validKey v.storageKey = true := by
  obtain ⟨L, built, -⟩ := indexed
  intro v member
  obtain ⟨s, readable⟩ := (built_describes built).readable v member
  change sizeIn σ.files.images v.storageKey = .ok s at readable
  by_contra invalid
  rw [sizeIn, if_pos (by simpa using invalid)] at readable
  cases readable

/-- In a run without crashes in which removals succeed, when every call that has begun has ended, every
file and every thumbnail has a row, but for those that had none at the start. -/
theorem nothing_left_over {w : World (machine P) Result} {τ : List (Event (machine P))}
    (begins : Begins P σ) (run : Run (tidily P requests) (start P requests σ) τ w)
    (ended : ∀ e ∈ τ, ∃ result, w.calls e.call = .done result) :
    (∀ k ∈ w.shared.files.images,
      (∃ v ∈ w.shared.database.images, v.storageKey = k) ∨ StrayImage σ k) ∧
    ∀ id ∈ w.shared.files.thumbnails,
      (∃ v ∈ w.shared.database.images, v.id = id) ∨ StrayThumbnail σ id := by
  have sound : (watch P requests).Keeps (tidily P requests) fun _ σ ls =>
      Sound P requests σ ls ∧ True :=
    keeps ⟨rfl, rfl⟩ (fun _ _ _ => True) (fun _ _ _ _ _ _ => trivial) (fun _ _ _ => trivial)
      fun crashed => absurd crashed id
  obtain ⟨ls, ds, -, obeyed, -, kempt, rested⟩ :=
    run.held_beside sound (kempt_beside σ) ⟨_, _, fun i => request_obeys (requests i),
      fun i => request_tends (requests i), ⟨.begin begins.registered begins.free, trivial⟩,
      .begin (built_valid begins.indexed), fun _ _ => rfl⟩
  have done (j : Nat) : (ds j).Done := by
    by_cases begun : ∃ e ∈ τ, e.call = j
    · obtain ⟨e, member, rfl⟩ := begun
      obtain ⟨result, same⟩ := ended e member
      have final := obeyed e.call
      rw [same] at final
      exact final
    · rw [rested j fun e member same => begun ⟨e, member, same⟩]
      exact ⟨rfl, rfl, rfl, rfl⟩
  constructor
  · intro k there
    rcases kempt.images k there with stray | row | ⟨j, placed | doomed⟩
    · exact .inr stray
    · exact .inl row
    · rw [(done j).placed] at placed
      cases placed
    · rw [(done j).doomed] at doomed
      cases doomed
  · intro id there
    rcases kempt.thumbnails id there with stray | ⟨-, row | ⟨j, thumb | bare⟩⟩
    · exact .inr stray
    · exact .inl row
    · rw [(done j).thumb] at thumb
      cases thumb
    · rw [(done j).bare] at bare
      cases bare

end Runs


section Sample

def isOver : Program Action Response Result → Bool
  | .done _ => true
  | .act _ _ => false

theorem isOver_done {p : Program Action Response Result} (ended : isOver p = true) :
    ∃ result, p = .done result := by
  cases p with
  | done result => exact ⟨result, rfl⟩
  | act a next => cases ended

/-- The sample conversion to its very end. -/
def converted_whole : List (Nat × Choice) := converting ++ List.replicate 8 (1, .normal)

theorem converted_tidy {P : Platform} (e : Event (machine P))
    (member : (e.call, e.choice) ∈ converted_whole) : Tidy e := by
  constructor
  · rintro folder k - fault
    rw [fault] at member
    simp [converted_whole, converting] at member
  · rintro id - interrupted
    rw [interrupted] at member
    simp [converted_whole, converting] at member

theorem nothing_left_over_sample : ∃ (τ : List (Event (machine convertingPlatform)))
    (w : World (machine convertingPlatform) Result),
    Run (tidily convertingPlatform fun _ => sampleConversion)
      (start convertingPlatform (fun _ => sampleConversion)
        (sampleState Processor.pngSignature (str "image/png") .isPublic (by decide))) τ w ∧
    w.shared.database.images.map Image.storageKey = [str "b"] ∧
    ∀ k ∈ w.shared.files.images, ∃ v ∈ w.shared.database.images, v.storageKey = k := by
  have executed : ((start convertingPlatform (fun _ => sampleConversion)
      (sampleState Processor.pngSignature (str "image/png") .isPublic (by decide))).execute
        converted_whole).any (fun out => (out.1.all fun e => e.call == 1) && isOver (out.2.calls 1) &&
          decide (out.2.shared.database.images.map Image.storageKey = [str "b"])) = true := by
    decide +kernel
  obtain ⟨⟨τ, w⟩, executed, tested⟩ := (Option.any_eq_true _ _).mp executed
  simp only [Bool.and_eq_true, List.all_eq_true, beq_iff_eq, decide_eq_true_eq] at tested
  obtain ⟨⟨mine, ended⟩, named⟩ := tested
  have run := Run.of_execute (S := tidily convertingPlatform fun _ => sampleConversion) converted_whole
    (fun _ _ e member _ => converted_tidy e member) executed
  refine ⟨τ, w, run, named, fun k there => ?_⟩
  have swept := nothing_left_over converting_begins run fun e member => by
    rw [mine e member]
    exact isOver_done ended
  rcases swept.1 k there with row | ⟨was, unlisted⟩
  · exact row
  · rw [sampleState, loaded_files] at was
    obtain rfl : k = str "a" := (Finmap.mem_singleton _ _ _).mp was
    exact absurd rfl (unlisted _ (by rw [sample_images]; exact List.mem_singleton_self _))

end Sample

end ImageSilo.Publication
