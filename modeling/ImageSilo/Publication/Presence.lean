import ImageSilo.Publication.Index

/-! No step replaces or removes the file under the key of a row, unless a cleaner unlinks it on a stale
reading. -/
namespace ImageSilo.Publication

open Go Concurrent Storage Tables Delivery

variable {P : Platform} {requests : Nat → Request} {σ σ' : State} {ls : Nat → Ledger} {i : Nat}
  {a : Action} {c : Choice} {r : Response a}

/-- The cleaner unlinks no file that a row or a call still needs. -/
def Spares (σ : State) (ls : Nat → Ledger) (i : Nat) (a : Action) : Prop :=
  ∀ key, a = .file (.remove .images key) → (ls i).condemns key →
    (∀ v ∈ σ.database.images, v.storageKey ≠ key) ∧ ∀ j f, (ls j).placed ≠ some (key, f)

theorem Spares.of_request (sound : Sound P requests σ ls) (other : ∀ age, requests i ≠ .daily age) :
    Spares σ ls i a := by
  rintro key - ⟨age, -, -, -, asked, -⟩
  rw [sound.made] at asked
  exact absurd asked (other age)

/-- Only an explicit removal takes away the file of a spent key. -/
theorem spent_file (permitted : (ls i).permits P a) (performed : σ.perform P i a c = some (r, σ'))
    {k : GoString} (spent : Spent σ.issued ls k) (kept : a ≠ .file (.remove .images k)) :
    σ'.files.images.lookup k = σ.files.images.lookup k := by
  have moved := images_moved permitted performed
  generalize σ'.files.images = images at moved
  cases moved with
  | kept => rfl
  | placed path key entry there =>
      rw [lookup_insert_ite, if_neg]
      rintro rfl
      exact spent.2 i permitted.2.2.1
  | unlinked key =>
      rw [lookup_erase_ite, if_neg]
      rintro rfl
      exact kept rfl

/-- The file of a row stays as it is. -/
theorem row_file (sound : Sound P requests σ ls) (permitted : (ls i).permits P a)
    (performed : σ.perform P i a c = some (r, σ')) (spares : Spares σ ls i a) {v : Image}
    (member : v ∈ σ.database.images) :
    σ'.files.images.lookup v.storageKey = σ.files.images.lookup v.storageKey := by
  refine spent_file permitted performed (sound.keyed.keys v member) ?_
  rintro rfl
  rcases permitted.2 with ⟨f, placed⟩ | dead | condemned
  · exact sound.keyed.unlisted i _ f placed v member rfl
  · exact sound.keyed.removed i _ dead v member rfl
  · exact (spares _ rfl condemned).1 v member rfl

theorem row_size (sound : Sound P requests σ ls) (permitted : (ls i).permits P a)
    (performed : σ.perform P i a c = some (r, σ')) (spares : Spares σ ls i a) {v : Image}
    (member : v ∈ σ.database.images) :
    sizeIn σ'.files.images v.storageKey = sizeIn σ.files.images v.storageKey := by
  unfold sizeIn openRegular
  rw [row_file sound permitted performed spares member]

theorem row_whole (sound : Sound P requests σ ls) (permitted : (ls i).permits P a)
    (performed : σ.perform P i a c = some (r, σ')) (spares : Spares σ ls i a) {v : Image}
    (member : v ∈ σ.database.images) : σ'.whole v ↔ σ.whole v := by
  unfold State.whole Whole
  rw [show (deliveryRow v).storageKey = v.storageKey from rfl,
    row_size sound permitted performed spares member]

/-- What a call has placed is there, under a key that `Build` accepts. -/
structure Placed (σ : State) (ls : Nat → Ledger) : Prop where
  there : ∀ j k f, (ls j).placed = some (k, f) → ∃ entry, σ.files.images.lookup k = some entry
  valid : ∀ j k f, (ls j).placed = some (k, f) → validKey k = true ∧ k ≠ str "."

theorem Placed.begin : Placed σ fun j => Ledger.begin (requests j) :=
  ⟨by simp [Ledger.begin], by simp [Ledger.begin]⟩

/-- The file a call has placed stays until the call itself takes it away. -/
theorem Placed.kept (h : Placed σ ls) (sound : Sound P requests σ ls)
    (permitted : (ls i).permits P a) (performed : σ.perform P i a c = some (r, σ'))
    (spares : Spares σ ls i a) {j : Nat} {k : GoString} {f : Facts}
    (placed : (ls j).placed = some (k, f)) (other : j = i → a ≠ .file (.remove .images k)) :
    ∃ entry, σ'.files.images.lookup k = some entry := by
  rw [spent_file permitted performed (sound.keyed.placed j k f placed)]
  · exact h.there j k f placed
  · by_cases self : j = i
    · exact other self
    · rintro rfl
      rcases permitted.2 with ⟨g, mine⟩ | dead | condemned
      · exact self (sound.keyed.apart j i k f g placed mine)
      · exact sound.keyed.unplaced i k dead j f placed
      · exact (spares k rfl condemned).2 j f placed

theorem renamed_proper {files files' : Files} {path k : GoString} {folder : Folder} {now : Time}
    (performed : files.perform P now (.rename path folder k) c = some (.ok (), files')) :
    k ≠ str "." := by
  rintro rfl
  unfold Files.perform at performed
  cases c <;> simp [Files.renameTo, FileAction.failed] at performed

/-- A ledger gets a placed file from a rename into the images directory, and loses it in a removal. -/
theorem placed_cases (permitted : (ls i).permits P a) (performed : σ.perform P i a c = some (r, σ'))
    {k : GoString} {f : Facts} (placed : ((ls i).record P a r).placed = some (k, f)) :
    ((ls i).placed = some (k, f) ∧ a ≠ .file (.remove .images k)) ∨
      ((∃ entry, σ'.files.images.lookup k = some entry) ∧ validKey k = true ∧ k ≠ str ".") := by
  cases a with
  | statement q => exact .inl ⟨statement_placed (P := P) (ls i) r k f placed, by simp⟩
  | file b =>
      obtain ⟨files, done, rfl⟩ := file_state performed
      by_cases commits : Commits b r
      · have effect := file_effect done
        cases effect with
        | renamed path folder key entry there =>
            cases folder with
            | images =>
                obtain ⟨g, -, eq⟩ := Option.map_eq_some_iff.mp placed
                obtain ⟨rfl, rfl⟩ := Prod.mk.inj eq
                refine .inr ⟨⟨entry, ?_⟩, permitted.2.2.2.2, renamed_proper done⟩
                change (renamed σ.files path .images key entry).images.lookup key = some entry
                rw [images_renamed, if_pos rfl, lookup_insert_ite, if_pos rfl]
            | thumbnails => exact commits.elim
            | temporary => exact commits.elim
        | none b r kept => exact absurd commits kept.not_commits
        | _ => exact commits.elim
      · refine .inl ⟨file_placed (P := P) (ls i) commits k f placed, ?_⟩
        intro removes
        cases removes
        have before := file_placed (P := P) (ls i) commits k f placed
        simp [Ledger.record, Ledger.recordFile, before] at placed
  | sync s =>
      obtain ⟨_, _, _, _, _, eq⟩ := recordSync_frame (ls i) s
      rw [Ledger.record, eq] at placed
      exact .inl ⟨placed, by simp⟩
  | index s =>
      obtain ⟨_, _, _, _, eq⟩ := recordIndex_frame (ls i) s
      rw [Ledger.record, eq] at placed
      exact .inl ⟨placed, by simp⟩
  | newUUID => cases r <;> exact .inl ⟨placed, by simp⟩
  | _ => exact .inl ⟨placed, by simp⟩

theorem Placed.step (h : Placed σ ls) (sound : Sound P requests σ ls)
    (permitted : (ls i).permits P a) (performed : σ.perform P i a c = some (r, σ'))
    (spares : Spares σ ls i a) : Placed σ' (Function.update ls i ((ls i).record P a r)) := by
  constructor
  · intro j k f placed
    by_cases self : j = i
    · rw [self, Function.update_self] at placed
      rcases placed_cases permitted performed placed with ⟨before, other⟩ | ⟨there, -⟩
      · exact h.kept sound permitted performed spares before fun _ => other
      · exact there
    · rw [Function.update_of_ne self] at placed
      exact h.kept sound permitted performed spares placed fun same => absurd same self
  · intro j k f placed
    by_cases self : j = i
    · rw [self, Function.update_self] at placed
      rcases placed_cases permitted performed placed with ⟨before, -⟩ | ⟨-, valid⟩
      · exact h.valid i k f before
      · exact valid
    · rw [Function.update_of_ne self] at placed
      exact h.valid j k f placed

/-- The row that describes a placed file finds it whole. -/
theorem Placed.whole (h : Placed σ ls) (sound : Sound P requests σ ls) {v : Image} {f : Facts}
    (placed : (ls i).placed = some (v.storageKey, f)) (describes : f.describe v) : σ.whole v := by
  obtain ⟨entry, there⟩ := h.there i _ f placed
  obtain ⟨content, regular, size, -⟩ := sound.stored.placed i _ f placed entry there
  obtain ⟨node, t⟩ := entry
  obtain rfl : node = .regular content := regular
  obtain ⟨valid, proper⟩ := h.valid i _ f placed
  exact sizeIn_some.mpr ⟨valid, proper, content, t, there, (size _ describes.1).symm⟩

end ImageSilo.Publication
