import ImageSilo.Publication.Effects

/-! A fresh identifier belongs to the call it was handed to until it is spent, and what is spent stays
spent. -/
namespace ImageSilo.Publication

open Go Concurrent Storage Tables

/-- Handed out or in use from the start, and in no call's hand any more. -/
def Spent (issued : Finset GoString) (ls : Nat → Ledger) (k : GoString) : Prop :=
  k ∈ issued ∧ ∀ j, k ∉ (ls j).pending

section Pending

/-- Fresh identifiers are in one hand each. -/
structure Pending (issued : Finset GoString) (ls : Nat → Ledger) : Prop where
  issued : ∀ i, ∀ k ∈ (ls i).pending, k ∈ issued
  apart : ∀ i j k, k ∈ (ls i).pending → k ∈ (ls j).pending → i = j

variable {P : Platform} {σ σ' : State} {ls : Nat → Ledger} {i : Nat} {a : Action} {c : Choice}
  {r : Response a} {issued issued' : Finset GoString} {l : Ledger} {k : GoString}

theorem Spent.grow (spent : Spent issued ls k) (grown : issued ⊆ issued')
    (kept : ∀ k ∈ l.pending, k ∈ (ls i).pending ∨ k ∉ issued) :
    Spent issued' (Function.update ls i l) k := by
  refine ⟨grown spent.1, ?_⟩
  intro j held
  by_cases self : j = i
  · subst self
    rw [Function.update_self] at held
    rcases kept k held with old | new
    · exact spent.2 j old
    · exact new spent.1
  · rw [Function.update_of_ne self] at held
    exact spent.2 j held

theorem Pending.grow (h : Pending issued ls) (grown : issued ⊆ issued')
    (kept : ∀ k ∈ l.pending, k ∈ (ls i).pending ∨ k ∉ issued ∧ k ∈ issued') :
    Pending issued' (Function.update ls i l) := by
  constructor
  · intro j k held
    by_cases self : j = i
    · subst self
      rw [Function.update_self] at held
      rcases kept k held with old | new
      · exact grown (h.issued j k old)
      · exact new.2
    · rw [Function.update_of_ne self] at held
      exact grown (h.issued j k held)
  · intro j j' k held held'
    by_cases self : j = i
    · by_cases self' : j' = i
      · exact self.trans self'.symm
      · rw [self, Function.update_self] at held
        rw [Function.update_of_ne self'] at held'
        rcases kept k held with old | new
        · exact self.trans (h.apart i j' k old held')
        · exact absurd (h.issued j' k held') new.1
    · rw [Function.update_of_ne self] at held
      by_cases self' : j' = i
      · rw [self', Function.update_self] at held'
        rcases kept k held' with old | new
        · exact (h.apart j i k held old).trans self'.symm
        · exact absurd (h.issued j k held) new.1
      · rw [Function.update_of_ne self'] at held'
        exact h.apart j j' k held held'

/-- What leaves the hand of its only holder is spent. -/
theorem Pending.spend (h : Pending issued ls) (held : k ∈ (ls i).pending)
    (spent : l.pending = (ls i).pending.erase k) :
    Spent issued (Function.update ls i l) k := by
  refine ⟨h.issued i k held, ?_⟩
  intro j held'
  by_cases self : j = i
  · subst self
    rw [Function.update_self, spent] at held'
    exact absurd rfl (Finset.ne_of_mem_erase held')
  · rw [Function.update_of_ne self] at held'
    exact self (h.apart j i k held' held)

theorem statement_pending (l : Ledger) (q : Statement) (r : Except DatabaseError q.Value) :
    (l.recordStatement P q r).pending ⊆ l.pending := by
  by_cases reading : Reading q r
  · obtain ⟨_, _, _, _, _, _, eq⟩ := reading_frame (P := P) l reading
    rw [eq]
  · unfold Reading at reading
    split at reading
    case h_2 => exact Finset.erase_subset _ _
    case h_6 => exact Finset.erase_subset _ _
    case h_8 => exact absurd trivial reading
    all_goals exact Finset.Subset.refl _

theorem file_pending (l : Ledger) (b : FileAction) (r : b.Response) :
    (l.recordFile P b r).pending ⊆ l.pending := by
  unfold Ledger.recordFile
  split
  all_goals first
    | exact Finset.Subset.refl _
    | exact Finset.erase_subset _ _
    | (split <;> exact Finset.Subset.refl _)

theorem pending_step (performed : σ.perform P i a c = some (r, σ')) (l : Ledger) :
    ∀ k ∈ (l.record P a r).pending, k ∈ l.pending ∨ k ∉ σ.issued ∧ k ∈ σ'.issued := by
  intro k held
  cases a with
  | statement q => exact .inl (statement_pending (P := P) l q r held)
  | file b => exact .inl (file_pending (P := P) l b r held)
  | sync s =>
      obtain ⟨_, _, _, _, _, eq⟩ := recordSync_frame l s
      rw [Ledger.record, eq] at held
      exact .inl held
  | index s =>
      obtain ⟨_, _, _, _, eq⟩ := recordIndex_frame l s
      rw [Ledger.record, eq] at held
      exact .inl held
  | newUUID =>
      rcases fresh_state performed with ⟨⟨e, rfl⟩, rfl⟩ | ⟨text, rfl, new, -, rfl⟩
      · exact .inl held
      · rcases Finset.mem_insert.mp held with rfl | old
        · exact .inr ⟨new, Finset.mem_insert_self _ _⟩
        · exact .inl old
  | _ => exact .inl held

theorem Pending.step (h : Pending σ.issued ls) (performed : σ.perform P i a c = some (r, σ')) :
    Pending σ'.issued (Function.update ls i ((ls i).record P a r)) :=
  h.grow (perform_frame performed).issued (pending_step performed (ls i))

theorem Spent.step (spent : Spent σ.issued ls k)
    (performed : σ.perform P i a c = some (r, σ')) :
    Spent σ'.issued (Function.update ls i ((ls i).record P a r)) k := by
  refine spent.grow (perform_frame performed).issued ?_
  intro k held
  exact (pending_step performed (ls i) k held).imp id And.left

end Pending

section Read

/-- What a call has read of the row it has locked, and of the alias it wants to delete, is still so. -/
structure Recalled (db : Database) (issued : Finset GoString) (ls : Nat → Ledger) : Prop where
  locked : ∀ i v, (ls i).row = some v → (ls i).image = some v.id
  row : ∀ i v, (ls i).row = some v → v ∈ db.images
  mapping : ∀ i id path, (ls i).mapping = some (id, path) → Spent issued ls id ∧
    ∀ a ∈ db.aliases, a.id = id → a.path = path

variable {P : Platform} {σ σ' : State} {ls : Nat → Ledger} {i : Nat} {a : Action} {c : Choice}
  {r : Response a}

/-- A statement that does not fail is carried out, and its answer is what it finds. -/
theorem statement_answer {q : Statement} {r : Except DatabaseError q.Value}
    (performed : σ.statement q c = some (r, σ')) (answered : r ≠ .error .failed) :
    (σ.database.execute q).1 = r ∧ σ' = { σ with database := (σ.database.execute q).2 } := by
  unfold State.statement at performed
  split at performed
  · cases performed
    exact ⟨rfl, rfl⟩
  · cases performed
    exact absurd rfl answered
  · split at performed
    · cases performed
      exact absurd rfl answered
    · cases performed
  · cases performed

theorem orNoRows_ok {α : Type} {found : Option α} {v : α} (answered : Database.orNoRows found = .ok v) :
    found = some v := by
  cases found with
  | none => cases answered
  | some w =>
      cases answered
      rfl

theorem getImage_reads {id : GoString} {v : Image}
    (performed : σ.statement (.getImage id) c = some (.ok v, σ')) :
    v ∈ σ.database.images ∧ v.id = id :=
  image?_some (orNoRows_ok (statement_answer performed (by simp)).1)

theorem aliasPathByID_reads {id path : GoString}
    (performed : σ.statement (.aliasPathByID id) c = some (.ok path, σ')) :
    ∃ m ∈ σ.database.aliases, m.id = id ∧ m.path = path := by
  obtain ⟨m, found, same⟩ :=
    Option.map_eq_some_iff.mp (orNoRows_ok (statement_answer performed (by simp)).1)
  obtain ⟨member, eq⟩ := row?_some found
  exact ⟨m, member, eq, same⟩

/-- The identifiers and keys of the tables, of the images directory and of the ledgers are spent, and
what a call has placed or unlinked belongs to no row. -/
structure Keyed (σ : State) (ls : Nat → Ledger) : Prop where
  pending : Pending σ.issued ls
  ids : ∀ v ∈ σ.database.images, Spent σ.issued ls v.id
  keys : ∀ v ∈ σ.database.images, Spent σ.issued ls v.storageKey
  aliases : ∀ m ∈ σ.database.aliases, Spent σ.issued ls m.id
  files : ∀ k entry, σ.files.images.lookup k = some entry → Spent σ.issued ls k
  placed : ∀ j k f, (ls j).placed = some (k, f) → Spent σ.issued ls k
  unlisted : ∀ j k f, (ls j).placed = some (k, f) → ∀ v ∈ σ.database.images, v.storageKey ≠ k
  apart : ∀ j j' k f f', (ls j).placed = some (k, f) → (ls j').placed = some (k, f') → j = j'
  dead : ∀ j k, (ls j).dead = some k → Spent σ.issued ls k
  removed : ∀ j k, (ls j).dead = some k → ∀ v ∈ σ.database.images, v.storageKey ≠ k
  unplaced : ∀ j k, (ls j).dead = some k → ∀ j' f, (ls j').placed ≠ some (k, f)

theorem Recalled.after {db db' : Database} {issued issued' : Finset GoString} {l : Ledger}
    (h : Recalled db issued ls)
    (spent : ∀ k, Spent issued ls k → Spent issued' (Function.update ls i l) k)
    (known : ∀ m ∈ db.aliases, Spent issued ls m.id)
    (others : ∀ j v, j ≠ i → (ls j).row = some v → v ∈ db'.images)
    (mine : ∀ v, l.row = some v → l.image = some v.id ∧ v ∈ db'.images)
    (aliases : ∀ m ∈ db'.aliases, m ∈ db.aliases ∨ ¬ Spent issued ls m.id)
    (mapping : ∀ id path, l.mapping = some (id, path) →
      (ls i).mapping = some (id, path) ∨ ∃ m ∈ db.aliases, m.id = id ∧ m.path = path) :
    Recalled db' issued' (Function.update ls i l) := by
  -- a spent identifier names the alias rows it has always named
  have old : ∀ id path, Spent issued ls id → (∀ m ∈ db.aliases, m.id = id → m.path = path) →
      ∀ m ∈ db'.aliases, m.id = id → m.path = path := by
    intro id path isSpent was m member same
    rcases aliases m member with before | fresh
    · exact was m before same
    · rw [same] at fresh
      exact absurd isSpent fresh
  constructor
  · intro j v row
    by_cases self : j = i
    · subst self
      rw [Function.update_self] at row ⊢
      exact (mine v row).1
    · rw [Function.update_of_ne self] at row ⊢
      exact h.locked j v row
  · intro j v row
    by_cases self : j = i
    · subst self
      rw [Function.update_self] at row
      exact (mine v row).2
    · rw [Function.update_of_ne self] at row
      exact others j v self row
  · intro j id path mapped
    by_cases self : j = i
    · subst self
      rw [Function.update_self] at mapped
      rcases mapping id path mapped with before | ⟨m, member, rfl, rfl⟩
      · obtain ⟨isSpent, was⟩ := h.mapping j id path before
        exact ⟨spent id isSpent, old id path isSpent was⟩
      · refine ⟨spent m.id (known m member), old m.id m.path (known m member) ?_⟩
        intro m' member' same
        rw [db.aliasIDs.eq member' member same]
    · rw [Function.update_of_ne self] at mapped
      obtain ⟨isSpent, was⟩ := h.mapping j id path mapped
      exact ⟨spent id isSpent, old id path isSpent was⟩

theorem mem_removeImage {db : Database} {id : GoString} {v : Image} :
    v ∈ (db.removeImage id).images ↔ v ∈ db.images ∧ v.id ≠ id := by
  simp [Database.removeImage]

theorem mem_replaced {db db' : Database} {v w : Image} (replaced : db.replaceImage v = some db')
    (member : w ∈ db'.images) : w = v ∨ (w ∈ db.images ∧ w.id ≠ v.id) := by
  rw [(replaceImage_some replaced).1] at member
  obtain ⟨u, old, rfl⟩ := List.mem_map.mp member
  split
  · exact .inl rfl
  · rename_i other
    exact .inr ⟨old, other⟩

theorem replaced_mem {db db' : Database} {v w : Image} (replaced : db.replaceImage v = some db')
    (member : w ∈ db.images) (other : w.id ≠ v.id) : w ∈ db'.images := by
  rw [(replaceImage_some replaced).1]
  exact List.mem_map.mpr ⟨w, member, if_neg other⟩

theorem statement_row {l : Ledger} {q : Statement} {r : Except DatabaseError q.Value} {v : Image}
    (performed : σ.statement q c = some (r, σ')) (row : (l.recordStatement P q r).row = some v) :
    l.row = some v ∨ (l.image = some v.id ∧ v ∈ σ.database.images) := by
  unfold Ledger.recordStatement at row
  split at row
  case h_10 =>
    obtain ⟨member, same⟩ := getImage_reads performed
    split at row
    · rename_i locked
      cases row
      rw [same]
      exact .inr ⟨locked, member⟩
    · exact .inl row
  case h_14 =>
    split at row
    · split at row
      · exact .inl row
      · exact .inl row
    · exact .inl row
  all_goals first
    | exact .inl row
    | cases row

theorem statement_mapping {l : Ledger} {q : Statement} {r : Except DatabaseError q.Value}
    {id path : GoString} (performed : σ.statement q c = some (r, σ'))
    (mapped : (l.recordStatement P q r).mapping = some (id, path)) :
    l.mapping = some (id, path) ∨ ∃ m ∈ σ.database.aliases, m.id = id ∧ m.path = path := by
  unfold Ledger.recordStatement at mapped
  split at mapped
  case h_10 =>
    split at mapped
    · exact .inl mapped
    · exact .inl mapped
  case h_11 =>
    cases mapped
    exact .inr (aliasPathByID_reads performed)
  case h_14 =>
    split at mapped
    · split at mapped
      · exact .inl mapped
      · exact .inl mapped
    · exact .inl mapped
  all_goals exact .inl mapped

theorem Recalled.statement (h : Recalled σ.database σ.issued ls) (held : Held σ.locks ls)
    (keyed : Keyed σ ls) {q : Statement} {r : Except DatabaseError q.Value}
    (permitted : (ls i).allows P q) (performed : σ.statement q c = some (r, σ')) :
    Recalled σ'.database σ'.issued (Function.update ls i ((ls i).recordStatement P q r)) := by
  have spent := fun k (s : Spent σ.issued ls k) =>
    s.step (P := P) (i := i) (a := .statement q) performed
  have change := statement_change performed
  have mine : ∀ v, (ls i).row = some v → (ls i).image = some v.id ∧ v ∈ σ.database.images :=
    fun v row => ⟨h.locked i v row, h.row i v row⟩
  -- another call's row is of another image than the one this call has locked
  have elsewhere : ∀ id, (ls i).image = some id → ∀ j v, j ≠ i → (ls j).row = some v →
      v ∈ σ.database.images ∧ v.id ≠ id := by
    intro id locked j v other row
    refine ⟨h.row j v row, ?_⟩
    rintro rfl
    exact other (held.image_holder (h.locked j v row) locked)
  generalize σ'.database = db' at change
  cases change with
  | created v db' stored =>
      obtain ⟨images, aliases, -⟩ := insertImage_some stored
      refine h.after spent keyed.aliases ?_ ?_ ?_ fun _ _ => .inl
      · intro j w _ row
        rw [images]
        exact List.mem_append_left _ (h.row j w row)
      · intro w row
        rw [images]
        exact ⟨(mine w row).1, List.mem_append_left _ (mine w row).2⟩
      · intro m member
        rw [aliases] at member
        exact .inl member
  | imported v a db₁ db₂ stored mapped =>
      obtain ⟨images, aliases, -⟩ := insertImage_some stored
      obtain ⟨images', aliases', -⟩ := insertAlias_some mapped
      refine h.after spent keyed.aliases ?_ ?_ ?_ fun _ _ => .inl
      · intro j w _ row
        rw [images', images]
        exact List.mem_append_left _ (h.row j w row)
      · intro w row
        rw [images', images]
        exact ⟨(mine w row).1, List.mem_append_left _ (mine w row).2⟩
      · intro m member
        rw [aliases', aliases] at member
        rcases List.mem_append.mp member with old | new
        · exact .inl old
        · obtain rfl := List.mem_singleton.mp new
          exact .inr fun isSpent => isSpent.2 i permitted.2.2.2.2.2.2.2.1
  | erased id row found =>
      refine h.after spent keyed.aliases ?_ ?_ ?_ fun _ _ => .inl
      · intro j w other row
        exact mem_removeImage.mpr (elsewhere id permitted.2.1 j w other row)
      · intro w row
        cases row
      · intro m member
        exact .inl (List.mem_of_mem_filter member)
  | erasedUnseen id row found =>
      refine h.after spent keyed.aliases ?_ ?_ ?_ fun _ _ => .inl
      · intro j w other row
        exact mem_removeImage.mpr (elsewhere id permitted.2.1 j w other row)
      · intro w row
        have unread := permitted.2.2.1
        change (ls i).row = some w at row
        rw [unread] at row
        cases row
      · intro m member
        exact .inl (List.mem_of_mem_filter member)
  | shown id visibility row db' found replaced =>
      obtain ⟨-, same⟩ := image?_some found
      refine h.after spent keyed.aliases ?_ ?_ ?_ fun _ _ => .inl
      · intro j w other read
        obtain ⟨member, ne⟩ := elsewhere id permitted.2.1 j w other read
        exact replaced_mem replaced member (by simpa [same] using ne)
      · intro w row
        cases row
      · intro m member
        rw [(replaceImage_some replaced).2] at member
        exact .inl member
  | replaced v row db' found replaced =>
      obtain ⟨-, same⟩ := image?_some found
      refine h.after spent keyed.aliases ?_ ?_ ?_ fun _ _ => .inl
      · intro j w other read
        obtain ⟨member, ne⟩ := elsewhere v.id permitted.2.1 j w other read
        exact replaced_mem replaced member (by simpa [same] using ne)
      · intro w row
        cases row
      · intro m member
        rw [(replaceImage_some replaced).2] at member
        exact .inl member
  | aliased a db' present mapped =>
      obtain ⟨images, aliases, -⟩ := insertAlias_some mapped
      refine h.after spent keyed.aliases ?_ ?_ ?_ fun _ _ => .inl
      · intro j w _ row
        rw [images]
        exact h.row j w row
      · intro w row
        rw [images]
        exact mine w row
      · intro m member
        rw [aliases] at member
        rcases List.mem_append.mp member with old | new
        · exact .inl old
        · obtain rfl := List.mem_singleton.mp new
          exact .inr fun isSpent => isSpent.2 i permitted.2.2.2.1
  | unaliased id row found =>
      refine h.after spent keyed.aliases (fun j w _ => h.row j w) mine ?_ fun _ _ => .inl
      intro m member
      exact .inl (List.mem_of_mem_filter member)
  | unaliasedUnseen id row found =>
      refine h.after spent keyed.aliases (fun j w _ => h.row j w) mine ?_ fun _ _ => .inl
      intro m member
      exact .inl (List.mem_of_mem_filter member)
  | none q r db' reading images aliases =>
      refine h.after spent keyed.aliases ?_ ?_ ?_ ?_
      · intro j w _ row
        rw [images]
        exact h.row j w row
      · intro w row
        rw [images]
        rcases statement_row performed row with before | read
        · obtain ⟨_, _, _, _, _, _, eq⟩ := reading_frame (P := P) (ls i) reading
          rw [eq]
          exact mine w before
        · obtain ⟨_, _, _, _, _, _, eq⟩ := reading_frame (P := P) (ls i) reading
          rw [eq]
          exact read
      · intro m member
        rw [aliases] at member
        exact .inl member
      · intro id path mapped
        exact statement_mapping performed mapped

theorem Recalled.step (h : Recalled σ.database σ.issued ls) (held : Held σ.locks ls)
    (keyed : Keyed σ ls) (permitted : (ls i).permits P a)
    (performed : σ.perform P i a c = some (r, σ')) :
    Recalled σ'.database σ'.issued (Function.update ls i ((ls i).record P a r)) := by
  have spent := fun k (s : Spent σ.issued ls k) => s.step (P := P) (i := i) performed
  have mine : ∀ v, (ls i).row = some v → (ls i).image = some v.id ∧ v ∈ σ.database.images :=
    fun v row => ⟨h.locked i v row, h.row i v row⟩
  cases a with
  | statement q => exact h.statement held keyed permitted.2 performed
  | sync s =>
      rw [(perform_frame performed).database (by simp)]
      refine h.after spent keyed.aliases (fun j w _ => h.row j w) ?_ (fun _ => .inl) ?_
      · intro v row
        cases s with
        | lockImage id =>
            -- a call that takes an image lock held none before, so it has read no row
            have idle : (ls i).image = none := permitted.2.1
            have : (ls i).image = some v.id := h.locked i v row
            rw [idle] at this
            cases this
        | unlockImage id => cases row
        | _ => exact mine v row
      · intro id path mapped
        obtain ⟨_, _, _, _, _, eq⟩ := recordSync_frame (ls i) s
        rw [Ledger.record, eq] at mapped
        exact .inl mapped
  | index s =>
      rw [(perform_frame performed).database (by simp)]
      obtain ⟨_, _, _, _, eq⟩ := recordIndex_frame (ls i) s
      rw [Ledger.record, eq] at spent ⊢
      exact h.after spent keyed.aliases (fun j w _ => h.row j w) mine (fun _ => .inl) fun _ _ => .inl
  | file b =>
      rw [(perform_frame performed).database (by simp)]
      obtain ⟨_, _, _, _, _, _, _, eq⟩ := recordFile_frame (P := P) (ls i) b r
      rw [Ledger.record, eq] at spent ⊢
      exact h.after spent keyed.aliases (fun j w _ => h.row j w) mine (fun _ => .inl) fun _ _ => .inl
  | newUUID =>
      rw [(perform_frame performed).database (by simp)]
      cases r with
      | error e =>
          exact h.after spent keyed.aliases (fun j w _ => h.row j w) mine (fun _ => .inl)
            fun _ _ => .inl
      | ok id =>
          exact h.after spent keyed.aliases (fun j w _ => h.row j w) mine (fun _ => .inl)
            fun _ _ => .inl
  | _ =>
      rw [(perform_frame performed).database (by simp)]
      exact h.after spent keyed.aliases (fun j w _ => h.row j w) mine (fun _ => .inl) fun _ _ => .inl

end Read

section Keyed

variable {P : Platform} {σ σ' : State} {ls : Nat → Ledger} {i : Nat} {a : Action} {c : Choice}
  {r : Response a} {l : Ledger}

/-- A key that a call may place, or has placed, is in nobody else's way. -/
structure Placeable (σ : State) (ls : Nat → Ledger) (i : Nat) (k : GoString) : Prop where
  unlisted : ∀ v ∈ σ.database.images, v.storageKey ≠ k
  apart : ∀ j f, j ≠ i → (ls j).placed ≠ some (k, f)
  alive : ∀ j, (ls j).dead ≠ some k

theorem Keyed.placeable (h : Keyed σ ls) {k : GoString} {f : Facts}
    (placed : (ls i).placed = some (k, f)) : Placeable σ ls i k where
  unlisted := h.unlisted i k f placed
  apart j f' other placed' := other (h.apart j i k f' f placed' placed)
  alive j dead := h.unplaced j k dead i f placed

/-- A key still in a call's hand is unknown to everybody. -/
theorem Keyed.fresh (h : Keyed σ ls) {k : GoString} (held : k ∈ (ls i).pending) :
    Placeable σ ls i k where
  unlisted v member same := (h.keys v member).2 i (by rwa [same])
  apart j f _ placed := (h.placed j k f placed).2 i held
  alive j dead := (h.dead j k dead).2 i held

/-- What one call's step has to show. -/
theorem Keyed.after (h : Keyed σ ls) (pending : Pending σ'.issued (Function.update ls i l))
    (spent : ∀ k, Spent σ.issued ls k → Spent σ'.issued (Function.update ls i l) k)
    (ids : ∀ v ∈ σ'.database.images, Spent σ.issued ls v.id)
    (keys : ∀ v ∈ σ'.database.images, (∃ u ∈ σ.database.images, u.storageKey = v.storageKey) ∨
      ∃ f, (ls i).placed = some (v.storageKey, f))
    (aliases : ∀ m ∈ σ'.database.aliases, Spent σ'.issued (Function.update ls i l) m.id)
    (files : ∀ k entry, σ'.files.images.lookup k = some entry →
      Spent σ'.issued (Function.update ls i l) k)
    (placed : ∀ k f, l.placed = some (k, f) → Placeable σ ls i k ∧
      Spent σ'.issued (Function.update ls i l) k ∧
      (∀ v ∈ σ'.database.images, v.storageKey ≠ k) ∧ l.dead ≠ some k)
    (dead : ∀ k, l.dead = some k → (ls i).dead = some k ∨
      (∃ v ∈ σ.database.images, v.storageKey = k) ∧
        ∀ v ∈ σ'.database.images, v.storageKey ≠ k) :
    Keyed σ' (Function.update ls i l) := by
  have key : ∀ v ∈ σ'.database.images, Spent σ.issued ls v.storageKey := by
    intro v member
    rcases keys v member with ⟨u, old, same⟩ | ⟨f, new⟩
    · rw [← same]
      exact h.keys u old
    · exact h.placed i _ f new
  -- what another call has placed or unlinked is still no row's
  have unlisted : ∀ j k f, j ≠ i → (ls j).placed = some (k, f) →
      ∀ v ∈ σ'.database.images, v.storageKey ≠ k := by
    intro j k f other placed' v member same
    rcases keys v member with ⟨u, old, eq⟩ | ⟨f', new⟩
    · exact h.unlisted j k f placed' u old (eq.trans same)
    · exact other (h.apart j i k f f' placed' (by rw [new, same]))
  have removed : ∀ j k, (ls j).dead = some k → ∀ v ∈ σ'.database.images, v.storageKey ≠ k := by
    intro j k dead' v member same
    rcases keys v member with ⟨u, old, eq⟩ | ⟨f, new⟩
    · exact h.removed j k dead' u old (eq.trans same)
    · exact h.unplaced j k dead' i f (by rw [new, same])
  -- the two ways in which this call can have come to a key that is to be unlinked
  have mine : ∀ k, l.dead = some k → Spent σ.issued ls k ∧
      (∀ v ∈ σ'.database.images, v.storageKey ≠ k) ∧
      ∀ j f, j ≠ i → (ls j).placed ≠ some (k, f) := by
    intro k dead'
    rcases dead k dead' with old | ⟨⟨u, member, same⟩, gone⟩
    · exact ⟨h.dead i k old, removed i k old, fun j f _ => h.unplaced i k old j f⟩
    · refine ⟨same ▸ h.keys u member, gone, ?_⟩
      intro j f _ placed'
      exact h.unlisted j k f placed' u member same
  refine ⟨pending, fun v member => spent _ (ids v member), fun v member => spent _ (key v member),
    aliases, files, ?_, ?_, ?_, ?_, ?_, ?_⟩
  · intro j k f placed'
    by_cases self : j = i
    · rw [self, Function.update_self] at placed'
      exact (placed k f placed').2.1
    · rw [Function.update_of_ne self] at placed'
      exact spent k (h.placed j k f placed')
  · intro j k f placed'
    by_cases self : j = i
    · rw [self, Function.update_self] at placed'
      exact (placed k f placed').2.2.1
    · rw [Function.update_of_ne self] at placed'
      exact unlisted j k f self placed'
  · intro j j' k f f' first second
    by_cases self : j = i
    · by_cases self' : j' = i
      · exact self.trans self'.symm
      · rw [self, Function.update_self] at first
        rw [Function.update_of_ne self'] at second
        exact absurd second ((placed k f first).1.apart j' f' self')
    · rw [Function.update_of_ne self] at first
      by_cases self' : j' = i
      · rw [self', Function.update_self] at second
        exact absurd first ((placed k f' second).1.apart j f self)
      · rw [Function.update_of_ne self'] at second
        exact h.apart j j' k f f' first second
  · intro j k dead'
    by_cases self : j = i
    · rw [self, Function.update_self] at dead'
      exact spent k (mine k dead').1
    · rw [Function.update_of_ne self] at dead'
      exact spent k (h.dead j k dead')
  · intro j k dead'
    by_cases self : j = i
    · rw [self, Function.update_self] at dead'
      exact (mine k dead').2.1
    · rw [Function.update_of_ne self] at dead'
      exact removed j k dead'
  · intro j k dead' j' f placed'
    by_cases self' : j' = i
    · rw [self', Function.update_self] at placed'
      by_cases self : j = i
      · rw [self, Function.update_self] at dead'
        exact (placed k f placed').2.2.2 dead'
      · rw [Function.update_of_ne self] at dead'
        exact (placed k f placed').1.alive j dead'
    · rw [Function.update_of_ne self'] at placed'
      by_cases self : j = i
      · rw [self, Function.update_self] at dead'
        exact (mine k dead').2.2 j' f self' placed'
      · rw [Function.update_of_ne self] at dead'
        exact h.unplaced j k dead' j' f placed'

/-- The keys do not notice a step that changes neither tables nor files nor what is placed. -/
theorem Keyed.quiet (h : Keyed σ ls) (pending : Pending σ'.issued (Function.update ls i l))
    (spent : ∀ k, Spent σ.issued ls k → Spent σ'.issued (Function.update ls i l) k)
    (images : σ'.database.images = σ.database.images)
    (aliases : σ'.database.aliases = σ.database.aliases)
    (files : ∀ k entry, σ'.files.images.lookup k = some entry →
      ∃ entry', σ.files.images.lookup k = some entry')
    (placed : ∀ k f, l.placed = some (k, f) → (ls i).placed = some (k, f))
    (dead : l.dead = (ls i).dead) : Keyed σ' (Function.update ls i l) := by
  refine h.after pending spent ?_ ?_ ?_ ?_ ?_ ?_
  · rw [images]
    exact h.ids
  · rw [images]
    exact fun v member => .inl ⟨v, member, rfl⟩
  · rw [aliases]
    exact fun m member => spent _ (h.aliases m member)
  · intro k entry there
    obtain ⟨entry', before⟩ := files k entry there
    exact spent k (h.files k entry' before)
  · intro k f placed'
    have before := placed k f placed'
    refine ⟨h.placeable before, spent k (h.placed i k f before), ?_, ?_⟩
    · rw [images]
      exact h.unlisted i k f before
    · rw [dead]
      exact (h.placeable before).alive i
  · intro k dead'
    rw [dead] at dead'
    exact .inl dead'

theorem Keyed.insertImage (h : Keyed σ ls) {v : Image} {db' : Database}
    (inserted : σ.database.insertImage (Database.storedImage v) = some db') {f : Facts}
    (placed : (ls i).placed = some (v.storageKey, f)) (same : v.id = v.storageKey) :
    (∀ w ∈ db'.images, Spent σ.issued ls w.id) ∧
      ∀ w ∈ db'.images, (∃ u ∈ σ.database.images, u.storageKey = w.storageKey) ∨
        ∃ f, (ls i).placed = some (w.storageKey, f) := by
  rw [(insertImage_some inserted).1]
  constructor
  · intro w member
    rcases List.mem_append.mp member with old | new
    · exact h.ids w old
    · obtain rfl := List.mem_singleton.mp new
      rw [storedImage_id, same]
      exact h.placed i _ f placed
  · intro w member
    rcases List.mem_append.mp member with old | new
    · exact .inl ⟨w, old, rfl⟩
    · obtain rfl := List.mem_singleton.mp new
      exact .inr ⟨f, by rw [storedImage_storageKey, placed]⟩

theorem Keyed.statement (h : Keyed σ ls) (recalled : Recalled σ.database σ.issued ls)
    {q : Statement} {r : Except DatabaseError q.Value} (permitted : (ls i).allows P q)
    (performed : σ.statement q c = some (r, σ')) :
    Keyed σ' (Function.update ls i ((ls i).recordStatement P q r)) := by
  have spent := fun k (s : Spent σ.issued ls k) =>
    s.step (P := P) (i := i) (a := .statement q) performed
  have pending := h.pending.step (P := P) (i := i) (a := .statement q) performed
  have change := statement_change performed
  have files : ∀ k entry, σ'.files.images.lookup k = some entry →
      ∃ entry', σ.files.images.lookup k = some entry' := by
    obtain ⟨db, rfl⟩ := statement_state performed
    exact fun k entry there => ⟨entry, there⟩
  have spentFiles := fun k entry there =>
    (files k entry there).elim fun entry' before => spent k (h.files k entry' before)
  generalize made : σ'.database = db' at change
  cases change with
  | created v db' stored =>
      obtain ⟨-, -, same, -, f, placed, -⟩ := permitted
      obtain ⟨ids, keys⟩ := h.insertImage stored placed same
      subst made
      refine h.after pending spent ids keys ?_ spentFiles ?_ fun _ => .inl
      · rw [(insertImage_some stored).2.1]
        exact fun m member => spent _ (h.aliases m member)
      · intro k f placed
        cases placed
  | imported v a db₁ db₂ stored mapped =>
      obtain ⟨-, -, same, -, ⟨f, placed, -⟩, -, -, held, -⟩ := permitted
      obtain ⟨ids, keys⟩ := h.insertImage (v := { v with uploadedVia := str "import" }) stored placed same
      obtain ⟨images, aliases, -⟩ := insertAlias_some mapped
      subst made
      rw [← images] at ids keys
      refine h.after pending spent ids keys ?_ spentFiles ?_ fun _ => .inl
      · rw [aliases, (insertImage_some stored).2.1]
        intro m member
        rcases List.mem_append.mp member with old | new
        · exact spent _ (h.aliases m old)
        · obtain rfl := List.mem_singleton.mp new
          have := h.pending.spend (l := (ls i).recordStatement P (.createImport v a) (.ok ())) held rfl
          exact ⟨(perform_frame (P := P) (i := i) (a := .statement (.createImport v a))
            performed).issued this.1, this.2⟩
      · intro k f placed
        cases placed
  | erased id row found =>
      obtain ⟨there, same⟩ := image?_some found
      refine h.after pending spent ?_ ?_ ?_ spentFiles ?_ ?_
      · rw [made]
        exact fun v member => h.ids v (mem_removeImage.mp member).1
      · rw [made]
        exact fun v member => .inl ⟨v, (mem_removeImage.mp member).1, rfl⟩
      · rw [made]
        exact fun m member => spent _ (h.aliases m (List.mem_of_mem_filter member))
      · intro k f placed
        have before : (ls i).placed = some (k, f) := placed
        refine ⟨h.placeable before, spent k (h.placed i k f before), ?_, ?_⟩
        · rw [made]
          exact fun v member => h.unlisted i k f before v (mem_removeImage.mp member).1
        · rintro ⟨⟩
          exact h.unlisted i _ f before row there rfl
      · rintro k ⟨⟩
        refine .inr ⟨⟨row, there, rfl⟩, ?_⟩
        rw [made]
        intro v member eq
        obtain ⟨old, other⟩ := mem_removeImage.mp member
        exact other (by rw [σ.database.storageKeys.eq old there eq, same])
  | erasedUnseen id row found =>
      refine h.after pending spent ?_ ?_ ?_ spentFiles ?_ fun _ => .inl
      · rw [made]
        exact fun v member => h.ids v (mem_removeImage.mp member).1
      · rw [made]
        exact fun v member => .inl ⟨v, (mem_removeImage.mp member).1, rfl⟩
      · rw [made]
        exact fun m member => spent _ (h.aliases m (List.mem_of_mem_filter member))
      · intro k f placed
        have before : (ls i).placed = some (k, f) := placed
        refine ⟨h.placeable before, spent k (h.placed i k f before), ?_, (h.placeable before).alive i⟩
        rw [made]
        exact fun v member => h.unlisted i k f before v (mem_removeImage.mp member).1
  | shown id visibility row db' found replaced =>
      obtain ⟨there, -⟩ := image?_some found
      have old : ∀ v ∈ db'.images, ∃ u ∈ σ.database.images, u.id = v.id ∧
          u.storageKey = v.storageKey := by
        intro v member
        rcases mem_replaced replaced member with rfl | ⟨before, -⟩
        · exact ⟨row, there, rfl, rfl⟩
        · exact ⟨v, before, rfl, rfl⟩
      refine h.after pending spent ?_ ?_ ?_ spentFiles ?_ fun _ => .inl
      · rw [made]
        intro v member
        obtain ⟨u, before, same, -⟩ := old v member
        rw [← same]
        exact h.ids u before
      · rw [made]
        intro v member
        obtain ⟨u, before, -, same⟩ := old v member
        exact .inl ⟨u, before, same⟩
      · rw [made, (replaceImage_some replaced).2]
        exact fun m member => spent _ (h.aliases m member)
      · intro k f placed
        have before : (ls i).placed = some (k, f) := placed
        refine ⟨h.placeable before, spent k (h.placed i k f before), ?_, (h.placeable before).alive i⟩
        rw [made]
        intro v member same
        obtain ⟨u, was, -, eq⟩ := old v member
        exact h.unlisted i k f before u was (eq.trans same)
  | replaced v row db' found replaced =>
      obtain ⟨there, same⟩ := image?_some found
      obtain ⟨-, -, -, ⟨read, isRow, sameID, -⟩, f, placed, -⟩ := permitted
      -- the row read under the image lock is the row that is replaced
      obtain rfl : read = row :=
        σ.database.imageIDs.eq (recalled.row i read isRow) there (sameID.trans same.symm)
      refine h.after pending spent ?_ ?_ ?_ spentFiles ?_ ?_
      · rw [made]
        intro w member
        rcases mem_replaced replaced member with rfl | ⟨before, -⟩
        · rw [withContent_id]
          exact h.ids read there
        · exact h.ids w before
      · rw [made]
        intro w member
        rcases mem_replaced replaced member with rfl | ⟨before, -⟩
        · exact .inr ⟨f, by rw [withContent_storageKey, placed]⟩
        · exact .inl ⟨w, before, rfl⟩
      · rw [made, (replaceImage_some replaced).2]
        exact fun m member => spent _ (h.aliases m member)
      · intro k f placed
        cases placed
      · intro k dead
        change (ls i).row.map Image.storageKey = some k at dead
        rw [isRow] at dead
        cases dead
        refine .inr ⟨⟨read, there, rfl⟩, ?_⟩
        rw [made]
        intro w member eq
        rcases mem_replaced replaced member with rfl | ⟨before, other⟩
        · rw [withContent_storageKey] at eq
          exact h.unlisted i _ f placed read there eq.symm
        · rw [withContent_id] at other
          exact other (by rw [σ.database.storageKeys.eq before there eq])
  | aliased a db' present mapped =>
      obtain ⟨-, -, -, held, -⟩ := permitted
      obtain ⟨images, aliases, -⟩ := insertAlias_some mapped
      refine h.after pending spent ?_ ?_ ?_ spentFiles ?_ fun _ => .inl
      · rw [made, images]
        exact h.ids
      · rw [made, images]
        exact fun v member => .inl ⟨v, member, rfl⟩
      · rw [made, aliases]
        intro m member
        rcases List.mem_append.mp member with old | new
        · exact spent _ (h.aliases m old)
        · obtain rfl := List.mem_singleton.mp new
          have := h.pending.spend (l := (ls i).recordStatement P (.createAlias a) (.ok true)) held rfl
          exact ⟨(perform_frame (P := P) (i := i) (a := .statement (.createAlias a))
            performed).issued this.1, this.2⟩
      · intro k f placed
        have before : (ls i).placed = some (k, f) := placed
        refine ⟨h.placeable before, spent k (h.placed i k f before), ?_, (h.placeable before).alive i⟩
        rw [made, images]
        exact h.unlisted i k f before
  | unaliased id row found =>
      refine h.after pending spent ?_ ?_ ?_ spentFiles ?_ fun _ => .inl
      · rw [made]
        exact h.ids
      · rw [made]
        exact fun v member => .inl ⟨v, member, rfl⟩
      · rw [made]
        exact fun m member => spent _ (h.aliases m (List.mem_of_mem_filter member))
      · intro k f placed
        have before : (ls i).placed = some (k, f) := placed
        refine ⟨h.placeable before, spent k (h.placed i k f before), ?_, (h.placeable before).alive i⟩
        rw [made]
        exact h.unlisted i k f before
  | unaliasedUnseen id row found =>
      refine h.after pending spent ?_ ?_ ?_ spentFiles ?_ fun _ => .inl
      · rw [made]
        exact h.ids
      · rw [made]
        exact fun v member => .inl ⟨v, member, rfl⟩
      · rw [made]
        exact fun m member => spent _ (h.aliases m (List.mem_of_mem_filter member))
      · intro k f placed
        have before : (ls i).placed = some (k, f) := placed
        refine ⟨h.placeable before, spent k (h.placed i k f before), ?_, (h.placeable before).alive i⟩
        rw [made]
        exact h.unlisted i k f before
  | none q r db' reading images aliases =>
      obtain ⟨_, _, _, _, _, _, eq⟩ := reading_frame (P := P) (ls i) reading
      rw [Ledger.record, eq] at pending spent
      rw [eq]
      subst made
      exact h.quiet pending spent images aliases files (fun _ _ => id) rfl

theorem images_put_temporary (f : Files) (path : GoString) (entry : Entry) :
    (f.put .temporary path entry).images = f.images :=
  put_other (by simp)

theorem images_drop_temporary (f : Files) (path : GoString) :
    (f.drop .temporary path).images = f.images :=
  drop_other (by simp)

theorem images_output (f : Files) (path : GoString) (left : Option Bytes) (now : Time) :
    (left.elim (f.drop .temporary path) fun content =>
      f.put .temporary path ⟨.regular content, now⟩).images = f.images := by
  cases left with
  | none => exact images_drop_temporary f path
  | some content => exact images_put_temporary f path _

theorem images_renamed (f : Files) (path : GoString) (folder : Folder) (key : GoString)
    (entry : Entry) : (renamed f path folder key entry).images =
      if folder = .images then f.images.insert key entry else f.images := by
  unfold Files.images
  rw [renamed_directory]
  split
  · rename_i same
    subst same
    rw [put_same, drop_other (by simp)]
  · rename_i other
    rw [put_other (Ne.symm other), drop_other (by simp)]

/-- The images directory after a removal holds nothing that it did not hold before. -/
theorem images_drop {f : Files} {folder : Folder} {key k : GoString} {entry : Entry}
    (there : (f.drop folder key).images.lookup k = some entry) : f.images.lookup k = some entry := by
  by_cases same : folder = .images
  · subst same
    unfold Files.images at there
    rw [drop_same, lookup_erase_ite] at there
    split at there
    · cases there
    · exact there
  · unfold Files.images at there
    rwa [drop_other (Ne.symm same)] at there

/-- The one outcome that places a file. -/
def Commits : (b : FileAction) → b.Response → Prop
  | .rename _ .images _, .ok _ => True
  | _, _ => False

theorem Kept.not_commits {b : FileAction} {r : b.Response} (kept : Kept b r) : ¬ Commits b r := by
  unfold Commits
  split
  · exact absurd kept id
  · exact id

theorem file_placed {b : FileAction} {r : b.Response} (l : Ledger) (other : ¬ Commits b r) :
    ∀ k f, (l.recordFile P b r).placed = some (k, f) → l.placed = some (k, f) := by
  intro k f placed
  unfold Ledger.recordFile at placed
  split at placed
  all_goals first
    | exact placed
    | exact absurd trivial other
    | (split at placed <;> first | exact placed | cases placed)

theorem file_dead (l : Ledger) (b : FileAction) (r : b.Response) :
    (l.recordFile P b r).dead = l.dead := by
  obtain ⟨_, _, _, _, _, _, _, eq⟩ := recordFile_frame (P := P) l b r
  rw [eq]

theorem Keyed.file (h : Keyed σ ls) {b : FileAction} {r : b.Response}
    (permitted : (ls i).allowsFile b) (performed : σ.perform P i (.file b) c = some (r, σ')) :
    Keyed σ' (Function.update ls i ((ls i).recordFile P b r)) := by
  have spent := fun k (s : Spent σ.issued ls k) => s.step (P := P) (i := i) performed
  have pending := h.pending.step (P := P) (i := i) performed
  obtain ⟨files, done, rfl⟩ := file_state performed
  have effect := file_effect done
  cases effect with
  | created path unused absent =>
      refine h.quiet pending spent rfl rfl ?_ (fun _ _ => id) rfl
      intro k entry there
      exact ⟨entry, by rwa [← images_put_temporary σ.files path ⟨.regular [], σ.clock⟩]⟩
  | wrote path content left r full =>
      have before : ∀ k entry, (σ.files.put .temporary path ⟨.regular left, σ.clock⟩).images.lookup k =
          some entry → ∃ entry', σ.files.images.lookup k = some entry' := by
        intro k entry there
        exact ⟨entry, by rwa [images_put_temporary] at there⟩
      cases r with
      | error e => exact h.quiet pending spent rfl rfl before (fun _ _ => id) rfl
      | ok u => exact h.quiet pending spent rfl rfl before (fun _ _ => id) rfl
  | transformed input path metadata options plan r left =>
      refine h.quiet pending spent rfl rfl ?_ (fun _ _ => id) rfl
      intro k entry there
      exact ⟨entry, by rwa [images_output] at there⟩
  | thumbnailed input path r left =>
      refine h.quiet pending spent rfl rfl ?_ (fun _ _ => id) rfl
      intro k entry there
      exact ⟨entry, by rwa [images_output] at there⟩
  | renamed path folder key entry there =>
      cases folder with
      | images =>
          obtain ⟨owned, held, empty, -⟩ := permitted
          have placeable := h.fresh held
          have moved : Spent σ.issued (Function.update ls i
              ((ls i).recordFile P (.rename path .images key) (.ok ()))) key :=
            h.pending.spend held rfl
          refine h.after pending spent h.ids (fun v member => .inl ⟨v, member, rfl⟩)
            (fun m member => spent _ (h.aliases m member)) ?_ ?_ fun _ => .inl
          · intro k entry' there'
            rw [images_renamed, if_pos rfl, lookup_insert_ite] at there'
            split at there'
            · rename_i same
              rw [same]
              exact moved
            · exact spent k (h.files k entry' there')
          · intro k f placed
            obtain ⟨g, known, eq⟩ := Option.map_eq_some_iff.mp placed
            cases eq
            exact ⟨placeable, moved, placeable.unlisted, placeable.alive i⟩
      | thumbnails =>
          refine h.quiet pending spent rfl rfl ?_ (fun _ _ => id) rfl
          intro k entry' there'
          exact ⟨entry', by rwa [images_renamed, if_neg (by simp)] at there'⟩
      | temporary => exact absurd permitted id
  | removed folder key =>
      refine h.quiet pending spent rfl rfl ?_ (file_placed (ls i) id) (file_dead (ls i) _ _)
      exact fun k entry there => ⟨entry, images_drop there⟩
  | none b r kept =>
      refine h.quiet pending spent rfl rfl ?_ (file_placed (ls i) kept.not_commits)
        (file_dead (ls i) _ _)
      exact fun k entry there => ⟨entry, there⟩

theorem Keyed.step (h : Keyed σ ls) (recalled : Recalled σ.database σ.issued ls)
    (permitted : (ls i).permits P a) (performed : σ.perform P i a c = some (r, σ')) :
    Keyed σ' (Function.update ls i ((ls i).record P a r)) := by
  have spent := fun k (s : Spent σ.issued ls k) => s.step (P := P) (i := i) performed
  have pending := h.pending.step (P := P) (i := i) performed
  have frame := perform_frame performed
  cases a with
  | statement q => exact h.statement recalled permitted.2 performed
  | file b => exact h.file permitted.2 performed
  | sync s =>
      obtain ⟨_, _, _, _, _, eq⟩ := recordSync_frame (ls i) s
      rw [Ledger.record, eq] at spent pending ⊢
      refine h.quiet pending spent ?_ ?_ ?_ (fun _ _ => id) rfl
      · rw [frame.database (by simp)]
      · rw [frame.database (by simp)]
      · rw [frame.files (by simp)]
        exact fun k entry there => ⟨entry, there⟩
  | index s =>
      obtain ⟨_, _, _, _, eq⟩ := recordIndex_frame (ls i) s
      rw [Ledger.record, eq] at spent pending ⊢
      refine h.quiet pending spent ?_ ?_ ?_ (fun _ _ => id) rfl
      · rw [frame.database (by simp)]
      · rw [frame.database (by simp)]
      · rw [frame.files (by simp)]
        exact fun k entry there => ⟨entry, there⟩
  | newUUID =>
      cases r with
      | error e =>
          refine h.quiet pending spent ?_ ?_ ?_ (fun _ _ => id) rfl
          · rw [frame.database (by simp)]
          · rw [frame.database (by simp)]
          · rw [frame.files (by simp)]
            exact fun k entry there => ⟨entry, there⟩
      | ok id =>
          refine h.quiet pending spent ?_ ?_ ?_ (fun _ _ placed => placed) rfl
          · rw [frame.database (by simp)]
          · rw [frame.database (by simp)]
          · rw [frame.files (by simp)]
            exact fun k entry there => ⟨entry, there⟩
  | _ =>
      refine h.quiet pending spent ?_ ?_ ?_ (fun _ _ => id) rfl
      · rw [frame.database (by simp)]
      · rw [frame.database (by simp)]
      · rw [frame.files (by simp)]
        exact fun k entry there => ⟨entry, there⟩

end Keyed

end ImageSilo.Publication
