import ImageSilo.Publication.Rebuilding

/-! The time in a target is the one that `Build` would read from its row. -/
namespace ImageSilo.Publication

open Go Concurrent Storage Tables Delivery

variable {P : Platform} {requests : Nat → Request} {σ σ' : State} {ls : Nat → Ledger} {i : Nat}
  {a : Action} {c : Choice} {r : Response a} {l : Ledger}

/-- The time at which a row says its content was last changed, for `Build`. -/
abbrev shownAt (v : Image) : Int := (deliveryRow v).createdAt

/-- Targets and owed targets show the times of the rows. -/
structure Timely (σ : State) (ls : Nat → Ledger) : Prop where
  kept : ∀ t, ∀ v ∈ σ.database.images, σ.index.byID.lookup v.id = some t →
    (∀ j t', IndexStep.add v.id t' ∉ (ls j).owes) → unix t.lastModified = shownAt v
  owed : ∀ j t, ∀ v ∈ σ.database.images, IndexStep.add v.id t ∈ (ls j).owes →
    unix t.lastModified = shownAt v

/-- No conversion writes a time at or before the epoch, unless it is the one of the creation. -/
def Epochal (σ : State) : (a : Action) → Response a → Prop
  | .statement (.updateContent v), .ok true =>
      ∀ row ∈ σ.database.images, row.id = v.id →
        0 < unix v.updatedAt ∨ unix v.updatedAt = unix row.createdAt
  | _, _ => True

theorem shownAt_dated {v : Image} (dated : 0 < unix v.updatedAt ∨ unix v.updatedAt = unix v.createdAt) :
    shownAt v = unix v.updatedAt := by
  change (if 0 < unix v.updatedAt then unix v.updatedAt else unix v.createdAt) = _
  rcases dated with late | same
  · rw [if_pos late]
  · rw [same, ite_self]

theorem shownAt_inserted {v : Image} (fresh : v.createdAt = v.updatedAt) :
    shownAt (Database.storedImage v) = unix v.updatedAt := by
  have updated : unix (Database.storedImage v).updatedAt = unix v.updatedAt := by
    unfold Database.storedImage
    dsimp only
    rw [unix_ofUnix, fresh]
    split <;> rfl
  rw [shownAt_dated, updated]
  refine .inr (updated.trans ?_)
  rw [← fresh]
  exact (unix_ofUnix _).symm

theorem Timely.begin (indexed : σ.Indexed P) :
    Timely σ fun j => Ledger.begin (requests j) := by
  obtain ⟨L, built, index⟩ := indexed
  refine ⟨?_, by simp [Ledger.begin]⟩
  intro t v member there _
  rw [index] at there
  obtain ⟨v', member', own, -, rfl⟩ := ((built_describes built).target _ t).mp there
  rw [σ.database.imageIDs.eq member' member own]
  exact unix_ofUnix _

/-- A statement that changes rows makes its call owe the targets of the new ones. -/
theorem Timely.rows (h : Timely σ ls) (sound : Sound P requests σ ls) (idle : (ls i).owes = [])
    (index : σ'.index = σ.index)
    (locked : ∀ id t, IndexStep.add id t ∈ l.owes → (ls i).image = some id)
    (rows : ∀ w ∈ σ'.database.images,
      (∃ v ∈ σ.database.images, v.id = w.id ∧ shownAt v = shownAt w) ∨
        ∃ t, IndexStep.add w.id t ∈ l.owes)
    (mine : ∀ t, ∀ w ∈ σ'.database.images, IndexStep.add w.id t ∈ l.owes →
      unix t.lastModified = shownAt w) : Timely σ' (Function.update ls i l) := by
  constructor
  · intro t w member there quiet
    rcases rows w member with ⟨v, known, same, shown⟩ | ⟨t', owed⟩
    · rw [index, ← same] at there
      rw [← shown]
      refine h.kept t v known there ?_
      intro j t' owed
      by_cases self : j = i
      · rw [self, idle] at owed
        cases owed
      · refine quiet j t' ?_
        rw [Function.update_of_ne self, ← same]
        exact owed
    · refine absurd ?_ (quiet i t')
      rw [Function.update_self]
      exact owed
  · intro j t w member owed
    by_cases self : j = i
    · rw [self, Function.update_self] at owed
      exact mine t w member owed
    · rw [Function.update_of_ne self] at owed
      rcases rows w member with ⟨v, known, same, shown⟩ | ⟨t', new⟩
      · rw [← shown]
        refine h.owed j t v known ?_
        rwa [same]
      · exact absurd rfl (sound.unconcerned (locked _ _ new) idle j _ owed)

theorem Timely.statement (h : Timely σ ls) (sound : Sound P requests σ ls) {q : Statement}
    {r : Except DatabaseError q.Value} (permitted : (ls i).permits P (.statement q))
    (performed : σ.statement q c = some (r, σ')) (epochal : Epochal σ (.statement q) r) :
    Timely σ' (Function.update ls i ((ls i).recordStatement P q r)) := by
  obtain ⟨idle, permitted⟩ := permitted
  have change := statement_change performed
  have index := (statement_files performed).2
  generalize database : σ'.database = db' at change
  have same : ∀ w ∈ σ.database.images,
      ∃ v ∈ σ.database.images, v.id = w.id ∧ shownAt v = shownAt w :=
    fun w member => ⟨w, member, rfl, rfl⟩
  cases change with
  | created v db' stored =>
      obtain ⟨-, locked, -, fresh, -⟩ := permitted
      have images := (insertImage_some stored).1
      refine h.rows sound idle index ?_ ?_ ?_
      · intro id t owed
        cases List.mem_singleton.mp owed
        exact locked
      · intro w member
        rw [database, images] at member
        rcases List.mem_append.mp member with old | new
        · exact .inl (same w old)
        · obtain rfl := List.mem_singleton.mp new
          exact .inr ⟨_, List.mem_singleton_self _⟩
      · intro t w member owed
        have new : Database.storedImage v ∈ σ'.database.images := by
          rw [database, images]
          exact List.mem_append_right _ (List.mem_singleton_self _)
        obtain ⟨own, rfl⟩ := IndexStep.add.inj (List.mem_singleton.mp owed)
        rw [σ'.database.imageIDs.eq member new own]
        exact (shownAt_inserted fresh).symm
  | imported v m db₁ db₂ stored mapped =>
      obtain ⟨-, locked, -, fresh, -⟩ := permitted
      have images := (insertAlias_some mapped).1.trans (insertImage_some stored).1
      have only : ∀ id t, IndexStep.add id t ∈
          ((ls i).recordStatement P (.createImport v m) (.ok ())).owes →
            id = v.id ∧ t = targetOf v := by
        intro id t owed
        rcases List.mem_cons.mp owed with same | other
        · exact IndexStep.add.inj same
        · cases List.mem_singleton.mp other
      refine h.rows sound idle index ?_ ?_ ?_
      · intro id t owed
        obtain ⟨rfl, -⟩ := only id t owed
        exact locked
      · intro w member
        rw [database, images] at member
        rcases List.mem_append.mp member with old | new
        · exact .inl (same w old)
        · obtain rfl := List.mem_singleton.mp new
          exact .inr ⟨_, List.mem_cons_self⟩
      · intro t w member owed
        have new : Database.storedImage { v with uploadedVia := str "import" } ∈
            σ'.database.images := by
          rw [database, images]
          exact List.mem_append_right _ (List.mem_singleton_self _)
        obtain ⟨own, rfl⟩ := only _ t owed
        rw [σ'.database.imageIDs.eq member new own]
        exact (shownAt_inserted (v := { v with uploadedVia := str "import" }) fresh).symm
  | erased id row found =>
      refine h.rows sound idle index (by simp [Ledger.recordStatement]) ?_
        (by simp [Ledger.recordStatement])
      intro w member
      rw [database] at member
      exact .inl (same w (mem_removeImage.mp member).1)
  | erasedUnseen id row found =>
      refine h.rows sound idle index (by simp [Ledger.recordStatement, idle]) ?_
        (by simp [Ledger.recordStatement, idle])
      intro w member
      rw [database] at member
      exact .inl (same w (mem_removeImage.mp member).1)
  | shown id visibility row db' found replaced =>
      refine h.rows sound idle index (by simp [Ledger.recordStatement]) ?_
        (by simp [Ledger.recordStatement])
      intro w member
      rw [database] at member
      rcases mem_replaced replaced member with rfl | ⟨old, -⟩
      · exact .inl ⟨row, (image?_some found).1, rfl, rfl⟩
      · exact .inl (same w old)
  | replaced v row db' found replaced =>
      obtain ⟨-, locked, -⟩ := permitted
      obtain ⟨known, own⟩ := image?_some found
      refine h.rows sound idle index ?_ ?_ ?_
      · intro id t owed
        cases List.mem_singleton.mp owed
        exact locked
      · intro w member
        rw [database] at member
        rcases mem_replaced replaced member with rfl | ⟨old, -⟩
        · rw [withContent_id, own]
          exact .inr ⟨_, List.mem_singleton_self _⟩
        · exact .inl (same w old)
      · intro t w member owed
        have new : Database.withContent row v ∈ σ'.database.images := by
          rw [database]
          exact replaced_self replaced known rfl
        obtain ⟨same, rfl⟩ := IndexStep.add.inj (List.mem_singleton.mp owed)
        rw [σ'.database.imageIDs.eq member new (same.trans own.symm)]
        have updated : unix (Database.withContent row v).updatedAt = unix v.updatedAt :=
          unix_ofUnix _
        rw [shownAt_dated, updated]
        · rfl
        · rw [updated]
          exact epochal row known own
  | aliased m db' present mapped =>
      refine h.rows sound idle index (by simp [Ledger.recordStatement]) ?_
        (by simp [Ledger.recordStatement])
      intro w member
      rw [database, (insertAlias_some mapped).1] at member
      exact .inl (same w member)
  | unaliased id row found =>
      refine h.rows sound idle index (by simp [Ledger.recordStatement]) ?_
        (by simp [Ledger.recordStatement])
      intro w member
      rw [database] at member
      exact .inl (same w member)
  | unaliasedUnseen id row found =>
      refine h.rows sound idle index (by simp [Ledger.recordStatement, idle]) ?_
        (by simp [Ledger.recordStatement, idle])
      intro w member
      rw [database] at member
      exact .inl (same w member)
  | none q r db' reading images aliases =>
      obtain ⟨_, _, _, _, _, _, eq⟩ := reading_frame (P := P) (ls i) reading
      refine h.rows sound idle index (by simp [eq, idle]) ?_ (by simp [eq, idle])
      intro w member
      rw [database, images] at member
      exact .inl (same w member)

/-- An index step that a call owes, or the snapshot of the present state. -/
theorem Timely.index (h : Timely σ ls) (agreement : Agreement P σ ls) (sound : Sound P requests σ ls)
    {s : IndexStep} (permitted : (ls i).permits P (.index s)) :
    Timely { σ with index := s.apply σ.index }
      (Function.update ls i ((ls i).recordIndex s)) := by
  have owes := recordIndex_owes (ls i) s
  have fewer : ∀ j, ∀ s' ∈ (Function.update ls i ((ls i).recordIndex s) j).owes, s' ∈ (ls j).owes := by
    intro j s' member
    by_cases self : j = i
    · rw [self, Function.update_self, owes] at member
      rw [self]
      exact List.mem_of_mem_tail member
    · rwa [Function.update_of_ne self] at member
  refine ⟨?_, fun j t v member owed => h.owed j t v member (fewer j _ owed)⟩
  intro t v member there quiet
  change (s.apply σ.index).byID.lookup v.id = some t at there
  rcases permitted with ⟨rest, owed⟩ | ⟨idle, L, ready, rfl⟩
  · have head : s ∈ (ls i).owes := by simp [owed]
    by_cases adds : ∃ t', s = .add v.id t'
    · obtain ⟨t', rfl⟩ := adds
      rw [add_target, if_pos rfl] at there
      cases there
      exact h.owed i t v member head
    -- the step adds no target for this image, so none was owed
    have quiet' : ∀ j t', IndexStep.add v.id t' ∉ (ls j).owes := by
      intro j t' debt
      by_cases self : j = i
      · rw [self, owed] at debt
        rcases List.mem_cons.mp debt with rfl | later
        · exact adds ⟨t', rfl⟩
        · refine quiet i t' ?_
          rw [Function.update_self, owes, owed]
          exact later
      · refine quiet j t' ?_
        rwa [Function.update_of_ne self]
    cases s with
    | add id t' =>
        rw [add_target, if_neg] at there
        · exact h.kept t v member there quiet'
        · rintro rfl
          exact adds ⟨t', rfl⟩
    | updateVisibility id visibility =>
        rw [updateVisibility_target] at there
        split at there
        · rename_i same
          obtain ⟨old, known, rfl⟩ := Option.map_eq_some_iff.mp there
          exact h.kept old v member (by rwa [same]) quiet'
        · exact h.kept t v member there quiet'
    | addAlias path id =>
        rw [addAlias_byID] at there
        exact h.kept t v member there quiet'
    | removeAlias path => exact h.kept t v member there quiet'
    | removeImage id =>
        rw [removeImage_target] at there
        split at there
        · cases there
        · exact h.kept t v member there quiet'
    | replaceAll snapshot => exact ((sound.coherent i).backed (.replaceAll snapshot) head).elim
  · have built := agreement.builds i
    rw [ready] at built
    obtain ⟨v', member', own, -, rfl⟩ := ((built_describes built).target _ t).mp there
    rw [σ.database.imageIDs.eq member' member own]
    exact unix_ofUnix _

theorem Timely.step (h : Timely σ ls) (agreement : Agreement P σ ls) (sound : Sound P requests σ ls)
    (permitted : (ls i).permits P a) (performed : σ.perform P i a c = some (r, σ'))
    (epochal : Epochal σ a r) : Timely σ' (Function.update ls i ((ls i).record P a r)) := by
  by_cases about : (∃ q, a = .statement q) ∨ ∃ s, a = .index s
  · rcases about with ⟨q, rfl⟩ | ⟨s, rfl⟩
    · exact h.statement sound permitted performed epochal
    · cases performed
      exact h.index agreement sound permitted
  · have other : ∀ q, a ≠ .statement q := fun q same => about (.inl ⟨q, same⟩)
    have other' : ∀ s, a ≠ .index s := fun s same => about (.inr ⟨s, same⟩)
    have frame := perform_frame performed
    have owes := record_owes_same (P := P) (r := r) (ls i) other other'
    have same : ∀ j, (Function.update ls i ((ls i).record P a r) j).owes = (ls j).owes := by
      intro j
      by_cases self : j = i
      · rw [self, Function.update_self, owes]
      · rw [Function.update_of_ne self]
    constructor
    · simp only [same]
      rw [frame.database other, frame.index other']
      exact h.kept
    · simp only [same]
      rw [frame.database other]
      exact h.owed

end ImageSilo.Publication
