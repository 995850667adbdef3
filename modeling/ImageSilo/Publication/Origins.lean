import ImageSilo.Publication.Withdrawals

/-! Every row was stored by a call together with the file it had placed, or was there at the start. -/
namespace ImageSilo.Publication

open Go Concurrent Storage Tables Delivery

/-- The row that an action stores together with its file. -/
def storedRow : Action → Option Image
  | .statement (.createImage v) | .statement (.createImport v _) => some v
  | .statement (.updateContent v) => some v
  | _ => none

/-- The row that an action has stored. -/
def storedBy : (a : Action) → Response a → Option Image
  | .statement (.createImage v), .ok _ | .statement (.createImport v _), .ok _ => some v
  | .statement (.updateContent v), .ok true => some v
  | _, _ => none

variable {P : Platform} {requests : Nat → Request} {σ σ' : State} {ls : Nat → Ledger} {i : Nat}
  {a : Action} {c : Choice} {r : Response a} {id k : GoString} {v : Image}

theorem storedBy_row (stores : v ∈ storedBy a r) : v ∈ storedRow a := by
  unfold storedBy at stores
  split at stores
  · exact stores
  · exact stores
  · exact stores
  · cases stores

/-- Where a row comes from that is there after a step: from the row of the same image with the same
file, or the caller has just stored it with the file it has placed. -/
theorem row_origin (permitted : (ls i).permits P a) (performed : σ.perform P i a c = some (r, σ'))
    {w : Image} (member : w ∈ σ'.database.images) :
    (∃ v ∈ σ.database.images, v.id = w.id ∧ v.storageKey = w.storageKey ∧
        v.storedSize = w.storedSize ∧ v.storedSHA256 = w.storedSHA256) ∨
      ∃ v f, v ∈ storedBy a r ∧ (ls i).placed = some (w.storageKey, f) ∧ v.id = w.id ∧
        v.storageKey = w.storageKey ∧ f.size = some w.storedSize ∧
          f.digest = some w.storedSHA256 := by
  cases a with
  | statement q =>
      obtain ⟨-, permitted⟩ := permitted
      have change := statement_change performed
      generalize σ'.database = db' at change member
      cases change with
      | created v db' stored =>
          obtain ⟨-, -, -, -, f, placed, size, digest, -⟩ := permitted
          rw [(insertImage_some stored).1] at member
          rcases List.mem_append.mp member with old | new
          · exact .inl ⟨w, old, rfl, rfl, rfl, rfl⟩
          · obtain rfl := List.mem_singleton.mp new
            exact .inr ⟨v, f, rfl, placed, rfl, rfl, size, digest⟩
      | imported v m db₁ db₂ stored mapped =>
          obtain ⟨-, -, -, -, ⟨f, placed, size, digest, -⟩, -⟩ := permitted
          rw [(insertAlias_some mapped).1, (insertImage_some stored).1] at member
          rcases List.mem_append.mp member with old | new
          · exact .inl ⟨w, old, rfl, rfl, rfl, rfl⟩
          · obtain rfl := List.mem_singleton.mp new
            exact .inr ⟨v, f, rfl, placed, rfl, rfl, size, digest⟩
      | erased id row found => exact .inl ⟨w, (mem_removeImage.mp member).1, rfl, rfl, rfl, rfl⟩
      | erasedUnseen id row found =>
          exact .inl ⟨w, (mem_removeImage.mp member).1, rfl, rfl, rfl, rfl⟩
      | shown id visibility row db' found replaced =>
          rcases mem_replaced replaced member with rfl | ⟨old, -⟩
          · exact .inl ⟨row, (image?_some found).1, rfl, rfl, rfl, rfl⟩
          · exact .inl ⟨w, old, rfl, rfl, rfl, rfl⟩
      | replaced v row db' found replaced =>
          obtain ⟨-, -, -, -, f, placed, size, digest, -⟩ := permitted
          rcases mem_replaced replaced member with rfl | ⟨old, -⟩
          · exact .inr ⟨v, f, rfl, placed, (image?_some found).2.symm, rfl, size, digest⟩
          · exact .inl ⟨w, old, rfl, rfl, rfl, rfl⟩
      | aliased m db' present mapped =>
          rw [(insertAlias_some mapped).1] at member
          exact .inl ⟨w, member, rfl, rfl, rfl, rfl⟩
      | unaliased id row found => exact .inl ⟨w, member, rfl, rfl, rfl, rfl⟩
      | unaliasedUnseen id row found => exact .inl ⟨w, member, rfl, rfl, rfl, rfl⟩
      | none q r db' reading images aliases =>
          rw [images] at member
          exact .inl ⟨w, member, rfl, rfl, rfl, rfl⟩
  | _ =>
      rw [(perform_frame performed).database (by simp)] at member
      exact .inl ⟨w, member, rfl, rfl, rfl, rfl⟩

section Debts

theorem owes_unpaid {l : Ledger} {s : IndexStep} (permitted : l.permits P a) (unpaid : a ≠ .index s)
    (owed : s ∈ l.owes) : s ∈ (l.record P a r).owes := by
  cases a with
  | index s' =>
      rw [Ledger.record, recordIndex_owes]
      rcases permitted with ⟨rest, owes⟩ | ⟨idle, -⟩
      · rw [owes] at owed ⊢
        exact (List.mem_cons.mp owed).resolve_left fun same => unpaid (same ▸ rfl)
      · rw [idle] at owed
        cases owed
  | sync s' => exact absurd (permitted.1 ▸ owed) List.not_mem_nil
  | statement q => exact absurd (permitted.1 ▸ owed) List.not_mem_nil
  | file b => exact absurd (permitted.1 ▸ owed) List.not_mem_nil
  | getTarget id => exact absurd (permitted.1 ▸ owed) List.not_mem_nil
  | getAlias path => exact absurd (permitted.1 ▸ owed) List.not_mem_nil
  | _ =>
      have idle : l.owes = [] := permitted
      exact absurd (idle ▸ owed) List.not_mem_nil

/-- A debt of the debtor stays until it is paid. -/
theorem owed_kept {s : IndexStep} (debtor : Option Nat) (permitted : (ls i).permits P a)
    (unpaid : a ≠ .index s) (owed : ∃ j ∈ debtor, s ∈ (ls j).owes) :
    ∃ j ∈ debtor, s ∈ (Function.update ls i ((ls i).record P a r) j).owes := by
  obtain ⟨j, debtor, owed⟩ := owed
  refine ⟨j, debtor, ?_⟩
  by_cases self : j = i
  · subst self
    rw [Function.update_self]
    exact owes_unpaid permitted unpaid owed
  · rwa [Function.update_of_ne self]

end Debts

section Titles

/-- The key has been the storage key of the image at some time. -/
def Belongs (σ₀ : State) (τ : List (Event (machine P))) (id k : GoString) : Prop :=
  (∃ v ∈ σ₀.database.images, v.id = id ∧ v.storageKey = k) ∨
    ∃ e ∈ τ, ∃ v ∈ storedBy e.action e.response, v.id = id ∧ v.storageKey = k

theorem belongs_snoc {σ₀ : State} {τ : List (Event (machine P))} :
    Belongs σ₀ (τ ++ [⟨i, a, c, r⟩]) id k ↔
      Belongs σ₀ τ id k ∨ ∃ v ∈ storedBy a r, v.id = id ∧ v.storageKey = k := by
  unfold Belongs
  simp only [List.mem_append, List.mem_singleton]
  constructor
  · rintro (initial | ⟨e, earlier | rfl, own⟩)
    · exact .inl (.inl initial)
    · exact .inl (.inr ⟨e, earlier, own⟩)
    · exact .inr own
  · rintro ((initial | ⟨e, earlier, own⟩) | own)
    · exact .inl initial
    · exact .inr ⟨e, .inl earlier, own⟩
    · exact .inr ⟨_, .inr rfl, own⟩

theorem Belongs.later {σ₀ : State} {τ τ' : List (Event (machine P))} (h : Belongs σ₀ τ id k) :
    Belongs σ₀ (τ ++ τ') id k := by
  rcases h with initial | ⟨e, earlier, own⟩
  · exact .inl initial
  · exact .inr ⟨e, List.mem_append_left _ earlier, own⟩

/-- `B id k` says that the image has or has had this key. -/
structure Titles (B : GoString → GoString → Prop) (σ : State) (ls : Nat → Ledger) : Prop where
  issued : ∀ id k, B id k → id ∈ σ.issued ∧ k ∈ σ.issued
  single : ∀ id id' k, B id k → B id' k → id = id'
  rows : ∀ v ∈ σ.database.images, B v.id v.storageKey
  index : ∀ id t, σ.index.byID.lookup id = some t → B id t.storageKey
  owed : ∀ j id t, IndexStep.add id t ∈ (ls j).owes → B id t.storageKey
  pending : ∀ j, ∀ k ∈ (ls j).pending, ∀ k', ¬ B k' k ∧ ¬ B k k'
  placed : ∀ j k f, (ls j).placed = some (k, f) → ∀ k', ¬ B k' k ∧ ¬ B k k'

variable {B B' : GoString → GoString → Prop}

/-- What an action stores is a row for the file that its caller has placed, and the file is no longer
the caller's to place. -/
theorem storedBy_placed (permitted : (ls i).permits P a)
    (performed : σ.perform P i a c = some (r, σ')) (stores : v ∈ storedBy a r) :
    (∃ f, (ls i).placed = some (v.storageKey, f)) ∧ ((ls i).record P a r).placed = none ∧
      (v.id = v.storageKey ∨ ∃ row ∈ σ.database.images, row.id = v.id) := by
  unfold storedBy at stores
  split at stores
  · cases stores
    obtain ⟨-, -, -, same, -, f, placed, -⟩ := permitted
    exact ⟨⟨f, placed⟩, rfl, .inl same⟩
  · cases stores
    obtain ⟨-, -, -, same, -, ⟨f, placed, -⟩, -⟩ := permitted
    exact ⟨⟨f, placed⟩, rfl, .inl same⟩
  · cases stores
    obtain ⟨-, -, -, -, -, f, placed, -⟩ := permitted
    refine ⟨⟨f, placed⟩, rfl, .inr ?_⟩
    have change := statement_change performed
    generalize σ'.database = db' at change
    cases change with
    | replaced v row db' found replaced => exact ⟨row, image?_some found⟩
    | none q r db' reading images aliases => exact absurd reading id
  · cases stores

theorem Titles.free_step (h : Titles B σ ls) (sound : Sound P requests σ ls)
    (grown : ∀ id k, B' id k ↔ B id k ∨ ∃ v ∈ storedBy a r, v.id = id ∧ v.storageKey = k)
    (permitted : (ls i).permits P a) (performed : σ.perform P i a c = some (r, σ')) {j : Nat}
    {f : Facts} (held : k ∈ (Function.update ls i ((ls i).record P a r) j).pending ∨
      (Function.update ls i ((ls i).record P a r) j).placed = some (k, f)) (k' : GoString) :
    ¬ B' k' k ∧ ¬ B' k k' := by
  -- the key was in hand before, or is new
  have before : (k ∈ (ls j).pending ∨ ∃ g, (ls j).placed = some (k, g)) ∨ k ∉ σ.issued := by
    by_cases self : j = i
    · subst self
      rw [Function.update_self] at held
      rcases held with pending | placed
      · exact (pending_step performed (ls j) k pending).imp .inl And.left
      · exact .inl ((placed_origin permitted placed).symm.imp_right fun there => ⟨f, there⟩)
    · rw [Function.update_of_ne self] at held
      exact .inl (held.imp_right fun there => ⟨f, there⟩)
  have free : ∀ k', ¬ B k' k ∧ ¬ B k k' := by
    rcases before with (pending | ⟨g, placed⟩) | new
    · exact h.pending j k pending
    · exact h.placed j k g placed
    · exact fun k' => ⟨fun b => new (h.issued k' k b).2, fun b => new (h.issued k k' b).1⟩
  have other : ∀ v ∈ storedBy a r, v.id ≠ k ∧ v.storageKey ≠ k := by
    intro v stores
    obtain ⟨⟨g, placed⟩, gone, named⟩ := storedBy_placed permitted performed stores
    have key : v.storageKey ≠ k := by
      rintro rfl
      have spent := sound.keyed.placed i _ g placed
      by_cases self : j = i
      · subst self
        rw [Function.update_self, gone] at held
        rcases held with pending | none
        · rcases pending_step performed (ls j) _ pending with old | new
          · exact spent.2 j old
          · exact new.1 spent.1
        · cases none
      · rw [Function.update_of_ne self] at held
        rcases held with pending | placed'
        · exact spent.2 j pending
        · exact self (sound.keyed.apart j i _ f g placed' placed)
    refine ⟨?_, key⟩
    rcases named with same | ⟨row, member, same⟩
    · rwa [same]
    · rintro rfl
      have title := h.rows row member
      rw [same] at title
      exact (free row.storageKey).2 title
  rw [grown, grown]
  constructor
  · rintro (old | ⟨v, stores, -, same⟩)
    · exact (free k').1 old
    · exact (other v stores).2 same
  · rintro (old | ⟨v, stores, same, -⟩)
    · exact (free k').2 old
    · exact (other v stores).1 same

theorem Titles.owed_step (h : Titles B σ ls)
    (grown : ∀ id k, B' id k ↔ B id k ∨ ∃ v ∈ storedBy a r, v.id = id ∧ v.storageKey = k)
    (permitted : (ls i).permits P a) (performed : σ.perform P i a c = some (r, σ')) :
    ∀ id t, IndexStep.add id t ∈ ((ls i).record P a r).owes → B' id t.storageKey := by
  intro id t member
  have older (old : IndexStep.add id t ∈ (ls i).owes) : B' id t.storageKey :=
    (grown ..).mpr (.inl (h.owed i id t old))
  cases a with
  | statement q =>
      have change := statement_change performed
      obtain ⟨idle, permitted⟩ := permitted
      generalize σ'.database = db' at change
      cases change with
      | created v db' stored =>
          cases List.mem_singleton.mp member
          exact (grown ..).mpr (.inr ⟨v, rfl, rfl, rfl⟩)
      | imported v m db₁ db₂ stored mapped =>
          rcases List.mem_cons.mp member with eq | rest
          · cases eq
            exact (grown ..).mpr (.inr ⟨v, rfl, rfl, rfl⟩)
          · cases List.mem_singleton.mp rest
      | replaced v row db' found replaced =>
          cases List.mem_singleton.mp member
          exact (grown ..).mpr (.inr ⟨v, rfl, rfl, rfl⟩)
      | erased id row found => cases List.mem_singleton.mp member
      | shown id visibility row db' found replaced => cases List.mem_singleton.mp member
      | aliased m db' present mapped => cases List.mem_singleton.mp member
      | unaliased id row found => cases List.mem_singleton.mp member
      | erasedUnseen id row found => exact older member
      | unaliasedUnseen id row found => exact older member
      | none q r db' reading images aliases =>
          obtain ⟨_, _, _, _, _, _, eq⟩ := reading_frame (P := P) (ls i) reading
          rw [Ledger.record, eq] at member
          exact older member
  | _ => exact older (record_owes (by simp) _ member)

theorem Titles.index_step (h : Titles B σ ls) (sound : Sound P requests σ ls)
    (permitted : (ls i).permits P a) (performed : σ.perform P i a c = some (r, σ')) :
    ∀ id t, σ'.index.byID.lookup id = some t → B id t.storageKey := by
  intro id t there
  rcases index_entered sound permitted performed there with
    ⟨there, -, -⟩ | ⟨visibility, old, -, -, known, rfl⟩ | owed | ⟨v, member, rfl, rfl⟩
  · exact h.index id t there
  · exact h.index id old known
  · exact h.owed i id t owed
  · exact h.rows v member

theorem Titles.step (h : Titles B σ ls) (sound : Sound P requests σ ls)
    (grown : ∀ id k, B' id k ↔ B id k ∨ ∃ v ∈ storedBy a r, v.id = id ∧ v.storageKey = k)
    (permitted : (ls i).permits P a) (performed : σ.perform P i a c = some (r, σ')) :
    Titles B' σ' (Function.update ls i ((ls i).record P a r)) where
  issued id k title := by
    have kept := (perform_frame performed).issued
    rcases (grown id k).mp title with old | ⟨v, stores, rfl, rfl⟩
    · exact ⟨kept (h.issued id k old).1, kept (h.issued id k old).2⟩
    · obtain ⟨⟨f, placed⟩, -, named⟩ := storedBy_placed permitted performed stores
      have key := kept (sound.keyed.placed i _ f placed).1
      refine ⟨?_, key⟩
      rcases named with same | ⟨row, member, same⟩
      · rwa [same]
      · rw [← same]
        exact kept (sound.keyed.ids row member).1
  single id id' k title title' := by
    rcases (grown id k).mp title with old | ⟨v, stores, rfl, rfl⟩
    · rcases (grown id' k).mp title' with old' | ⟨v', stores', rfl, rfl⟩
      · exact h.single id id' k old old'
      · obtain ⟨⟨f, placed⟩, -⟩ := storedBy_placed permitted performed stores'
        exact absurd old (h.placed i _ f placed id).1
    · obtain ⟨⟨f, placed⟩, -⟩ := storedBy_placed permitted performed stores
      rcases (grown id' v.storageKey).mp title' with old' | ⟨v', stores', rfl, -⟩
      · exact absurd old' (h.placed i _ f placed id').1
      · obtain rfl : v = v' := Option.some.inj (stores.symm.trans stores')
        rfl
  rows v member := by
    refine (grown ..).mpr ?_
    rcases row_origin permitted performed member with ⟨u, old, id, key, -⟩ | origin
    · rw [← id, ← key]
      exact .inl (h.rows u old)
    · obtain ⟨u, f, stores, -, id, key, -⟩ := origin
      exact .inr ⟨u, stores, id, key⟩
  index id t there := (grown ..).mpr (.inl (h.index_step sound permitted performed id t there))
  owed j id t member := by
    by_cases self : j = i
    · rw [self, Function.update_self] at member
      exact h.owed_step grown permitted performed id t member
    · rw [Function.update_of_ne self] at member
      exact (grown ..).mpr (.inl (h.owed j id t member))
  pending _ _ held := h.free_step (f := .nothing) sound grown permitted performed (.inl held)
  placed _ _ _ held := h.free_step sound grown permitted performed (.inr held)

theorem Titles.begin (begins : Begins P σ) :
    Titles (Belongs (P := P) σ []) σ fun j => Ledger.begin (requests j) := by
  have initial : ∀ {id k}, Belongs (P := P) σ [] id k →
      ∃ v ∈ σ.database.images, v.id = id ∧ v.storageKey = k := by
    rintro id k (initial | ⟨e, none, -⟩)
    · exact initial
    · cases none
  constructor
  · intro id k title
    obtain ⟨v, member, rfl, rfl⟩ := initial title
    exact ⟨begins.registered.ids v member, begins.registered.keys v member⟩
  · intro id id' k title title'
    obtain ⟨v, member, rfl, rfl⟩ := initial title
    obtain ⟨v', member', rfl, same⟩ := initial title'
    rw [σ.database.storageKeys.eq member member' same.symm]
  · exact fun v member => .inl ⟨v, member, rfl, rfl⟩
  · obtain ⟨L, built, eq⟩ := begins.indexed
    intro id t there
    rw [eq] at there
    obtain ⟨v, member, rfl, -, rfl⟩ := ((built_describes built).target id t).mp there
    exact .inl ⟨v, member, rfl, rfl⟩
  · simp [Ledger.begin]
  · simp [Ledger.begin]
  · simp [Ledger.begin]

theorem Titles.environment (h : Titles B σ ls) (moved : σ.environment σ') : Titles B σ' ls := by
  obtain ⟨t, -, rfl⟩ := moved
  exact ⟨h.issued, h.single, h.rows, h.index, h.owed, h.pending, h.placed⟩

theorem Titles.restart (h : Titles B σ ls) (moved : σ.restart σ') :
    Titles B σ' fun j => Ledger.begin (requests j) := by
  obtain ⟨t, -, rfl⟩ := moved
  refine ⟨h.issued, h.single, h.rows, ?_, ?_, ?_, ?_⟩
  · intro id t there
    cases there
  · simp [Ledger.begin]
  · simp [Ledger.begin]
  · simp [Ledger.begin]

end Titles

end ImageSilo.Publication
