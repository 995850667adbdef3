import ImageSilo.Concurrent.Traces
import ImageSilo.Publication.Rebuilding

/-! An identifier that had a row gets no second one, so what a deletion has taken out of the index is out
for good. -/
namespace ImageSilo.Publication

open Go Concurrent Storage Tables Delivery

variable {P : Platform} {requests : Nat → Request} {σ σ' : State} {ls : Nat → Ledger} {i : Nat}
  {a : Action} {c : Choice} {r : Response a} {l : Ledger} {id path : GoString} {m : Alias}

/-- No row has the identifier of a placed file, or one whose removal is owed; an alias whose removal is
owed is the one that has been looked up. -/
structure Identities (σ : State) (ls : Nat → Ledger) : Prop where
  unborn : ∀ j k f, (ls j).placed = some (k, f) → ∀ v ∈ σ.database.images, v.id ≠ k
  removed : ∀ j id, IndexStep.removeImage id ∈ (ls j).owes → ∀ v ∈ σ.database.images, v.id ≠ id
  looked : ∀ j path, IndexStep.removeAlias path ∈ (ls j).owes →
    (ls j).mapping.map Prod.snd = some path

section Rows

/-- A row is an old one under its identifier, or the file of its identifier was placed. -/
theorem statement_ids {q : Statement} {r : Except DatabaseError q.Value} (allowed : l.allows P q)
    (performed : σ.statement q c = some (r, σ')) {v : Image} (member : v ∈ σ'.database.images) :
    (∃ u ∈ σ.database.images, u.id = v.id) ∨
      (l.recordStatement P q r).placed = none ∧ l.image = some v.id ∧
        ∃ f, l.placed = some (v.id, f) := by
  have change := statement_change performed
  generalize σ'.database = db' at change member
  cases change with
  | created w db' stored =>
      rw [(insertImage_some stored).1] at member
      rcases List.mem_append.mp member with old | new
      · exact .inl ⟨v, old, rfl⟩
      · obtain rfl := List.mem_singleton.mp new
        obtain ⟨-, locked, same, -, f, placed, -⟩ := allowed
        rw [storedImage_id]
        exact .inr ⟨rfl, locked, f, by rwa [same]⟩
  | imported w m db₁ db₂ stored mapped =>
      rw [(insertAlias_some mapped).1, (insertImage_some stored).1] at member
      rcases List.mem_append.mp member with old | new
      · exact .inl ⟨v, old, rfl⟩
      · obtain rfl := List.mem_singleton.mp new
        obtain ⟨-, locked, same, -, ⟨f, placed, -⟩, -⟩ := allowed
        refine .inr ⟨rfl, locked, f, ?_⟩
        change l.placed = some (w.id, f)
        rwa [same]
  | erased id row found => exact .inl ⟨v, (mem_removeImage.mp member).1, rfl⟩
  | erasedUnseen id row found => exact .inl ⟨v, (mem_removeImage.mp member).1, rfl⟩
  | shown id visibility row db' found replaced =>
      rcases mem_replaced replaced member with rfl | ⟨old, -⟩
      · exact .inl ⟨row, (image?_some found).1, rfl⟩
      · exact .inl ⟨v, old, rfl⟩
  | replaced w row db' found replaced =>
      rcases mem_replaced replaced member with rfl | ⟨old, -⟩
      · exact .inl ⟨row, (image?_some found).1, rfl⟩
      · exact .inl ⟨v, old, rfl⟩
  | aliased w db' present mapped =>
      rw [(insertAlias_some mapped).1] at member
      exact .inl ⟨v, member, rfl⟩
  | unaliased id row found => exact .inl ⟨v, member, rfl⟩
  | unaliasedUnseen id row found => exact .inl ⟨v, member, rfl⟩
  | none q r db' reading images aliases =>
      rw [images] at member
      exact .inl ⟨v, member, rfl⟩

/-- Whoever comes to owe a step about an image has found its row or placed its file. -/
theorem statement_concern {q : Statement} {r : Except DatabaseError q.Value} (idle : l.owes = [])
    (allowed : l.allows P q) (performed : σ.statement q c = some (r, σ')) {s : IndexStep}
    (owed : s ∈ (l.recordStatement P q r).owes) (about : Concerns id s) :
    (∃ u ∈ σ.database.images, u.id = id) ∨ ∃ f, l.placed = some (id, f) := by
  have change := statement_change performed
  generalize σ'.database = db' at change
  cases change with
  | created w db' stored =>
      obtain rfl := List.mem_singleton.mp owed
      obtain rfl : w.id = id := about
      obtain ⟨-, -, same, -, f, placed, -⟩ := allowed
      exact .inr ⟨f, by rwa [same]⟩
  | imported w m db₁ db₂ stored mapped =>
      obtain ⟨-, -, same, -, ⟨f, placed, -⟩, -⟩ := allowed
      rcases List.mem_cons.mp owed with rfl | later
      · obtain rfl : w.id = id := about
        exact .inr ⟨f, by rwa [same]⟩
      · obtain rfl := List.mem_singleton.mp later
        exact about.elim
  | erased id' row found =>
      obtain rfl := List.mem_singleton.mp owed
      obtain rfl : id' = id := about
      exact .inl ⟨row, image?_some found⟩
  | shown id' visibility row db' found replaced =>
      obtain rfl := List.mem_singleton.mp owed
      obtain rfl : id' = id := about
      exact .inl ⟨row, image?_some found⟩
  | replaced w row db' found replaced =>
      obtain rfl := List.mem_singleton.mp owed
      obtain rfl : w.id = id := about
      exact .inl ⟨row, image?_some found⟩
  | aliased w db' present mapped =>
      obtain rfl := List.mem_singleton.mp owed
      exact about.elim
  | unaliased id' row found =>
      obtain rfl := List.mem_singleton.mp owed
      exact about.elim
  | erasedUnseen id' row found =>
      have owed : s ∈ l.owes := owed
      rw [idle] at owed
      cases owed
  | unaliasedUnseen id' row found =>
      have owed : s ∈ l.owes := owed
      rw [idle] at owed
      cases owed
  | none q r db' reading images aliases =>
      obtain ⟨_, _, _, _, _, _, eq⟩ := reading_frame (P := P) l reading
      rw [eq] at owed
      have owed : s ∈ l.owes := owed
      rw [idle] at owed
      cases owed

/-- A removal comes to be owed by deleting the row. -/
theorem statement_removal {q : Statement} {r : Except DatabaseError q.Value} (idle : l.owes = [])
    (performed : σ.statement q c = some (r, σ'))
    (owed : IndexStep.removeImage id ∈ (l.recordStatement P q r).owes) :
    σ'.database = σ.database.removeImage id := by
  have change := statement_change performed
  generalize σ'.database = db' at change
  cases change with
  | erased id' row found =>
      cases List.mem_singleton.mp owed
      rfl
  | erasedUnseen id' row found =>
      have owed : IndexStep.removeImage id ∈ l.owes := owed
      rw [idle] at owed
      cases owed
  | unaliasedUnseen id' row found =>
      have owed : IndexStep.removeImage id ∈ l.owes := owed
      rw [idle] at owed
      cases owed
  | imported w m db₁ db₂ stored mapped =>
      rcases List.mem_cons.mp owed with first | later
      · cases first
      · cases List.mem_singleton.mp later
  | none q r db' reading images aliases =>
      obtain ⟨_, _, _, _, _, _, eq⟩ := reading_frame (P := P) l reading
      rw [eq] at owed
      have owed : IndexStep.removeImage id ∈ l.owes := owed
      rw [idle] at owed
      cases owed
  | _ => cases List.mem_singleton.mp owed

/-- A file is placed under a key that was in the call's hand. -/
theorem placed_origin (permitted : l.permits P a) {k : GoString} {f : Facts}
    (placed : (l.record P a r).placed = some (k, f)) : l.placed = some (k, f) ∨ k ∈ l.pending := by
  cases a with
  | statement q => exact .inl (statement_placed (P := P) l r k f placed)
  | file b =>
      by_cases commits : Commits b r
      · unfold Commits at commits
        split at commits
        · obtain ⟨g, -, eq⟩ := Option.map_eq_some_iff.mp placed
          cases eq
          exact .inr permitted.2.2.1
        · exact commits.elim
      · exact .inl (file_placed (P := P) l commits k f placed)
  | sync s =>
      obtain ⟨_, _, _, _, _, eq⟩ := recordSync_frame l s
      rw [Ledger.record, eq] at placed
      exact .inl placed
  | index s =>
      obtain ⟨_, _, _, _, eq⟩ := recordIndex_frame l s
      rw [Ledger.record, eq] at placed
      exact .inl placed
  | newUUID => cases r <;> exact .inl placed
  | _ => exact .inl placed

/-- An alias comes to be owed away by deleting the row that was looked up. -/
theorem statement_unaliased {q : Statement} {r : Except DatabaseError q.Value} (idle : l.owes = [])
    (allowed : l.allows P q) (reported : l.reports (.statement q) r)
    (performed : σ.statement q c = some (r, σ'))
    (owed : IndexStep.removeAlias path ∈ (l.recordStatement P q r).owes) :
    (l.recordStatement P q r).mapping.map Prod.snd = some path := by
  have change := statement_change performed
  generalize σ'.database = db' at change
  cases change with
  | unaliased id row found =>
      obtain ⟨-, path', locked, mapped, -⟩ := allowed
      have same : l.path = some row.path := reported
      obtain rfl : path = row.path := by
        cases List.mem_singleton.mp owed
        rfl
      change l.mapping.map Prod.snd = some row.path
      rw [mapped, ← same, locked]
      rfl
  | erasedUnseen id' row found =>
      have owed : IndexStep.removeAlias path ∈ l.owes := owed
      rw [idle] at owed
      cases owed
  | unaliasedUnseen id' row found =>
      have owed : IndexStep.removeAlias path ∈ l.owes := owed
      rw [idle] at owed
      cases owed
  | imported w m db₁ db₂ stored mapped =>
      rcases List.mem_cons.mp owed with first | later
      · cases first
      · cases List.mem_singleton.mp later
  | none q r db' reading images aliases =>
      obtain ⟨_, _, _, _, _, _, eq⟩ := reading_frame (P := P) l reading
      rw [eq] at owed
      have owed : IndexStep.removeAlias path ∈ l.owes := owed
      rw [idle] at owed
      cases owed
  | _ => cases List.mem_singleton.mp owed

/-- Only a statement changes what has been looked up of an alias. -/
theorem record_mapping (other : ∀ q, a ≠ .statement q) : (l.record P a r).mapping = l.mapping := by
  cases a with
  | statement q => exact absurd rfl (other q)
  | sync s =>
      obtain ⟨_, _, _, _, _, eq⟩ := recordSync_frame l s
      rw [Ledger.record, eq]
  | index s =>
      obtain ⟨_, _, _, _, eq⟩ := recordIndex_frame l s
      rw [Ledger.record, eq]
  | file b =>
      obtain ⟨_, _, _, _, _, _, _, eq⟩ := recordFile_frame (P := P) l b r
      rw [Ledger.record, eq]
  | newUUID => cases r <;> rfl
  | _ => rfl

end Rows

section Images

theorem Identities.begin : Identities σ fun j => Ledger.begin (requests j) := by
  constructor <;> simp [Ledger.begin]

theorem Identities.step (h : Identities σ ls) (sound : Sound P requests σ ls)
    (permitted : (ls i).permits P a) (performed : σ.perform P i a c = some (r, σ')) :
    Identities σ' (Function.update ls i ((ls i).record P a r)) := by
  have ids : ∀ v ∈ σ'.database.images, (∃ u ∈ σ.database.images, u.id = v.id) ∨
      ((ls i).record P a r).placed = none ∧ (∃ f, (ls i).placed = some (v.id, f)) ∧
        ∀ j, ∀ s ∈ (ls j).owes, ¬ Concerns v.id s := by
    intro v member
    cases a with
    | statement q =>
        refine (statement_ids permitted.2 performed member).imp_right ?_
        rintro ⟨free, locked, mine⟩
        exact ⟨free, mine, sound.unconcerned locked permitted.1⟩
    | _ =>
        rw [(perform_frame performed).database (by simp)] at member
        exact .inl ⟨v, member, rfl⟩
  constructor
  · intro j k f placed v member same
    have before : (ls j).placed = some (k, f) ∨ k ∈ (ls j).pending := by
      by_cases self : j = i
      · rw [self, Function.update_self] at placed
        rw [self]
        exact placed_origin permitted placed
      · rw [Function.update_of_ne self] at placed
        exact .inl placed
    rcases ids v member with ⟨u, known, own⟩ | ⟨free, ⟨f', mine⟩, -⟩
    · rcases before with placed | held
      · exact h.unborn j k f placed u known (own.trans same)
      · refine (sound.keyed.ids u known).2 j ?_
        rwa [own, same]
    · -- the file that the new row describes is placed no more
      rw [same] at mine
      rcases before with was | held
      · obtain rfl := sound.keyed.apart j i k f f' was mine
        rw [Function.update_self, free] at placed
        cases placed
      · exact (sound.keyed.placed i k f' mine).2 j held
  · intro j id owed v member same
    by_cases old : IndexStep.removeImage id ∈ (ls j).owes
    · rcases ids v member with ⟨u, known, own⟩ | ⟨-, -, quiet⟩
      · exact h.removed j id old u known (own.trans same)
      · exact quiet j _ old same.symm
    · by_cases self : j = i
      · subst self
        rw [Function.update_self] at owed
        cases a with
        | statement q =>
            rw [statement_removal permitted.1 performed owed, mem_removeImage] at member
            exact member.2 same
        | _ => exact old (record_owes (by simp) _ owed)
      · rw [Function.update_of_ne self] at owed
        exact old owed
  · intro j path owed
    by_cases self : j = i
    · subst self
      rw [Function.update_self] at owed ⊢
      cases a with
      | statement q =>
          exact statement_unaliased permitted.1 permitted.2 (sound.reports permitted performed)
            performed owed
      | _ =>
          rw [record_mapping (by simp)]
          exact h.looked j path (record_owes (by simp) _ owed)
    · rw [Function.update_of_ne self] at owed ⊢
      exact h.looked j path owed

/-- The three ways in which an image comes to be noted as gone. -/
theorem record_erased (erased : (l.record P a r).erased = some id) : l.erased = some id ∨
    (⟨a, r⟩ : Answer Response) = ⟨.statement (.deleteImage id), .error .noRows⟩ ∨
      (a = .index (.removeImage id) ∧ l.owes ≠ []) := by
  cases a with
  | statement q =>
      unfold Ledger.record Ledger.recordStatement at erased
      dsimp only at erased
      split at erased
      case h_4 id' =>
        cases erased
        exact .inr (.inl rfl)
      case h_10 => split at erased <;> exact .inl erased
      case h_14 =>
        split at erased
        · split at erased <;> exact .inl erased
        · exact .inl erased
      all_goals exact .inl erased
  | index s =>
      unfold Ledger.record Ledger.recordIndex at erased
      dsimp only at erased
      split at erased
      · rename_i owed
        cases erased
        exact .inr (.inr ⟨rfl, by simp [owed]⟩)
      all_goals exact .inl erased
  | sync s =>
      obtain ⟨_, _, _, _, _, eq⟩ := recordSync_frame l s
      rw [Ledger.record, eq] at erased
      exact .inl erased
  | file b =>
      obtain ⟨_, _, _, _, _, _, _, eq⟩ := recordFile_frame (P := P) l b r
      rw [Ledger.record, eq] at erased
      exact .inl erased
  | newUUID => cases r <;> exact .inl erased
  | _ => exact .inl erased

/-- The identifier of an image that had a row, before and after the call has found or made it gone. -/
structure Ended (i : Nat) (id : GoString) (σ : State) (ls : Nat → Ledger) : Prop where
  spent : Spent σ.issued ls id
  unborn : ∀ j f, (ls j).placed ≠ some (id, f)
  erased : (ls i).erased = some id → (∀ v ∈ σ.database.images, v.id ≠ id) ∧
    ∀ j, ∀ s ∈ (ls j).owes, ¬ Concerns id s

theorem Ended.begin (h : Identities σ ls) (sound : Sound P requests σ ls) {v : Image}
    (there : v ∈ σ.database.images) (fresh : (ls i).erased = none) : Ended i v.id σ ls where
  spent := sound.keyed.ids v there
  unborn j f placed := h.unborn j v.id f placed v there rfl
  erased gone := by rw [fresh] at gone; cases gone

/-- Where no row and no placed file has the identifier, none comes to have it. -/
theorem rows_absent (permitted : l.permits P a) (performed : σ.perform P i a c = some (r, σ'))
    (unborn : ∀ f, l.placed ≠ some (id, f)) (absent : ∀ v ∈ σ.database.images, v.id ≠ id) :
    ∀ v ∈ σ'.database.images, v.id ≠ id := by
  intro v member
  cases a with
  | statement q =>
      rintro rfl
      rcases statement_ids permitted.2 performed member with ⟨u, known, own⟩ | ⟨-, -, f, placed⟩
      · exact absent u known own
      · exact unborn f placed
  | _ =>
      rw [(perform_frame performed).database (by simp)] at member
      exact absent v member

theorem Ended.step {j : Nat} (h : Ended j id σ ls) (identities : Identities σ ls)
    (agreement : Agreement P σ ls) (sound : Sound P requests σ ls) (permitted : (ls i).permits P a)
    (performed : σ.perform P i a c = some (r, σ')) :
    Ended j id σ' (Function.update ls i ((ls i).record P a r)) := by
  refine ⟨h.spent.step performed, ?_, ?_⟩
  · intro k f placed
    by_cases self : k = i
    · rw [self, Function.update_self] at placed
      rcases placed_origin permitted placed with was | held
      · exact h.unborn i f was
      · exact h.spent.2 i held
    · rw [Function.update_of_ne self] at placed
      exact h.unborn k f placed
  -- it is enough to know the two facts of the state before the step
  have stay (absent : ∀ v ∈ σ.database.images, v.id ≠ id)
      (quiet : ∀ k, ∀ s ∈ (Function.update ls i ((ls i).record P a r) k).owes,
        Concerns id s → s ∈ (ls k).owes → False) :
      (∀ v ∈ σ'.database.images, v.id ≠ id) ∧
        ∀ k, ∀ s ∈ (Function.update ls i ((ls i).record P a r) k).owes, ¬ Concerns id s := by
    refine ⟨rows_absent permitted performed (h.unborn i) absent, ?_⟩
    intro k s owed about
    refine quiet k s owed about ?_
    by_cases self : k = i
    · rw [self, Function.update_self] at owed
      rw [self]
      cases a with
      | statement q =>
          rcases statement_concern permitted.1 permitted.2 performed owed about with
            ⟨u, known, own⟩ | ⟨f, placed⟩
          · exact absurd own (absent u known)
          · exact absurd placed (h.unborn i f)
      | _ => exact record_owes (by simp) s owed
    · rwa [Function.update_of_ne self] at owed
  intro erased
  by_cases self : j = i
  · subst self
    rw [Function.update_self] at erased
    rcases record_erased erased with before | missed | ⟨paid, owing⟩
    · obtain ⟨absent, quiet⟩ := h.erased before
      exact stay absent fun k s _ about owed => quiet k s owed about
    · cases missed
      obtain ⟨idle, allowed⟩ := permitted
      have locked : (ls j).image = some id := allowed.2.1
      have answer := (statement_answer performed (by simp)).1
      have absent : ∀ v ∈ σ.database.images, v.id ≠ id := by
        rintro v member rfl
        have found : σ.database.image? v.id = some v := image?_of_mem member
        dsimp only [Database.execute] at answer
        rw [found] at answer
        cases answer
      exact stay absent fun k s _ about owed => sound.unconcerned locked idle k s owed about
    · subst paid
      rcases permitted with ⟨rest, owed⟩ | ⟨idle, -⟩
      · have head : IndexStep.removeImage id ∈ (ls j).owes := by simp [owed]
        have absent := identities.removed j id head
        refine stay absent ?_
        intro k s later about before
        obtain rfl := sound.locks.image_holder ((sound.coherent k).concerned before about)
          ((sound.coherent j).concerned head rfl)
        rw [Function.update_self, Ledger.record, recordIndex_owes, owed, List.tail_cons,
          (agreement.orderly k).last owed (by simp)] at later
        cases later
      · exact absurd idle owing
  · rw [Function.update_of_ne self] at erased
    obtain ⟨absent, quiet⟩ := h.erased erased
    exact stay absent fun k s _ about owed => quiet k s owed about

/-- What the call has noted as gone is not in the index. -/
theorem Ended.missing (h : Ended i id σ ls) (agreement : Agreement P σ ls)
    (erased : (ls i).erased = some id) : σ.index.get id = none := by
  obtain ⟨absent, quiet⟩ := h.erased erased
  have shown := agreement.targets.settled id quiet
  cases there : σ.index.byID.lookup id with
  | none => exact there
  | some t =>
      rw [there] at shown
      obtain ⟨v, member, own, -⟩ := shown
      exact absurd own (absent v member)

end Images

section Aliases

/-- A path is given to a new alias. -/
def Assigns : (a : Action) → Response a → GoString → Prop
  | .statement (.createAlias m), .ok true, path => m.path = path
  | .statement (.createImport _ m), .ok _, path => m.path = path
  | _, _, _ => False

/-- The deletion of an alias does not find its row. -/
def Misses : (a : Action) → Response a → GoString → Prop
  | .statement (.aliasPathByID other), .error .noRows, id => other = id
  | .statement (.deleteAlias other), .error .noRows, id => other = id
  | _, _, _ => False

theorem statement_aliases {q : Statement} {r : Except DatabaseError q.Value} (allowed : l.allows P q)
    (performed : σ.statement q c = some (r, σ')) (member : m ∈ σ'.database.aliases) :
    m ∈ σ.database.aliases ∨ Assigns (.statement q) r m.path ∧ m.id ∈ l.pending := by
  have change := statement_change performed
  generalize σ'.database = db' at change member
  cases change with
  | created w db' stored =>
      rw [(insertImage_some stored).2.1] at member
      exact .inl member
  | imported w n db₁ db₂ stored mapped =>
      obtain ⟨-, -, -, -, -, -, -, held, -⟩ := allowed
      rw [(insertAlias_some mapped).2.1, (insertImage_some stored).2.1] at member
      rcases List.mem_append.mp member with old | new
      · exact .inl old
      · obtain rfl := List.mem_singleton.mp new
        exact .inr ⟨rfl, held⟩
  | erased id row found => exact .inl (mem_removeImage_aliases.mp member).1
  | erasedUnseen id row found => exact .inl (mem_removeImage_aliases.mp member).1
  | shown id visibility row db' found replaced =>
      rw [(replaceImage_some replaced).2] at member
      exact .inl member
  | replaced w row db' found replaced =>
      rw [(replaceImage_some replaced).2] at member
      exact .inl member
  | aliased n db' present mapped =>
      obtain ⟨-, -, -, held, -⟩ := allowed
      rw [(insertAlias_some mapped).2.1] at member
      rcases List.mem_append.mp member with old | new
      · exact .inl old
      · obtain rfl := List.mem_singleton.mp new
        exact .inr ⟨rfl, held⟩
  | unaliased id row found => exact .inl (mem_removeAlias.mp member).1
  | unaliasedUnseen id row found => exact .inl (mem_removeAlias.mp member).1
  | none q r db' reading images aliases =>
      rw [aliases] at member
      exact .inl member

/-- What misses finds no row, and changes neither the tables nor the index. -/
theorem Misses.absent (misses : Misses a r id) (performed : σ.perform P i a c = some (r, σ')) :
    (∀ m ∈ σ.database.aliases, m.id ≠ id) ∧ ∃ q, a = .statement q := by
  have none {m : Alias} (member : m ∈ σ.database.aliases) :
      row? Alias.id m.id σ.database.aliases = some m := row?_eq_some σ.database.aliasIDs member
  unfold Misses at misses
  split at misses
  · refine ⟨?_, _, rfl⟩
    have answer := (statement_answer (q := .aliasPathByID _) performed (by simp)).1
    rintro m member own
    subst misses own
    dsimp only [Database.execute] at answer
    rw [none member] at answer
    cases answer
  · refine ⟨?_, _, rfl⟩
    have answer := (statement_answer (q := .deleteAlias _) performed (by simp)).1
    rintro m member own
    subst misses own
    dsimp only [Database.execute] at answer
    rw [none member] at answer
    cases answer
  · exact misses.elim

/-- The ways in which an alias comes to be noted as gone. -/
theorem record_unaliased (unaliased : (l.record P a r).unaliased = some id) :
    l.unaliased = some id ∨ Misses a r id ∨
      ∃ path, a = .index (.removeAlias path) ∧ l.owes ≠ [] ∧ l.mapping.map Prod.fst = some id := by
  cases a with
  | statement q =>
      unfold Ledger.record Ledger.recordStatement at unaliased
      dsimp only at unaliased
      split at unaliased
      case h_9 id' => exact .inr (.inl (Option.some.inj unaliased))
      case h_12 id' => exact .inr (.inl (Option.some.inj unaliased))
      case h_10 => split at unaliased <;> exact .inl unaliased
      case h_14 =>
        split at unaliased
        · split at unaliased <;> exact .inl unaliased
        · exact .inl unaliased
      all_goals exact .inl unaliased
  | index s =>
      unfold Ledger.record Ledger.recordIndex at unaliased
      dsimp only at unaliased
      split at unaliased
      case h_2 path owed => exact .inr (.inr ⟨path, rfl, by simp [owed], unaliased⟩)
      all_goals exact .inl unaliased
  | sync s =>
      obtain ⟨_, _, _, _, _, eq⟩ := recordSync_frame l s
      rw [Ledger.record, eq] at unaliased
      exact .inl unaliased
  | file b =>
      obtain ⟨_, _, _, _, _, _, _, eq⟩ := recordFile_frame (P := P) l b r
      rw [Ledger.record, eq] at unaliased
      exact .inl unaliased
  | newUUID => cases r <;> exact .inl unaliased
  | _ => exact .inl unaliased

/-- An alias that had a row, while its path is given to no other. -/
structure Unlinked (i : Nat) (m : Alias) (σ : State) (ls : Nat → Ledger) : Prop where
  spent : Spent σ.issued ls m.id
  sole : ∀ m' ∈ σ.database.aliases, m'.path = m.path ∨ m'.id = m.id → m' = m
  mapping : ∀ path, (ls i).mapping = some (m.id, path) → path = m.path
  gone : (ls i).unaliased = some m.id →
    m ∉ σ.database.aliases ∧ σ.index.aliases.lookup m.path = none

theorem Unlinked.begin (sound : Sound P requests σ ls) (there : m ∈ σ.database.aliases)
    (fresh : (ls i).unaliased = none) (unread : (ls i).mapping = none) : Unlinked i m σ ls where
  spent := sound.keyed.aliases m there
  sole m' member same := by
    rcases same with path | own
    · exact σ.database.aliasPaths.eq member there path
    · exact σ.database.aliasIDs.eq member there own
  mapping path mapped := by rw [unread] at mapped; cases mapped
  gone unaliased := by rw [fresh] at unaliased; cases unaliased

/-- Without a row a path has no entry, unless its removal is still owed. -/
theorem Mappings.bare (h : Mappings σ ls) (free : ∀ m ∈ σ.database.aliases, m.path ≠ path)
    (kept : ∀ j, IndexStep.removeAlias path ∉ (ls j).owes) :
    σ.index.aliases.lookup path = none ∨ Lingers σ ls path := by
  by_cases root : path = str "/"
  · rw [root]
    exact .inl h.root
  have quiet : ∀ j, ∀ s ∈ (ls j).owes, ¬ Maps path s := by
    intro j s member about
    cases s with
    | addAlias other id =>
        obtain rfl : other = path := about
        obtain ⟨-, ⟨m, known, same, -⟩, -⟩ := h.added j other id member
        exact free m known same
    | removeAlias other =>
        obtain rfl : other = path := about
        exact kept j member
    | _ => exact about
  rcases h.settled path root quiet with leads | ⟨-, lingers⟩
  · cases there : σ.index.aliases.lookup path with
    | none => exact .inl rfl
    | some id =>
        rw [there] at leads
        obtain ⟨m, member, same, -⟩ := leads
        exact absurd same (free m member)
  · exact .inr lingers

/-- Without a row no step of the index gives a path an entry. -/
theorem entry_absent (agreement : Agreement P σ ls) (sound : Sound P requests σ ls)
    (permitted : (ls i).permits P a)
    (performed : σ.perform P i a c = some (r, σ')) (free : ∀ m ∈ σ.database.aliases, m.path ≠ path)
    (absent : σ.index.aliases.lookup path = none) : σ'.index.aliases.lookup path = none := by
  cases a with
  | index s =>
      cases performed
      rcases permitted with ⟨rest, owed⟩ | ⟨-, L, ready, rfl⟩
      · have head : s ∈ (ls i).owes := by simp [owed]
        cases s with
        | addAlias other id =>
            obtain ⟨-, ⟨m, member, same, -⟩, -⟩ := agreement.mappings.added i other id head
            have apart : path ≠ other := by
              rintro rfl
              exact free m member same
            simp [absent, apart]
        | replaceAll snapshot => exact ((sound.coherent i).backed _ head).elim
        | _ => simp [absent]
      · have built := agreement.builds i
        rw [ready] at built
        have d := built_describes built
        change L.snapshot.aliases.lookup path = none
        by_cases root : path = str "/"
        · rw [root]
          exact describing_root d
        · have leads := describing_leads d root
          cases there : L.snapshot.aliases.lookup path with
          | none => rfl
          | some id =>
              rw [there] at leads
              obtain ⟨m, member, same, -⟩ := leads
              exact absurd same (free m member)
  | _ => rwa [(perform_frame performed).index (by simp)]

/-- A call that owes one step has it before it. -/
theorem owing_index {w : World (machine P) Result} (obeyed : (watch P requests).Obeyed w ls)
    {j : Nat} {s : IndexStep} {rest : List IndexStep} (owed : (ls j).owes = s :: rest) :
    ∃ next, w.calls j = .act (.index s) next := by
  have obeys := obeyed j
  have busy : (ls j).owes ≠ [] := by simp [owed]
  cases program : w.calls j with
  | done v =>
      rw [program] at obeys
      exact absurd (Finished.settled obeys).owes busy
  | act a next =>
      rw [program] at obeys
      have permitted : (ls j).permits P a := obeys.1
      cases a with
      | index s' =>
          rcases permitted with ⟨rest', mine⟩ | ⟨idle, -⟩
          · rw [owed] at mine
            cases mine
            exact ⟨next, rfl⟩
          · exact absurd idle busy
      | sync s' => exact absurd permitted.1 busy
      | statement q => exact absurd permitted.1 busy
      | file b => exact absurd permitted.1 busy
      | getTarget id => exact absurd permitted.1 busy
      | getAlias path => exact absurd permitted.1 busy
      | _ => exact absurd permitted busy

/-- A removal is owed alone. -/
theorem Orderly.removal (h : Orderly l) {s : IndexStep} (member : s ∈ l.owes)
    (removes : (∃ id, s = .removeImage id) ∨ ∃ path, s = .removeAlias path) : l.owes = [s] := by
  rcases h with single | ⟨id, t, path, other, pair⟩
  · cases owed : l.owes with
    | nil => simp [owed] at member
    | cons first rest =>
        rw [owed, List.tail_cons] at single
        rw [owed, single, List.mem_singleton] at member
        rw [single, member]
  · rw [pair] at member
    rcases removes with ⟨id', rfl⟩ | ⟨path', rfl⟩ <;> simp at member

/-- Whoever still has to take the alias, or the image that its path leads to, out of the index. -/
def Withdrawing (m : Alias) (σ : State) (l : Ledger) : Prop :=
  IndexStep.removeAlias m.path ∈ l.owes ∨
    ∃ id, σ.index.aliases.lookup m.path = some id ∧ IndexStep.removeImage id ∈ l.owes

/-- Whoever still has to do it has the step before it. -/
theorem Withdrawing.before {w : World (machine P) Result} {j : Nat}
    (withdrawing : Withdrawing m w.shared (ls j)) (orderly : Orderly (ls j))
    (obeyed : (watch P requests).Obeyed w ls) : ∃ next,
      w.calls j = .act (.index (.removeAlias m.path)) next ∨
        ∃ id, w.shared.index.aliases.lookup m.path = some id ∧
          w.calls j = .act (.index (.removeImage id)) next := by
  rcases withdrawing with owed | ⟨id, there, owed⟩
  · obtain ⟨next, program⟩ := owing_index obeyed (orderly.removal owed (.inr ⟨_, rfl⟩))
    exact ⟨next, .inl program⟩
  · obtain ⟨next, program⟩ := owing_index obeyed (orderly.removal owed (.inl ⟨_, rfl⟩))
    exact ⟨next, .inr ⟨id, there, program⟩⟩

theorem Unlinked.step {j : Nat} (h : Unlinked j m σ ls) (identities : Identities σ ls)
    (agreement : Agreement P σ ls) (sound : Sound P requests σ ls) (permitted : (ls i).permits P a)
    (performed : σ.perform P i a c = some (r, σ')) (other : ¬ Assigns a r m.path)
    (awaited : Misses a r m.id → ∀ k, ¬ Withdrawing m σ (ls k)) :
    Unlinked j m σ' (Function.update ls i ((ls i).record P a r)) := by
  have rows : ∀ m' ∈ σ'.database.aliases, m'.path = m.path ∨ m'.id = m.id →
      m' ∈ σ.database.aliases := by
    intro m' member same
    cases a with
    | statement q =>
        rcases statement_aliases permitted.2 performed member with old | ⟨assigned, held⟩
        · exact old
        · rcases same with path | own
          · rw [path] at assigned
            exact absurd assigned other
          · rw [own] at held
            exact absurd held (h.spent.2 i)
    | _ => rwa [(perform_frame performed).database (by simp)] at member
  refine ⟨h.spent.step performed, fun m' member same => h.sole m' (rows m' member same) same, ?_, ?_⟩
  · intro path mapped
    by_cases self : j = i
    · subst self
      rw [Function.update_self] at mapped
      cases a with
      | statement q =>
          rcases statement_mapping (P := P) performed mapped with before | ⟨m', member, own, same⟩
          · exact h.mapping path before
          · rw [← same, h.sole m' member (.inr own)]
      | _ =>
          rw [record_mapping (by simp)] at mapped
          exact h.mapping path mapped
    · rw [Function.update_of_ne self] at mapped
      exact h.mapping path mapped
  -- once the row is gone it stays gone, and nothing gives the path an entry again
  have stay (gone : m ∉ σ.database.aliases) (absent : σ'.index.aliases.lookup m.path = none) :
      m ∉ σ'.database.aliases ∧ σ'.index.aliases.lookup m.path = none :=
    ⟨fun member => gone (rows m member (.inl rfl)), absent⟩
  have bare (gone : m ∉ σ.database.aliases) : ∀ m' ∈ σ.database.aliases, m'.path ≠ m.path := by
    intro m' member same
    exact gone (h.sole m' member (.inl same) ▸ member)
  have before (gone : (ls j).unaliased = some m.id) :
      m ∉ σ'.database.aliases ∧ σ'.index.aliases.lookup m.path = none := by
    obtain ⟨gone, absent⟩ := h.gone gone
    exact stay gone (entry_absent agreement sound permitted performed (bare gone) absent)
  intro unaliased
  by_cases self : j = i
  · subst self
    rw [Function.update_self] at unaliased
    rcases record_unaliased unaliased with was | misses | ⟨path, rfl, owing, mapped⟩
    · exact before was
    · obtain ⟨missing, q, rfl⟩ := misses.absent performed
      have gone : m ∉ σ.database.aliases := fun member => missing m member rfl
      have awaited := awaited misses
      refine stay gone ?_
      rw [(perform_frame performed).index (by simp)]
      rcases agreement.mappings.bare (bare gone) fun k owed => awaited k (.inl owed) with
        absent | ⟨id, k, there, owed⟩
      · exact absent
      · exact absurd (.inr ⟨id, there, owed⟩) (awaited k)
    · rcases permitted with ⟨rest, owed⟩ | ⟨idle, -⟩
      · have head : IndexStep.removeAlias path ∈ (ls j).owes := by simp [owed]
        have looked := identities.looked j path head
        obtain ⟨⟨id, path'⟩, mapping, rfl⟩ := Option.map_eq_some_iff.mp mapped
        rw [mapping] at looked
        obtain rfl : path' = path := Option.some.inj looked
        obtain rfl := h.mapping path' mapping
        cases performed
        refine stay (fun member => agreement.mappings.removed j _ head m member rfl) ?_
        simp
      · exact absurd idle owing
  · rw [Function.update_of_ne self] at unaliased
    exact before unaliased

end Aliases

end ImageSilo.Publication
