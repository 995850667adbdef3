import ImageSilo.Publication.Obedience

/-! Which part of the shared state, and which entries of a ledger, an action can change. -/
namespace ImageSilo.Publication

open Go Concurrent Storage

section Shared

variable {P : Platform} {σ σ' : State} {i : Nat} {a : Action} {c : Choice} {r : Response a}

theorem statement_state {q : Statement} {r : Except DatabaseError q.Value}
    (performed : σ.statement q c = some (r, σ')) : ∃ db, σ' = { σ with database := db } := by
  unfold State.statement at performed
  split at performed
  · cases performed
    exact ⟨_, rfl⟩
  · cases performed
    exact ⟨_, rfl⟩
  · split at performed
    · cases performed
      exact ⟨_, rfl⟩
    · cases performed
  · cases performed

theorem fresh_state {accepts : GoString → Bool} {r : Except Error GoString}
    (performed : σ.fresh accepts c = some (r, σ')) :
    ((∃ e, r = .error e) ∧ σ' = σ) ∨ ∃ text, r = .ok text ∧ text ∉ σ.issued ∧
      accepts text = true ∧ σ' = { σ with issued := insert text σ.issued } := by
  unfold State.fresh at performed
  split at performed
  · split at performed
    · rename_i new
      cases performed
      exact .inr ⟨_, rfl, new.1, new.2, rfl⟩
    · cases performed
  · cases performed
    exact .inl ⟨⟨_, rfl⟩, rfl⟩
  · cases performed

theorem file_state {b : FileAction} {r : b.Response}
    (performed : σ.perform P i (.file b) c = some (r, σ')) :
    ∃ files, σ.files.perform P σ.clock b c = some (r, files) ∧ σ' = { σ with files := files } := by
  simp only [State.perform, Option.map_eq_some_iff, Prod.mk.injEq, Prod.exists] at performed
  obtain ⟨r', files, done, rfl, rfl⟩ := performed
  exact ⟨files, done, rfl⟩

theorem sync_state {s : Sync} {r : Unit} (performed : σ.perform P i (.sync s) c = some (r, σ')) :
    ∃ locks, σ.locks.perform i s = some locks ∧ σ' = { σ with locks := locks } := by
  simp only [State.perform, Option.map_eq_some_iff, Prod.mk.injEq] at performed
  obtain ⟨locks, done, -, rfl⟩ := performed
  exact ⟨locks, done, rfl⟩

/-- The components that an action leaves alone. -/
structure Frame (σ σ' : State) (a : Action) : Prop where
  locks : (∀ s, a ≠ .sync s) → σ'.locks = σ.locks
  database : (∀ q, a ≠ .statement q) → σ'.database = σ.database
  index : (∀ s, a ≠ .index s) → σ'.index = σ.index
  sessions : (∀ s, a ≠ .sessionStep s) → σ'.sessions = σ.sessions
  tokens : (∀ s, a ≠ .tokenStep s) → σ'.tokens = σ.tokens
  files : (∀ b, a ≠ .file b) → σ'.files = σ.files
  clock : σ'.clock = σ.clock
  issued : σ.issued ⊆ σ'.issued

theorem perform_frame (performed : σ.perform P i a c = some (r, σ')) : Frame σ σ' a := by
  cases a with
  | sync s =>
      obtain ⟨locks, -, rfl⟩ := sync_state performed
      exact ⟨fun other => absurd rfl (other s), fun _ => rfl, fun _ => rfl, fun _ => rfl,
        fun _ => rfl, fun _ => rfl, rfl, Finset.Subset.refl _⟩
  | statement q =>
      obtain ⟨db, rfl⟩ := statement_state performed
      exact ⟨fun _ => rfl, fun other => absurd rfl (other q), fun _ => rfl, fun _ => rfl,
        fun _ => rfl, fun _ => rfl, rfl, Finset.Subset.refl _⟩
  | file b =>
      obtain ⟨files, -, rfl⟩ := file_state performed
      exact ⟨fun _ => rfl, fun _ => rfl, fun _ => rfl, fun _ => rfl, fun _ => rfl,
        fun other => absurd rfl (other b), rfl, Finset.Subset.refl _⟩
  | newUUID =>
      rcases fresh_state performed with ⟨-, rfl⟩ | ⟨text, -, -, -, rfl⟩
      · exact ⟨fun _ => rfl, fun _ => rfl, fun _ => rfl, fun _ => rfl, fun _ => rfl, fun _ => rfl,
          rfl, Finset.Subset.refl _⟩
      · exact ⟨fun _ => rfl, fun _ => rfl, fun _ => rfl, fun _ => rfl, fun _ => rfl, fun _ => rfl,
          rfl, Finset.subset_insert _ _⟩
  | newToken start =>
      rcases fresh_state performed with ⟨-, rfl⟩ | ⟨text, -, -, -, rfl⟩
      · exact ⟨fun _ => rfl, fun _ => rfl, fun _ => rfl, fun _ => rfl, fun _ => rfl, fun _ => rfl,
          rfl, Finset.Subset.refl _⟩
      · exact ⟨fun _ => rfl, fun _ => rfl, fun _ => rfl, fun _ => rfl, fun _ => rfl, fun _ => rfl,
          rfl, Finset.subset_insert _ _⟩
  | hashPassword password =>
      have same : σ' = σ := by
        cases c <;> cases performed <;> rfl
      subst same
      exact ⟨fun _ => rfl, fun _ => rfl, fun _ => rfl, fun _ => rfl, fun _ => rfl, fun _ => rfl,
        rfl, Finset.Subset.refl _⟩
  | index s =>
      cases performed
      exact ⟨fun _ => rfl, fun _ => rfl, fun other => absurd rfl (other s), fun _ => rfl,
        fun _ => rfl, fun _ => rfl, rfl, Finset.Subset.refl _⟩
  | sessionStep s =>
      cases performed
      exact ⟨fun _ => rfl, fun _ => rfl, fun _ => rfl, fun other => absurd rfl (other s),
        fun _ => rfl, fun _ => rfl, rfl, Finset.Subset.refl _⟩
  | tokenStep s =>
      cases performed
      exact ⟨fun _ => rfl, fun _ => rfl, fun _ => rfl, fun _ => rfl,
        fun other => absurd rfl (other s), fun _ => rfl, rfl, Finset.Subset.refl _⟩
  | _ =>
      cases performed
      exact ⟨fun _ => rfl, fun _ => rfl, fun _ => rfl, fun _ => rfl, fun _ => rfl, fun _ => rfl,
        rfl, Finset.Subset.refl _⟩

end Shared

section Ledgers

variable {P : Platform} (l : Ledger)

theorem recordSync_frame (s : Sync) : ∃ image path hold row progress,
    l.recordSync s =
      { l with image := image, path := path, hold := hold, row := row, progress := progress } := by
  cases s <;> exact ⟨_, _, _, _, _, rfl⟩

theorem recordStatement_frame (q : Statement) (r : Except DatabaseError q.Value) :
    ∃ owes pending placed thumb inserted aliased dead row mapping changed erased unaliased progress
      records, l.recordStatement P q r =
        { l with
          owes := owes, pending := pending, placed := placed, thumb := thumb, inserted := inserted,
          aliased := aliased, dead := dead, row := row, mapping := mapping, changed := changed,
          erased := erased, unaliased := unaliased, progress := progress, records := records } := by
  unfold Ledger.recordStatement
  split
  case h_10 =>
    split
    · exact ⟨_, _, _, _, _, _, _, _, _, _, _, _, _, _, rfl⟩
    · exact ⟨_, _, _, _, _, _, _, _, _, _, _, _, _, _, rfl⟩
  case h_14 =>
    split
    · split
      · exact ⟨_, _, _, _, _, _, _, _, _, _, _, _, _, _, rfl⟩
      · exact ⟨_, _, _, _, _, _, _, _, _, _, _, _, _, _, rfl⟩
    · exact ⟨_, _, _, _, _, _, _, _, _, _, _, _, _, _, rfl⟩
  all_goals exact ⟨_, _, _, _, _, _, _, _, _, _, _, _, _, _, rfl⟩

theorem recordIndex_frame (s : Delivery.IndexStep) : ∃ owes erased unaliased progress,
    l.recordIndex s =
      { l with owes := owes, erased := erased, unaliased := unaliased, progress := progress } := by
  unfold Ledger.recordIndex
  split <;> exact ⟨_, _, _, _, rfl⟩

theorem recordFile_frame (b : FileAction) (r : b.Response) :
    ∃ temps placed thumb pending progress opened entries, l.recordFile P b r =
      { l with
        temps := temps, placed := placed, thumb := thumb, pending := pending, progress := progress,
        opened := opened, entries := entries } := by
  unfold Ledger.recordFile
  split
  all_goals first
    | exact ⟨_, _, _, _, _, _, _, rfl⟩
    | (split <;> exact ⟨_, _, _, _, _, _, _, rfl⟩)

end Ledgers

end ImageSilo.Publication
