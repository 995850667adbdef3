import ImageSilo.Schema.Apply

/-! Whatever runs fail or crash, the recorded versions are those whose scripts have taken effect, in
order. -/
namespace ImageSilo.Schema

open Go Concurrent

variable {S : Type} (execute : GoString → S → Option S) (empty : S) (scripts : List EmbeddedFile)

/-- The scripts one after another. -/
def executes (scripts : List EmbeddedFile) (schema : S) : Option S :=
  scripts.foldlM (fun schema file => execute file.source schema) schema

/-- The versions of `schema_migrations`; before there is that table there are none. -/
def Store.recorded (store : Store S) : List GoString := store.versions.getD []

/-- The first `k` scripts are recorded, and they alone made the schema. -/
structure Consistent (k : Nat) (store : Store S) : Prop where
  bound : k ≤ scripts.length
  recorded : store.recorded = (scripts.take k).map EmbeddedFile.name
  schema : executes execute (scripts.take k) empty = some store.schema

/-- How far the script at hand has come. -/
inductive Phase
  | between
  | checked
  | begun
  | executed
  | recorded
  | spoiled

/-- The account of a run. -/
structure Progress where
  passed : Nat
  phase : Phase

/-- What a run may ask for, and what it notes. -/
abbrev account : Discipline Action Response where
  Ledger := Progress
  Permits l
    | .createTable => l.phase = .between
    | .isApplied name => l.phase = .between ∧ ∃ file, scripts[l.passed]? = some file ∧ file.name = name
    | .beginTx => l.phase = .checked
    | .execScript source =>
        l.phase = .begun ∧ ∃ file, scripts[l.passed]? = some file ∧ file.source = source
    | .insertVersion name =>
        l.phase = .executed ∧ ∃ file, scripts[l.passed]? = some file ∧ file.name = name
    | .commit => l.phase = .recorded
    | .rollback => l.phase = .between ∨ l.phase = .spoiled
  Reports _ _ _ := True
  record
    | l, .createTable, _ => l
    | l, .isApplied _, some true => ⟨l.passed + 1, .between⟩
    | l, .isApplied _, some false => ⟨l.passed, .checked⟩
    | l, .beginTx, some _ => ⟨l.passed, .begun⟩
    | l, .execScript _, some _ => ⟨l.passed, .executed⟩
    | l, .insertVersion _, some _ => ⟨l.passed, .recorded⟩
    | l, .commit, some _ => ⟨l.passed + 1, .between⟩
    | l, .rollback, _ => l
    | l, .isApplied _, none | l, .beginTx, none | l, .execScript _, none | l, .insertVersion _, none
    | l, .commit, none => ⟨l.passed, .spoiled⟩

/-- A run that ends well has passed every script. -/
def Complete (r : Except ApplyError Unit) (l : Progress) : Prop := r = .ok () → scripts.length ≤ l.passed

section Programs

variable {scripts} {file : EmbeddedFile} {passed : Nat}

theorem transaction_obeys (there : scripts[passed]? = some file) :
    (transaction file).Obeys (account scripts)
      (fun r l => (r = .ok () → l = ⟨passed + 1, .between⟩) ∧ (l.phase = .between ∨ l.phase = .spoiled))
      ⟨passed, .begun⟩ := by
  unfold transaction
  rw [Program.obeys_bind, Program.obeys_perform]
  refine ⟨⟨rfl, file, there, rfl⟩, fun executed _ => ?_⟩
  cases executed with
  | none => exact ⟨nofun, .inr rfl⟩
  | some _ =>
      rw [Program.obeys_bind, Program.obeys_perform]
      refine ⟨⟨rfl, file, there, rfl⟩, fun recorded _ => ?_⟩
      cases recorded with
      | none => exact ⟨nofun, .inr rfl⟩
      | some _ =>
          rw [Program.obeys_bind, Program.obeys_perform]
          refine ⟨rfl, fun committed _ => ?_⟩
          cases committed with
          | none => exact ⟨nofun, .inr rfl⟩
          | some _ => exact ⟨fun _ => rfl, .inl rfl⟩

theorem applyOne_obeys (there : scripts[passed]? = some file) :
    (applyOne file).Obeys (account scripts)
      (fun r l => r = .ok () → l = ⟨passed + 1, .between⟩) ⟨passed, .checked⟩ := by
  unfold applyOne
  rw [Program.obeys_bind, Program.obeys_perform]
  refine ⟨rfl, fun begun _ => ?_⟩
  cases begun with
  | none => exact nofun
  | some _ =>
      rw [Program.obeys_bind]
      refine (transaction_obeys there).mono fun r l ended => ?_
      rw [Program.obeys_bind, Program.obeys_perform]
      exact ⟨ended.2, fun _ _ => ended.1⟩

theorem applyAll_obeys (files : List EmbeddedFile) :
    ∀ passed, scripts.drop passed = files →
      (applyAll files).Obeys (account scripts) (Complete scripts) ⟨passed, .between⟩ := by
  induction files with
  | nil =>
      intro passed rest _
      exact List.drop_eq_nil_iff.mp rest
  | cons file files ih =>
      intro passed rest
      have there : scripts[passed]? = some file := by
        rw [← List.head?_drop, rest]
        rfl
      have later : scripts.drop (passed + 1) = files := by
        rw [← List.tail_drop, rest]
        rfl
      unfold applyAll
      rw [Program.obeys_bind, Program.obeys_perform]
      refine ⟨⟨rfl, file, there, rfl⟩, fun applied _ => ?_⟩
      cases applied with
      | none => exact nofun
      | some applied =>
          cases applied with
          | true => exact ih (passed + 1) later
          | false =>
              change (applyOne file >>= _).Obeys _ _ _
              rw [Program.obeys_bind]
              refine (applyOne_obeys there).mono fun r l ended => ?_
              cases r with
              | error e => exact nofun
              | ok _ =>
                  rw [ended rfl]
                  exact ih (passed + 1) later

theorem apply_obeys (files : List EmbeddedFile) :
    (apply files).Obeys (account (upScripts files)) (Complete (upScripts files)) ⟨0, .between⟩ := by
  unfold apply
  rw [Program.obeys_bind, Program.obeys_perform]
  refine ⟨rfl, fun created _ => ?_⟩
  cases created with
  | none => exact nofun
  | some _ => exact applyAll_obeys (upScripts files) 0 rfl

end Programs

section Steps

variable {execute empty scripts} {k : Nat} {store : Store S} {σ σ' : State S} {l : Progress}

/-- What is pending when the run has come this far with script `k`. -/
def Phase.Pending (execute : GoString → S → Option S) (scripts : List EmbeddedFile) (k : Nat)
    (σ : State S) : Phase → Prop
  | .begun => σ.pending = some σ.stored
  | .executed => ∃ file, scripts[k]? = some file ∧ ∃ schema,
      execute file.source σ.stored.schema = some schema ∧
        σ.pending = some { σ.stored with schema := schema }
  | .recorded => ∃ file, scripts[k]? = some file ∧ ∃ schema,
      execute file.source σ.stored.schema = some schema ∧
        σ.pending = some ⟨some (σ.stored.recorded ++ [file.name]), schema⟩
  | .between | .checked | .spoiled => True

/-- The run has come to a script that is not recorded. -/
def Phase.AtScript : Phase → Prop
  | .between | .spoiled => False
  | .checked | .begun | .executed | .recorded => True

structure Progress.Agrees (execute : GoString → S → Option S) (scripts : List EmbeddedFile) (k : Nat)
    (σ : State S) (l : Progress) : Prop where
  passed : l.passed ≤ k
  current : l.phase.AtScript → l.passed = k
  pending : l.phase.Pending execute scripts k σ

/-- The invariant: no fewer than `k₀` scripts are recorded, and the account agrees. -/
def Kept (execute : GoString → S → Option S) (empty : S) (scripts : List EmbeddedFile) (k₀ : Nat)
    (σ : State S) (l : Option Progress) : Prop :=
  ∃ k, k₀ ≤ k ∧ Consistent execute empty scripts k σ.stored ∧
    ∀ progress, l = some progress → progress.Agrees execute scripts k σ

theorem take_succ_of_there {file : EmbeddedFile} (there : scripts[k]? = some file) :
    scripts.take (k + 1) = scripts.take k ++ [file] := by
  rw [List.take_add_one, there]
  rfl

/-- The commit: the record and the schema move together. -/
theorem Consistent.commit {file : EmbeddedFile} {schema : S}
    (h : Consistent execute empty scripts k store) (there : scripts[k]? = some file)
    (executed : execute file.source store.schema = some schema) :
    Consistent execute empty scripts (k + 1) ⟨some (store.recorded ++ [file.name]), schema⟩ where
  bound := (List.getElem?_eq_some_iff.mp there).1
  recorded := by
    rw [take_succ_of_there there, List.map_append, ← h.recorded]
    rfl
  schema := by
    unfold executes
    rw [take_succ_of_there there, List.foldlM_append]
    have before : List.foldlM (fun schema file => execute file.source schema) empty (scripts.take k) =
        some store.schema := h.schema
    rw [before]
    change (execute file.source store.schema).bind _ = _
    rw [executed]
    rfl

theorem Consistent.of_recorded {store' : Store S} (h : Consistent execute empty scripts k store)
    (recorded : store'.recorded = store.recorded) (schema : store'.schema = store.schema) :
    Consistent execute empty scripts k store' :=
  ⟨h.bound, recorded.trans h.recorded, schema ▸ h.schema⟩

/-- A script is recorded exactly if it is one of the first `k`. -/
theorem Consistent.name_mem (h : Consistent execute empty scripts k store)
    (distinct : (scripts.map EmbeddedFile.name).Nodup) {n : Nat} {file : EmbeddedFile}
    (there : scripts[n]? = some file) : file.name ∈ store.recorded ↔ n < k := by
  have name : (scripts.map EmbeddedFile.name)[n]? = some file.name := by
    rw [List.getElem?_map, there]
    rfl
  rw [h.recorded, List.map_take, List.mem_take_iff_getElem]
  constructor
  · rintro ⟨m, short, same⟩
    have m_lt := Nat.lt_min.mp short
    have same' : (scripts.map EmbeddedFile.name)[m]? = some file.name := by
      rw [List.getElem?_eq_getElem m_lt.2, same]
    have same_index : m = n := (List.getElem?_inj m_lt.2 distinct).mp (same'.trans name.symm)
    exact same_index ▸ m_lt.1
  · intro before
    obtain ⟨short, value⟩ := List.getElem?_eq_some_iff.mp name
    exact ⟨n, Nat.lt_min.mpr ⟨before, short⟩, value⟩

/-- A step that leaves the stored database alone. -/
theorem Kept.same {k₀ : Nat} {l' : Progress} (h : Kept execute empty scripts k₀ σ (some l))
    (stored : σ'.stored = σ.stored)
    (agrees : ∀ k, Consistent execute empty scripts k σ.stored → l.Agrees execute scripts k σ →
      l'.Agrees execute scripts k σ') : Kept execute empty scripts k₀ σ' (some l') := by
  obtain ⟨k, more, consistent, before⟩ := h
  refine ⟨k, more, stored ▸ consistent, ?_⟩
  rintro _ ⟨⟩
  exact agrees k consistent (before l rfl)

theorem Kept.spoiled {k₀ : Nat} (h : Kept execute empty scripts k₀ σ (some l))
    (stored : σ'.stored = σ.stored) :
    Kept execute empty scripts k₀ σ' (some ⟨l.passed, .spoiled⟩) :=
  h.same stored fun _ _ agrees => ⟨agrees.passed, False.elim, trivial⟩

theorem Kept.isApplied {k₀ : Nat} {file : EmbeddedFile}
    (distinct : (scripts.map EmbeddedFile.name).Nodup)
    (h : Kept execute empty scripts k₀ σ (some l)) (there : scripts[l.passed]? = some file) :
    Kept execute empty scripts k₀ σ (some ((account scripts).record l (.isApplied file.name)
      (σ.stored.versions.map fun versions => versions.contains file.name))) := by
  cases table : σ.stored.versions with
  | none => exact h.spoiled rfl
  | some versions =>
      have recorded : σ.stored.recorded = versions := by
        unfold Store.recorded
        rw [table]
        rfl
      by_cases applied : file.name ∈ versions
      · rw [Option.map_some, List.contains_iff_mem.mpr applied]
        refine h.same rfl fun k consistent agrees => ⟨?_, False.elim, trivial⟩
        exact (consistent.name_mem distinct there).mp (recorded ▸ applied)
      · rw [Option.map_some, Bool.eq_false_iff.mpr fun there => applied (List.contains_iff_mem.mp there)]
        refine h.same rfl fun k consistent agrees => ⟨agrees.passed, fun _ => ?_, trivial⟩
        have unrecorded : ¬ l.passed < k := by
          rw [← consistent.name_mem distinct there, recorded]
          exact applied
        exact le_antisymm agrees.passed (not_lt.mp unrecorded)

/-- A statement of the transaction: it fails, or the copy has what comes next. -/
theorem Kept.transact {k₀ : Nat} {statement : Store S → Option (Store S)} {r : Option Unit}
    (next : Progress) (h : Kept execute empty scripts k₀ σ (some l))
    (performed : σ.transact statement = (r, σ'))
    (agrees : ∀ k before after, Consistent execute empty scripts k σ.stored →
      l.Agrees execute scripts k σ → σ.pending = some before → statement before = some after →
      next.Agrees execute scripts k { σ with pending := some after }) :
    Kept execute empty scripts k₀ σ' (some (match r with | none => ⟨l.passed, .spoiled⟩ | some _ => next)) := by
  unfold State.transact at performed
  split at performed
  · cases performed
    exact h.spoiled rfl
  · rename_i before pending
    split at performed
    · cases performed
      exact h.spoiled rfl
    · rename_i after made
      cases performed
      exact h.same rfl fun k consistent now => agrees k before after consistent now pending made

theorem Kept.execScript {k₀ : Nat} {file : EmbeddedFile} {r : Option Unit}
    (h : Kept execute empty scripts k₀ σ (some l)) (begun : l.phase = .begun)
    (there : scripts[l.passed]? = some file)
    (performed : σ.transact (fun store => store.exec execute file.source) = (r, σ')) :
    Kept execute empty scripts k₀ σ' (some ((account scripts).record l (.execScript file.source) r)) := by
  have kept := h.transact ⟨l.passed, .executed⟩ performed ?_
  · cases r <;> exact kept
  intro k before after _ agrees pending made
  have copied := agrees.pending
  rw [begun] at copied
  obtain rfl : before = σ.stored := Option.some.inj (pending.symm.trans copied)
  have current : l.passed = k := agrees.current (by rw [begun]; trivial)
  obtain ⟨schema, executed, rfl⟩ := Option.map_eq_some_iff.mp made
  exact ⟨agrees.passed, fun _ => current, file, current ▸ there, schema, executed, rfl⟩

theorem Kept.insertVersion {k₀ : Nat} {file : EmbeddedFile} {r : Option Unit}
    (h : Kept execute empty scripts k₀ σ (some l)) (executed : l.phase = .executed)
    (there : scripts[l.passed]? = some file)
    (performed : σ.transact (fun store => store.insertVersion file.name) = (r, σ')) :
    Kept execute empty scripts k₀ σ' (some ((account scripts).record l (.insertVersion file.name) r)) := by
  have kept := h.transact ⟨l.passed, .recorded⟩ performed ?_
  · cases r <;> exact kept
  intro k before after _ agrees pending made
  have current : l.passed = k := agrees.current (by rw [executed]; trivial)
  have made' := agrees.pending
  rw [executed] at made'
  obtain ⟨file', there', schema, executed', pending'⟩ := made'
  obtain rfl : before = { σ.stored with schema := schema } :=
    Option.some.inj (pending.symm.trans pending')
  obtain rfl : file = file' := Option.some.inj (there.symm.trans (current ▸ there'))
  refine ⟨agrees.passed, fun _ => current, file, there', schema, executed', ?_⟩
  unfold Store.insertVersion at made
  cases table : σ.stored.versions with
  | none =>
      rw [table] at made
      cases made
  | some versions =>
      rw [table] at made
      obtain ⟨-, ⟨⟩⟩ := Option.ite_none_left_eq_some.mp made
      unfold Store.recorded
      rw [table]
      rfl

/-- The commit of a recorded script. -/
theorem Kept.commit {k₀ : Nat} (h : Kept execute empty scripts k₀ σ (some l))
    (recorded : l.phase = .recorded) :
    ∃ store, σ.pending = some store ∧
      Kept execute empty scripts k₀ ⟨store, none⟩ (some ⟨l.passed + 1, .between⟩) ∧
      Kept execute empty scripts k₀ ⟨store, none⟩ (some ⟨l.passed, .spoiled⟩) := by
  obtain ⟨k, more, consistent, before⟩ := h
  have agrees := before l rfl
  have current : l.passed = k := agrees.current (by rw [recorded]; trivial)
  have made := agrees.pending
  rw [recorded] at made
  obtain ⟨file, there, schema, executed, pending⟩ := made
  have after := consistent.commit there executed
  refine ⟨_, pending, ⟨k + 1, Nat.le_succ_of_le more, after, ?_⟩,
    ⟨k + 1, Nat.le_succ_of_le more, after, ?_⟩⟩
  · rintro _ ⟨⟩
    exact ⟨Nat.succ_le_succ agrees.passed, False.elim, trivial⟩
  · rintro _ ⟨⟩
    exact ⟨Nat.le_succ_of_le agrees.passed, False.elim, trivial⟩

/-- One step of a run. -/
theorem Kept.step {k₀ i : Nat} {a : Action} {c : Choice S} {r : Response a}
    (distinct : (scripts.map EmbeddedFile.name).Nodup)
    (h : Kept execute empty scripts k₀ σ (some l)) (permitted : (account scripts).Permits l a)
    (performed : (machine execute).perform i a c σ = some (r, σ')) :
    Kept execute empty scripts k₀ σ' (some ((account scripts).record l a r)) := by
  cases a with
  | createTable =>
      cases c <;> cases performed
      · obtain ⟨k, more, consistent, before⟩ := h
        refine ⟨k, more, consistent.of_recorded rfl rfl, ?_⟩
        rintro _ ⟨⟩
        have agrees := before l rfl
        refine ⟨agrees.passed, agrees.current, ?_⟩
        change l.phase = .between at permitted
        change l.phase.Pending _ _ _ _
        rw [permitted]
        trivial
      · exact h
  | isApplied name =>
      obtain ⟨-, file, there, rfl⟩ := permitted
      cases c <;> cases performed
      · exact h.isApplied distinct there
      · exact h.spoiled rfl
  | beginTx =>
      cases c <;> cases performed
      · refine h.same rfl fun k _ agrees => ⟨agrees.passed, fun _ => agrees.current ?_, rfl⟩
        change l.phase = .checked at permitted
        rw [permitted]
        trivial
      · exact h.spoiled rfl
  | execScript source =>
      obtain ⟨begun, file, there, rfl⟩ := permitted
      cases c with
      | normal => exact h.execScript begun there (Option.some.inj performed)
      | fault =>
          cases performed
          exact h.spoiled rfl
      | broken schema =>
          cases performed
          exact h.spoiled rfl
      | unseen => cases performed
  | insertVersion name =>
      obtain ⟨executed, file, there, rfl⟩ := permitted
      cases c with
      | normal => exact h.insertVersion executed there (Option.some.inj performed)
      | fault =>
          cases performed
          exact h.spoiled rfl
      | broken schema => cases performed
      | unseen => cases performed
  | commit =>
      obtain ⟨store, pending, committed, spoiled⟩ := h.commit permitted
      cases c with
      | normal =>
          have done : (machine execute).perform i .commit .normal σ = some (some (), ⟨store, none⟩) := by
            simp [State.perform, pending]
          cases done.symm.trans performed
          exact committed
      | fault =>
          cases performed
          exact h.spoiled rfl
      | broken schema => cases performed
      | unseen =>
          cases performed
          rw [pending]
          exact spoiled
  | rollback =>
      cases c <;> cases performed
      refine h.same rfl fun k _ agrees => ⟨agrees.passed, agrees.current, ?_⟩
      change l.phase.Pending _ _ _ _
      obtain between | spoiled := permitted
      · rw [between]
        trivial
      · rw [spoiled]
        trivial

end Steps

section Histories

variable {execute empty} {files files' : List EmbeddedFile} {k : Nat}
  {p q : Point (machine execute) (Except ApplyError Unit)}

/-- What holds at a point with `k` scripts recorded: a script that is being executed is the next one,
and a run that has ended well has recorded all. -/
structure Upright (empty : S) (scripts : List EmbeddedFile) (k : Nat)
    (p : Point (machine execute) (Except ApplyError Unit)) : Prop where
  consistent : Consistent execute empty scripts k p.shared.stored
  next : ∀ source rest, p.running = some (.act (.execScript source) rest) →
    ∃ file, scripts[k]? = some file ∧ file.source = source ∧ file.name ∉ p.shared.stored.recorded
  complete : p.running = some (.done (.ok ())) → k = scripts.length

theorem upScripts_distinct (distinct : (files.map EmbeddedFile.name).Nodup) :
    ((upScripts files).map EmbeddedFile.name).Nodup := by
  unfold upScripts
  refine ((List.perm_insertionSort _ _).map _).nodup_iff.mpr ?_
  exact distinct.sublist (List.filter_sublist.map _)

/-- The history from a point that is not in a run. -/
theorem upright_history (distinct : (files.map EmbeddedFile.name).Nodup)
    (held : p.Held (account (upScripts files)) (Complete (upScripts files))
      (Kept execute empty (upScripts files) k))
    (reaches : Point.Reaches (apply files) p q) :
    q.Held (account (upScripts files)) (Complete (upScripts files))
      (Kept execute empty (upScripts files) k) := by
  refine Point.held (apply_obeys files) ?_ ?_ ?_ ?_ reaches held
  · rintro σ ⟨k', more, consistent, -⟩
    refine ⟨k', more, consistent, ?_⟩
    rintro _ ⟨⟩
    exact ⟨Nat.zero_le _, False.elim, trivial⟩
  · intro σ σ' l i a c r kept permitted performed
    exact ⟨trivial, kept.step (i := i) (upScripts_distinct distinct) permitted performed⟩
  · rintro σ l ⟨k', more, consistent, -⟩
    exact ⟨k', more, consistent, nofun⟩
  · rintro σ σ' ⟨k', more, consistent, -⟩ rfl
    exact ⟨k', more, consistent, nofun⟩

theorem upright_of_held (distinct : (files.map EmbeddedFile.name).Nodup)
    (held : q.Held (account (upScripts files)) (Complete (upScripts files))
      (Kept execute empty (upScripts files) k)) :
    ∃ k', k ≤ k' ∧ Upright empty (upScripts files) k' q ∧
      q.Held (account (upScripts files)) (Complete (upScripts files))
        (Kept execute empty (upScripts files) k') := by
  obtain ⟨σ, running⟩ := q
  cases running with
  | none =>
      obtain ⟨k', more, consistent, -⟩ := held
      exact ⟨k', more, ⟨consistent, nofun, nofun⟩, k', le_rfl, consistent, nofun⟩
  | some program =>
      obtain ⟨l, obeys, k', more, consistent, before⟩ := held
      have agrees := before l rfl
      refine ⟨k', more, ⟨consistent, ?_, ?_⟩, l, obeys, k', le_rfl, consistent, before⟩
      · rintro source rest ⟨⟩
        obtain ⟨⟨begun, file, there, rfl⟩, -⟩ := obeys
        have current : l.passed = k' := agrees.current (by rw [begun]; trivial)
        subst current
        refine ⟨file, there, rfl, ?_⟩
        rw [consistent.name_mem (upScripts_distinct distinct) there]
        exact lt_irrefl _
      · rintro ⟨⟩
        have all : (upScripts files).length ≤ l.passed := obeys rfl
        exact le_antisymm consistent.bound (all.trans agrees.passed)

/-- A new script after the recorded ones leaves them the first of all. -/
theorem take_upScripts {extra : EmbeddedFile} (distinct : (files'.map EmbeddedFile.name).Nodup)
    (added : files'.Perm (extra :: files))
    (script : (!extra.isDir && hasSuffix extra.name (str ".up.sql")) = true)
    (after : ∀ file ∈ (upScripts files).take k, file.name < extra.name) :
    ∃ rest, upScripts files' = (upScripts files).take k ++ rest ∧
      ((upScripts files).length ≤ k → rest = [extra]) := by
  let before : EmbeddedFile → EmbeddedFile → Prop := fun f g => f.name ≤ g.name
  have sorted : (upScripts files).Pairwise before := List.pairwise_insertionSort _ _
  have sorted' : (upScripts files').Pairwise before := List.pairwise_insertionSort _ _
  have perm : (upScripts files').Perm
      ((upScripts files).take k ++ ((upScripts files).drop k).orderedInsert before extra) := by
    calc
      (upScripts files').Perm _ := List.perm_insertionSort _ _
      List.Perm _ _ := added.filter _
      List.Perm _ (extra :: upScripts files) := by
        rw [List.filter_cons, if_pos script]
        exact (List.perm_insertionSort _ _).symm.cons extra
      List.Perm _ (extra :: ((upScripts files).take k ++ (upScripts files).drop k)) := by
        rw [List.take_append_drop]
      List.Perm _ _ := List.perm_middle.symm
      List.Perm _ _ := (List.perm_orderedInsert before extra _).symm.append_left _
  refine ⟨_, perm.eq_of_pairwise ?_ sorted' ?_, fun all => ?_⟩
  · intro f g f_mem g_mem f_le g_le
    have there : ∀ file ∈ upScripts files', file ∈ files' := by
      intro file there
      exact List.mem_of_mem_filter ((List.mem_insertionSort _).mp there)
    exact List.inj_on_of_nodup_map distinct (there f f_mem) (there g (perm.mem_iff.mpr g_mem))
      (List.le_antisymm f_le g_le)
  · refine List.pairwise_append.mpr ⟨sorted.take, sorted.drop.orderedInsert extra _, ?_⟩
    intro f f_mem g g_mem
    rcases (List.mem_orderedInsert before).mp g_mem with rfl | g_mem
    · exact List.le_of_lt (after f f_mem)
    · rw [← List.take_append_drop k (upScripts files)] at sorted
      exact (List.pairwise_append.mp sorted).2.2 f f_mem g g_mem
  · rw [List.drop_eq_nil_of_le all]
    rfl

/-- The recorded scripts are the first ones also after a script has been added behind them. -/
theorem Consistent.added {extra : EmbeddedFile} {store : Store S}
    (distinct : (files'.map EmbeddedFile.name).Nodup) (added : files'.Perm (extra :: files))
    (script : (!extra.isDir && hasSuffix extra.name (str ".up.sql")) = true)
    (h : Consistent execute empty (upScripts files) k store)
    (after : ∀ name ∈ store.recorded, name < extra.name) :
    Consistent execute empty (upScripts files') k store ∧
      (k = (upScripts files).length → upScripts files' = upScripts files ++ [extra]) := by
  have after' : ∀ file ∈ (upScripts files).take k, file.name < extra.name := by
    intro file there
    refine after _ ?_
    rw [h.recorded]
    exact List.mem_map_of_mem there
  obtain ⟨rest, split, all⟩ := take_upScripts distinct added script after'
  have first : (upScripts files').take k = (upScripts files).take k := by
    rw [split, List.take_append_of_le_length (by rw [List.length_take]; exact le_min le_rfl h.bound),
      List.take_take, min_self]
  refine ⟨⟨?_, ?_, ?_⟩, ?_⟩
  · rw [split, List.length_append, List.length_take]
    have := h.bound
    omega
  · rw [first]
    exact h.recorded
  · rw [first]
    exact h.schema
  · intro whole
    rw [split, all whole.ge, List.take_of_length_le whole.ge]

/-- Before the first run there is not even the table of versions. -/
def blank (execute : GoString → S → Option S) (empty : S) :
    Point (machine execute) (Except ApplyError Unit) := ⟨⟨⟨none, empty⟩, none⟩, none⟩

/-- At every moment of every history of runs the recorded versions are the first scripts, which alone
made the schema; the script being executed is the next one; a run that ends well has recorded all. The
recorded scripts never become fewer, and of a directory with a further script behind the recorded ones
only what is not recorded is executed. -/
theorem schema_versions (execute : GoString → S → Option S) (empty : S) (files : List EmbeddedFile)
    (p : Point (machine execute) (Except ApplyError Unit))
    (distinct : (files.map EmbeddedFile.name).Nodup)
    (reaches : Point.Reaches (apply files) (blank execute empty) p) :
    ∃ k, Upright empty (upScripts files) k p ∧
      (∀ q, Point.Reaches (apply files) p q → ∃ k', k ≤ k' ∧ Upright empty (upScripts files) k' q) ∧
      ∀ extra files' q, files'.Perm (extra :: files) → (files'.map EmbeddedFile.name).Nodup →
        (!extra.isDir && hasSuffix extra.name (str ".up.sql")) = true →
        (∀ name ∈ p.shared.stored.recorded, name < extra.name) → p.running = none →
        Point.Reaches (apply files') p q →
        ∃ k', k ≤ k' ∧ Upright empty (upScripts files') k' q ∧
          (k = (upScripts files).length → upScripts files' = upScripts files ++ [extra] ∧
            ∀ source rest, q.running = some (.act (.execScript source) rest) →
              source = extra.source) := by
  have start : (blank execute empty).Held (account (upScripts files)) (Complete (upScripts files))
      (Kept execute empty (upScripts files) 0) := by
    exact ⟨0, le_rfl, ⟨Nat.zero_le _, rfl, rfl⟩, nofun⟩
  obtain ⟨k, -, upright, held⟩ := upright_of_held distinct (upright_history distinct start reaches)
  refine ⟨k, upright, ?_, ?_⟩
  · intro q later
    obtain ⟨k', more, upright', -⟩ := upright_of_held distinct (upright_history distinct held later)
    exact ⟨k', more, upright'⟩
  · intro extra files' q added distinct' script after idle later
    obtain ⟨consistent, whole⟩ := upright.consistent.added distinct' added script after
    have held' : p.Held (account (upScripts files')) (Complete (upScripts files'))
        (Kept execute empty (upScripts files') k) := by
      unfold Point.Held
      rw [idle]
      exact ⟨k, le_rfl, consistent, nofun⟩
    obtain ⟨k', more, upright', -⟩ :=
      upright_of_held distinct' (upright_history distinct' held' later)
    refine ⟨k', more, upright', fun all => ⟨whole all, ?_⟩⟩
    intro source rest running
    obtain ⟨file, there, rfl, -⟩ := upright'.next source rest running
    -- with all the old scripts recorded the next one can only be the new one
    rw [whole all] at there
    have short := (List.getElem?_eq_some_iff.mp there).1
    rw [List.length_append, List.length_singleton] at short
    have last : k' = (upScripts files).length := by omega
    rw [last, List.getElem?_concat_length] at there
    exact congrArg EmbeddedFile.source (Option.some.inj there).symm

/-- A directory that does not list its two scripts in their order. -/
def sampleFiles : List EmbeddedFile :=
  [⟨str "0002_tokens.up.sql", false, str "CREATE TABLE tokens"⟩,
    ⟨str "0001_initial.down.sql", false, str "DROP TABLE admins"⟩,
    ⟨str "0001_initial.up.sql", false, str "CREATE TABLE admins"⟩]

/-- A script adds its source to the schema. -/
def sampleExecute (source : GoString) (schema : List GoString) : Option (List GoString) :=
  some (schema ++ [source])

abbrev SamplePoint := Point (machine sampleExecute) (Except ApplyError Unit)

/-- So many calls that go through. -/
def goOn : Nat → SamplePoint → Option SamplePoint
  | n + 1, ⟨σ, some (.act a next)⟩ =>
      (σ.perform sampleExecute a .normal).bind fun (r, σ') => goOn n ⟨σ', some (next r)⟩
  | _, p => some p

theorem reaches_goOn {start : Call (Except ApplyError Unit)} {n : Nat} {p q : SamplePoint}
    (gone : goOn n p = some q) : Point.Reaches start p q := by
  induction n generalizing p with
  | zero =>
      cases gone
      exact .refl
  | succ n ih =>
      obtain ⟨σ, _ | _ | ⟨a, next⟩⟩ := p
      · cases gone
        exact .refl
      · cases gone
        exact .refl
      · obtain ⟨⟨r, σ'⟩, performed, later⟩ := Option.bind_eq_some_iff.mp gone
        exact (Relation.ReflTransGen.single (.call (i := 0) (c := Choice.normal) performed)).trans (ih later)

/-- A crash after the second script and before its record; the next run executes that script once more,
on the schema that does not have it. -/
theorem sample_history : ∃ p, Point.Reaches (apply sampleFiles) (blank sampleExecute []) p ∧
    p.running = some (.done (.ok ())) ∧
    p.shared.stored.schema = [str "CREATE TABLE admins", str "CREATE TABLE tokens"] := by
  have h : Point.Reaches (apply sampleFiles) (blank sampleExecute []) _ :=
    Relation.ReflTransGen.refl
  have h := (h.tail (.start _)).trans (reaches_goOn (n := 10) rfl)
  have h := h.tail (.crash _ rfl)
  have h := (h.tail (.start _)).trans (reaches_goOn (n := 8) rfl)
  exact ⟨_, h, rfl, rfl⟩

theorem schema_versions_sample : ∃ p,
    Point.Reaches (apply sampleFiles) (blank sampleExecute []) p ∧
      p.shared.stored.schema = [str "CREATE TABLE admins", str "CREATE TABLE tokens"] ∧
      Upright [] (upScripts sampleFiles) 2 p := by
  obtain ⟨p, reaches, ended, schema⟩ := sample_history
  obtain ⟨k, upright, -⟩ := schema_versions sampleExecute [] sampleFiles p (by decide) reaches
  obtain rfl : k = 2 := upright.complete ended
  exact ⟨p, reaches, schema, upright⟩

end Histories

end ImageSilo.Schema
