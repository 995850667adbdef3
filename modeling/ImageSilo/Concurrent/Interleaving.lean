import ImageSilo.Concurrent.Program
import Mathlib.Tactic.Common

/-! Any number of callers act on a shared state one atomic action at a time; `Run.held` is the one
induction over runs. -/
namespace Concurrent

variable {Action : Type} {Response : Action → Type} {Result : Type}

/-- The atomic steps of a system. A choice settles what the system leaves open (a fault, a fresh
name); with it an action has one answer and one next state, or is not possible now. -/
structure Machine (Action : Type) (Response : Action → Type) where
  Shared : Type
  Choice : Type
  perform : Nat → (a : Action) → Choice → Shared → Option (Response a × Shared)
  environment : Shared → Shared → Prop
  restart : Shared → Shared → Prop

/-- One program that runs alone from a state, with the choices of a function. -/
def Machine.alone {α : Type} (M : Machine Action Response) (i : Nat) (choose : Action → M.Choice) :
    Program Action Response α → M.Shared → Option (α × M.Shared)
  | .done v, σ => some (v, σ)
  | .act a next, σ =>
      (M.perform i a (choose a) σ).bind fun (r, σ') => M.alone i choose (next r) σ'

/-- Callers are numbered; only finitely many of them have acted in any state of a run. -/
structure World (M : Machine Action Response) (Result : Type) where
  shared : M.Shared
  calls : Nat → Program Action Response Result

structure Event (M : Machine Action Response) where
  call : Nat
  action : Action
  choice : M.Choice
  response : Response action

/-- What a run starts its calls with, how an interrupted call ends, whether the system may crash,
and which events are admitted in which world. -/
structure Setting (M : Machine Action Response) (Result : Type) where
  start : Nat → Program Action Response Result
  aborted : Result
  Crashes : Prop
  Admits : World M Result → Event M → Prop

variable {M : Machine Action Response}

/-- The next world when caller `i` has got answer `r` and goes on with `next`. -/
def World.proceed (w : World M Result) (i : Nat) (σ : M.Shared)
    (next : Program Action Response Result) : World M Result :=
  ⟨σ, Function.update w.calls i next⟩

@[simp] theorem World.proceed_shared (w : World M Result) (i : Nat) (σ : M.Shared)
    (next : Program Action Response Result) : (w.proceed i σ next).shared = σ := rfl

theorem World.proceed_self (w : World M Result) (i : Nat) (σ : M.Shared)
    (next : Program Action Response Result) : (w.proceed i σ next).calls i = next := by
  simp [World.proceed]

theorem World.proceed_other (w : World M Result) {i j : Nat} (σ : M.Shared)
    (next : Program Action Response Result) (other : j ≠ i) :
    (w.proceed i σ next).calls j = w.calls j := by
  simp [World.proceed, other]

/-- A run with its trace, oldest event first. -/
inductive Run (S : Setting M Result) (w : World M Result) :
    List (Event M) → World M Result → Prop
  | refl : Run S w [] w
  | call {w₁ : World M Result} {τ : List (Event M)} {i : Nat} {a : Action}
      {next : Response a → Program Action Response Result} {c : M.Choice} {r : Response a}
      {σ : M.Shared} :
      Run S w τ w₁ → w₁.calls i = .act a next → M.perform i a c w₁.shared = some (r, σ) →
      S.Admits w₁ ⟨i, a, c, r⟩ → Run S w (τ ++ [⟨i, a, c, r⟩]) (w₁.proceed i σ (next r))
  | environment {w₁ : World M Result} {τ : List (Event M)} {σ : M.Shared} :
      Run S w τ w₁ → M.environment w₁.shared σ → Run S w τ ⟨σ, w₁.calls⟩
  | crash {w₁ : World M Result} {τ : List (Event M)} {σ : M.Shared}
      {calls : Nat → Program Action Response Result} :
      Run S w τ w₁ → S.Crashes → M.restart w₁.shared σ →
      (∀ i, calls i = .done S.aborted ∨ calls i = w₁.calls i ∧ w₁.calls i = S.start i) →
      Run S w τ ⟨σ, calls⟩

theorem Run.trans {S : Setting M Result} {w₁ w₂ w₃ : World M Result}
    {τ τ' : List (Event M)} (first : Run S w₁ τ w₂) (second : Run S w₂ τ' w₃) :
    Run S w₁ (τ ++ τ') w₃ := by
  induction second with
  | refl => simpa using first
  | call _ same step admitted ih =>
      rw [← List.append_assoc]
      exact .call ih same step admitted
  | environment _ moved ih => exact .environment ih moved
  | crash _ crashes crashed dropped ih => exact .crash ih crashes crashed dropped

/-- A run of a stricter setting is a run of a laxer one. -/
theorem Run.relax {S S' : Setting M Result} {w w' : World M Result} {τ : List (Event M)}
    (run : Run S w τ w') (start : S.start = S'.start) (aborted : S.aborted = S'.aborted)
    (crashes : S.Crashes → S'.Crashes) (admits : ∀ w e, S.Admits w e → S'.Admits w e) :
    Run S' w τ w' := by
  induction run with
  | refl => exact .refl
  | call _ same step admitted ih => exact .call ih same step (admits _ _ admitted)
  | environment _ moved ih => exact .environment ih moved
  | crash _ crashed moved dropped ih =>
      exact .crash ih (crashes crashed) moved (by rwa [← aborted, ← start])

/-- The step a scheduler makes: caller `i` goes on with choice `c`. -/
def World.step (w : World M Result) (i : Nat) (c : M.Choice) : Option (Event M × World M Result) :=
  match w.calls i with
  | .done _ => none
  | .act a next =>
      (M.perform i a c w.shared).map fun (r, σ) => (⟨i, a, c, r⟩, w.proceed i σ (next r))

/-- A schedule decides every step, so a run can be computed from it. -/
def World.execute (w : World M Result) : List (Nat × M.Choice) → Option (List (Event M) × World M Result)
  | [] => some ([], w)
  | (i, c) :: schedule =>
      (w.step i c).bind fun (e, w₁) => (w₁.execute schedule).map fun (τ, w₂) => (e :: τ, w₂)

theorem World.step_some {w w' : World M Result} {i : Nat} {c : M.Choice} {e : Event M}
    (stepped : w.step i c = some (e, w')) : ∃ (a : Action) (r : Response a)
      (next : Response a → Program Action Response Result) (σ : M.Shared),
      e = ⟨i, a, c, r⟩ ∧ w' = w.proceed i σ (next r) ∧ w.calls i = .act a next ∧
        M.perform i a c w.shared = some (r, σ) := by
  unfold World.step at stepped
  cases program : w.calls i with
  | done v => simp [program] at stepped
  | act a next =>
      simp only [program, Option.map_eq_some_iff, Prod.mk.injEq, Prod.exists] at stepped
      obtain ⟨r, σ, performed, rfl, rfl⟩ := stepped
      exact ⟨a, r, next, σ, rfl, rfl, rfl, performed⟩

theorem Run.of_step {S : Setting M Result} {w w' : World M Result} {i : Nat} {c : M.Choice}
    {e : Event M} (stepped : w.step i c = some (e, w')) (admitted : S.Admits w e) :
    Run S w [e] w' := by
  obtain ⟨a, r, next, σ, rfl, rfl, program, performed⟩ := World.step_some stepped
  exact Run.call Run.refl program performed admitted

/-- A run that a schedule determines, when every step keeps what makes the steps admissible. -/
theorem Run.of_executeKeeping {S : Setting M Result} (Inv : World M Result → Prop)
    (schedule : List (Nat × M.Choice))
    (keeps : ∀ w w' e, Inv w → (e.call, e.choice) ∈ schedule →
      w.step e.call e.choice = some (e, w') → S.Admits w e ∧ Inv w')
    {w w' : World M Result} {τ : List (Event M)} (inv : Inv w)
    (executed : w.execute schedule = some (τ, w')) : Run S w τ w' := by
  induction schedule generalizing w τ with
  | nil =>
      obtain ⟨rfl, rfl⟩ : [] = τ ∧ w = w' := by simpa [World.execute] using executed
      exact .refl
  | cons choice schedule ih =>
      obtain ⟨i, c⟩ := choice
      simp only [World.execute, Option.bind_eq_some_iff, Option.map_eq_some_iff, Prod.mk.injEq,
        Prod.exists] at executed
      obtain ⟨e, w₁, stepped, τ', w₂, rest, rfl, rfl⟩ := executed
      obtain ⟨rfl, rfl⟩ : e.call = i ∧ e.choice = c := by
        obtain ⟨a, r, next, σ, rfl, -⟩ := World.step_some stepped
        exact ⟨rfl, rfl⟩
      obtain ⟨admitted, inv'⟩ := keeps w w₁ e inv List.mem_cons_self stepped
      refine (Run.of_step stepped admitted).trans (ih ?_ inv' rest)
      exact fun w w' e inv member => keeps w w' e inv (List.mem_cons_of_mem _ member)

theorem Run.of_execute {S : Setting M Result} (schedule : List (Nat × M.Choice))
    (lax : ∀ w w' e, (e.call, e.choice) ∈ schedule → w.step e.call e.choice = some (e, w') →
      S.Admits w e) {w w' : World M Result} {τ : List (Event M)}
    (executed : w.execute schedule = some (τ, w')) : Run S w τ w' :=
  .of_executeKeeping (fun _ => True) schedule
    (fun w w' e _ member stepped => ⟨lax w w' e member stepped, trivial⟩) trivial executed

/-- A schedule that stops where the shared state fails a test. -/
def World.executeWithin (fits : M.Shared → Bool) (w : World M Result) :
    List (Nat × M.Choice) → Option (List (Event M) × World M Result)
  | [] => some ([], w)
  | (i, c) :: schedule =>
      if fits w.shared then
        (w.step i c).bind fun (e, w₁) =>
          (w₁.executeWithin fits schedule).map fun (τ, w₂) => (e :: τ, w₂)
      else none

theorem Run.of_executeWithin {S : Setting M Result} (fits : M.Shared → Bool)
    (admits : ∀ w e, fits w.shared = true → S.Admits w e) (schedule : List (Nat × M.Choice))
    {w w' : World M Result} {τ : List (Event M)}
    (executed : w.executeWithin fits schedule = some (τ, w')) : Run S w τ w' := by
  induction schedule generalizing w τ with
  | nil =>
      obtain ⟨rfl, rfl⟩ : [] = τ ∧ w = w' := by simpa [World.executeWithin] using executed
      exact .refl
  | cons choice schedule ih =>
      obtain ⟨i, c⟩ := choice
      unfold World.executeWithin at executed
      split at executed
      · rename_i fit
        simp only [Option.bind_eq_some_iff, Option.map_eq_some_iff, Prod.mk.injEq,
          Prod.exists] at executed
        obtain ⟨e, w₁, stepped, τ', w₂, rest, rfl, rfl⟩ := executed
        exact (Run.of_step stepped (admits w e fit)).trans (ih rest)
      · cases executed

/-- The ledgers a run is followed with: one discipline for all callers, the ledger each starts with,
and what has to hold of a finished call. -/
structure Watch (M : Machine Action Response) (Result : Type) where
  discipline : Discipline Action Response
  begin : Nat → discipline.Ledger
  Final : Nat → Result → discipline.Ledger → Prop

namespace Watch

variable (V : Watch M Result)

abbrev Ledgers := Nat → V.discipline.Ledger

abbrev Invariant := List (Event M) → M.Shared → V.Ledgers → Prop

/-- Every call obeys the discipline from its ledger. -/
def Obeyed (w : World M Result) (ls : V.Ledgers) : Prop :=
  ∀ i, (w.calls i).Obeys V.discipline (V.Final i) (ls i)

/-- Some assignment of ledgers is obeyed by every call and satisfies the invariant. -/
def Held (Inv : V.Invariant) (τ : List (Event M)) (w : World M Result) : Prop :=
  ∃ ls : V.Ledgers, V.Obeyed w ls ∧ Inv τ w.shared ls

/-- What the steps of a run have to keep. -/
structure Keeps (S : Setting M Result) (Inv : V.Invariant) : Prop where
  call : ∀ {τ w ls i a next c r σ}, V.Obeyed w ls → Inv τ w.shared ls →
    w.calls i = .act a next → V.discipline.Permits (ls i) a →
    M.perform i a c w.shared = some (r, σ) → S.Admits w ⟨i, a, c, r⟩ →
    V.discipline.Reports (ls i) a r ∧
      Inv (τ ++ [⟨i, a, c, r⟩]) σ (Function.update ls i (V.discipline.record (ls i) a r))
  environment : ∀ {τ σ ls σ'}, Inv τ σ ls → M.environment σ σ' → Inv τ σ' ls
  crash : S.Crashes → ∀ {τ σ ls σ'}, Inv τ σ ls → M.restart σ σ' →
    Inv τ σ' V.begin ∧ (∀ i, V.Final i S.aborted (V.begin i)) ∧
      ∀ i, (S.start i).Obeys V.discipline (V.Final i) (V.begin i)

end Watch

/-- What the steps of a run keep of a second watch, next to the invariant of a first one. -/
structure Watch.KeepsBeside (V U : Watch M Result) (S : Setting M Result) (Inv : V.Invariant)
    (Beside : List (Event M) → M.Shared → V.Ledgers → U.Ledgers → Prop) : Prop where
  call : ∀ {τ w ls ks i a next c r σ}, V.Obeyed w ls → U.Obeyed w ks → Inv τ w.shared ls →
    Beside τ w.shared ls ks → w.calls i = .act a next → V.discipline.Permits (ls i) a →
    U.discipline.Permits (ks i) a → M.perform i a c w.shared = some (r, σ) →
    S.Admits w ⟨i, a, c, r⟩ →
    U.discipline.Reports (ks i) a r ∧
      Beside (τ ++ [⟨i, a, c, r⟩]) σ (Function.update ls i (V.discipline.record (ls i) a r))
        (Function.update ks i (U.discipline.record (ks i) a r))
  environment : ∀ {τ σ ls ks σ'}, Inv τ σ ls → Beside τ σ ls ks → M.environment σ σ' →
    Beside τ σ' ls ks
  crash : S.Crashes → ∀ {τ σ ls ks σ'}, Inv τ σ ls → Beside τ σ ls ks → M.restart σ σ' →
    Beside τ σ' V.begin U.begin ∧ (∀ i, U.Final i S.aborted (U.begin i)) ∧
      ∀ i, (S.start i).Obeys U.discipline (U.Final i) (U.begin i)

/-- The next call of a run obeys from the ledger that its answer leads to. -/
theorem Watch.Obeyed.proceed {V : Watch M Result} {w : World M Result} {ls : V.Ledgers} {i : Nat}
    {a : Action} {next : Response a → Program Action Response Result} {r : Response a} {σ : M.Shared}
    (obeyed : V.Obeyed w ls) (same : w.calls i = .act a next)
    (reported : V.discipline.Reports (ls i) a r) :
    V.Obeyed (w.proceed i σ (next r))
      (Function.update ls i (V.discipline.record (ls i) a r)) := by
  intro j
  by_cases self : j = i
  · subst self
    have here := obeyed j
    rw [same] at here
    rw [World.proceed_self, Function.update_self]
    exact here.2 r reported
  · rw [World.proceed_other _ _ _ self, Function.update_of_ne self]
    exact obeyed j

/-- After a crash every call obeys from the ledger it starts with. -/
theorem Watch.obeyed_dropped {V : Watch M Result} {S : Setting M Result} {w : World M Result}
    {σ : M.Shared} {calls : Nat → Program Action Response Result}
    (dropped : ∀ i, calls i = .done S.aborted ∨ calls i = w.calls i ∧ w.calls i = S.start i)
    (ended : ∀ i, V.Final i S.aborted (V.begin i))
    (started : ∀ i, (S.start i).Obeys V.discipline (V.Final i) (V.begin i)) :
    V.Obeyed ⟨σ, calls⟩ V.begin := by
  intro i
  change (calls i).Obeys V.discipline (V.Final i) (V.begin i)
  rcases dropped i with gone | ⟨same, unstarted⟩
  · rw [gone]
    exact ended i
  · rw [same, unstarted]
    exact started i

/-- The induction over a run. -/
theorem Run.held {V : Watch M Result} {S : Setting M Result} {Inv : V.Invariant}
    (keeps : V.Keeps S Inv) {w w' : World M Result} {τ : List (Event M)}
    (run : Run S w τ w') (h : V.Held Inv [] w) : V.Held Inv τ w' := by
  induction run with
  | refl => exact h
  | @call w₁ τ i a next c r σ _ same step admitted ih =>
      obtain ⟨ls, obeyed, inv⟩ := ih
      have here := obeyed i
      rw [same] at here
      obtain ⟨reported, inv'⟩ := keeps.call obeyed inv same here.1 step admitted
      exact ⟨_, obeyed.proceed same reported, inv'⟩
  | environment _ moved ih =>
      obtain ⟨ls, obeyed, inv⟩ := ih
      exact ⟨ls, obeyed, keeps.environment inv moved⟩
  | crash _ crashes crashed dropped ih =>
      obtain ⟨ls, -, inv⟩ := ih
      obtain ⟨inv', ended, started⟩ := keeps.crash crashes inv crashed
      exact ⟨V.begin, Watch.obeyed_dropped dropped ended started, inv'⟩

/-- The induction over a run that is followed with two kinds of ledgers. -/
theorem Run.held_beside {V U : Watch M Result} {S : Setting M Result} {Inv : V.Invariant}
    {Beside : List (Event M) → M.Shared → V.Ledgers → U.Ledgers → Prop} (keeps : V.Keeps S Inv)
    (beside : V.KeepsBeside U S Inv Beside) {w w' : World M Result} {τ : List (Event M)}
    (run : Run S w τ w') (h : ∃ ls ks, V.Obeyed w ls ∧ U.Obeyed w ks ∧ Inv [] w.shared ls ∧
      Beside [] w.shared ls ks) :
    ∃ ls ks, V.Obeyed w' ls ∧ U.Obeyed w' ks ∧ Inv τ w'.shared ls ∧ Beside τ w'.shared ls ks := by
  induction run with
  | refl => exact h
  | @call w₁ τ i a next c r σ _ same step admitted ih =>
      obtain ⟨ls, ks, obeyed, obeyed', inv, inv'⟩ := ih
      have here := obeyed i
      have here' := obeyed' i
      rw [same] at here here'
      obtain ⟨reported, after⟩ := keeps.call obeyed inv same here.1 step admitted
      obtain ⟨reported', after'⟩ :=
        beside.call obeyed obeyed' inv inv' same here.1 here'.1 step admitted
      exact ⟨_, _, obeyed.proceed same reported, obeyed'.proceed same reported', after, after'⟩
  | environment _ moved ih =>
      obtain ⟨ls, ks, obeyed, obeyed', inv, inv'⟩ := ih
      exact ⟨ls, ks, obeyed, obeyed', keeps.environment inv moved, beside.environment inv inv' moved⟩
  | crash _ crashes crashed dropped ih =>
      obtain ⟨ls, ks, -, -, inv, inv'⟩ := ih
      obtain ⟨after, ended, started⟩ := keeps.crash crashes inv crashed
      obtain ⟨after', ended', started'⟩ := beside.crash crashes inv inv' crashed
      exact ⟨V.begin, U.begin, Watch.obeyed_dropped dropped ended started,
        Watch.obeyed_dropped dropped ended' started', after, after'⟩

end Concurrent
