import ImageSilo.Concurrent.Interleaving
import Mathlib.Logic.Relation

/-! A program that never overlaps with itself is started, ends or is cut off by a crash, and is started
again. -/
namespace Concurrent

variable {Action : Type} {Response : Action → Type} {Result : Type} {M : Machine Action Response}

/-- The shared state, and what is left of the run that is going on. -/
structure Point (M : Machine Action Response) (Result : Type) where
  shared : M.Shared
  running : Option (Program Action Response Result)

variable (start : Program Action Response Result)

inductive Point.Step : Point M Result → Point M Result → Prop
  | start (σ : M.Shared) : Step ⟨σ, none⟩ ⟨σ, some start⟩
  | call {i : Nat} {a : Action} {next : Response a → Program Action Response Result} {c : M.Choice}
      {r : Response a} {σ σ' : M.Shared} : M.perform i a c σ = some (r, σ') →
      Step ⟨σ, some (.act a next)⟩ ⟨σ', some (next r)⟩
  | finish (σ : M.Shared) (v : Result) : Step ⟨σ, some (.done v)⟩ ⟨σ, none⟩
  | crash {σ σ' : M.Shared} (p : Option (Program Action Response Result)) : M.restart σ σ' →
      Step ⟨σ, p⟩ ⟨σ', none⟩

/-- Any number of runs, one after another, from one point to another. -/
abbrev Point.Reaches : Point M Result → Point M Result → Prop :=
  Relation.ReflTransGen (Point.Step start)

/-- The ledger of the run that is going on is obeyed, and the invariant holds with it. -/
def Point.Held (D : Discipline Action Response) (Final : Result → D.Ledger → Prop)
    (Inv : M.Shared → Option D.Ledger → Prop) (p : Point M Result) : Prop :=
  match p.running with
  | none => Inv p.shared none
  | some program => ∃ l, program.Obeys D Final l ∧ Inv p.shared (some l)

variable {start}

/-- The induction over a history. -/
theorem Point.held {D : Discipline Action Response} {Final : Result → D.Ledger → Prop}
    {Inv : M.Shared → Option D.Ledger → Prop} {begin : D.Ledger} (obeys : start.Obeys D Final begin)
    (started : ∀ {σ}, Inv σ none → Inv σ (some begin))
    (call : ∀ {σ σ' l i a c r}, Inv σ (some l) → D.Permits l a → M.perform i a c σ = some (r, σ') →
      D.Reports l a r ∧ Inv σ' (some (D.record l a r)))
    (finished : ∀ {σ l}, Inv σ (some l) → Inv σ none)
    (crashed : ∀ {σ σ'}, Inv σ none → M.restart σ σ' → Inv σ' none)
    {p q : Point M Result} (reaches : Point.Reaches start p q) (h : p.Held D Final Inv) :
    q.Held D Final Inv := by
  induction reaches with
  | refl => exact h
  | tail _ step ih =>
      cases step with
      | start σ => exact ⟨begin, obeys, started ih⟩
      | call performed =>
          obtain ⟨l, ⟨permitted, later⟩, inv⟩ := ih
          obtain ⟨reported, after⟩ := call inv permitted performed
          exact ⟨_, later _ reported, after⟩
      | finish σ v =>
          obtain ⟨l, -, inv⟩ := ih
          exact finished inv
      | crash p restarted =>
          cases p with
          | none => exact crashed ih restarted
          | some program =>
              obtain ⟨l, -, inv⟩ := ih
              exact crashed (finished inv) restarted

end Concurrent
