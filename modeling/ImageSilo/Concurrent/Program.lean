import Mathlib.Logic.Function.Basic

/-! A program is a tree of atomic actions on a shared state: it is either finished with a value, or it
asks for one action and continues with the answer. -/
namespace Concurrent

/-- A program over atomic actions, each with its own type of response. -/
inductive Program (Action : Type) (Response : Action → Type) (α : Type) : Type where
  | done (value : α)
  | act (action : Action) (next : Response action → Program Action Response α)

namespace Program

variable {Action : Type} {Response : Action → Type} {α β : Type}

protected def bind : Program Action Response α → (α → Program Action Response β) →
    Program Action Response β
  | .done v, f => f v
  | .act a next, f => .act a (fun r => (next r).bind f)

/-- The same steps with another value at the end. -/
def map (f : α → β) : Program Action Response α → Program Action Response β
  | .done v => .done (f v)
  | .act a next => .act a (fun r => (next r).map f)

/-- One action as a program of its own. -/
def perform (a : Action) : Program Action Response (Response a) := .act a .done

instance : Monad (Program Action Response) where
  pure := .done
  bind := Program.bind

end Program

/-- What a caller may do next, and what it writes down, as a function of its ledger alone. -/
structure Discipline (Action : Type) (Response : Action → Type) where
  Ledger : Type
  /-- The actions a caller with this ledger may ask for. -/
  Permits : Ledger → Action → Prop
  /-- The answers an action can meet; the interleaving has to guarantee it. -/
  Reports : Ledger → (a : Action) → Response a → Prop
  record : Ledger → (a : Action) → Response a → Ledger

namespace Program

variable {Action : Type} {Response : Action → Type} {α β : Type} (D : Discipline Action Response)

/-- From ledger `l` the program asks for permitted actions only, and ends in `Q`. -/
def Obeys : Program Action Response α → (α → D.Ledger → Prop) → D.Ledger → Prop
  | .done v, Q, l => Q v l
  | .act a next, Q, l =>
      D.Permits l a ∧ ∀ r, D.Reports l a r → (next r).Obeys Q (D.record l a r)

@[simp] theorem obeys_done (v : α) (Q : α → D.Ledger → Prop) (l : D.Ledger) :
    (Program.done v : Program Action Response α).Obeys D Q l ↔ Q v l := Iff.rfl

@[simp] theorem obeys_pure (v : α) (Q : α → D.Ledger → Prop) (l : D.Ledger) :
    (pure v : Program Action Response α).Obeys D Q l ↔ Q v l := Iff.rfl

theorem obeys_act (a : Action) (next : Response a → Program Action Response α)
    (Q : α → D.Ledger → Prop) (l : D.Ledger) :
    (Program.act a next).Obeys D Q l ↔
      D.Permits l a ∧ ∀ r, D.Reports l a r → (next r).Obeys D Q (D.record l a r) := Iff.rfl

@[simp] theorem obeys_perform (a : Action) (Q : Response a → D.Ledger → Prop) (l : D.Ledger) :
    (perform a : Program Action Response (Response a)).Obeys D Q l ↔
      D.Permits l a ∧ ∀ r, D.Reports l a r → Q r (D.record l a r) := Iff.rfl

/-- Sequencing: the first program leads to a ledger from which the second one obeys. -/
@[simp] theorem obeys_bind (p : Program Action Response α) (f : α → Program Action Response β)
    (Q : β → D.Ledger → Prop) (l : D.Ledger) :
    (p >>= f).Obeys D Q l ↔ p.Obeys D (fun v l' => (f v).Obeys D Q l') l := by
  change (p.bind f).Obeys D Q l ↔ _
  induction p generalizing l with
  | done v => rfl
  | act a next ih => simp only [Program.bind, Obeys, ih]

variable {D}

theorem Obeys.mono {p : Program Action Response α} {Q Q' : α → D.Ledger → Prop} {l : D.Ledger}
    (h : p.Obeys D Q l) (weaker : ∀ v l', Q v l' → Q' v l') : p.Obeys D Q' l := by
  induction p generalizing l with
  | done v => exact weaker v l h
  | act a next ih => exact ⟨h.1, fun r report => ih r (h.2 r report)⟩

/-- Every action the program can ask for is allowed. -/
def Only (allowed : Action → Prop) : Program Action Response α → Prop
  | .done _ => True
  | .act a next => allowed a ∧ ∀ r, (next r).Only allowed

theorem Only.pure {allowed : Action → Prop} (v : α) :
    (pure v : Program Action Response α).Only allowed := trivial

theorem Only.perform {allowed : Action → Prop} {a : Action} (h : allowed a) :
    (perform a : Program Action Response (Response a)).Only allowed := ⟨h, fun _ => trivial⟩

theorem Only.bind {allowed : Action → Prop} {p : Program Action Response α}
    {f : α → Program Action Response β} (h : p.Only allowed) (rest : ∀ v, (f v).Only allowed) :
    (p >>= f).Only allowed := by
  change (p.bind f).Only allowed
  induction p with
  | done v => exact rest v
  | act a next ih => exact ⟨h.1, fun r => ih r (h.2 r)⟩

/-- A program keeps what its ledger says as long as every allowed action does. -/
theorem Only.obeys {allowed : Action → Prop} {p : Program Action Response α} (Idle : D.Ledger → Prop)
    (h : p.Only allowed) (permits : ∀ l a, Idle l → allowed a → D.Permits l a)
    (keeps : ∀ l a r, Idle l → allowed a → Idle (D.record l a r)) {l : D.Ledger} (idle : Idle l) :
    p.Obeys D (fun _ l' => Idle l') l := by
  induction p generalizing l with
  | done v => exact idle
  | act a next ih =>
      exact ⟨permits l a idle h.1, fun r _ => ih r (h.2 r) (keeps l a r idle h.1)⟩

/-- The rule for a call of a helper whose own lemma ends in `Q`. -/
theorem Obeys.bind {p : Program Action Response α} {f : α → Program Action Response β}
    {Q : α → D.Ledger → Prop} {Q' : β → D.Ledger → Prop} {l : D.Ledger}
    (h : p.Obeys D Q l) (rest : ∀ v l', Q v l' → (f v).Obeys D Q' l') :
    (p >>= f).Obeys D Q' l :=
  (obeys_bind D p f Q' l).mpr (h.mono rest)

end Program

/-- A discipline for some of the callers. Without a ledger a caller may do anything. -/
abbrev Discipline.optional {Action : Type} {Response : Action → Type}
    (D : Discipline Action Response) : Discipline Action Response where
  Ledger := Option D.Ledger
  Permits l a := ∀ k ∈ l, D.Permits k a
  Reports l a r := ∀ k ∈ l, D.Reports k a r
  record l a r := l.map fun k => D.record k a r

namespace Program

variable {Action : Type} {Response : Action → Type} {α : Type} {D : Discipline Action Response}

theorem obeys_unfollowed (p : Program Action Response α) :
    p.Obeys D.optional (fun _ l => l = none) none := by
  induction p with
  | done v => rfl
  | act a next ih => exact ⟨by simp, fun r _ => ih r⟩

theorem Obeys.followed {p : Program Action Response α} {Q : α → D.Ledger → Prop} {l : D.Ledger}
    (h : p.Obeys D Q l) : p.Obeys D.optional (fun v l' => ∃ k, l' = some k ∧ Q v k) (some l) := by
  induction p generalizing l with
  | done v => exact ⟨l, rfl, h⟩
  | act a next ih =>
      refine ⟨?_, ?_⟩
      · rintro k ⟨⟩
        exact h.1
      · intro r report
        exact ih r (h.2 r (report l rfl))

end Program

end Concurrent
