import ImageSilo.Concurrent.Interleaving
import Mathlib.Data.Set.Basic
import Mathlib.Logic.Relation

/-! Where a call only ever waits for one of a higher rank, behind every blocked call there is one that can
go on. -/
namespace Concurrent

variable {Action : Type} {Response : Action → Type} {Result : Type} {M : Machine Action Response}

namespace World

variable (w : World M Result)

def Unfinished (i : Nat) : Prop := ∃ a next, w.calls i = .act a next

def Able (i : Nat) : Prop := ∃ c, (w.step i c).isSome = true

def Blocked (i : Nat) : Prop := w.Unfinished i ∧ ¬ w.Able i

/-- Calls of which each one is blocked and waits for one of them. -/
def Deadlock (waits : Nat → Nat → Prop) (group : Set Nat) : Prop :=
  group.Nonempty ∧ ∀ i ∈ group, w.Blocked i ∧ ∃ j ∈ group, waits i j

variable {w} {i : Nat}

theorem able_of_perform {a : Action} {next : Response a → Program Action Response Result}
    (program : w.calls i = .act a next) (c : M.Choice) {answer : Response a × M.Shared}
    (performed : M.perform i a c w.shared = some answer) : w.Able i := by
  refine ⟨c, ?_⟩
  unfold step
  rw [program]
  dsimp only
  rw [performed]
  rfl

theorem blocked_of_perform {a : Action} {next : Response a → Program Action Response Result}
    (program : w.calls i = .act a next) (stuck : ∀ c, M.perform i a c w.shared = none) :
    w.Blocked i := by
  refine ⟨⟨a, next, program⟩, ?_⟩
  rintro ⟨c, able⟩
  unfold step at able
  rw [program] at able
  dsimp only at able
  rw [stuck c] at able
  cases able

variable {waits : Nat → Nat → Prop} {rank : Nat → Nat} {bound : Nat}

/-- Nobody in a circle has the highest rank. -/
theorem no_deadlock (rises : ∀ i j, waits i j → rank i < rank j) (bounded : ∀ i, rank i ≤ bound)
    (group : Set Nat) : ¬ w.Deadlock waits group := by
  rintro ⟨⟨i, member⟩, circle⟩
  have climbs : ∀ n, ∃ j ∈ group, n ≤ rank j := by
    intro n
    induction n with
    | zero => exact ⟨i, member, Nat.zero_le _⟩
    | succ n ih =>
        obtain ⟨j, inside, high⟩ := ih
        obtain ⟨-, k, inside', waiting⟩ := circle j inside
        exact ⟨k, inside', Nat.succ_le_of_lt (high.trans_lt (rises j k waiting))⟩
  obtain ⟨j, -, high⟩ := climbs (bound + 1)
  exact absurd (bounded j) (Nat.not_le.mpr high)

/-- The last one that a blocked call waits for can go on. -/
theorem leads_to_able (rises : ∀ i j, waits i j → rank i < rank j) (bounded : ∀ i, rank i ≤ bound)
    (held : ∀ i, w.Blocked i → ∃ j, waits i j ∧ w.Unfinished j) (blocked : w.Blocked i) :
    ∃ j, Relation.TransGen waits i j ∧ w.Able j := by
  induction left : bound - rank i using Nat.strong_induction_on generalizing i with
  | _ n ih =>
      obtain ⟨j, waiting, unfinished⟩ := held i blocked
      by_cases able : w.Able j
      · exact ⟨j, .single waiting, able⟩
      · have higher := rises i j waiting
        have high := bounded j
        obtain ⟨k, path, last⟩ := ih _ (by omega) ⟨unfinished, able⟩ rfl
        exact ⟨k, .head waiting path, last⟩

end World

end Concurrent
