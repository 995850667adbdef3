import ImageSilo.Concurrent.Waiting
import Mathlib.Data.Finset.Basic
import Mathlib.Logic.Hydra

/-! Where every call takes its locks in order, behind every blocked call there is one that can go on, and
holders of locks can be led to their end. -/
namespace Concurrent

variable {Action : Type} {Response : Action → Type} {Result : Type}

/-- Which locks the actions of a machine wait for and give back, and who has them. `Excludes k h`:
whoever wants `k` waits for the holders of `h`. -/
structure Locking (M : Machine Action Response) where
  Lock : Type
  level : Lock → Nat
  top : Nat
  takes : Action → Option Lock
  gives : Action → Option Lock
  Excludes : Lock → Lock → Prop
  Owns : M.Shared → Nat → Lock → Prop
  below : ∀ k, level k < top
  moved : ∀ {i a c σ r σ'}, M.perform i a c σ = some (r, σ') → ∀ j k, Owns σ' j k ↔
    if j = i then takes a = some k ∨ Owns σ i k ∧ gives a ≠ some k else Owns σ j k
  stuck : ∀ {i a σ}, (∀ c, M.perform i a c σ = none) → (∀ k ∈ gives a, Owns σ i k) →
    ∃ k h j, takes a = some k ∧ Excludes k h ∧ Owns σ j h
  still : ∀ {σ σ'}, M.environment σ σ' → ∀ i k, Owns σ' i k ↔ Owns σ i k
  dropped : ∀ {σ σ'}, M.restart σ σ' → ∀ i k, ¬ Owns σ' i k

variable {M : Machine Action Response} (L : Locking M)

/-- What a program with these locks may do next: take a lock above every one that is wanted on account
of a held one, or give back what it holds; a finished one holds none. -/
def Locking.Orderly (held : L.Lock → Prop) : Program Action Response Result → Prop
  | .done _ => ∀ k, ¬ held k
  | .act a _ => (∀ k ∈ L.gives a, held k) ∧
      ∀ k ∈ L.takes a, ∀ h, held h → ∀ wanted, L.Excludes wanted h → L.level wanted < L.level k

/-- Every call of a world is orderly. -/
def Locking.Ordered (w : World M Result) : Prop :=
  ∀ i, L.Orderly (L.Owns w.shared i) (w.calls i)

/-- Call `i` is blocked by a lock of call `j`. -/
def Locking.Waits (w : World M Result) (i j : Nat) : Prop :=
  w.Blocked i ∧ ∃ a next k h, w.calls i = .act a next ∧ L.takes a = some k ∧ L.Excludes k h ∧
    L.Owns w.shared j h

/-- The level of the lock that a call asks for. -/
def Locking.rank : Program Action Response Result → Nat
  | .done _ => L.top
  | .act a _ => ((L.takes a).map L.level).getD L.top

namespace Locking

variable {L} {w : World M Result} {i j : Nat}

@[simp] theorem rank_act (a : Action) (next : Response a → Program Action Response Result) :
    L.rank (.act a next) = ((L.takes a).map L.level).getD L.top := rfl

theorem rank_le (p : Program Action Response Result) : L.rank p ≤ L.top := by
  cases p with
  | done v => exact Nat.le_refl _
  | act a next =>
      rw [rank_act]
      cases L.takes a with
      | none => exact Nat.le_refl _
      | some k => exact (L.below k).le

/-- The holder of a wanted lock has not ended, and asks for none below that lock. -/
theorem Orderly.above {held : L.Lock → Prop} {p : Program Action Response Result} {wanted h : L.Lock}
    (orderly : L.Orderly held p) (own : held h) (excludes : L.Excludes wanted h) :
    (∃ a next, p = .act a next) ∧ L.level wanted < L.rank p := by
  cases p with
  | done v => exact absurd own (orderly h)
  | act a next =>
      refine ⟨⟨a, next, rfl⟩, ?_⟩
      rw [rank_act]
      cases takes : L.takes a with
      | none => exact L.below wanted
      | some k => exact orderly.2 k takes h own wanted excludes

theorem Ordered.rises (ordered : L.Ordered w) (waits : L.Waits w i j) :
    L.rank (w.calls i) < L.rank (w.calls j) := by
  obtain ⟨-, a, next, k, h, program, takes, excludes, own⟩ := waits
  have low : L.rank (w.calls i) = L.level k := by
    rw [program, rank_act, takes]
    rfl
  rw [low]
  exact ((ordered j).above own excludes).2

/-- Whoever is blocked waits for a call that has not ended. -/
theorem Ordered.waits (ordered : L.Ordered w) (blocked : w.Blocked i) :
    ∃ j, L.Waits w i j ∧ w.Unfinished j := by
  obtain ⟨⟨a, next, program⟩, unable⟩ := id blocked
  have here := ordered i
  rw [program] at here
  have none : ∀ c, M.perform i a c w.shared = none := by
    intro c
    by_contra some
    obtain ⟨answer, performed⟩ := Option.ne_none_iff_exists'.mp some
    exact unable (World.able_of_perform program c performed)
  obtain ⟨k, h, j, takes, excludes, own⟩ := L.stuck none here.1
  refine ⟨j, ⟨blocked, a, next, k, h, program, takes, excludes, own⟩, ?_⟩
  exact ((ordered j).above own excludes).1

/-- Behind every blocked call there is one that can go on. -/
theorem Ordered.progress (ordered : L.Ordered w) (blocked : w.Blocked i) :
    ∃ j, Relation.TransGen (L.Waits w) i j ∧ w.Able j :=
  World.leads_to_able (fun _ _ => ordered.rises) (fun j => L.rank_le (w.calls j))
    (fun _ => ordered.waits) blocked

/-- Whoever is waited for holds a lock. -/
theorem waited (path : Relation.TransGen (L.Waits w) i j) : ∃ h, L.Owns w.shared j h := by
  cases path with
  | single last =>
      obtain ⟨-, -, -, -, h, -, -, -, own⟩ := last
      exact ⟨h, own⟩
  | tail _ last =>
      obtain ⟨-, -, -, -, h, -, -, -, own⟩ := last
      exact ⟨h, own⟩

end Locking

section Ends

/-- One action further. -/
def Program.After (q p : Program Action Response Result) : Prop :=
  ∃ a next r, p = .act a next ∧ q = next r

theorem Program.after_wellFounded :
    WellFounded (@Program.After Action Response Result) := by
  refine ⟨fun p => ?_⟩
  induction p with
  | done v =>
      refine .intro _ ?_
      rintro q ⟨a, next, r, same, -⟩
      cases same
  | act a next ih =>
      refine .intro _ ?_
      rintro q ⟨b, rest, r, same, rfl⟩
      cases same
      exact ih r

/-- What a group of calls still has to do. -/
def World.left (w : World M Result) (group : Finset Nat) :
    Multiset (Program Action Response Result) :=
  group.val.map w.calls

theorem World.left_proceed {w : World M Result} {group : Finset Nat} {i : Nat} {a : Action}
    {next : Response a → Program Action Response Result} {r : Response a} {σ : M.Shared}
    (member : i ∈ group) (program : w.calls i = .act a next) :
    Relation.CutExpand Program.After ((w.proceed i σ (next r)).left group) (w.left group) := by
  have others : (group.erase i).val.map (w.proceed i σ (next r)).calls =
      (group.erase i).val.map w.calls := by
    refine Multiset.map_congr rfl fun j other => ?_
    exact World.proceed_other _ _ _ (Finset.ne_of_mem_erase other)
  have split : ∀ f : Nat → Program Action Response Result,
      group.val.map f = f i ::ₘ (group.erase i).val.map f := by
    intro f
    rw [← Multiset.map_cons, Finset.erase_val, Multiset.cons_erase member]
  refine ⟨{next r}, .act a next, ?_, ?_⟩
  · intro q only
    rw [Multiset.mem_singleton.mp only]
    exact ⟨a, next, r, rfl, rfl⟩
  · unfold World.left
    rw [split, split w.calls, others, World.proceed_self, program]
    simp only [← Multiset.singleton_add]
    ac_rfl

/-- A run of a group of calls, without a crash, leaves less to do. -/
theorem Run.left_decreases {S : Setting M Result} (calm : ¬ S.Crashes) {group : Finset Nat}
    {w w' : World M Result} {τ : List (Event M)} (run : Run S w τ w')
    (inside : ∀ e ∈ τ, e.call ∈ group) :
    Relation.ReflTransGen (Relation.CutExpand Program.After) (w'.left group) (w.left group) ∧
      (τ ≠ [] → Relation.TransGen (Relation.CutExpand Program.After) (w'.left group)
        (w.left group)) := by
  induction run with
  | refl => exact ⟨.refl, fun some => absurd rfl some⟩
  | @call w₁ τ i a next c r σ _ program _ _ ih =>
      obtain ⟨before, -⟩ := ih fun e member => inside e (List.mem_append_left _ member)
      have member : i ∈ group := inside _ (List.mem_append_right _ List.mem_cons_self)
      have step : Relation.TransGen (Relation.CutExpand Program.After)
          ((w₁.proceed i σ (next r)).left group) (w.left group) :=
        .head' (World.left_proceed member program) before
      exact ⟨step.to_reflTransGen, fun _ => step⟩
  | environment _ _ ih => exact ih inside
  | crash _ crashed => exact absurd crashed calm

/-- No schedule of finitely many calls goes on for ever. -/
theorem Run.not_endless {S : Setting M Result} (calm : ¬ S.Crashes) (group : Finset Nat)
    (worlds : Nat → World M Result) (traces : Nat → List (Event M)) : ¬ ∀ n,
      Run S (worlds n) (traces n) (worlds (n + 1)) ∧ traces n ≠ [] ∧
        ∀ e ∈ traces n, e.call ∈ group := by
  intro endless
  have falls : ∀ n, Relation.TransGen (Relation.CutExpand Program.After)
      ((worlds (n + 1)).left group) ((worlds n).left group) := by
    intro n
    obtain ⟨run, some, inside⟩ := endless n
    exact (run.left_decreases calm inside).2 some
  exact (wellFounded_iff_isEmpty_descending_chain.mp
    Program.after_wellFounded.cutExpand.transGen).false ⟨fun n => (worlds n).left group, falls⟩

variable {L} {S : Setting M Result} {w w' : World M Result} {τ : List (Event M)} {group : Finset Nat}

/-- Only who has acted has a lock. -/
theorem Locking.owners (run : Run S w τ w') (inside : ∀ e ∈ τ, e.call ∈ group)
    (holders : ∀ j k, L.Owns w.shared j k → j ∈ group) :
    ∀ j k, L.Owns w'.shared j k → j ∈ group := by
  induction run with
  | refl => exact holders
  | @call w₁ τ i a next c r σ _ _ performed _ ih =>
      intro j k own
      rw [World.proceed_shared, L.moved performed] at own
      split at own
      · rename_i same
        rw [same]
        exact inside _ (List.mem_append_right _ List.mem_cons_self)
      · exact ih (fun e member => inside e (List.mem_append_left _ member)) j k own
  | environment _ moved ih =>
      intro j k own
      exact ih inside j k ((L.still moved j k).mp own)
  | crash _ _ moved _ _ =>
      intro j k own
      exact absurd own (L.dropped moved j k)

/-- Among calls that have all locks, one can go on as long as one has not ended. -/
theorem Locking.Ordered.someone_able (ordered : L.Ordered w)
    (holders : ∀ j k, L.Owns w.shared j k → j ∈ group) {i : Nat} (member : i ∈ group)
    (unfinished : w.Unfinished i) : ∃ j ∈ group, w.Able j := by
  by_cases able : w.Able i
  · exact ⟨i, member, able⟩
  · obtain ⟨j, path, last⟩ := ordered.progress ⟨unfinished, able⟩
    obtain ⟨h, own⟩ := Locking.waited path
    exact ⟨j, holders j h own, last⟩

/-- A scheduler that lets some call go on as long as one can brings all of them to the end. -/
theorem Locking.schedule_ends (calm : ¬ S.Crashes) (ordered : ∀ {τ w'}, Run S w τ w' → L.Ordered w')
    (holders : ∀ j k, L.Owns w.shared j k → j ∈ group) {worlds : Nat → World M Result}
    {traces : Nat → List (Event M)} (first : worlds 0 = w)
    (runs : ∀ n, Run S (worlds n) (traces n) (worlds (n + 1)))
    (inside : ∀ n, ∀ e ∈ traces n, e.call ∈ group)
    (busy : ∀ n, (∃ i ∈ group, (worlds n).Able i) → traces n ≠ []) :
    ∃ n, ∀ i ∈ group, ∃ v, (worlds n).calls i = .done v := by
  have reached : ∀ n, ∃ τ, Run S w τ (worlds n) ∧ ∀ e ∈ τ, e.call ∈ group := by
    intro n
    induction n with
    | zero => exact ⟨[], first ▸ .refl, by simp⟩
    | succ n ih =>
        obtain ⟨τ, run, within⟩ := ih
        refine ⟨_, run.trans (runs n), ?_⟩
        intro e member
        rcases List.mem_append.mp member with before | now
        · exact within e before
        · exact inside n e now
  obtain ⟨n, quiet⟩ : ∃ n, traces n = [] := by
    by_contra endless
    exact Run.not_endless calm group worlds traces fun n =>
      ⟨runs n, fun empty => endless ⟨n, empty⟩, inside n⟩
  obtain ⟨τ, run, within⟩ := reached n
  refine ⟨n, ?_⟩
  intro i member
  cases program : (worlds n).calls i with
  | done v => exact ⟨v, rfl⟩
  | act a next =>
      have able := (ordered run).someone_able (Locking.owners run within holders) member
        ⟨a, next, program⟩
      exact absurd quiet (busy n able)

end Ends

end Concurrent
