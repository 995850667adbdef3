import ImageSilo.Concurrent.LockOrder
import Mathlib.Data.Finset.Basic

/-! A latch is a lock that a call takes for a moment and never asks for anything under it. -/
namespace Concurrent

variable {Action : Type} {Response : Action → Type} {α β Result : Type}

structure Latch where
  readers : Finset Nat
  /-- Who waits for the exclusive side, or has entered it. -/
  writer : Option (Nat × Bool)

def Latch.free : Latch := ⟨∅, none⟩

inductive Side
  | reads
  | announced
  | writes

inductive Turn
  | lockShared
  | unlockShared
  | announce
  | enter
  | unlock

def Turn.takes : Turn → Option Side
  | .lockShared => some .reads
  | .announce => some .announced
  | .enter => some .writes
  | _ => none

def Turn.gives : Turn → Option Side
  | .unlockShared => some .reads
  | .enter => some .announced
  | .unlock => some .writes
  | _ => none

/-- Whoever wants the first side waits for the holders of the second. -/
def Side.Excludes : Side → Side → Prop
  | .writes, held => held = .reads
  | _, held => held ≠ .reads

namespace Latch

def perform (l : Latch) (call : Nat) : Turn → Option Latch
  | .lockShared =>
      if l.writer = none then some { l with readers := insert call l.readers } else none
  | .unlockShared =>
      if call ∈ l.readers then some { l with readers := l.readers.erase call } else none
  | .announce => if l.writer = none then some { l with writer := some (call, false) } else none
  | .enter =>
      if l.writer = some (call, false) ∧ l.readers = ∅ then
        some { l with writer := some (call, true) }
      else none
  | .unlock => if l.writer = some (call, true) then some { l with writer := none } else none

def Owns (l : Latch) (call : Nat) : Side → Prop
  | .reads => call ∈ l.readers
  | .announced => l.writer = some (call, false)
  | .writes => l.writer = some (call, true)

variable {l l' : Latch} {i : Nat} {t : Turn}

theorem moved_self (performed : l.perform i t = some l') (s : Side) :
    l'.Owns i s ↔ t.takes = some s ∨ l.Owns i s ∧ t.gives ≠ some s := by
  cases t with
  | lockShared =>
      obtain ⟨free, ⟨⟩⟩ := Option.ite_none_right_eq_some.mp performed
      cases s <;> simp [Owns, Turn.takes, Turn.gives, free]
  | unlockShared =>
      obtain ⟨-, ⟨⟩⟩ := Option.ite_none_right_eq_some.mp performed
      cases s <;> simp [Owns, Turn.takes, Turn.gives]
  | announce =>
      obtain ⟨free, ⟨⟩⟩ := Option.ite_none_right_eq_some.mp performed
      cases s <;> simp [Owns, Turn.takes, Turn.gives, free]
  | enter =>
      obtain ⟨⟨waiting, empty⟩, ⟨⟩⟩ := Option.ite_none_right_eq_some.mp performed
      cases s <;> simp [Owns, Turn.takes, Turn.gives, waiting, empty]
  | unlock =>
      obtain ⟨entered, ⟨⟩⟩ := Option.ite_none_right_eq_some.mp performed
      cases s <;> simp [Owns, Turn.takes, Turn.gives, entered]

theorem moved_other {j : Nat} (performed : l.perform i t = some l') (other : j ≠ i) (s : Side) :
    l'.Owns j s ↔ l.Owns j s := by
  cases t with
  | lockShared =>
      obtain ⟨free, ⟨⟩⟩ := Option.ite_none_right_eq_some.mp performed
      cases s <;> simp [Owns, other]
  | unlockShared =>
      obtain ⟨-, ⟨⟩⟩ := Option.ite_none_right_eq_some.mp performed
      cases s <;> simp [Owns, other]
  | announce =>
      obtain ⟨free, ⟨⟩⟩ := Option.ite_none_right_eq_some.mp performed
      cases s <;> simp [Owns, other.symm, free]
  | enter =>
      obtain ⟨⟨waiting, empty⟩, ⟨⟩⟩ := Option.ite_none_right_eq_some.mp performed
      cases s <;> simp [Owns, other.symm, waiting]
  | unlock =>
      obtain ⟨entered, ⟨⟩⟩ := Option.ite_none_right_eq_some.mp performed
      cases s <;> simp [Owns, other.symm, entered]

theorem moved (performed : l.perform i t = some l') (j : Nat) (s : Side) : l'.Owns j s ↔
    if j = i then t.takes = some s ∨ l.Owns i s ∧ t.gives ≠ some s else l.Owns j s := by
  rcases eq_or_ne j i with rfl | other
  · rw [if_pos rfl]
    exact moved_self performed s
  · rw [if_neg other]
    exact moved_other performed other s

theorem writer_owns {j : Nat} {b : Bool} (writer : l.writer = some (j, b)) :
    ∃ h, h ≠ .reads ∧ l.Owns j h := by
  cases b with
  | false => exact ⟨.announced, by simp, writer⟩
  | true => exact ⟨.writes, by simp, writer⟩

theorem stuck (none : l.perform i t = none) (own : ∀ s ∈ t.gives, l.Owns i s) :
    ∃ s h j, t.takes = some s ∧ s.Excludes h ∧ l.Owns j h := by
  cases t with
  | lockShared =>
      have writer : l.writer ≠ .none := by
        intro free
        simp [perform, free] at none
      obtain ⟨⟨j, b⟩, writer⟩ := Option.ne_none_iff_exists'.mp writer
      obtain ⟨h, other, own⟩ := writer_owns writer
      exact ⟨.reads, h, j, rfl, other, own⟩
  | announce =>
      have writer : l.writer ≠ .none := by
        intro free
        simp [perform, free] at none
      obtain ⟨⟨j, b⟩, writer⟩ := Option.ne_none_iff_exists'.mp writer
      obtain ⟨h, other, own⟩ := writer_owns writer
      exact ⟨.announced, h, j, rfl, other, own⟩
  | enter =>
      have waiting : l.writer = some (i, false) := own .announced rfl
      have readers : l.readers.Nonempty := by
        by_contra empty
        rw [Finset.not_nonempty_iff_eq_empty] at empty
        simp [perform, waiting, empty] at none
      obtain ⟨j, reading⟩ := readers
      exact ⟨.writes, .reads, j, rfl, rfl, reading⟩
  | unlockShared =>
      have reading : i ∈ l.readers := own .reads rfl
      simp [perform, reading] at none
  | unlock =>
      have entered : l.writer = some (i, true) := own .writes rfl
      simp [perform, entered] at none

end Latch

/-- The actions of a machine, and the turns at latches. -/
inductive Fine (Action K : Type)
  | base (a : Action)
  | latch (k : K) (t : Turn)

variable {K : Type}

abbrev Fine.Reply (Response : Action → Type) : Fine Action K → Type
  | .base a => Response a
  | .latch _ _ => Unit

namespace Program

/-- A program in which every action is replaced by a program. -/
def interpret {Action' : Type} {Response' : Action' → Type}
    (f : (a : Action) → Program Action' Response' (Response a)) :
    Program Action Response α → Program Action' Response' α
  | .done v => .done v
  | .act a next => (f a).bind fun r => (next r).interpret f

/-- The program without its turns at latches. -/
def erase : Program (Fine Action K) (Fine.Reply Response) α → Program Action Response α
  | .done v => .done v
  | .act (.base a) next => .act a fun r => (next r).erase
  | .act (.latch _ _) next => (next ()).erase

@[simp] theorem erase_bind (p : Program (Fine Action K) (Fine.Reply Response) α)
    (f : α → Program (Fine Action K) (Fine.Reply Response) β) :
    (p.bind f).erase = p.erase.bind fun v => (f v).erase := by
  induction p with
  | done v => rfl
  | act a next ih =>
      cases a with
      | base a =>
          simp only [Program.bind, erase]
          exact congrArg _ (funext ih)
      | latch k t => exact ih ()

theorem bind_done (p : Program Action Response α) : p.bind .done = p := by
  induction p with
  | done v => rfl
  | act a next ih => exact congrArg _ (funext ih)

/-- Sections around the actions disappear with the latches. -/
theorem erase_interpret
    {f : (a : Action) → Program (Fine Action K) (Fine.Reply Response) (Response a)}
    (plain : ∀ a, (f a).erase = perform a) (p : Program Action Response α) :
    (p.interpret f).erase = p := by
  induction p with
  | done v => rfl
  | act a next ih =>
      rw [interpret, erase_bind, plain]
      exact congrArg _ (funext ih)

theorem Obeys.interpret {Action' : Type} {Response' : Action' → Type}
    {D : Discipline Action' Response'}
    {f : (a : Action) → Program Action' Response' (Response a)} (Idle : D.Ledger → Prop)
    (section' : ∀ a l, Idle l → (f a).Obeys D (fun _ l' => Idle l') l) (p : Program Action Response α)
    {l : D.Ledger} (idle : Idle l) : (p.interpret f).Obeys D (fun _ l' => Idle l') l := by
  induction p generalizing l with
  | done v => exact idle
  | act a next ih => exact Obeys.bind (section' a l idle) fun r l' idle' => ih r idle'

end Program

section Machines

variable [DecidableEq K] (M : Machine Action Response)

variable (K) in
/-- A machine with a latch of every kind. -/
abbrev Machine.latched : Machine (Fine Action K) (Fine.Reply Response) where
  Shared := M.Shared × (K → Latch)
  Choice := M.Choice
  perform i
    | .base a, c, σ => (M.perform i a c σ.1).map fun (r, s) => (r, (s, σ.2))
    | .latch k t, _, σ => ((σ.2 k).perform i t).map fun l => ((), (σ.1, Function.update σ.2 k l))
  environment σ σ' := M.environment σ.1 σ'.1 ∧ σ'.2 = σ.2
  restart σ σ' := M.restart σ.1 σ'.1 ∧ σ'.2 = fun _ => .free

variable {M}

theorem latched_base {i : Nat} {a : Action} {c : M.Choice} {σ σ' : M.Shared × (K → Latch)}
    {r : Response a} (performed : (M.latched K).perform i (.base a) c σ = some (r, σ')) :
    M.perform i a c σ.1 = some (r, σ'.1) ∧ σ'.2 = σ.2 := by
  obtain ⟨⟨s, τ⟩, done, same⟩ := Option.map_eq_some_iff.mp performed
  cases same
  exact ⟨done, rfl⟩

theorem latched_turn {i : Nat} {k : K} {t : Turn} {c : M.Choice} {σ σ' : M.Shared × (K → Latch)}
    {r : Unit} (performed : (M.latched K).perform i (.latch k t) c σ = some (r, σ')) :
    ∃ l, (σ.2 k).perform i t = some l ∧ σ' = (σ.1, Function.update σ.2 k l) := by
  obtain ⟨l, done, same⟩ := Option.map_eq_some_iff.mp performed
  cases same
  exact ⟨l, done, rfl⟩

variable (L : Locking M)

variable (K) in
variable [Nonempty M.Choice] in
/-- The latches are above all locks of the machine. -/
abbrev Locking.latched : Locking (M.latched K) where
  Lock := L.Lock ⊕ K × Side
  level
    | .inl k => L.level k
    | .inr (_, .writes) => L.top + 1
    | .inr _ => L.top
  top := L.top + 2
  takes
    | .base a => (L.takes a).map .inl
    | .latch k t => t.takes.map fun s => .inr (k, s)
  gives
    | .base a => (L.gives a).map .inl
    | .latch k t => t.gives.map fun s => .inr (k, s)
  Excludes
    | .inl k, .inl h => L.Excludes k h
    | .inr (k, s), .inr (k', h) => k = k' ∧ s.Excludes h
    | _, _ => False
  Owns σ i
    | .inl k => L.Owns σ.1 i k
    | .inr (k, s) => (σ.2 k).Owns i s
  below := by
    rintro (k | ⟨k, s⟩)
    · exact (L.below k).trans (Nat.lt_add_of_pos_right Nat.two_pos)
    · cases s <;> simp
  moved := by
    rintro i (a | ⟨k, t⟩) c σ r σ' performed j (h | ⟨k', s⟩)
    · obtain ⟨done, -⟩ := latched_base performed
      simpa using L.moved done j h
    · obtain ⟨-, same⟩ := latched_base performed
      rw [same]
      by_cases self : j = i <;> simp [self]
    · obtain ⟨l, -, rfl⟩ := latched_turn performed
      by_cases self : j = i <;> simp [self]
    · obtain ⟨l, done, rfl⟩ := latched_turn performed
      by_cases same : k' = k
      · subst same
        have moved := Latch.moved done j s
        simpa using moved
      · by_cases self : j = i <;> simp [self, same, Ne.symm same]
  stuck := by
    rintro i (a | ⟨k, t⟩) σ none own
    · have none' : ∀ c, M.perform i a c σ.1 = .none := fun c => Option.map_eq_none_iff.mp (none c)
      obtain ⟨k, h, j, takes, excludes, held⟩ := L.stuck none' fun k gives =>
        own (.inl k) (by simpa using gives)
      exact ⟨.inl k, .inl h, j, by simp [takes], excludes, held⟩
    · have c : M.Choice := Classical.choice inferInstance
      obtain ⟨s, h, j, takes, excludes, held⟩ := Latch.stuck (Option.map_eq_none_iff.mp (none c))
        fun s gives => own (.inr (k, s)) (by simpa using gives)
      exact ⟨.inr (k, s), .inr (k, h), j, by simp [takes], ⟨rfl, excludes⟩, held⟩
  still := by
    rintro σ σ' ⟨moved, same⟩ i (k | ⟨k, s⟩)
    · exact L.still moved i k
    · simp [same]
  dropped := by
    rintro σ σ' ⟨moved, same⟩ i (k | ⟨k, s⟩)
    · exact L.dropped moved i k
    · cases s <;> simp [same, Latch.Owns, Latch.free]

variable (K) in
/-- A call takes one latch at a time, gives it back before it waits for a lock, and ends without. -/
abbrev latchDiscipline : Discipline (Fine Action K) (Fine.Reply Response) where
  Ledger := Option (K × Side)
  Permits held
    | .base a => ∀ k ∈ L.takes a, held = none
    | .latch k t => held = t.gives.map fun s => (k, s)
  Reports _ _ _ := True
  record held
    | .base _, _ => held
    | .latch k t, _ => t.takes.map fun s => (k, s)

section Runs

variable {S : Setting M Result} {F : Setting (M.latched K) Result} {w : World (M.latched K) Result}

/-- The world without latches. -/
def World.erase (w : World (M.latched K) Result) : World M Result :=
  ⟨w.shared.1, fun i => (w.calls i).erase⟩

/-- The events that are not turns at latches. -/
def baseEvents (τ : List (Event (M.latched K))) : List (Event M) :=
  τ.filterMap fun e =>
    match e with
    | ⟨i, .base a, c, r⟩ => some ⟨i, a, c, r⟩
    | ⟨_, .latch _ _, _, _⟩ => none

theorem World.erase_proceed (w : World (M.latched K) Result) (i : Nat) (σ : M.Shared × (K → Latch))
    (next : Program (Fine Action K) (Fine.Reply Response) Result) :
    (w.proceed i σ next).erase = w.erase.proceed i σ.1 next.erase := by
  unfold erase proceed
  congr 1
  funext j
  exact Function.apply_update (fun _ => Program.erase) w.calls i next j

/-- A run with latches is, without them, a run. -/
theorem Run.erase (lax : ∀ w e, S.Admits w e) (begins : ∀ i, S.start i = (F.start i).erase)
    (aborted : F.aborted = S.aborted) (crashes : F.Crashes → S.Crashes)
    {v : World (M.latched K) Result} {τ : List (Event (M.latched K))} (run : Run F w τ v) :
    Run S w.erase (baseEvents τ) v.erase := by
  induction run with
  | refl => exact .refl
  | @call w₁ τ i a next c r σ _ program performed _ ih =>
      rw [baseEvents, List.filterMap_append]
      cases a with
      | base a =>
          obtain ⟨done, -⟩ := latched_base performed
          have same : w₁.erase.calls i = .act a fun r => (next r).erase := by
            change (w₁.calls i).erase = _
            rw [program]
            rfl
          rw [World.erase_proceed]
          exact .call ih same done (lax _ _)
      | latch k t =>
          obtain ⟨l, -, rfl⟩ := latched_turn performed
          have same : w₁.erase.proceed i w₁.shared.1 (next r).erase = w₁.erase := by
            unfold World.proceed
            have unmoved : w₁.erase.calls i = (next r).erase := by
              change (w₁.calls i).erase = _
              rw [program]
              rfl
            rw [← unmoved, Function.update_eq_self]
            rfl
          rw [World.erase_proceed, same]
          change Run S w.erase (baseEvents τ ++ []) w₁.erase
          rw [List.append_nil]
          exact ih
  | environment _ moved ih => exact .environment ih moved.1
  | crash _ crashed moved dropped ih =>
      refine .crash ih (crashes crashed) moved.1 ?_
      intro i
      rcases dropped i with gone | ⟨same, unstarted⟩
      · refine .inl ?_
        rw [← aborted]
        exact congrArg Program.erase gone
      · refine .inr ⟨congrArg Program.erase same, ?_⟩
        rw [begins]
        exact congrArg Program.erase unstarted

variable [Nonempty M.Choice]

/-- The latches that a call holds are those of its ledger. -/
theorem latches_kept {G : Nat → Result → Option (K × Side) → Prop} (begin' : ∀ i,
      (F.start i).Obeys (latchDiscipline K L) (G i) none) (aborted : ∀ i, G i F.aborted none) :
    (Watch.mk (latchDiscipline K L) (fun _ => none) G : Watch (M.latched K) Result).Keeps F
      fun _ σ held => ∀ i k s, (σ.2 k).Owns i s ↔ held i = some (k, s) where
  call := by
    intro τ w held i a next c r σ' _ own _ permitted performed _
    refine ⟨trivial, ?_⟩
    intro j k s
    have moved := (L.latched K).moved performed j (.inr (k, s))
    rw [show ((σ'.2 k).Owns j s ↔ _) from moved]
    by_cases self : j = i
    · subst self
      rw [if_pos rfl, Function.update_self]
      cases a with
      | base a => simpa using own j k s
      | latch k' t =>
          have other := own j k s
          rw [show held j = _ from permitted] at other
          change _ ∨ ((w.shared.2 k).Owns j s ∧ _) ↔ _
          rw [other]
          cases t <;> simp [Turn.takes, Turn.gives]
    · rw [if_neg self, Function.update_of_ne self]
      exact own j k s
  environment := by
    rintro τ σ held σ' own ⟨-, same⟩ i k s
    rw [same]
    exact own i k s
  crash := by
    rintro - τ σ held σ' - ⟨-, same⟩
    refine ⟨?_, aborted, begin'⟩
    intro i k s
    rw [same]
    cases s <;> simp [Latch.Owns, Latch.free]

variable {L}

/-- Latches that are taken one at a time add no wait in a circle. -/
theorem latched_ordered {held : Nat → Option (K × Side)} {G : Nat → Result → Option (K × Side) → Prop}
    (obeyed : ∀ i, (w.calls i).Obeys (latchDiscipline K L) (G i) (held i))
    (own : ∀ i k s, (w.shared.2 k).Owns i s ↔ held i = some (k, s))
    (ended : ∀ i v h, G i v h → h = none) (ordered : L.Ordered w.erase) :
    (L.latched K).Ordered w := by
  intro i
  have here := obeyed i
  have below := ordered i
  change L.Orderly (L.Owns w.shared.1 i) (w.calls i).erase at below
  cases program : w.calls i with
  | done v =>
      rw [program] at here below
      have none := ended i v _ here
      rintro (k | ⟨k, s⟩) held
      · exact below k held
      · have some := (own i k s).mp held
        rw [none] at some
        cases some
  | act a next =>
      rw [program] at here below
      cases a with
      | base a =>
          refine ⟨?_, ?_⟩
          · rintro _ gives
            obtain ⟨k, given, rfl⟩ := Option.map_eq_some_iff.mp gives
            exact below.1 k given
          · rintro _ takes
            obtain ⟨k, taken, rfl⟩ := Option.map_eq_some_iff.mp takes
            rintro (h | ⟨k', s⟩) owned (wanted | wanted) excludes
            · exact below.2 k taken h owned wanted excludes
            · exact excludes.elim
            · exact excludes.elim
            · have some := (own i k' s).mp owned
              rw [here.1 k taken] at some
              cases some
      | latch k t =>
          have alone : held i = t.gives.map fun s => (k, s) := here.1
          refine ⟨?_, ?_⟩
          · rintro _ gives
            obtain ⟨s, given, rfl⟩ := Option.map_eq_some_iff.mp gives
            refine (own i k s).mpr ?_
            rw [alone, given]
            rfl
          · rintro _ takes
            obtain ⟨s, taken, rfl⟩ := Option.map_eq_some_iff.mp takes
            rintro (h | ⟨k', s'⟩) owned (wanted | ⟨k'', s''⟩) excludes
            · have low : L.level wanted < L.top := L.below wanted
              cases s <;> first | exact low | exact low.trans (Nat.lt_succ_self _)
            · exact excludes.elim
            · exact excludes.elim
            · -- only who has announced itself takes another side, and keeps no writer waiting
              have some := (own i k' s').mp owned
              rw [alone] at some
              cases t <;> simp [Turn.takes, Turn.gives] at taken some
              obtain ⟨rfl, rfl⟩ := some
              subst taken
              cases s'' with
              | writes => exact absurd excludes.2 (by simp [Side.Excludes])
              | reads => exact Nat.lt_succ_self _
              | announced => exact Nat.lt_succ_self _

/-- Where the runs without latches take their locks in order, so do the runs with them. -/
theorem Run.latched_ordered {G : Nat → Result → Option (K × Side) → Prop}
    (lax : ∀ w e, S.Admits w e) (begins : ∀ i, S.start i = (F.start i).erase)
    (dropped : F.aborted = S.aborted) (crashes : F.Crashes → S.Crashes)
    (obeys : ∀ i, (F.start i).Obeys (latchDiscipline K L) (G i) none)
    (aborted : ∀ i, G i F.aborted none) (ended : ∀ i v h, G i v h → h = none)
    (calls : ∀ i, (w.calls i).Obeys (latchDiscipline K L) (G i) none)
    (free : w.shared.2 = fun _ => .free)
    (ordered : ∀ {τ w'}, Run S w.erase τ w' → L.Ordered w') {v : World (M.latched K) Result}
    {τ : List (Event (M.latched K))} (run : Run F w τ v) : (L.latched K).Ordered v := by
  have none_held : ∀ i k s, (w.shared.2 k).Owns i s ↔ (none : Option (K × Side)) = some (k, s) := by
    intro i k s
    rw [free]
    cases s <;> simp [Latch.Owns, Latch.free]
  obtain ⟨held, obeyed, own⟩ :=
    run.held (latches_kept L obeys aborted) ⟨fun _ => none, calls, none_held⟩
  exact Concurrent.latched_ordered obeyed own ended (ordered (run.erase lax begins dropped crashes))

end Runs

end Machines

end Concurrent
