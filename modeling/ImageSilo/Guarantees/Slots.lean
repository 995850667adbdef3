import ImageSilo.Publication.Frames
import ImageSilo.System.Boot
import ImageSilo.System.Slots

/-! Uploads, imports and conversions share one gate, and no slot of it is lost or used twice. -/
namespace ImageSilo.Slots

open Go Concurrent Storage

/-- What shares the gate: the two handlers, the two services by themselves, and conversions. -/
inductive Work
  | uploadRequest (r : Uploads.MultipartRequest)
  | importRequest (r : Uploads.MultipartRequest)
  | upload (reader : Reader) (originalName : GoString) (options : UploadOptions) (now : Time)
  | importImage (reader : Reader) (originalName aliasPath : GoString) (options : ImportOptions)
      (now : Time)
  | convertToWebP (id : GoString) (options : Processor.Options)

inductive Outcome
  | answered (a : Uploads.Answer)
  | uploaded (r : Except Error Image)
  | imported (r : Except Error ImportResult)
  | converted (r : Except Error ConversionResult)
  | aborted

def concluding {α : Type} (p : Call α) (f : α → Outcome) : Call Outcome := do
  let value ← p
  pure (f value)

variable (P : Platform)

def Work.program : Work → Call Outcome
  | uploadRequest r => concluding (Uploads.upload P r) .answered
  | importRequest r => concluding (Uploads.create P r) .answered
  | upload reader originalName options now =>
      concluding (ImageSilo.upload P reader originalName options now) .uploaded
  | importImage reader originalName aliasPath options now =>
      concluding (ImageSilo.importImage P reader originalName aliasPath options now) .imported
  | convertToWebP id options => concluding (ImageSilo.convertToWebP P id options) .converted

/-- `NewGate`. -/
def newGate (concurrency : Int) : Gate := ⟨if concurrency < 1 then 1 else concurrency.toNat, 0, ∅⟩

def sharing (works : Nat → Work) : Setting (machine P) Outcome where
  start i := (works i).program P
  aborted := .aborted
  Crashes := False
  Admits _ _ := True

variable {P}

theorem program_obeys (work : Work) : (work.program P).Obeys slots Free .none := by
  have concludes : ∀ {α : Type} {p : Call α} {f : α → Outcome},
      p.Obeys slots Free .none → (concluding p f).Obeys slots Free .none := by
    intro α p f obeys
    refine obeys.bind ?_
    intro v h free
    exact free
  cases work with
  | uploadRequest r => exact concludes (uploadRequest_obeys r)
  | importRequest r => exact concludes (importRequest_obeys r)
  | upload reader name options now => exact concludes upload_obeys
  | importImage reader name path options now => exact concludes importImage_obeys
  | convertToWebP id options => exact concludes convertToWebP_obeys

section Traces

/-- The step of the gate that an action is, with its answer. -/
def gateAnswer : (a : Action) → Response a → Option (GateAction × Bool)
  | .gate g, answer => some (g, answer)
  | _, _ => none

/-- A slot is taken. -/
def takes (e : Event (machine P)) : Bool :=
  match gateAnswer e.action e.response with
  | some (.tryAcquireLease, true) => true
  | some (.tryAcquire, true) => true
  | _ => false

/-- A slot is given back; the release of an inactive lease gives none. -/
def gives (e : Event (machine P)) : Bool :=
  match gateAnswer e.action e.response with
  | some (.releaseLease, true) => true
  | some (.release, _) => true
  | _ => false

def taken (i : Nat) (τ : List (Event (machine P))) : Nat :=
  τ.countP fun e => e.call == i && takes e

def given (i : Nat) (τ : List (Event (machine P))) : Nat :=
  τ.countP fun e => e.call == i && gives e

def converts (running : Finset Nat) (e : Event (machine P)) : Finset Nat :=
  match gateAnswer e.action e.response with
  | some (.tryAcquire, true) => insert e.call running
  | some (.release, _) => running.erase e.call
  | _ => running

/-- The calls whose conversion runs after these events. -/
def conversions (τ : List (Event (machine P))) : Finset Nat := τ.foldl converts ∅

theorem conversions_snoc (τ : List (Event (machine P))) (e : Event (machine P)) :
    conversions (τ ++ [e]) = converts (conversions τ) e := by
  unfold conversions
  rw [List.foldl_append]
  rfl

theorem taken_snoc (i : Nat) (τ : List (Event (machine P))) (e : Event (machine P)) :
    taken i (τ ++ [e]) = taken i τ + if e.call == i && takes e then 1 else 0 := by
  unfold taken
  rw [List.countP_append, List.countP_singleton]

theorem given_snoc (i : Nat) (τ : List (Event (machine P))) (e : Event (machine P)) :
    given i (τ ++ [e]) = given i τ + if e.call == i && gives e then 1 else 0 := by
  unfold given
  rw [List.countP_append, List.countP_singleton]

end Traces

/-- The slots in use are those that the calls hold. -/
structure Balanced (limit : Nat) (τ : List (Event (machine P))) (g : Gate) (hs : Nat → Hold) :
    Prop where
  leases : ∀ i, i ∈ g.leases ↔ hs i = .lease
  running : ∀ i, i ∈ conversions τ ↔ hs i = .conversion
  occupied : g.occupied = g.leases.card + (conversions τ).card
  capacity : g.capacity = limit
  bounded : g.occupied ≤ limit
  counted : ∀ i, taken i τ = given i τ + if hs i = .none then 0 else 1

section Steps

variable {limit : Nat} {τ : List (Event (machine P))} {g : Gate} {hs : Nat → Hold} {i : Nat}
  {c : Choice}

theorem Balanced.begin (concurrency : Int) :
    Balanced (newGate concurrency).capacity ([] : List (Event (machine P))) (newGate concurrency)
      fun _ => .none := by
  constructor
  · intro i
    exact ⟨fun member => absurd member (Finset.notMem_empty i), fun same => by cases same⟩
  · intro i
    exact ⟨fun member => absurd member (Finset.notMem_empty i), fun same => by cases same⟩
  · rfl
  · rfl
  · exact Nat.zero_le _
  · intro i
    rfl

/-- The count of one call after an event, when the event takes or gives what its call gains or loses. -/
theorem counted_update {e : Event (machine P)} {h : Hold}
    (counted : ∀ j, taken j τ = given j τ + if hs j = .none then 0 else 1)
    (fair : (if takes e then 1 else 0) + (if hs e.call = .none then 0 else 1) =
      (if gives e then 1 else 0) + if h = .none then 0 else 1) (j : Nat) :
    taken j (τ ++ [e]) = given j (τ ++ [e]) +
      if Function.update hs e.call h j = .none then 0 else 1 := by
  have here := counted j
  rw [taken_snoc, given_snoc]
  by_cases self : e.call = j
  · subst self
    rw [Function.update_self, beq_self_eq_true, Bool.true_and, Bool.true_and]
    omega
  · rw [Function.update_of_ne (Ne.symm self), beq_false_of_ne self, Bool.false_and]
    exact here

theorem mem_update {s : Finset Nat} {wanted : Hold} (known : ∀ j, j ∈ s ↔ hs j = wanted)
    {s' : Finset Nat} {h : Hold} (self : i ∈ s' ↔ h = wanted) (others : ∀ j, j ≠ i → (j ∈ s' ↔ j ∈ s))
    (j : Nat) : j ∈ s' ↔ Function.update hs i h j = wanted := by
  by_cases same : j = i
  · subst same
    rw [Function.update_self]
    exact self
  · rw [Function.update_of_ne same, others j same]
    exact known j

/-- An event that takes nothing and gives nothing. -/
theorem Balanced.silent (balanced : Balanced limit τ g hs) {e : Event (machine P)} {h : Hold}
    (same : h = hs e.call) (still : converts (conversions τ) e = conversions τ)
    (takesNone : takes e = false) (givesNone : gives e = false) :
    Balanced limit (τ ++ [e]) g (Function.update hs e.call h) := by
  have counted := counted_update (h := h) balanced.counted
    (e := e) (by rw [takesNone, givesNone, same])
  rw [same, Function.update_eq_self] at counted ⊢
  constructor
  · exact balanced.leases
  · rw [conversions_snoc, still]
    exact balanced.running
  · rw [conversions_snoc, still]
    exact balanced.occupied
  · exact balanced.capacity
  · exact balanced.bounded
  · exact counted

/-- An action that is none of the gate changes nothing that counts. -/
theorem Balanced.other (balanced : Balanced limit τ g hs) {a : Action} {r : Response a}
    (other : ∀ step, a ≠ .gate step) :
    Balanced limit (τ ++ [(⟨i, a, c, r⟩ : Event (machine P))]) g
      (Function.update hs i ((hs i).record a r)) := by
  cases a with
  | gate step => exact absurd rfl (other step)
  | _ => exact balanced.silent (e := ⟨i, _, c, r⟩) rfl rfl rfl rfl

theorem Balanced.takeLease (balanced : Balanced limit τ g hs) (free : hs i = .none)
    (room : g.occupied < g.capacity) :
    Balanced limit (τ ++ [(⟨i, .gate .tryAcquireLease, c, true⟩ : Event (machine P))])
      { g with occupied := g.occupied + 1, leases := insert i g.leases }
      (Function.update hs i .lease) := by
  have fresh : i ∉ g.leases := by
    rw [balanced.leases, free]
    exact Hold.noConfusion
  have still : conversions (τ ++ [(⟨i, .gate .tryAcquireLease, c, true⟩ : Event (machine P))]) =
      conversions τ := conversions_snoc _ _
  have occupied := balanced.occupied
  have capacity := balanced.capacity
  constructor
  · refine mem_update balanced.leases (by simp) ?_
    intro j differs
    simp [differs]
  · rw [still]
    refine mem_update balanced.running ?_ fun _ _ => Iff.rfl
    rw [balanced.running, free]
    exact ⟨Hold.noConfusion, Hold.noConfusion⟩
  · rw [still, Finset.card_insert_of_notMem fresh]
    change g.occupied + 1 = _
    omega
  · exact capacity
  · change g.occupied + 1 ≤ limit
    omega
  · exact counted_update (e := ⟨i, .gate .tryAcquireLease, c, true⟩) balanced.counted
      (by rw [free]; rfl)

theorem Balanced.giveLease (balanced : Balanced limit τ g hs) (leased : i ∈ g.leases) :
    Balanced limit (τ ++ [(⟨i, .gate .releaseLease, c, true⟩ : Event (machine P))])
      { g with occupied := g.occupied - 1, leases := g.leases.erase i }
      (Function.update hs i .none) := by
  have held := (balanced.leases i).mp leased
  have still : conversions (τ ++ [(⟨i, .gate .releaseLease, c, true⟩ : Event (machine P))]) =
      conversions τ := conversions_snoc _ _
  have occupied := balanced.occupied
  have bounded := balanced.bounded
  have some : 0 < g.leases.card := Finset.card_pos.mpr ⟨i, leased⟩
  constructor
  · refine mem_update balanced.leases (by simp) ?_
    intro j differs
    simp [differs]
  · rw [still]
    refine mem_update balanced.running ?_ fun _ _ => Iff.rfl
    rw [balanced.running, held]
    exact ⟨Hold.noConfusion, Hold.noConfusion⟩
  · rw [still, Finset.card_erase_of_mem leased]
    change g.occupied - 1 = _
    omega
  · exact balanced.capacity
  · change g.occupied - 1 ≤ limit
    omega
  · exact counted_update (e := ⟨i, .gate .releaseLease, c, true⟩) balanced.counted
      (by rw [held]; rfl)

theorem Balanced.take (balanced : Balanced limit τ g hs) (free : hs i = .none)
    (room : g.occupied < g.capacity) :
    Balanced limit (τ ++ [(⟨i, .gate .tryAcquire, c, true⟩ : Event (machine P))])
      { g with occupied := g.occupied + 1 } (Function.update hs i .conversion) := by
  have fresh : i ∉ conversions τ := by
    rw [balanced.running, free]
    exact Hold.noConfusion
  have more : conversions (τ ++ [(⟨i, .gate .tryAcquire, c, true⟩ : Event (machine P))]) =
      insert i (conversions τ) := conversions_snoc _ _
  have occupied := balanced.occupied
  have capacity := balanced.capacity
  constructor
  · refine mem_update balanced.leases ?_ fun _ _ => Iff.rfl
    rw [balanced.leases, free]
    exact ⟨Hold.noConfusion, Hold.noConfusion⟩
  · rw [more]
    refine mem_update balanced.running (by simp) ?_
    intro j differs
    simp [differs]
  · rw [more, Finset.card_insert_of_notMem fresh]
    change g.occupied + 1 = g.leases.card + _
    omega
  · exact capacity
  · change g.occupied + 1 ≤ limit
    omega
  · exact counted_update (e := ⟨i, .gate .tryAcquire, c, true⟩) balanced.counted
      (by rw [free]; rfl)

theorem Balanced.give (balanced : Balanced limit τ g hs) (held : hs i = .conversion) :
    Balanced limit (τ ++ [(⟨i, .gate .release, c, true⟩ : Event (machine P))])
      { g with occupied := g.occupied - 1 } (Function.update hs i .none) := by
  have inside := (balanced.running i).mpr held
  have less : conversions (τ ++ [(⟨i, .gate .release, c, true⟩ : Event (machine P))]) =
      (conversions τ).erase i := conversions_snoc _ _
  have occupied := balanced.occupied
  have bounded := balanced.bounded
  have some : 0 < (conversions τ).card := Finset.card_pos.mpr ⟨i, inside⟩
  constructor
  · refine mem_update balanced.leases ?_ fun _ _ => Iff.rfl
    rw [balanced.leases, held]
    exact ⟨Hold.noConfusion, Hold.noConfusion⟩
  · rw [less]
    refine mem_update balanced.running (by simp) ?_
    intro j differs
    simp [differs]
  · rw [less, Finset.card_erase_of_mem inside]
    change g.occupied - 1 = g.leases.card + _
    omega
  · exact balanced.capacity
  · change g.occupied - 1 ≤ limit
    omega
  · exact counted_update (e := ⟨i, .gate .release, c, true⟩) balanced.counted
      (by rw [held]; rfl)

/-- A step of the gate takes or gives the slot of its call and nobody else's. -/
theorem Balanced.gate (balanced : Balanced limit τ g hs) {step : GateAction}
    (permitted : Permits (hs i) (.gate step)) :
    Balanced limit (τ ++ [(⟨i, .gate step, c, (g.perform i step).1⟩ : Event (machine P))])
      (g.perform i step).2 (Function.update hs i ((hs i).record (.gate step) (g.perform i step).1)) := by
  cases step with
  | tryAcquireLease =>
      by_cases room : g.occupied < g.capacity
      · simp only [Gate.perform, if_pos room]
        exact balanced.takeLease permitted room
      · simp only [Gate.perform, if_neg room]
        exact balanced.silent (e := ⟨i, .gate .tryAcquireLease, c, false⟩) rfl rfl rfl rfl
  | releaseLease =>
      by_cases leased : i ∈ g.leases
      · simp only [Gate.perform, if_pos leased]
        exact balanced.giveLease leased
      · simp only [Gate.perform, if_neg leased]
        refine balanced.silent (e := ⟨i, .gate .releaseLease, c, false⟩) ?_ rfl rfl rfl
        rw [balanced.leases] at leased
        cases held : hs i with
        | none => rfl
        | lease => exact absurd held leased
        | conversion => exact absurd held permitted
  | leaseActive =>
      cases active : decide (i ∈ g.leases) with
      | true =>
          simp only [Gate.perform, active]
          exact balanced.silent (e := ⟨i, .gate .leaseActive, c, true⟩) rfl rfl rfl rfl
      | false =>
          simp only [Gate.perform, active]
          exact balanced.silent (e := ⟨i, .gate .leaseActive, c, false⟩) rfl rfl rfl rfl
  | tryAcquire =>
      by_cases room : g.occupied < g.capacity
      · simp only [Gate.perform, if_pos room]
        exact balanced.take permitted room
      · simp only [Gate.perform, if_neg room]
        exact balanced.silent (e := ⟨i, .gate .tryAcquire, c, false⟩) rfl rfl rfl rfl
  | release => exact balanced.give permitted

end Steps

section Runs

variable {works : Nat → Work} {limit : Nat}

theorem gate_kept {σ σ' : State} {i : Nat} {a : Action} {c : Choice} {r : Response a}
    (other : ∀ step, a ≠ .gate step) (performed : σ.perform P i a c = some (r, σ')) :
    σ'.gate = σ.gate := by
  cases a with
  | gate step => exact absurd rfl (other step)
  | sync s =>
      obtain ⟨locks, -, rfl⟩ := Publication.sync_state performed
      rfl
  | statement q =>
      obtain ⟨db, rfl⟩ := Publication.statement_state performed
      rfl
  | file b =>
      obtain ⟨files, -, rfl⟩ := Publication.file_state performed
      rfl
  | newUUID =>
      rcases Publication.fresh_state performed with ⟨-, rfl⟩ | ⟨text, -, -, -, rfl⟩
      · rfl
      · rfl
  | newToken start =>
      rcases Publication.fresh_state performed with ⟨-, rfl⟩ | ⟨text, -, -, -, rfl⟩
      · rfl
      · rfl
  | hashPassword password => cases c <;> cases performed <;> rfl
  | _ =>
      cases performed
      rfl

def slotWatch : Watch (machine P) Outcome where
  discipline := slots
  begin _ := .none
  Final _ := Free

theorem keeps_balance :
    slotWatch.Keeps (sharing P works) fun τ σ hs => Balanced limit τ σ.gate hs where
  call := by
    intro τ w hs i a next c r σ obeyed balanced same permitted performed admitted
    refine ⟨trivial, ?_⟩
    by_cases gated : ∃ step, a = .gate step
    · obtain ⟨step, rfl⟩ := gated
      obtain ⟨rfl, rfl⟩ : (w.shared.gate.perform i step).1 = r ∧
          { w.shared with gate := (w.shared.gate.perform i step).2 } = σ := by
        simpa [State.perform] using performed
      exact balanced.gate permitted
    · have other : ∀ step, a ≠ .gate step := fun step same => gated ⟨step, same⟩
      rw [gate_kept other performed]
      exact balanced.other other
  environment := by
    rintro τ σ hs σ' balanced ⟨t, -, rfl⟩
    exact balanced
  crash crashes := crashes.elim

/-- The call has a slot, as a lease or for its conversion. -/
def Holds (τ : List (Event (machine P))) (σ : State) (i : Nat) : Prop :=
  i ∈ σ.gate.leases ∨ i ∈ conversions τ

/-- What is true of the gate after any run. -/
structure Conserved (limit : Nat) (τ : List (Event (machine P))) (w : World (machine P) Outcome) :
    Prop where
  occupied : w.shared.gate.occupied = w.shared.gate.leases.card + (conversions τ).card
  bounded : w.shared.gate.occupied ≤ limit
  /-- A call that holds a slot has taken one more than it has given back, and any other call has given
  back all that it has taken. -/
  once : ∀ i, (Holds τ w.shared i → taken i τ = given i τ + 1) ∧
    (¬ Holds τ w.shared i → taken i τ = given i τ)
  ended : ∀ i v, w.calls i = .done v → ¬ Holds τ w.shared i
  /-- The slot that a release takes out of the channel is there, and it is the caller's own. -/
  released : ∀ i next, w.calls i = .act (.gate .release) next →
    i ∈ conversions τ ∧ 0 < w.shared.gate.occupied
  leaseReleased : ∀ i next, w.calls i = .act (.gate .releaseLease) next →
    i ∈ w.shared.gate.leases → 0 < w.shared.gate.occupied
  processed : ∀ i a next, w.calls i = .act a next → processes a = true → Holds τ w.shared i

theorem Balanced.conserved {τ : List (Event (machine P))} {w : World (machine P) Outcome}
    {hs : Nat → Hold} (balanced : Balanced limit τ w.shared.gate hs) (obeyed : slotWatch.Obeyed w hs) :
    Conserved limit τ w := by
  have holds : ∀ i, Holds τ w.shared i ↔ hs i ≠ .none := by
    intro i
    unfold Holds
    rw [balanced.leases, balanced.running]
    cases hs i with
    | none =>
        refine ⟨?_, fun some => absurd rfl some⟩
        rintro (leased | converting)
        · cases leased
        · cases converting
    | lease => exact ⟨fun _ => Hold.noConfusion, fun _ => .inl rfl⟩
    | conversion => exact ⟨fun _ => Hold.noConfusion, fun _ => .inr rfl⟩
  have permitted : ∀ i a next, w.calls i = .act a next → Permits (hs i) a := by
    intro i a next same
    have here := obeyed i
    rw [same] at here
    exact here.1
  have occupied := balanced.occupied
  constructor
  · exact occupied
  · exact balanced.bounded
  · intro i
    have counted := balanced.counted i
    rw [holds]
    constructor
    · intro some
      rw [if_neg some] at counted
      exact counted
    · intro none
      rw [if_pos (not_not.mp none)] at counted
      exact counted
  · intro i v same
    have here := obeyed i
    rw [same] at here
    rw [holds]
    exact fun some => some here
  · intro i next same
    have inside := (balanced.running i).mpr (permitted i _ next same)
    refine ⟨inside, ?_⟩
    have := Finset.card_pos.mpr ⟨i, inside⟩
    omega
  · intro i next same leased
    have := Finset.card_pos.mpr ⟨i, leased⟩
    omega
  · intro i a next same work
    rw [holds]
    exact processes_held (permitted i a next same) work

/-- Slots are conserved, whoever shares the gate and in whatever order they go. -/
theorem slots_conserved (P : Platform) (works : Nat → Work) (concurrency : Int) (σ : State)
    (started : σ.gate = newGate concurrency) {τ : List (Event (machine P))}
    {w : World (machine P) Outcome}
    (run : Run (sharing P works) ⟨σ, fun i => (works i).program P⟩ τ w) :
    Conserved (newGate concurrency).capacity τ w := by
  have begins : slotWatch.Held
      (fun τ σ hs => Balanced (newGate concurrency).capacity τ σ.gate hs) ([] : List (Event (machine P)))
      ⟨σ, fun i => (works i).program P⟩ := by
    refine ⟨fun _ => .none, fun i => program_obeys (works i), ?_⟩
    change Balanced _ _ σ.gate _
    rw [started]
    exact Balanced.begin concurrency
  obtain ⟨hs, obeyed, balanced⟩ := run.held keeps_balance begins
  exact balanced.conserved obeyed

end Runs

section Sample

def sampleWork : Work := .upload ⟨[0], false⟩ [] ⟨.isPublic, str "admin", none, ⟨0, 0⟩,
  ⟨false, 80, 80, 6, false, 80, false⟩⟩ 0

/-- A gate with one slot. -/
def narrowState : State :=
  { State.booted (Database.single (sampleImage [0] (str "image/png") .isPublic) [] (by decide +kernel)
      List.nodup_nil List.nodup_nil (by simp)) (Files.single (str "a") [0]) 0 with gate := newGate 1 }

/-- The first call takes the slot, and the second finds none. -/
theorem slots_conserved_sample : ∃ τ w,
    Run (sharing samplePlatform fun _ => sampleWork)
      ⟨narrowState, fun _ => sampleWork.program samplePlatform⟩ τ w ∧ taken 0 τ = 1 ∧ taken 1 τ = 0 ∧
        Conserved 1 τ w := by
  obtain ⟨τ, w, executed, first, second⟩ : ∃ τ w,
      (World.mk (M := machine samplePlatform) narrowState
        fun _ => sampleWork.program samplePlatform).execute [(0, .normal), (1, .normal)] =
          some (τ, w) ∧ taken 0 τ = 1 ∧ taken 1 τ = 0 := ⟨_, _, rfl, rfl, rfl⟩
  have run : Run (sharing samplePlatform fun _ => sampleWork)
      ⟨narrowState, fun _ => sampleWork.program samplePlatform⟩ τ w :=
    Run.of_execute _ (fun _ _ _ _ _ => trivial) executed
  exact ⟨τ, w, run, first, second,
    slots_conserved samplePlatform (fun _ => sampleWork) 1 narrowState rfl run⟩

end Sample

end ImageSilo.Slots
