import ImageSilo.Concurrent.Traces
import Mathlib.Data.Nat.Pairing

/-! A client follows a script of whole calls of a service and of atomic steps at its front; every run of
clients is a run of single calls. -/
namespace Concurrent

variable {Action : Type} {Response : Action → Type} {M : Machine Action Response}
  {Request Result Step Out : Type} {Reply : Step → Type}

/-- What a script asks for. -/
inductive Ask (Request Step : Type)
  | call (q : Request)
  | front (b : Step)

abbrev Ask.Answered (Result : Type) (Reply : Step → Type) : Ask Request Step → Type
  | .call _ => Result
  | .front b => Reply b

abbrev Script (Request Result Step : Type) (Reply : Step → Type) (Out : Type) :=
  Program (Ask Request Step) (Ask.Answered Result Reply) Out

/-- The calls that can be made, and the front with its atomic steps. -/
structure Service (M : Machine Action Response) (Request Result Step : Type) (Reply : Step → Type) where
  program : Request → Program Action Response Result
  aborted : Result
  Front : Type
  FrontChoice : Type
  act : (b : Step) → FrontChoice → M.Shared → Front → Option (Reply b × Front)
  /-- What a crash leaves of the front. -/
  reset : Front → Front
  Crashes : Prop
  Admits : M.Shared → Event M → Prop

/-- An ask of a script with its answer. -/
abbrev Service.Told (_ : Service M Request Result Step Reply) : Type :=
  Answer (@Ask.Answered Request Step Result Reply)

/-- The client goes on with its script, or is inside a call, or has been cut off by a crash. -/
inductive Stage (C : Service M Request Result Step Reply) (Out : Type)
  | ready (script : Script Request Result Step Reply Out)
  | calling (q : Request) (p : Program Action Response Result)
      (next : Result → Script Request Result Step Reply Out)
  | gone (last : Option Request)

/-- What a client has been answered so far, oldest first, and where it is. -/
structure Client (C : Service M Request Result Step Reply) (Out : Type) where
  answered : List C.Told
  stage : Stage C Out

structure Clients (C : Service M Request Result Step Reply) (Out : Type) where
  shared : M.Shared
  front : C.Front
  clients : Nat → Client C Out

variable {C : Service M Request Result Step Reply}

/-- The number of the caller that a client uses when it has got so many answers. -/
abbrev Client.caller (cl : Client C Out) (i : Nat) : Nat := Nat.pair i cl.answered.length

def Stage.request : Stage C Out → Option Request
  | .ready _ => none
  | .calling q _ _ => some q
  | .gone last => last

/-- The request that a client has made at a position, if it has made one there. -/
def Client.asked (cl : Client C Out) (n : Nat) : Option Request :=
  match cl.answered[n]? with
  | some ⟨.call q, _⟩ => some q
  | some ⟨.front _, _⟩ => none
  | none => if n = cl.answered.length then cl.stage.request else none

/-- What is left of the call at a position, if none is left to be made there. -/
def Client.program (cl : Client C Out) (n : Nat) (unmade : Program Action Response Result) :
    Program Action Response Result :=
  match cl.stage with
  | .gone _ => .done C.aborted
  | .ready _ =>
      match cl.answered[n]? with
      | some ⟨.call _, v⟩ => .done v
      | _ => unmade
  | .calling _ p _ =>
      match cl.answered[n]? with
      | some ⟨.call _, v⟩ => .done v
      | some ⟨.front _, _⟩ => unmade
      | none => if n = cl.answered.length then p else unmade

namespace Clients

def start (C : Service M Request Result Step Reply)
    (scripts : Nat → Script Request Result Step Reply Out) (σ : M.Shared) (front : C.Front) :
    Clients C Out :=
  ⟨σ, front, fun i => ⟨[], .ready (scripts i)⟩⟩

/-- One client has moved. -/
def move (W : Clients C Out) (σ : M.Shared) (front : C.Front) (i : Nat) (cl : Client C Out) :
    Clients C Out :=
  ⟨σ, front, Function.update W.clients i cl⟩

/-- The single calls that the clients have made, with the requests of those still to be made. -/
def world (W : Clients C Out) (requests : Nat → Request) : World M Result :=
  ⟨W.shared, fun k => (W.clients k.unpair.1).program k.unpair.2 (C.program (requests k))⟩

/-- The requests are those that the clients have made. -/
def Fits (W : Clients C Out) (requests : Nat → Request) : Prop :=
  ∀ i n, ∀ q ∈ (W.clients i).asked n, requests (Nat.pair i n) = q

/-- The requests that have been made, and the same one for all that are still to be made. -/
def requests (W : Clients C Out) (unmade : Request) (k : Nat) : Request :=
  ((W.clients k.unpair.1).asked k.unpair.2).getD unmade

end Clients

/-- A run of clients with the trace of the events of their calls. -/
inductive Session (scripts : Nat → Script Request Result Step Reply Out) (W : Clients C Out) :
    List (Event M) → Clients C Out → Prop
  | refl : Session scripts W [] W
  | ask {W₁ : Clients C Out} {τ : List (Event M)} {i : Nat}
      {answered : List C.Told} {q : Request}
      {next : Result → Script Request Result Step Reply Out} :
      Session scripts W τ W₁ → W₁.clients i = ⟨answered, .ready (.act (.call q) next)⟩ →
      Session scripts W τ (W₁.move W₁.shared W₁.front i ⟨answered, .calling q (C.program q) next⟩)
  | front {W₁ : Clients C Out} {τ : List (Event M)} {i : Nat}
      {answered : List C.Told} {b : Step}
      {next : Reply b → Script Request Result Step Reply Out} {c : C.FrontChoice} {r : Reply b}
      {front : C.Front} :
      Session scripts W τ W₁ → W₁.clients i = ⟨answered, .ready (.act (.front b) next)⟩ →
      C.act b c W₁.shared W₁.front = some (r, front) →
      Session scripts W τ
        (W₁.move W₁.shared front i ⟨answered ++ [⟨.front b, r⟩], .ready (next r)⟩)
  | call {W₁ : Clients C Out} {τ : List (Event M)} {i : Nat}
      {answered : List C.Told} {q : Request}
      {a : Action} {rest : Response a → Program Action Response Result}
      {next : Result → Script Request Result Step Reply Out} {c : M.Choice} {r : Response a}
      {σ : M.Shared} :
      Session scripts W τ W₁ → W₁.clients i = ⟨answered, .calling q (.act a rest) next⟩ →
      M.perform (Nat.pair i answered.length) a c W₁.shared = some (r, σ) →
      C.Admits W₁.shared ⟨Nat.pair i answered.length, a, c, r⟩ →
      Session scripts W (τ ++ [⟨Nat.pair i answered.length, a, c, r⟩])
        (W₁.move σ W₁.front i ⟨answered, .calling q (rest r) next⟩)
  | answer {W₁ : Clients C Out} {τ : List (Event M)} {i : Nat}
      {answered : List C.Told} {q : Request}
      {v : Result} {next : Result → Script Request Result Step Reply Out} :
      Session scripts W τ W₁ → W₁.clients i = ⟨answered, .calling q (.done v) next⟩ →
      Session scripts W τ (W₁.move W₁.shared W₁.front i ⟨answered ++ [⟨.call q, v⟩], .ready (next v)⟩)
  | environment {W₁ : Clients C Out} {τ : List (Event M)} {σ : M.Shared} :
      Session scripts W τ W₁ → M.environment W₁.shared σ → Session scripts W τ ⟨σ, W₁.front, W₁.clients⟩
  | crash {W₁ : Clients C Out} {τ : List (Event M)} {σ : M.Shared} {clients : Nat → Client C Out} :
      Session scripts W τ W₁ → C.Crashes → M.restart W₁.shared σ →
      (∀ i, clients i = ⟨(W₁.clients i).answered, .gone (W₁.clients i).stage.request⟩ ∨
        clients i = W₁.clients i ∧ W₁.clients i = ⟨[], .ready (scripts i)⟩) →
      Session scripts W τ ⟨σ, C.reset W₁.front, clients⟩

section Positions

variable {answered : List C.Told} {n : Nat} {q : Request} {v : Result} {b : Step} {r : Reply b}
  {script s : Script Request Result Step Reply Out} {unmade p : Program Action Response Result}
  {next : Result → Script Request Result Step Reply Out}

theorem told_snoc (answered : List C.Told) (x : C.Told) (n : Nat) :
    (answered ++ [x])[n]? = if n = answered.length then some x else answered[n]? := by
  split
  · rename_i same
    rw [same, List.getElem?_concat_length]
  · rename_i other
    rcases Nat.lt_or_gt_of_ne other with less | more
    · exact List.getElem?_append_left less
    · rw [List.getElem?_eq_none (by simp; omega), List.getElem?_eq_none (by omega)]

theorem program_calling : (⟨answered, .calling q p next⟩ : Client C Out).program n unmade =
    if n = answered.length then p
    else (⟨answered, .ready s⟩ : Client C Out).program n unmade := by
  unfold Client.program
  dsimp only
  by_cases same : n = answered.length
  · rw [if_pos same, if_pos same, same, List.getElem?_eq_none (Nat.le_refl _)]
  · rw [if_neg same, if_neg same]
    rcases answered[n]? with _ | ⟨ask, reply⟩
    · rfl
    · cases ask <;> rfl

/-- A call that has been answered is over, unless the client has been cut off. -/
theorem program_told {cl : Client C Out} (there : cl.answered[n]? = some ⟨.call q, v⟩)
    (present : ∀ last, cl.stage ≠ .gone last) : cl.program n unmade = .done v := by
  unfold Client.program
  split
  · exact absurd ‹_› (present _)
  · rw [there]
  · rw [there]

theorem asked_told {cl : Client C Out} (there : cl.answered[n]? = some ⟨.call q, v⟩) :
    cl.asked n = some q := by
  unfold Client.asked
  rw [there]

theorem program_front : (⟨answered ++ [⟨.front b, r⟩], .ready s⟩ : Client C Out).program n unmade =
    (⟨answered, .ready script⟩ : Client C Out).program n unmade := by
  unfold Client.program
  dsimp only
  rw [told_snoc]
  by_cases same : n = answered.length
  · rw [if_pos same, same, List.getElem?_eq_none (Nat.le_refl _)]
  · rw [if_neg same]

theorem program_answer : (⟨answered ++ [⟨.call q, v⟩], .ready script⟩ : Client C Out).program n unmade =
    (⟨answered, .calling q (.done v) next⟩ : Client C Out).program n unmade := by
  rw [program_calling (s := script)]
  unfold Client.program
  dsimp only
  rw [told_snoc]
  by_cases same : n = answered.length
  · rw [if_pos same, if_pos same]
  · rw [if_neg same, if_neg same]

theorem asked_calling : (⟨answered, .calling q p next⟩ : Client C Out).asked n =
    if n = answered.length then some q
    else (⟨answered, .ready s⟩ : Client C Out).asked n := by
  unfold Client.asked
  dsimp only
  by_cases same : n = answered.length
  · rw [if_pos same, if_pos same, same, List.getElem?_eq_none (Nat.le_refl _)]
    rfl
  · rw [if_neg same, if_neg same]
    rcases answered[n]? with _ | ⟨ask, reply⟩
    · exact (if_neg same).symm
    · cases ask <;> rfl

/-- A call that is begun takes nothing back. -/
theorem asked_begun {q' : Request} (asked : q' ∈ (⟨answered, .ready s⟩ : Client C Out).asked n) :
    q' ∈ (⟨answered, .calling q p next⟩ : Client C Out).asked n := by
  rw [asked_calling (s := s)]
  split
  · rename_i last
    unfold Client.asked at asked
    rw [last, List.getElem?_eq_none (Nat.le_refl _)] at asked
    exact absurd asked (by simp [Stage.request])
  · exact asked

theorem asked_front : (⟨answered ++ [⟨.front b, r⟩], .ready script⟩ : Client C Out).asked n =
    (⟨answered, .ready s⟩ : Client C Out).asked n := by
  unfold Client.asked
  dsimp only
  rw [told_snoc]
  by_cases same : n = answered.length
  · rw [if_pos same, same, List.getElem?_eq_none (Nat.le_refl _)]
    exact (ite_self _).symm
  · rw [if_neg same]
    rcases answered[n]? with _ | ⟨ask, reply⟩
    · exact (ite_self _).trans (ite_self _).symm
    · cases ask <;> rfl

theorem asked_answer : (⟨answered ++ [⟨.call q, v⟩], .ready script⟩ : Client C Out).asked n =
    (⟨answered, .calling q p next⟩ : Client C Out).asked n := by
  rw [asked_calling (s := script)]
  unfold Client.asked
  dsimp only
  rw [told_snoc]
  by_cases same : n = answered.length
  · rw [if_pos same, if_pos same]
  · rw [if_neg same, if_neg same]
    rcases answered[n]? with _ | ⟨ask, reply⟩
    · exact (ite_self _).trans (ite_self _).symm
    · cases ask <;> rfl

end Positions

section Refinement

variable {W W' : Clients C Out} {requests : Nat → Request}
  {scripts : Nat → Script Request Result Step Reply Out} {τ : List (Event M)}

/-- Single calls with these requests, under the conditions of the service. -/
def Service.setting (C : Service M Request Result Step Reply) (requests : Nat → Request) :
    Setting M Result where
  start k := C.program (requests k)
  aborted := C.aborted
  Crashes := C.Crashes
  Admits w e := C.Admits w.shared e

theorem move_self (W : Clients C Out) (σ : M.Shared) (front : C.Front) (i : Nat) (cl : Client C Out) :
    (W.move σ front i cl).clients i = cl := by
  simp [Clients.move]

theorem move_other (W : Clients C Out) (σ : M.Shared) (front : C.Front) {i j : Nat}
    (cl : Client C Out) (other : j ≠ i) : (W.move σ front i cl).clients j = W.clients j := by
  simp [Clients.move, other]

/-- A step of a client that makes no difference to its calls. -/
theorem world_idle {front : C.Front} {i : Nat} {cl : Client C Out}
    (same : ∀ n, cl.program n (C.program (requests (Nat.pair i n))) =
      (W.clients i).program n (C.program (requests (Nat.pair i n)))) :
    (W.move W.shared front i cl).world requests = W.world requests := by
  refine congrArg (World.mk W.shared) (funext fun k => ?_)
  by_cases self : k.unpair.1 = i
  · subst self
    rw [move_self]
    have here := same k.unpair.2
    rwa [Nat.pair_unpair] at here
  · rw [move_other _ _ _ _ self]

/-- A step of a call is one of the caller that the client uses. -/
theorem world_call {σ : M.Shared} {front : C.Front} {i : Nat} {answered : List C.Told} {q : Request}
    {p p' : Program Action Response Result}
    {next : Result → Script Request Result Step Reply Out}
    (same : W.clients i = ⟨answered, .calling q p next⟩) :
    (W.move σ front i ⟨answered, .calling q p' next⟩).world requests =
      (W.world requests).proceed (Nat.pair i answered.length) σ p' := by
  refine congrArg (World.mk σ) (funext fun k => ?_)
  by_cases mine : k = Nat.pair i answered.length
  · subst mine
    rw [Function.update_self, Nat.unpair_pair, move_self, program_calling (s := .act (.call q) next)]
    exact if_pos rfl
  · rw [Function.update_of_ne mine]
    by_cases self : k.unpair.1 = i
    · subst self
      have other : k.unpair.2 ≠ answered.length := by
        intro eq
        rw [← eq, Nat.pair_unpair] at mine
        exact mine rfl
      change _ = (W.clients k.unpair.1).program _ _
      rw [move_self, same, program_calling (s := .act (.call q) next), if_neg other,
        program_calling (s := .act (.call q) next), if_neg other]
    · rw [move_other _ _ _ _ self]
      rfl

theorem fits_move {σ : M.Shared} {front : C.Front} {i : Nat} {cl : Client C Out}
    (fits : (W.move σ front i cl).Fits requests)
    (kept : ∀ n, ∀ q ∈ (W.clients i).asked n, q ∈ cl.asked n) : W.Fits requests := by
  intro j n q asked
  by_cases self : j = i
  · subst self
    exact fits j n q (by rw [move_self]; exact kept n q asked)
  · exact fits j n q (by rw [move_other _ _ _ _ self]; exact asked)

theorem fits_requests (W : Clients C Out) (unmade : Request) : W.Fits (W.requests unmade) := by
  intro i n q asked
  unfold Clients.requests
  rw [Nat.unpair_pair, asked]
  rfl

theorem Session.trans {W₁ W₂ W₃ : Clients C Out} {τ' : List (Event M)}
    (first : Session scripts W₁ τ W₂) (second : Session scripts W₂ τ' W₃) :
    Session scripts W₁ (τ ++ τ') W₃ := by
  induction second with
  | refl => simpa using first
  | ask _ same ih => exact .ask ih same
  | front _ same stepped ih => exact .front ih same stepped
  | call _ same performed admitted ih =>
      rw [← List.append_assoc]
      exact .call ih same performed admitted
  | answer _ same ih => exact .answer ih same
  | environment _ moved ih => exact .environment ih moved
  | crash _ crashes crashed dropped ih => exact .crash ih crashes crashed dropped

/-- Every run of clients is a run of single calls, each by a caller of its own. -/
theorem Session.refines {σ : M.Shared} {front : C.Front}
    (session : Session scripts (Clients.start C scripts σ front) τ W) (fits : W.Fits requests) :
    Run (C.setting requests) ⟨σ, fun k => C.program (requests k)⟩ τ (W.world requests) := by
  induction session with
  | refl => exact .refl
  | @ask W₁ τ i answered q next _ same ih =>
      have before : W₁.Fits requests := by
        refine fits_move fits fun n q' asked => ?_
        rw [same] at asked
        exact asked_begun asked
      have begun : requests (Nat.pair i answered.length) = q := by
        refine fits i answered.length q ?_
        rw [move_self, asked_calling (s := .act (.call q) next), if_pos rfl]
        rfl
      rw [world_idle]
      · exact ih before
      · intro n
        rw [same, program_calling (s := .act (.call q) next)]
        split
        · rename_i last
          rw [last, begun]
          unfold Client.program
          rw [List.getElem?_eq_none (Nat.le_refl _)]
        · rfl
  | @front W₁ τ i answered b next c r f _ same _ ih =>
      rw [world_idle]
      · refine ih (fits_move fits fun n q asked => ?_)
        rw [asked_front (s := .act (.front b) next)]
        rwa [same] at asked
      · intro n
        rw [same]
        exact program_front
  | @call W₁ τ i answered q a rest next c r σ' _ same performed admitted ih =>
      have before : W₁.Fits requests := by
        refine fits_move fits fun n q' asked => ?_
        rw [asked_calling (s := .act (.call q) next)]
        rwa [same, asked_calling (s := .act (.call q) next)] at asked
      rw [world_call same]
      refine .call (ih before) ?_ performed admitted
      change (W₁.clients _).program _ _ = _
      rw [Nat.unpair_pair, same, program_calling (s := .act (.call q) next)]
      exact if_pos rfl
  | @answer W₁ τ i answered q v next _ same ih =>
      rw [world_idle]
      · refine ih (fits_move fits fun n q' asked => ?_)
        rw [same] at asked
        exact asked_answer.symm ▸ asked
      · intro n
        rw [same]
        exact program_answer
  | @environment W₁ τ σ' _ moved ih => exact .environment (ih fits) moved
  | @crash W₁ τ σ' clients _ crashes crashed dropped ih =>
      have before : W₁.Fits requests := by
        intro i n q asked
        refine fits i n q ?_
        change q ∈ (clients i).asked n
        rcases dropped i with gone | ⟨kept, -⟩
        · rw [gone]
          exact asked
        · rwa [kept]
      refine .crash (ih before) crashes crashed fun k => ?_
      rcases dropped k.unpair.1 with gone | ⟨kept, unbegun⟩
      · refine .inl ?_
        change (clients k.unpair.1).program _ _ = _
        rw [gone]
        rfl
      · refine .inr ⟨?_, ?_⟩
        · change (clients k.unpair.1).program _ _ = _
          rw [kept]
          rfl
        · change (W₁.clients k.unpair.1).program _ _ = _
          rw [unbegun]
          rfl

end Refinement

section Schedules

/-- The step of a client that its choices determine, with the event it adds to the trace. -/
def Clients.step (W : Clients C Out) (i : Nat) (c : M.Choice) (d : C.FrontChoice) :
    Option (List (Event M) × Clients C Out) :=
  match W.clients i with
  | ⟨answered, .ready (.act (.call q) next)⟩ =>
      some ([], W.move W.shared W.front i ⟨answered, .calling q (C.program q) next⟩)
  | ⟨answered, .ready (.act (.front b) next)⟩ =>
      (C.act b d W.shared W.front).map fun (r, front) =>
        ([], W.move W.shared front i ⟨answered ++ [⟨.front b, r⟩], .ready (next r)⟩)
  | ⟨answered, .calling q (.act a rest) next⟩ =>
      (M.perform (Nat.pair i answered.length) a c W.shared).map fun (r, σ) =>
        ([⟨Nat.pair i answered.length, a, c, r⟩], W.move σ W.front i ⟨answered, .calling q (rest r) next⟩)
  | ⟨answered, .calling q (.done v) next⟩ =>
      some ([], W.move W.shared W.front i ⟨answered ++ [⟨.call q, v⟩], .ready (next v)⟩)
  | _ => none

/-- A run of clients that a schedule determines. -/
def Clients.execute (W : Clients C Out) :
    List (Nat × M.Choice × C.FrontChoice) → Option (List (Event M) × Clients C Out)
  | [] => some ([], W)
  | (i, c, d) :: schedule =>
      (W.step i c d).bind fun (τ, W₁) => (W₁.execute schedule).map fun (τ', W₂) => (τ ++ τ', W₂)

theorem Session.of_step {scripts : Nat → Script Request Result Step Reply Out} {W W' : Clients C Out}
    {τ : List (Event M)} {i : Nat} {c : M.Choice} {d : C.FrontChoice}
    (admits : ∀ σ e, e.choice = c → C.Admits σ e) (stepped : W.step i c d = some (τ, W')) :
    Session scripts W τ W' := by
  unfold Clients.step at stepped
  split at stepped
  · rename_i answered q next same
    cases stepped
    exact .ask .refl same
  · rename_i answered b next same
    obtain ⟨⟨r, front⟩, done, eq⟩ := Option.map_eq_some_iff.mp stepped
    cases eq
    exact .front .refl same done
  · rename_i answered q a rest next same
    obtain ⟨⟨r, σ⟩, done, eq⟩ := Option.map_eq_some_iff.mp stepped
    cases eq
    exact .call .refl same done (admits _ _ rfl)
  · rename_i answered q v next same
    cases stepped
    exact .answer .refl same
  · cases stepped

theorem Session.of_execute {scripts : Nat → Script Request Result Step Reply Out}
    (schedule : List (Nat × M.Choice × C.FrontChoice))
    (admits : ∀ step ∈ schedule, ∀ σ e, e.choice = step.2.1 → C.Admits σ e) {W W' : Clients C Out}
    {τ : List (Event M)} (executed : W.execute schedule = some (τ, W')) : Session scripts W τ W' := by
  induction schedule generalizing W τ with
  | nil =>
      cases executed
      exact .refl
  | cons step schedule ih =>
      obtain ⟨i, c, d⟩ := step
      obtain ⟨⟨τ₁, W₁⟩, stepped, rest⟩ := Option.bind_eq_some_iff.mp executed
      obtain ⟨⟨τ₂, W₂⟩, later, eq⟩ := Option.map_eq_some_iff.mp rest
      cases eq
      exact (Session.of_step (admits _ List.mem_cons_self) stepped).trans
        (ih (fun step member => admits step (List.mem_cons_of_mem _ member)) later)

end Schedules

end Concurrent
