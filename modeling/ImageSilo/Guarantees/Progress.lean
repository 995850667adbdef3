import ImageSilo.Accounts.Climbing
import ImageSilo.Guarantees.Revocation
import ImageSilo.System.Latches

/-! Behind each call that waits at a keyed lock, at the barrier or at a mutex of the indexes, the accounts
or the tokens there is one that can go on. -/
namespace ImageSilo

open Go Concurrent Publication Accounts

variable (P : Platform)

instance : Nonempty (machine P).Choice := ⟨.normal⟩

/-- The system with the mutexes inside its atomic steps. -/
abbrev fineMachine : Machine (Fine Action Mutex) (Fine.Reply Response) := (machine P).latched Mutex

abbrev fineLocking : Locking (fineMachine P) := (locking P).latched Mutex

def fineProgram (request : Request) : Program (Fine Action Mutex) (Fine.Reply Response) Result :=
  (request.program P).interpret around

/-- Every caller about to make its request, and all mutexes free. -/
def startFine (requests : Nat → Request) (σ : State) : World (fineMachine P) Result :=
  ⟨(σ, fun _ => .free), fun i => fineProgram P (requests i)⟩

/-- The calls make their requests; anything may fail at any time. -/
def servingFine (requests : Nat → Request) (crashes : Prop) : Setting (fineMachine P) Result where
  start i := fineProgram P (requests i)
  aborted := .aborted
  Crashes := crashes
  Admits _ _ := True

variable {P} {requests : Nat → Request} {σ : State} {w : World (fineMachine P) Result}
  {τ : List (Event (fineMachine P))}

theorem erase_fineProgram (request : Request) :
    (fineProgram P request).erase = request.program P :=
  Program.erase_interpret erase_around (request.program P)

theorem fineProgram_bracketed (request : Request) :
    Bracketed P (fineProgram P request) none fun _ h => h = none := by
  refine Program.Obeys.interpret (D := latchDiscipline Mutex (locking P)) (fun h => h = none) ?_
    (request.program P) rfl
  rintro a _ rfl
  exact around_bracketed a

/-- In every state of every run each call takes its locks and mutexes in order. -/
theorem fine_ordered (registered : Registered σ) (free : σ.locks = .free)
    (run : Run (servingFine P requests True) (startFine P requests σ) τ w) :
    (fineLocking P).Ordered w := by
  have begins : ∀ i, (anything P requests).start i =
      ((servingFine P requests True).start i).erase :=
    fun i => (erase_fineProgram (requests i)).symm
  refine run.latched_ordered (S := anything P requests) (G := fun _ _ h => h = none)
    (fun _ _ => trivial) begins rfl (fun _ => trivial) (fun i => fineProgram_bracketed (requests i))
    (fun _ => rfl) (fun _ _ _ none => none) (fun i => fineProgram_bracketed (requests i)) rfl ?_
  intro τ w' coarse
  have begun : (startFine P requests σ).erase = start P requests σ := by
    unfold World.erase startFine start
    congr 1
    funext i
    exact erase_fineProgram (requests i)
  rw [begun] at coarse
  exact locks_ordered ⟨rfl, rfl⟩ registered free coarse

/-- Behind every blocked call there is one that can go on; and a scheduler that lets one of finitely many
calls go on as long as it can brings all of them to the end. -/
theorem deadlock_free (requests : Nat → Request) (registered : Registered σ) (free : σ.locks = .free)
    (run : Run (servingFine P requests True) (startFine P requests σ) τ w) :
    (∀ i, w.Blocked i → ∃ j, Relation.TransGen ((fineLocking P).Waits w) i j ∧ w.Able j) ∧
    ∀ (group : Finset Nat) (worlds : Nat → World (fineMachine P) Result)
      (traces : Nat → List (Event (fineMachine P))), (∀ e ∈ τ, e.call ∈ group) → worlds 0 = w →
      (∀ n, Run (servingFine P requests False) (worlds n) (traces n) (worlds (n + 1))) →
      (∀ n, ∀ e ∈ traces n, e.call ∈ group) →
      (∀ n, (∃ i ∈ group, (worlds n).Able i) → traces n ≠ []) →
      ∃ n, ∀ i ∈ group, ∃ v, (worlds n).calls i = .done v := by
  refine ⟨fun i blocked => (fine_ordered registered free run).progress blocked, ?_⟩
  intro group worlds traces inside first runs within busy
  refine Locking.schedule_ends (L := fineLocking P) (fun crashed => crashed) ?_ ?_ first runs within busy
  · intro τ' w' later
    have relaxed : Run (servingFine P requests True) w τ' w' :=
      later.relax rfl rfl (fun _ => trivial) fun _ _ _ => trivial
    exact fine_ordered registered free (run.trans relaxed)
  · refine Locking.owners run inside ?_
    rintro j (k | ⟨m, s⟩) own
    · have none : ¬ Locks.free.Owns j k := by cases k <;> simp [Locks.Owns, Locks.free]
      exact absurd (free ▸ own) none
    · have none : ¬ Latch.free.Owns j s := by cases s <;> simp [Latch.Owns, Latch.free]
      exact absurd own none

/-- Two calls that load the tokens: the second waits for the first. -/
theorem deadlock_free_sample : ∃ w : World (fineMachine samplePlatform) Result,
    w.Blocked 1 ∧ ∃ j, Relation.TransGen ((fineLocking samplePlatform).Waits w) 1 j ∧ w.Able j := by
  obtain ⟨τ, w, run, blocked⟩ : ∃ τ w, Run (servingFine samplePlatform (fun _ => .loadTokens 0) True)
      (startFine samplePlatform (fun _ => .loadTokens 0) tokenState) τ w ∧ w.Blocked 1 := by
    refine ⟨_, _, .of_execute [(0, Choice.normal)] (fun _ _ _ _ _ => trivial) rfl, ?_⟩
    exact World.blocked_of_perform rfl fun _ => rfl
  exact ⟨w, blocked, (deadlock_free _ tokenState_registered rfl run).1 1 blocked⟩

end ImageSilo
