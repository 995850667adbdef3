import ImageSilo.Accounts.Sessions
import ImageSilo.Guarantees.PasswordChange

/-! Whenever no call is between its database step and its step of the session index, index and table hold
the same sessions. -/
namespace ImageSilo.Accounts

open Go Concurrent Tables Publication

variable {P : Platform} {requests : Nat → Request} {σ : State} {ks : Nat → Docket}
  {τ : List (Event (machine P))} {t₀ : Time} {w : World (machine P) Result}

/-- No call is between its database step and its step of the session index; one that has loaded a map
may be. -/
def SessionsQuiet (w : World (machine P) Result) : Prop :=
  ∀ i s next, w.calls i = .act (.sessionStep s) next → ∃ m, s = .replace m

/-- The entries and the joined rows that have not expired at this time are the same. -/
def Agree (σ : State) (t : Time) : Prop :=
  ∀ hash entry,
    (∃ identity, σ.sessions.lookup hash = some identity ∧ unix t < unix identity.expiresAt ∧
        inSeconds identity = entry) ↔
      ∃ identity, (hash, identity) ∈ σ.database.activeSessions t ∧ inSeconds identity = entry

/-- From a freshly loaded index on, the session index agrees with the table in every quiet state and at
every time not before those at which sessions were let expire, in every run in which no logout deletes a
session between the two steps of its login and no login inserts one between the two steps of a logout. -/
theorem sessions_agree (registered : Registered σ) (free : σ.locks = .free)
    (loaded : σ.sessions = mapOf (σ.database.activeSessions t₀))
    (run : Run (serving P requests False Spaced) (start P requests σ) τ w) (quiet : SessionsQuiet w)
    {t : Time} (latest : ∀ u, Used t₀ τ u → u ≤ t) : Agree w.shared t := by
  obtain ⟨ls, ks, obeyed, -, filed, sessions⟩ :=
    docketed serving_serves id sessions_kept registered free (.begin loaded) run
  refine fun hash => sessions.balanced.agree ?_ latest
  rintro step ⟨j, owed⟩
  obtain ⟨next, program⟩ := owing_step obeyed (filed.orderly j) owed
  obtain ⟨m, rfl⟩ := quiet j step next program
  exact (filed.orderly j).backed _ owed

/-- Only this call is not over. -/
def Only (i : Nat) (w : World (machine P) Result) : Prop := ∀ j, j ≠ i → ∃ v, w.calls j = .done v

theorem Only.spaced {i : Nat} {w w' : World (machine P) Result} {e : Event (machine P)}
    (only : Only i w) (own : e.call = i) (stepped : w.step e.call e.choice = some (e, w')) :
    Spaced w e ∧ Only i w' := by
  obtain ⟨a, r, next, σ, same, rfl, program, -⟩ := World.step_some stepped
  have acting {j : Nat} {a' : Action} {next' : Response a' → Call Result}
      (there : w.calls j = .act a' next') : a' = e.action := by
    by_cases self : j = i
    · rw [self, ← own, program] at there
      cases there
      rw [same]
    · obtain ⟨v, done⟩ := only j self
      rw [done] at there
      cases there
  refine ⟨⟨?_, ?_⟩, ?_⟩
  · intro s about j next' there
    have eq := acting there
    rw [about] at eq
    cases eq
  · intro hash about j identity next' there
    have eq := acting there
    rw [about] at eq
    cases eq
  · intro j other
    rw [World.proceed_other _ _ _ (own ▸ other)]
    exact only j other

/-- No step has let sessions expire since the index was loaded. -/
theorem latest_of_untimed {n : Nat} (times : τ.map sessionTime = List.replicate n none) :
    ∀ u, Used t₀ τ u → u ≤ t₀ := by
  rintro u (rfl | ⟨e, member, timed⟩)
  · exact le_rfl
  · have listed := List.mem_map_of_mem (f := sessionTime) member
    rw [times, timed, List.mem_replicate] at listed
    cases listed.2

/-- Logins and logouts keep apart, and a statement that reports an error has had no effect. -/
abbrev orderly (P : Platform) (requests : Nat → Request) : Setting (machine P) Result :=
  serving P requests False fun w e => Spaced w e ∧ Plain e

/-- Calls that are made one after the other. -/
def inTurn (P : Platform) (requests : Nat → Request) : Setting (machine P) Result :=
  serving P requests False fun w e => Plain e ∧ ∀ j, j ≠ e.call →
    (∃ v, w.calls j = .done v) ∨ w.calls j = (requests j).program P

/-- No request begins with a step of the session index. -/
theorem program_begins (request : Request) (s : Auth.SessionStep) (next : Unit → Call Result) :
    request.program P ≠ .act (.sessionStep s) next := by
  intro same
  have obeys := docket_obeys (P := P) request
  rw [same] at obeys
  rcases obeys.1 with owed | ⟨-, rebuilds, -⟩
  · cases owed
  · cases rebuilds

/-- In calls made one after the other logins and logouts keep apart. -/
theorem inTurn_orderly (run : Run (inTurn P requests) (start P requests σ) τ w) :
    Run (orderly P requests) (start P requests σ) τ w := by
  induction run with
  | refl => exact .refl
  | @call w₁ τ i a next c r σ' _ same step admitted ih =>
      obtain ⟨plain, others⟩ := admitted
      have apart (q : Statement) (about : a = .statement q) (j : Nat) (s : Auth.SessionStep)
          (next' : Unit → Call Result) : w₁.calls j ≠ .act (.sessionStep s) next' := by
        intro there
        by_cases self : j = i
        · rw [self, same] at there
          cases there
          cases about
        · rcases others j self with ⟨v, done⟩ | fresh
          · rw [done] at there
            cases there
          · exact program_begins (requests j) s next' (fresh.symm.trans there)
      exact .call ih same step ⟨⟨fun s about j => apart _ about j _,
        fun hash about j identity => apart _ about j _⟩, plain⟩
  | environment _ moved ih => exact .environment ih moved
  | crash _ crashed => exact crashed.elim

/-- One login; the other calls are over at once. -/
def loginRequests : Nat → Request
  | 0 => .login (str "a@b.c") (str "first password") 0
  | _ => .authenticateSession [] 0

/-- A login to its end. -/
def loggingIn : List (Nat × Choice) :=
  [(0, .normal), (0, .normal), (0, .name (str "iss_other")), (0, .name (str "isc_other")),
    (0, .name (str "b"))] ++ List.replicate 5 (0, .normal)

/-- The login opens a session for a day. -/
theorem login_runs : ∃ τ w, Run (inTurn verifyingPlatform loginRequests)
      (start verifyingPlatform loginRequests verifiedState) τ w ∧
    (∀ i, ∃ v, w.calls i = .done v) ∧ τ.map sessionTime = List.replicate 10 none ∧
    τ.map tokenTime = List.replicate 10 none ∧ w.shared.database.aliases = [] ∧ w.shared.tokens = ∅ ∧
    w.shared.database.sessions.map Auth.Session.expiresAt = [86400000000000] ∧
    ∃ identity, identity.expiresAt = 86400000000000 ∧ w.shared.sessions =
      (∅ : Auth.SessionIndex).insert (verifyingPlatform.sha256 (str "iss_other")) identity := by
  have rest : Only 0 (start verifyingPlatform loginRequests verifiedState) := by
    intro j other
    obtain ⟨n, rfl⟩ := Nat.exists_eq_succ_of_ne_zero other
    exact ⟨_, rfl⟩
  refine ⟨_, _, .of_executeKeeping (Only 0) loggingIn ?_ rest rfl, ?_, rfl, rfl, rfl, rfl, rfl, _, rfl,
    rfl⟩
  · intro w w' e only member stepped
    have own := (show ∀ p ∈ loggingIn, p.1 = 0 by decide) _ member
    have plain := Publication.plain_scheduled (by simp [loggingIn]) member
    exact ⟨⟨plain, fun j other => .inl (only j (own ▸ other))⟩, (only.spaced own stepped).2⟩
  · intro i
    cases i with
    | zero => exact ⟨_, rfl⟩
    | succ n =>
        refine ⟨.sessionAuthenticated none, ?_⟩
        simp [World.proceed]
        rfl

/-- Where all calls are over nobody is between two steps. -/
theorem over_quiet (ended : ∀ i, ∃ v, w.calls i = .done v) : SessionsQuiet w := by
  intro i s next program
  obtain ⟨v, done⟩ := ended i
  rw [done] at program
  cases program

theorem sessions_agree_sample : ∃ w : World (machine verifyingPlatform) Result,
    (w.shared.sessions.lookup (verifyingPlatform.sha256 (str "iss_other"))).isSome = true ∧
      Agree w.shared 0 := by
  obtain ⟨τ, w, turns, ended, times, -, -, -, -, identity, -, entered⟩ := login_runs
  have spaced : Run (serving verifyingPlatform loginRequests False Spaced)
      (start verifyingPlatform loginRequests verifiedState) τ w :=
    (inTurn_orderly turns).relax rfl rfl id fun _ _ admitted => admitted.1
  refine ⟨w, ?_, sessions_agree (booted_registered _ _ _) rfl rfl spaced (over_quiet ended)
    (latest_of_untimed times)⟩
  rw [entered, Finmap.lookup_insert]
  rfl

/-- A login, and a logout with the token that the login is about to give out. -/
def flightRequests : Nat → Request
  | 0 => .login (str "a@b.c") (str "first password") 0
  | 1 => .logout (str "iss_other")
  | _ => .authenticateSession [] 0

/-- The logout comes between the two steps of the login. -/
theorem logout_in_flight : ∃ τ w, Run (serving verifyingPlatform flightRequests False fun _ _ => True)
      (start verifyingPlatform flightRequests verifiedState) τ w ∧ SessionsQuiet w ∧
    (∀ u, Used 0 τ u → u ≤ 0) ∧ ¬ Agree w.shared 0 := by
  obtain ⟨τ, w, run, quiet, times, identity, entered, lasts, gone⟩ : ∃ τ w,
      Run (serving verifyingPlatform flightRequests False fun _ _ => True)
        (start verifyingPlatform flightRequests verifiedState) τ w ∧ SessionsQuiet w ∧
      τ.map sessionTime = List.replicate 14 none ∧
      ∃ identity, w.shared.sessions.lookup (verifyingPlatform.sha256 (str "iss_other")) =
        some identity ∧ unix 0 < unix identity.expiresAt ∧ w.shared.database.activeSessions 0 = [] := by
    refine ⟨_, _, .of_execute (loggingIn.take 7 ++ List.replicate 4 (1, .normal) ++ loggingIn.drop 7)
      (fun _ _ _ _ _ => trivial) rfl, ?_, rfl, _, rfl, by decide, rfl⟩
    intro i s next program
    rcases i with _ | _ | n
    · cases program
    · cases program
    · simp [World.proceed] at program
      cases program
  refine ⟨τ, w, run, quiet, latest_of_untimed times, ?_⟩
  intro agree
  obtain ⟨_, listed, -⟩ := (agree _ _).mp ⟨identity, entered, lasts, rfl⟩
  rw [gone] at listed
  simp at listed

end ImageSilo.Accounts
