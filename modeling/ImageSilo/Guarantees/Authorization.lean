import ImageSilo.Guarantees.Revocation
import ImageSilo.HttpApi.Gates

/-! Every step of a service that a gated handler among the `Exchange`s makes has an accepted lookup of the
same request before it. -/
namespace ImageSilo.Http

open Go Concurrent

/-- The index of the sessions has answered a request's own cookie with an identity. -/
def SessionVouched (P : Platform) (r : Credentials) (requireCSRF : Bool) (i : Nat)
    (τ : List (Event (machine P))) : Prop :=
  ∃ n c cookie now identity, r.sessionCookie = some cookie ∧
    (requireCSRF = true → validCSRF P r identity = true) ∧
    (⟨Nat.pair i n, .getSession (P.sha256 cookie) now, c, some identity⟩ : Event (machine P)) ∈ τ

/-- The index of the tokens has answered a request's own token with an identity that has the scopes. -/
def TokenVouched (P : Platform) (r : Credentials) (needed : List ApiToken.Scope) (i : Nat)
    (τ : List (Event (machine P))) : Prop :=
  ∃ n c plaintext now identity, bearerToken r.authorization = some plaintext ∧
    (∀ scope ∈ needed, identity.hasScope scope = true) ∧
    (⟨Nat.pair i n, .getToken (P.sha256 plaintext) now, c, some identity⟩ : Event (machine P)) ∈ τ

def Guard.Vouched (P : Platform) (r : Credentials) (i : Nat) (τ : List (Event (machine P))) :
    Guard → Prop
  | .session requireCSRF => SessionVouched P r requireCSRF i τ
  | .scopes needed => SessionVouched P r true i τ ∨ TokenVouched P r needed i τ

variable {P : Platform} {exchanges : Nat → Exchange} {crashes : Prop}
  {admits : State → Event (machine P) → Prop} {σ : State} {f : Front} {τ : List (Event (machine P))}
  {W : Clients (server P crashes admits) Answer} {i : Nat} {g : Guard} {r : Credentials}
  {answers : List (Concurrent.Answer Response)}

/-- The run of the server from a state, with these requests. -/
abbrev Served (P : Platform) (crashes : Prop) (admits : State → Event (machine P) → Prop)
    (exchanges : Nat → Exchange) (σ : State) (f : Front) (τ : List (Event (machine P)))
    (W : Clients (server P crashes admits) Answer) : Prop :=
  Session (fun i => (exchanges i).script P)
    (Clients.start (server P crashes admits) (fun i => (exchanges i).script P) σ f) τ W

theorem sessionLookup_yields {cookie : GoString} {now : Time} {identity : Auth.SessionIdentity}
    (yields : ((Operation.service (.authenticateSession cookie now)).program P).Yields answers
      (.service (.sessionAuthenticated (some identity)))) :
    answers = [⟨.getSession (P.sha256 cookie) now, some identity⟩] := by
  obtain ⟨_, inner, eq⟩ := Program.yields_map.mp yields
  cases eq
  obtain ⟨found, first, second, rfl, looked, returned⟩ := Program.yields_bind.mp inner
  obtain ⟨rfl, eq⟩ := Program.yields_pure.mp returned
  cases eq
  unfold authenticateSession at looked
  split at looked
  · exact absurd (Program.yields_pure.mp looked).2 (by simp)
  · rw [List.append_nil]
    exact Program.yields_perform.mp looked

theorem tokenLookup_yields {plaintext : GoString} {now : Time} {identity : ApiToken.Identity}
    (yields : ((Operation.service (.authenticateToken plaintext now)).program P).Yields answers
      (.service (.tokenAuthenticated (some identity)))) :
    answers = [⟨.getToken (P.sha256 plaintext) now, some identity⟩] := by
  obtain ⟨_, inner, eq⟩ := Program.yields_map.mp yields
  cases eq
  obtain ⟨found, first, second, rfl, looked, returned⟩ := Program.yields_bind.mp inner
  obtain ⟨rfl, eq⟩ := Program.yields_pure.mp returned
  cases eq
  unfold authenticateToken at looked
  split at looked
  · exact absurd (Program.yields_pure.mp looked).2 (by simp)
  · rw [List.append_nil]
    exact Program.yields_perform.mp looked

/-- What a request has been told stands in the trace. -/
theorem session_vouched (served : Served P crashes admits exchanges σ f τ W) {requireCSRF : Bool}
    (shown : SessionShown P r requireCSRF (W.clients i).answered) :
    SessionVouched P r requireCSRF i τ := by
  obtain ⟨cookie, now, identity, own, csrf, told⟩ := shown
  obtain ⟨n, -, yields⟩ := served.told told
  obtain ⟨c, member⟩ := event_of_answer (M := machine P)
    (a := .getSession (P.sha256 cookie) now) (r := some identity) (i := Nat.pair i n) (τ := τ)
    (by rw [sessionLookup_yields yields]; exact List.mem_singleton_self _)
  exact ⟨n, c, cookie, now, identity, own, csrf, member⟩

theorem token_vouched (served : Served P crashes admits exchanges σ f τ W)
    {needed : List ApiToken.Scope} (shown : TokenShown r needed (W.clients i).answered) :
    TokenVouched P r needed i τ := by
  obtain ⟨plaintext, now, identity, own, held, told⟩ := shown
  obtain ⟨n, -, yields⟩ := served.told told
  obtain ⟨c, member⟩ := event_of_answer (M := machine P)
    (a := .getToken (P.sha256 plaintext) now) (r := some identity) (i := Nat.pair i n) (τ := τ)
    (by rw [tokenLookup_yields yields]; exact List.mem_singleton_self _)
  exact ⟨n, c, plaintext, now, identity, own, held, member⟩

theorem vouched (served : Served P crashes admits exchanges σ f τ W)
    (passed : g.Passed P r (W.clients i).answered) : g.Vouched P r i τ := by
  cases g with
  | session requireCSRF => exact session_vouched served passed
  | scopes needed => exact passed.imp (session_vouched served) (token_vouched served)

/-- An operation that a handler calls is warranted by the events before it. -/
theorem call_vouched (served : Served P crashes admits exchanges σ f τ W)
    (guarded : (exchanges i).guard = some (g, r)) {answered : List Told} {q : Operation}
    {p : Call Outcome} {next : Outcome → Handler Answer}
    (inside : W.clients i = ⟨answered, .calling q p next⟩) :
    (∃ lookup, lookupOf (.call q) = some lookup ∧ r.Shows lookup) ∨
      ∀ g' ∈ needs (.call q), g'.Vouched P r i τ := by
  have warranted := served.warranted (script_obeys (exchanges i) guarded) inside
  refine warranted.imp id fun passed g' needed => vouched served ?_
  rw [inside]
  exact passed g' needed

theorem SessionVouched.mono {requireCSRF : Bool} (h : SessionVouched P r requireCSRF i τ)
    (later : List (Event (machine P))) : SessionVouched P r requireCSRF i (τ ++ later) := by
  obtain ⟨n, c, cookie, now, identity, own, csrf, member⟩ := h
  exact ⟨n, c, cookie, now, identity, own, csrf, List.mem_append_left _ member⟩

theorem perform_settings {b : FrontStep} {c : FrontChoice} {clock : Time}
    (kept : writesSettings (.front b) = false) : (f.perform clock b c).2.settings = f.settings := by
  cases b with
  | writeDefaultVisibility visibility now => cases kept
  | writeProcessing value now => cases kept
  | getSettings => cases c <;> rfl
  | _ => cases c <;> rfl

/-- The settings are as they were, or a session with its CSRF token has been accepted. -/
theorem settings_vouched (served : Served P crashes admits exchanges σ f τ W) :
    W.front.settings = f.settings ∨
      ∃ i g r, (exchanges i).guard = some (g, r) ∧ SessionVouched P r true i τ := by
  unfold Served at served
  induction served with
  | refl => exact .inl rfl
  | ask _ _ ih => exact ih
  | @front W₁ τ i answered b next c reply f' before ready stepped ih =>
      obtain ⟨-, rfl⟩ := Prod.mk.inj (Option.some.inj stepped)
      cases writes : writesSettings (.front b) with
      | false => exact ih.imp (perform_settings writes).trans id
      | true =>
          refine .inr ?_
          have followed := Session.followed before ready
          cases guarded : (exchanges i).guard with
          | none =>
              have kept := (ungated_only (P := P) _ guarded).led followed
              rw [writes] at kept
              cases kept
          | some gate =>
              obtain ⟨g, r⟩ := gate
              refine ⟨i, g, r, guarded, ?_⟩
              have needed : needs (.front b) = some (.session true) := by
                cases b <;> first | rfl | cases writes
              rcases ((script_obeys (P := P) (h := []) _ guarded).led followed).1 with lookup | passed
              · obtain ⟨lookup, eq, -⟩ := lookup
                cases eq
              · refine vouched (g := .session true) before ?_
                rw [ready]
                exact passed _ needed
  | call _ _ _ _ ih =>
      refine ih.imp id ?_
      rintro ⟨i, g, r, guarded, shown⟩
      exact ⟨i, g, r, guarded, shown.mono _⟩
  | answer _ _ ih => exact ih
  | environment _ _ ih => exact ih
  | crash _ _ _ _ ih => exact ih

/-- Whatever a handler does but look up what the request shows, an accepted lookup of what the operation
needs stands before it; whoever has shown nothing that is accepted is told no more than that; and the
settings change for an accepted session only. -/
theorem authorization (served : Served P crashes admits exchanges σ f τ W) :
    (∀ i g r, (exchanges i).guard = some (g, r) →
      (∀ before e after n q, τ = before ++ e :: after → e.call = Nat.pair i n →
        q ∈ (W.clients i).asked n →
        (∃ lookup, lookupOf (.call q) = some lookup ∧ r.Shows lookup) ∨
          ∀ g' ∈ needs (.call q), g'.Vouched P r i before) ∧
      ∀ answered answer, W.clients i = ⟨answered, .ready (.done answer)⟩ →
        g.Vouched P r i τ ∨ answer.IsDenial) ∧
    (W.front.settings = f.settings ∨
      ∃ i g r, (exchanges i).guard = some (g, r) ∧ SessionVouched P r true i τ) := by
  refine ⟨fun i g r guarded => ⟨?_, ?_⟩, settings_vouched served⟩
  · rintro before e after n q rfl own asked
    obtain ⟨W₁, j, answered, q', rest, next, σ', first, mine, inside, -, later⟩ := served.cut
    obtain ⟨rfl, rfl⟩ := Nat.pair_eq_pair.mp (own.symm.trans mine)
    have same : q' ∈ (W.clients i).asked answered.length := by
      refine later.asked_kept ?_
      rw [inside, asked_calling (s := .done .unanswered), if_pos rfl]
      rfl
    obtain rfl : q = q' := Option.some.inj (asked.symm.trans same)
    exact call_vouched first guarded inside
  · intro answered answer ended
    have reached := (script_obeys (P := P) (h := []) _ guarded).led (served.followed ended)
    refine reached.imp (fun passed => vouched served ?_) id
    rw [ended]
    exact passed

section Sample

/-- The administrator at a browser. -/
def browser : Credentials where
  sessionCookie := some (str "iss_s")
  csrfCookie := some (str "isc_s")
  csrfHeader := str "isc_s"
  authorization := []

/-- A program that has a token. -/
def bearer : Credentials where
  sessionCookie := none
  csrfCookie := none
  csrfHeader := []
  authorization := str "Bearer ist_x"

/-- The administrator revokes a token, and the program that has it goes on. -/
def sampleExchanges : Nat → Exchange
  | 0 => .revokeToken browser (str "a")
  | _ => .deleteImage bearer (str "a")

def browserIdentity : Auth.SessionIdentity :=
  ⟨str "s", str "a", str "Ada", str "a@b.c", samplePlatform.sha256 (str "isc_s"), ofUnix 60⟩

/-- The session of the browser and the token of the program are known. -/
def frontState : State :=
  { Accounts.tokenState with
    sessions := (∅ : Auth.SessionIndex).insert (samplePlatform.sha256 (str "iss_s")) browserIdentity }

def sampleFront : Front where
  addressLimiter := newLoginLimiter 20 (300 * second)
  accountLimiter := newLoginLimiter 5 (300 * second)
  settings := ⟨1, 1, 1, 0, ⟨.isPublic, true, 80, 80, 6, true, 80, false, 0⟩⟩

/-- The revocation to its end. -/
def revoking : List (Nat × Choice × FrontChoice) := List.replicate 12 (0, .normal, .normal)

theorem revoking_runs (admits : State → Event (machine samplePlatform) → Prop)
    (lax : ∀ σ e, e.choice = .normal → admits σ e) : ∃ τ W answered,
      Served samplePlatform False admits sampleExchanges frontState sampleFront τ W ∧
      W.clients 0 = ⟨answered, .ready (.done .noContent)⟩ ∧
      W.clients 1 = ⟨[], .ready ((sampleExchanges 1).script samplePlatform)⟩ := by
  refine ⟨_, _, _, .of_execute revoking ?_ rfl, rfl, rfl⟩
  intro step member
  obtain rfl := List.eq_of_mem_replicate member
  exact lax

theorem authorization_sample : ∃ τ, SessionVouched samplePlatform browser true 0 τ := by
  obtain ⟨τ, W, answered, served, ended, -⟩ := revoking_runs (fun _ _ => True) fun _ _ _ => trivial
  rcases ((authorization served).1 0 _ _ rfl).2 _ _ ended with shown | ⟨_, _, eq | eq⟩
  · exact ⟨τ, shown⟩
  · cases eq
  · cases eq

end Sample

end ImageSilo.Http
