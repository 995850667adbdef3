import ImageSilo.Accounts.Reloads
import ImageSilo.Guarantees.SessionTable

/-! A reload replaces the expiries of an index by those of the rows, which are in whole seconds. -/
namespace ImageSilo.Accounts

open Go Concurrent Tables Publication

variable {P : Platform} {requests : Nat → Request} {σ : State} {ls : Nat → Ledger} {ks : Nat → Docket}
  {τ : List (Event (machine P))} {t₀ now t : Time} {w : World (machine P) Result} {db : Database}
  {hash : Digest} {owes : Auth.SessionStep → Prop} {used : Time → Prop}

section Decisions

variable (P)

/-- What `auth.Service.Authenticate` finds in an index. -/
def sessionDecision (index : Auth.SessionIndex) (token : GoString) (t : Time) :
    Option Auth.SessionIdentity :=
  if token = [] then none else Auth.getSession index (P.sha256 token) t

/-- What `apitoken.Service.Authenticate` finds in an index. -/
def tokenDecision (index : ApiToken.Index) (plaintext : GoString) (t : Time) :
    Option ApiToken.Identity :=
  if !hasPrefix plaintext (str "ist_") then none else ApiToken.getToken index (P.sha256 plaintext) t

variable {P}

theorem authenticateSession_decides (token : GoString) (t : Time) (i : Nat)
    (choose : Action → Choice) : (machine P).alone i choose (authenticateSession P token t) σ =
      some (sessionDecision P σ.sessions token t, σ) := by
  unfold authenticateSession sessionDecision
  split <;> rfl

theorem authenticateToken_decides (plaintext : GoString) (t : Time) (i : Nat)
    (choose : Action → Choice) : (machine P).alone i choose (authenticateToken P plaintext t) σ =
      some (tokenDecision P σ.tokens plaintext t, σ) := by
  unfold authenticateToken tokenDecision
  split <;> rfl

variable (P)

/-- From now on the two indexes decide alike about this token, whatever later steps do to both. -/
def SessionsAlike (now : Time) (token : GoString) (index index' : Auth.SessionIndex) : Prop :=
  ∀ steps : List Auth.SessionStep, ∀ t, now ≤ t →
    sessionDecision P (steps.foldl (fun m s => s.apply m) index) token t =
      sessionDecision P (steps.foldl (fun m s => s.apply m) index') token t

def TokensAlike (now : Time) (plaintext : GoString) (index index' : ApiToken.Index) : Prop :=
  ∀ steps : List ApiToken.IndexStep, ∀ t, now ≤ t →
    tokenDecision P (steps.foldl (fun m s => s.apply m) index) plaintext t =
      tokenDecision P (steps.foldl (fun m s => s.apply m) index') plaintext t

end Decisions

section Entries

variable {α : Type} {p q : α → Bool} {x y : Option α}

/-- What a stricter test leaves is the same when what a laxer one leaves is. -/
theorem filter_stricter (stricter : ∀ v, q v = true → p v = true) (same : x.filter p = y.filter p) :
    x.filter q = y.filter q := by
  have implied : (fun v => p v && q v) = q := by
    funext v
    cases here : q v with
    | false => exact Bool.and_false _
    | true => exact (Bool.and_true _).trans (stricter v here)
  have twice (x : Option α) : (x.filter p).filter q = x.filter q := by
    rw [Option.filter_filter, implied]
  rw [← twice x, ← twice y, same]

theorem filter_both (same : x.filter p = y.filter p) : (x.filter q).filter p = (y.filter q).filter p := by
  have swapped (x : Option α) : (x.filter q).filter p = (x.filter p).filter q := by
    rw [Option.filter_filter, Option.filter_filter]
    congr 1
    funext v
    exact Bool.and_comm _ _
  rw [swapped x, swapped y, same]

theorem filter_kept {g : α → α} (kept : ∀ v, p (g v) = p v) (same : x.filter p = y.filter p) :
    (x.map g).filter p = (y.map g).filter p := by
  have inside (x : Option α) : (x.map g).filter p = (x.filter p).map g := by
    cases x with
    | none => rfl
    | some v =>
        simp only [Option.map_some, Option.filter_some, kept]
        split <;> rfl
  rw [inside x, inside y, same]

end Entries

section Sessions

variable {index index' : Auth.SessionIndex}

theorem getSession_later (later : now ≤ t)
    (same : Auth.getSession index hash now = Auth.getSession index' hash now) :
    Auth.getSession index hash t = Auth.getSession index' hash t :=
  filter_stricter (fun _ here => decide_eq_true (lt_of_le_of_lt later (of_decide_eq_true here))) same

/-- A step of the index does the same to both. -/
theorem getSession_apply (s : Auth.SessionStep)
    (same : Auth.getSession index hash now = Auth.getSession index' hash now) :
    Auth.getSession (s.apply index) hash now = Auth.getSession (s.apply index') hash now := by
  unfold Auth.getSession at same ⊢
  cases s with
  | replace m => rfl
  | add hash' identity =>
      simp only [Auth.SessionStep.apply, lookup_insert_ite]
      split
      · rfl
      · exact same
  | remove hash' =>
      simp only [Auth.SessionStep.apply, lookup_erase_ite]
      split
      · rfl
      · exact same
  | removeAllExcept kept =>
      simp only [Auth.SessionStep.apply, lookup_keep]
      exact filter_both same
  | updateAdmin adminID displayName email =>
      simp only [Auth.SessionStep.apply, lookup_mapValues]
      refine filter_kept (fun identity => ?_) same
      split <;> rfl
  | purgeExpired t =>
      simp only [Auth.SessionStep.apply, lookup_keep]
      exact filter_both same

theorem getSession_steps (steps : List Auth.SessionStep)
    (same : Auth.getSession index hash now = Auth.getSession index' hash now) :
    Auth.getSession (steps.foldl (fun m s => s.apply m) index) hash now =
      Auth.getSession (steps.foldl (fun m s => s.apply m) index') hash now := by
  induction steps generalizing index index' with
  | nil => exact same
  | cons s steps ih => exact ih (getSession_apply s same)

theorem whole_alive {now u : Int} (whole : Whole u) (alive : now < u) : unix now < unix u := by
  have seconds : u = u / 1000000000 * 1000000000 := whole
  unfold unix second
  omega

theorem alive_of_unix {u : Time} (later : unix now < unix u) : now < u := by
  by_contra late
  exact absurd (unix_mono (not_lt.mp late)) (not_le.mpr later)

theorem Whole.inSeconds {identity : Auth.SessionIdentity} (whole : Whole identity.expiresAt) :
    inSeconds identity = identity := by
  obtain ⟨_, _, _, _, _, expiresAt⟩ := identity
  exact congrArg (Auth.SessionIdentity.mk _ _ _ _ _) whole.symm

theorem active_whole {identity : Auth.SessionIdentity} (stored : Stored db)
    (listed : (hash, identity) ∈ db.activeSessions now) : Whole identity.expiresAt := by
  obtain ⟨s, member, admin, -, -, -, -, rfl⟩ := mem_activeSessions.mp listed
  exact stored.sessions s member

/-- A reload leaves the entry of a session as it is, as long as it lasts, exactly when it expires on a
whole second or has expired. -/
theorem Balanced.reload_iff (h : Balanced used db index owes) (idle : ∀ step, ¬ owes step)
    (latest : ∀ u, used u → u ≤ now) (stored : Stored db) :
    Auth.getSession index hash now = Auth.getSession (mapOf (db.activeSessions now)) hash now ↔
      ∀ identity, index.lookup hash = some identity → now < identity.expiresAt →
        Whole identity.expiresAt := by
  have found (m : Auth.SessionIndex) (v : Auth.SessionIdentity) :
      Auth.getSession m hash now = some v ↔ m.lookup hash = some v ∧ now < v.expiresAt := by
    rw [Auth.getSession, Option.filter_eq_some_iff, decide_eq_true_eq]
  constructor
  · intro same identity there alive
    have after := (found _ _).mp (same.symm.trans ((found _ _).mpr ⟨there, alive⟩))
    exact active_whole stored (lookup_activeSessions.mp after.1)
  · intro whole
    ext v
    rw [found, found]
    constructor
    · rintro ⟨there, alive⟩
      have exact := whole v there alive
      obtain ⟨identity, listed, same⟩ :=
        (h.agree idle latest (inSeconds v)).mp ⟨v, there, whole_alive exact alive, rfl⟩
      rw [exact.inSeconds, (active_whole stored listed).inSeconds] at same
      rw [← same] at alive ⊢
      exact ⟨lookup_activeSessions.mpr listed, alive⟩
    · rintro ⟨loaded, alive⟩
      have listed := lookup_activeSessions.mp loaded
      obtain ⟨identity, there, later, same⟩ :=
        (h.agree idle latest (inSeconds v)).mpr ⟨v, listed, rfl⟩
      have exact := whole identity there (alive_of_unix later)
      rw [exact.inSeconds, (active_whole stored listed).inSeconds] at same
      rw [← same] at alive ⊢
      exact ⟨there, alive⟩

end Sessions

section Tokens

variable {index index' : ApiToken.Index}

theorem getToken_later (later : now ≤ t)
    (same : ApiToken.getToken index hash now = ApiToken.getToken index' hash now) :
    ApiToken.getToken index hash t = ApiToken.getToken index' hash t := by
  refine filter_stricter (fun v here => ?_) same
  unfold ApiToken.alive at here ⊢
  rw [Option.all_eq_true] at here ⊢
  intro u expires
  exact decide_eq_true (lt_of_le_of_lt later (of_decide_eq_true (here u expires)))

theorem getToken_apply (s : ApiToken.IndexStep)
    (same : ApiToken.getToken index hash now = ApiToken.getToken index' hash now) :
    ApiToken.getToken (s.apply index) hash now = ApiToken.getToken (s.apply index') hash now := by
  unfold ApiToken.getToken at same ⊢
  cases s with
  | replace m => rfl
  | add hash' identity =>
      simp only [ApiToken.IndexStep.apply, lookup_insert_ite]
      split
      · rfl
      · exact same
  | remove hash' =>
      simp only [ApiToken.IndexStep.apply, lookup_erase_ite]
      split
      · rfl
      · exact same
  | purgeExpired t =>
      simp only [ApiToken.IndexStep.apply, lookup_keep]
      exact filter_both same

theorem getToken_steps (steps : List ApiToken.IndexStep)
    (same : ApiToken.getToken index hash now = ApiToken.getToken index' hash now) :
    ApiToken.getToken (steps.foldl (fun m s => s.apply m) index) hash now =
      ApiToken.getToken (steps.foldl (fun m s => s.apply m) index') hash now := by
  induction steps generalizing index index' with
  | nil => exact same
  | cons s steps ih => exact ih (getToken_apply s same)

theorem lookup_tokenMap {identity : ApiToken.Identity} :
    (tokenMap db now).lookup hash = some identity ↔ ∃ row ∈ db.tokens, row.token.isActive = true ∧
      Database.tokenUnexpired now row = true ∧ row.hash = hash ∧
        identity = ApiToken.identityFromToken row.token := by
  have distinct : (((db.activeTokens now).map fun r =>
      (r.hash, ApiToken.identityFromToken r.token)).map Prod.fst).Nodup := by
    rw [List.map_map]
    exact db.tokenHashes.filter _
  unfold tokenMap mapOf
  rw [lookup_filled distinct]
  simp only [Finmap.lookup_empty, reduceCtorEq, and_false, or_false, List.mem_map, Prod.mk.injEq]
  constructor
  · rintro ⟨row, listed, same, eq⟩
    obtain ⟨member, live, unexpired⟩ := mem_activeTokens.mp listed
    exact ⟨row, member, live, unexpired, same, eq.symm⟩
  · rintro ⟨row, member, live, unexpired, same, eq⟩
    exact ⟨row, mem_activeTokens.mpr ⟨member, live, unexpired⟩, same, eq.symm⟩

/-- The entry of a token that expires on a whole second is what its row says. -/
theorem Answers.exact {row : ApiToken.Row} {identity : ApiToken.Identity} (answers : Answers row identity)
    (stored : ∀ t ∈ row.token.expiresAt, Whole t) (whole : ∀ t ∈ identity.expiresAt, Whole t) :
    identity = ApiToken.identityFromToken row.token := by
  obtain ⟨⟨_, _, _, _, expiresAt, _, _⟩, _⟩ := row
  obtain ⟨_, _, _, expiresAt'⟩ := identity
  obtain ⟨rfl, rfl, rfl, same⟩ := answers
  refine congrArg (ApiToken.Identity.mk _ _ _) ?_
  change expiresAt'.map unix = expiresAt.map unix at same
  cases expiresAt' with
  | none => exact (Option.map_eq_none_iff.mp same.symm).symm
  | some t =>
      obtain ⟨u, rfl, eq⟩ := Option.map_eq_some_iff.mp same.symm
      have one : t = ofUnix (unix t) := whole t rfl
      have other : u = ofUnix (unix u) := stored u rfl
      rw [one, other, eq]

theorem unexpired_of_alive {row : ApiToken.Row} {identity : ApiToken.Identity}
    (answers : Answers row identity) (whole : ∀ t ∈ identity.expiresAt, Whole t)
    (alive : ApiToken.alive now identity.expiresAt = true) :
    Database.tokenUnexpired now row = true := by
  unfold Database.tokenUnexpired
  unfold ApiToken.alive at alive
  rw [Option.all_eq_true] at alive ⊢
  intro u expires
  have same := answers.expiresAt
  rw [expires, Option.map_some] at same
  obtain ⟨t, there, eq⟩ := Option.map_eq_some_iff.mp same
  rw [← eq]
  exact decide_eq_true (whole_alive (whole t there) (of_decide_eq_true (alive t there)))

/-- A reload leaves the entry of a token as it is, as long as it lasts, exactly when it expires on a
whole second, never, or has expired. -/
theorem Tokens.reload_iff (h : Tokens t₀ τ σ ks) (settled : ∀ j s, (ks j).token ≠ some s)
    (latest : Latest t₀ τ now) (stored : Stored σ.database) :
    ApiToken.getToken σ.tokens hash now = ApiToken.getToken (tokenMap σ.database now) hash now ↔
      ∀ identity, σ.tokens.lookup hash = some identity →
        ApiToken.alive now identity.expiresAt = true → ∀ t ∈ identity.expiresAt, Whole t := by
  have found (m : ApiToken.Index) (v : ApiToken.Identity) : ApiToken.getToken m hash now = some v ↔
      m.lookup hash = some v ∧ ApiToken.alive now v.expiresAt = true := by
    rw [ApiToken.getToken, Option.filter_eq_some_iff]
  have known {identity : ApiToken.Identity} (there : σ.tokens.lookup hash = some identity) :
      Active σ.database hash identity := by
    rcases h.known hash identity there with active | ⟨j, owed⟩
    · exact active
    · exact absurd owed (settled j _)
  constructor
  · intro same identity there alive
    have after := (found _ _).mp (same.symm.trans ((found _ _).mpr ⟨there, alive⟩))
    obtain ⟨row, member, -, -, -, rfl⟩ := lookup_tokenMap.mp after.1
    exact stored.tokens row member
  · intro whole
    ext v
    rw [found, found]
    constructor
    · rintro ⟨there, alive⟩
      obtain ⟨row, member, same, live, answers⟩ := known there
      have exact := whole v there alive
      refine ⟨lookup_tokenMap.mpr ⟨row, member, live, unexpired_of_alive answers exact alive, same,
        answers.exact (stored.tokens row member) exact⟩, alive⟩
    · rintro ⟨loaded, alive⟩
      obtain ⟨row, member, live, unexpired, rfl, rfl⟩ := lookup_tokenMap.mp loaded
      rcases h.listed row member live (latest.lasting unexpired) with ⟨identity, there⟩ | ⟨j, _, owed⟩
      · obtain ⟨row', member', same, -, answers⟩ := known there
        obtain rfl := σ.database.tokenHashes.eq member' member same
        have lasts := alive_of_unexpired answers unexpired
        rw [← answers.exact (stored.tokens row' member) (whole identity there lasts)]
        exact ⟨there, lasts⟩
      · exact absurd owed (settled j _)

end Tokens

section Runs

/-- No call is between its database step and its step of the token index; one that purges or has loaded
a map may be. -/
def TokensSettled (w : World (machine P) Result) : Prop :=
  ∀ i s next, w.calls i = .act (.tokenStep s) next →
    (∃ now, s = .purgeExpired now) ∨ ∃ m, s = .replace m

theorem accounts_kept : Kept P requests (orderly P requests) fun τ σ ks =>
    Sessions t₀ τ σ ks ∧ Tokens t₀ τ σ ks :=
  sessions_kept.both tokens_kept fun _ _ admitted => admitted

theorem orderly_kept : Kept P requests (orderly P requests) fun τ σ ks =>
    (Sessions t₀ τ σ ks ∧ Tokens t₀ τ σ ks) ∧ Reloading σ ks := by
  have reloading : Kept P requests (orderly P requests) fun _ σ ks => Reloading σ ks := reloading_kept
  exact accounts_kept.both reloading fun _ _ admitted => ⟨admitted, admitted⟩

theorem sessionsAlike_iff {token : GoString} {index index' : Auth.SessionIndex} (given : token ≠ []) :
    SessionsAlike P now token index index' ↔
      Auth.getSession index (P.sha256 token) now = Auth.getSession index' (P.sha256 token) now := by
  simp only [SessionsAlike, sessionDecision, if_neg given]
  constructor
  · exact fun alike => alike [] now le_rfl
  · exact fun same steps t later => getSession_later later (getSession_steps steps same)

theorem tokensAlike_iff {plaintext : GoString} {index index' : ApiToken.Index}
    (given : hasPrefix plaintext (str "ist_") = true) :
    TokensAlike P now plaintext index index' ↔
      ApiToken.getToken index (P.sha256 plaintext) now =
        ApiToken.getToken index' (P.sha256 plaintext) now := by
  simp only [TokensAlike, tokenDecision, given, Bool.not_true, Bool.false_eq_true, if_false]
  constructor
  · exact fun alike => alike [] now le_rfl
  · exact fun same steps t later => getToken_later later (getToken_steps steps same)

/-- A reload puts the rows of that moment into an index at which no call is owing a step. It leaves all
later decisions about a token as they are exactly when the entry of the token has expired or expires on
a whole second. -/
theorem reload_decides (registered : Registered σ) (free : σ.locks = .free)
    (sessions : σ.sessions = mapOf (σ.database.activeSessions t₀))
    (tokens : σ.tokens = tokenMap σ.database t₀) (stored : Stored σ.database)
    (run : Run (orderly P requests) (start P requests σ) τ w) :
    (∀ i m next, w.calls i = .act (.sessionStep (.replace m)) next → SessionsQuiet w ∧
      ∃ now, timeOf (requests i) = some now ∧ m = mapOf (w.shared.database.activeSessions now)) ∧
    (∀ i m next, w.calls i = .act (.tokenStep (.replace m)) next → TokensSettled w ∧
      ∃ now, timeOf (requests i) = some now ∧ m = tokenMap w.shared.database now) ∧
    ∀ now, (∀ u, Used t₀ τ u → u ≤ now) → Latest t₀ τ now →
      (SessionsQuiet w → ∀ token, token ≠ [] →
        (SessionsAlike P now token w.shared.sessions (mapOf (w.shared.database.activeSessions now)) ↔
          ∀ identity, w.shared.sessions.lookup (P.sha256 token) = some identity →
            now < identity.expiresAt → Whole identity.expiresAt)) ∧
      (TokensSettled w → ∀ plaintext, hasPrefix plaintext (str "ist_") = true →
        (TokensAlike P now plaintext w.shared.tokens (tokenMap w.shared.database now) ↔
          ∀ identity, w.shared.tokens.lookup (P.sha256 plaintext) = some identity →
            ApiToken.alive now identity.expiresAt = true → ∀ t ∈ identity.expiresAt, Whole t)) := by
  have loaded : Lists σ.database (fun row => Database.tokenUnexpired t₀ row = true) σ.tokens :=
    tokens ▸ lists_loaded t₀
  obtain ⟨ls, ks, obeyed, sound, filed, ⟨balance, index⟩, reloading⟩ :=
    docketed serving_serves id orderly_kept registered free
      ⟨⟨.begin sessions, .begin loaded⟩, .begin stored⟩ run
  have permitted {i : Nat} {a : Action} {next : Response a → Call Result}
      (program : w.calls i = .act a next) : (ks i).permits P a := by
    have obeys := obeyed i
    rw [program] at obeys
    exact obeys.1
  refine ⟨?_, ?_, ?_⟩
  · intro i m next program
    rcases permitted program with owed | ⟨-, rebuilds, m', noted, ⟨⟩⟩
    · exact ((filed.orderly i).backed _ owed).elim
    · constructor
      · intro j s next' program'
        rcases permitted program' with owed | ⟨-, -, m', -, rfl⟩
        · rw [(filed.undisturbed sound rebuilds j).2] at owed
          cases owed
        · exact ⟨m', rfl⟩
      · rw [← filed.made i]
        exact reloading.sessions i m noted
  · intro i m next program
    rcases permitted program with owed | ⟨-, ⟨rebuilds, m', noted, ⟨⟩⟩ | ⟨-, now, -, ⟨⟩⟩⟩
    · rcases index.owed i _ owed with ⟨_, _, ⟨⟩, -⟩ | ⟨_, -, ⟨⟩, -⟩
    · constructor
      · intro j s next' program'
        rcases permitted program' with owed | ⟨-, ⟨-, m', -, rfl⟩ | ⟨-, now, -, rfl⟩⟩
        · rw [(filed.undisturbed sound rebuilds j).1] at owed
          cases owed
        · exact .inr ⟨m', rfl⟩
        · exact .inl ⟨now, rfl⟩
      · rw [← filed.made i]
        exact reloading.tokens i m noted
  · intro now latest latest'
    constructor
    · intro quiet token given
      rw [sessionsAlike_iff given]
      refine balance.balanced.reload_iff ?_ latest reloading.stored
      rintro step ⟨j, owed⟩
      obtain ⟨next, program⟩ := owing_step obeyed (filed.orderly j) owed
      obtain ⟨m, rfl⟩ := quiet j step next program
      exact (filed.orderly j).backed _ owed
    · intro settled plaintext given
      rw [tokensAlike_iff given]
      refine index.reload_iff (fun j s owed => ?_) latest' reloading.stored
      obtain ⟨next, program⟩ := owing_call obeyed (filed.orderly j).single owed
      rcases index.owed j s owed with ⟨_, _, rfl, -⟩ | ⟨_, -, rfl, -⟩
      · rcases settled j _ next program with ⟨_, ⟨⟩⟩ | ⟨_, ⟨⟩⟩
      · rcases settled j _ next program with ⟨_, ⟨⟩⟩ | ⟨_, ⟨⟩⟩

/-- No purge and no load of the tokens has been made. -/
theorem timely_of_untimed {n : Nat} (times : τ.map tokenTime = List.replicate n none) :
    Latest t₀ τ t₀ := by
  refine ⟨le_rfl, fun e member t timed => ?_⟩
  have listed := List.mem_map_of_mem (f := tokenTime) member
  rw [times, show tokenTime e = some t from timed, List.mem_replicate] at listed
  cases listed.2

/-- A session that was opened on a whole second survives a reload. -/
theorem reload_decides_sample : ∃ w : World (machine verifyingPlatform) Result,
    (w.shared.sessions.lookup (verifyingPlatform.sha256 (str "iss_other"))).isSome = true ∧
      SessionsAlike verifyingPlatform 0 (str "iss_other") w.shared.sessions
        (mapOf (w.shared.database.activeSessions 0)) := by
  obtain ⟨τ, w, turns, ended, times, timely, -, -, -, identity, expires, entered⟩ := login_runs
  have decided := (reload_decides (booted_registered _ _ _) rfl rfl rfl
    ⟨fun _ member => absurd member List.not_mem_nil,
      fun _ member => absurd member List.not_mem_nil⟩ (inTurn_orderly turns)).2.2 0
    (latest_of_untimed times) (timely_of_untimed timely)
  have found : w.shared.sessions.lookup (verifyingPlatform.sha256 (str "iss_other")) = some identity := by
    rw [entered, Finmap.lookup_insert]
  refine ⟨w, by rw [found]; rfl,
    (decided.1 (over_quiet ended) (str "iss_other") (by decide)).mpr ?_⟩
  intro identity' there _
  obtain rfl := Option.some.inj (found.symm.trans there)
  rw [expires]
  exact show (86400000000000 : Time) = ofUnix (unix 86400000000000) by decide

/-- A login at half a second, and a load of the sessions a second after the epoch. -/
def reloadRequests : Nat → Request
  | 0 => .login (str "a@b.c") (str "first password") 500000000
  | 1 => .loadSessions 1000000000
  | _ => .authenticateSession [] 0

/-- The session of that login ends a fraction of a second earlier after the load. -/
theorem reload_ends_session : ∃ τ w m next t,
    Run (serving verifyingPlatform reloadRequests False fun _ _ => True)
      (start verifyingPlatform reloadRequests verifiedState) τ w ∧
    w.calls 1 = .act (.sessionStep (.replace m)) next ∧ 1000000000 ≤ t ∧
    (sessionDecision verifyingPlatform w.shared.sessions (str "iss_other") t).isSome = true ∧
    sessionDecision verifyingPlatform m (str "iss_other") t = none :=
  ⟨_, _, _, _, 86400200000000, .of_execute (loggingIn ++ List.replicate 3 (1, .normal))
    (fun _ _ _ _ _ => trivial) rfl, rfl, by decide, rfl, rfl⟩

end Runs

end ImageSilo.Accounts
