import ImageSilo.Accounts.Withdrawals
import ImageSilo.Guarantees.Authorization
import ImageSilo.Guarantees.Revocation

/-! A request to one of these gated handlers that shows nothing but a revoked token gets no further than
the lookup of the token. -/
namespace ImageSilo.Http

open Go Concurrent Tables Publication

variable {P : Platform} {exchanges : Nat → Exchange} {σ : State} {f : Front}
  {τ τ' : List (Event (machine P))} {i j : Nat} {g : Guard} {r : Credentials} {t₀ : Time} {tokenID : GoString}
  {row : ApiToken.Row}

/-- The server without crashes, in which a statement that reports an error has had no effect. -/
abbrev plainServer (P : Platform) : Service (machine P) Operation Outcome FrontStep FrontReply :=
  server P False fun _ e => Plain e

variable {W W' : Clients (plainServer P) Answer}

/-- No upload and no import has come behind its gate. -/
def Unreceived (W : Clients (plainServer P) Answer) : Prop :=
  ∀ i n, ∀ q ∈ (W.clients i).asked n, ∃ request, q = .service request

/-- The method of a service that an operation is, if it is one. -/
def Operation.request : Operation → Request
  | .service q => q
  | _ => .cleanupTokens 0

theorem Unreceived.services (h : Unreceived W) (k : Nat) :
    W.requests (.service (.cleanupTokens 0)) k =
      .service (W.requests (.service (.cleanupTokens 0)) k).request := by
  unfold Clients.requests
  cases asked : (W.clients k.unpair.1).asked k.unpair.2 with
  | none => rfl
  | some q =>
      obtain ⟨request, rfl⟩ := h _ _ q asked
      rfl

section Rows

variable {scripts : Nat → Handler Answer}

/-- Rows of tokens stay, with their digests. -/
theorem rows_kept (session : Session scripts W τ W') :
    ∀ row ∈ W.shared.database.tokens, ∃ row' ∈ W'.shared.database.tokens,
      row'.token.id = row.token.id ∧ row'.hash = row.hash := by
  induction session with
  | refl => exact fun row member => ⟨row, member, rfl, rfl⟩
  | ask _ _ ih => exact ih
  | front _ _ _ ih => exact ih
  | call _ _ performed _ ih =>
      intro row member
      obtain ⟨old, known, own, hash⟩ := ih row member
      obtain ⟨new, there, own', hash'⟩ := (Accounts.ageing_step performed).kept old known
      exact ⟨new, there, own'.trans own, hash'.trans hash⟩
  | answer _ _ ih => exact ih
  | environment _ moved ih =>
      obtain ⟨t, -, rfl⟩ := moved
      exact ih
  | crash _ crashes => exact crashes.elim

end Rows

/-- A revocation that has been answered has taken the token out of the index. -/
theorem revoked_absent (registered : Registered σ) (free : σ.locks = .free)
    (loaded : Accounts.Lists σ.database (fun row => Database.tokenUnexpired t₀ row = true) σ.tokens)
    (served : Served P False (fun _ e => Plain e) exchanges σ f τ W) (unreceived : Unreceived W)
    (told : (⟨.call (.service (.revokeToken tokenID)), .service (.tokenRevoked (.ok ()))⟩ : Told) ∈
      (W.clients i).answered) :
    ∃ row ∈ W.shared.database.tokens, row.token.id = tokenID ∧ W.shared.tokens.lookup row.hash = none := by
  have fits := fits_requests W (.service (.cleanupTokens 0))
  have services := unreceived.services
  generalize W.requests (.service (.cleanupTokens 0)) = operations at fits services
  have run := Session.refines served fits
  have wrapped : (fun k => (plainServer P).program (operations k)) =
      fun k => (((operations k).request).program P).map Outcome.service := by
    funext k
    conv_lhs => rw [services k]
    rfl
  rw [wrapped] at run
  obtain ⟨inner, calls, inside⟩ := run.unwrap (S := plainly P fun k => (operations k).request) id
    fun _ _ _ _ admitted => admitted
  obtain ⟨ls, ks, obeyed, sound, filed, tokens⟩ := Accounts.docketed serving_serves id
    Accounts.tokens_kept registered free (.begin loaded) inside
  obtain ⟨n, there⟩ := List.mem_iff_getElem?.mp told
  have ended : (W.world operations).calls (Nat.pair i n) =
      .done (.service (.tokenRevoked (.ok ()))) := by
    change (W.clients (Nat.pair i n).unpair.1).program (Nat.pair i n).unpair.2 _ = _
    rw [Nat.unpair_pair]
    exact program_told there fun _ => served.present id
  have asked : (operations (Nat.pair i n)).request = .revokeToken tokenID := by
    rw [fits i n _ (asked_told there)]
    rfl
  rw [calls] at ended
  obtain ⟨_, done, eq⟩ := Program.map_done ended
  cases eq
  have finished := obeyed (Nat.pair i n)
  change (inner (Nat.pair i n)).Obeys _ _ _ at finished
  rw [done] at finished
  have gone : (ks (Nat.pair i n)).tells (operations (Nat.pair i n)).request
      (.tokenRevoked (.ok ())) := finished.2
  rw [asked] at gone
  obtain ⟨row, member, own, -, absent⟩ := tokens.gone _ tokenID (gone.1 rfl)
  exact ⟨row, member, own, absent⟩

/-- A handler that reports a revocation has been told of it. -/
theorem revokeToken_told {h : List Told} :
    (revokeToken P r tokenID).Obeys (.history (Warrants P r)) (fun answer h' => answer = .noContent →
      (⟨.call (.service (.revokeToken tokenID)), .service (.tokenRevoked (.ok ()))⟩ : Told) ∈ h') h := by
  unfold revokeToken guarded
  refine (requireSession_obeys true).bind ?_
  intro decision h' decided
  split
  · rintro rfl
    obtain ⟨code, message, eq | eq⟩ := decided <;> cases eq
  · refine Program.Obeys.bind (Program.obeys_once (.inr (session_covers _ h' decided))) ?_
    rintro outcome _ rfl
    split
    · intro _
      exact List.mem_append_right _ (List.mem_singleton_self _)
    · intro eq
      cases eq
    · intro eq
      cases eq

theorem needs_call (q : Operation) : ∃ g, needs (.call q) = some g := by
  cases q with
  | service request => cases request <;> exact ⟨_, rfl⟩
  | upload body => exact ⟨_, rfl⟩
  | createImport body => exact ⟨_, rfl⟩

theorem tokenLookup_only (plaintext : GoString) (now : Time) :
    ((Operation.service (.authenticateToken plaintext now)).program P).Only
      fun a => a = .getToken (P.sha256 plaintext) now := by
  change (((authenticateToken P plaintext now).bind fun v => .done (.tokenAuthenticated v)).map
    Outcome.service).Only _
  unfold authenticateToken
  split
  · trivial
  · exact ⟨rfl, fun _ => trivial⟩

/-- A request that has nothing to show but a token with this digest. -/
structure Powerless (P : Platform) (row : ApiToken.Row) (r : Credentials) : Prop where
  cookie : r.sessionCookie = none
  bearer : ∀ plaintext, bearerToken r.authorization = some plaintext → P.sha256 plaintext = row.hash

/-- All that it can look up is its token. -/
theorem Powerless.looks (alone : Powerless P row r) {q : Operation} {lookup : Lookup}
    (looks : lookupOf (.call q) = some lookup) (shows : r.Shows lookup) :
    ∃ now, (q.program P).Only fun a => a = .getToken row.hash now := by
  unfold lookupOf at looks
  split at looks
  · cases looks
    rw [Credentials.Shows, alone.cookie] at shows
    cases shows
  · rename_i plaintext now eq
    cases eq
    cases looks
    rw [← alone.bearer plaintext shows]
    exact ⟨now, tokenLookup_only plaintext now⟩
  · cases looks

/-- From a state of the server on, the token of a row is not in the index. -/
structure Expelled (exchanges : Nat → Exchange) (σ : State) (f : Front) (τ τ' : List (Event (machine P)))
    (W W' : Clients (plainServer P) Answer) (row : ApiToken.Row) : Prop where
  served : Served P False (fun _ e => Plain e) exchanges σ f τ W
  later : Session (fun i => (exchanges i).script P) W τ' W'
  absent : ∀ before after W₁, Session (fun i => (exchanges i).script P) W before W₁ →
    Session (fun i => (exchanges i).script P) W₁ after W' → W₁.shared.tokens.lookup row.hash = none

theorem getToken_absent {tokens : ApiToken.Index} {hash : Digest} (now : Time)
    (absent : tokens.lookup hash = none) : ApiToken.getToken tokens hash now = none := by
  unfold ApiToken.getToken
  rw [absent]
  rfl

/-- No lookup of the token is accepted. -/
theorem Expelled.rejected (h : Expelled exchanges σ f τ τ' W W' row) {e : Event (machine P)}
    (member : e ∈ τ') {now : Time} (looked : e.action = .getToken row.hash now) :
    (⟨e.action, e.response⟩ : Concurrent.Answer Response) = ⟨.getToken row.hash now, none⟩ := by
  obtain ⟨before, after, rfl⟩ := List.append_of_mem member
  obtain ⟨W₁, i, answered, q, rest, next, σ', first, own, inside, performed, later⟩ := h.later.cut
  obtain ⟨k, a, c, response⟩ := e
  subst looked
  obtain ⟨eq, -⟩ := Prod.mk.inj (Option.some.inj performed)
  rw [getToken_absent now (h.absent before _ W₁ first later)] at eq
  rw [← eq]

/-- Nothing vouches for a request that has nothing else to show. -/
theorem Expelled.unvouched (h : Expelled exchanges σ f τ τ' W W' row) (alone : Powerless P row r)
    (fresh : W.clients j = ⟨[], .ready ((exchanges j).script P)⟩) {before : List (Event (machine P))}
    (part : before ⊆ τ') : ¬ g.Vouched P r j (τ ++ before) := by
  have cookie : ∀ requireCSRF, ¬ SessionVouched P r requireCSRF j (τ ++ before) := by
    rintro requireCSRF ⟨n, c, cookie, now, identity, own, -⟩
    rw [alone.cookie] at own
    cases own
  cases g with
  | session requireCSRF => exact cookie requireCSRF
  | scopes needed =>
      rintro (shown | ⟨n, c, plaintext, now, identity, own, -, member⟩)
      · exact cookie true shown
      · rw [alone.bearer plaintext own] at member
        rcases List.mem_append.mp member with old | new
        · have told : (⟨.getToken row.hash now, some identity⟩ : Concurrent.Answer Response) ∈
              answersOf (Nat.pair j n) τ :=
            List.mem_map.mpr ⟨_, List.mem_filter.mpr ⟨old, by simp⟩, rfl⟩
          rw [h.served.silent fresh n] at told
          cases told
        · cases h.rejected (part new) rfl

/-- What such a request does is to have its token rejected. -/
theorem Expelled.powerless (h : Expelled exchanges σ f τ τ' W W' row) (alone : Powerless P row r)
    (guarded : (exchanges j).guard = some (g, r))
    (fresh : W.clients j = ⟨[], .ready ((exchanges j).script P)⟩) :
    (∀ e ∈ τ', e.call.unpair.1 = j → ∃ now, (⟨e.action, e.response⟩ : Concurrent.Answer Response) =
      ⟨.getToken row.hash now, none⟩) ∧
    ∀ answered answer, W'.clients j = ⟨answered, .ready (.done answer)⟩ → answer.IsDenial := by
  have served := h.served.trans h.later
  constructor
  · intro e member own
    obtain ⟨before, after, eq⟩ := List.append_of_mem member
    have later := h.later
    rw [eq] at later
    obtain ⟨W₁, i, answered, q, rest, next, σ', first, mine, inside, -, -⟩ := later.cut
    obtain rfl : i = j := by
      rw [mine, Nat.unpair_pair] at own
      exact own
    have part : before ⊆ τ' := by
      rw [eq]
      exact List.subset_append_left _ _
    rcases call_vouched (h.served.trans first) guarded inside with ⟨lookup, looks, shows⟩ | shown
    · have coherent := (h.served.trans first).coherent i
      rw [inside] at coherent
      obtain ⟨⟨left, -, -, led⟩, -, -⟩ := coherent
      obtain ⟨now, only⟩ := alone.looks looks shows
      exact ⟨now, h.rejected member (only.led led)⟩
    · obtain ⟨g', needed⟩ := needs_call q
      exact absurd (shown g' needed) (h.unvouched alone fresh part)
  · intro answered answer ended
    have reached := (script_obeys (P := P) (h := []) _ guarded).led (Session.followed served ended)
    rcases reached with passed | denial
    · refine absurd (vouched (g := g) served ?_) (h.unvouched alone fresh fun _ member => member)
      rw [ended]
      exact passed
    · exact denial

/-- Once a handler has answered that a token is revoked, a request that begins later and has nothing else
to show is turned away, and all that happens for it are lookups that reject the token. -/
theorem revoked_powerless (registered : Registered σ) (free : σ.locks = .free)
    (loaded : Accounts.Lists σ.database (fun row => Database.tokenUnexpired t₀ row = true) σ.tokens)
    (served : Served P False (fun _ e => Plain e) exchanges σ f τ W)
    (later : Session (fun i => (exchanges i).script P) W τ' W') (unreceived : Unreceived W')
    (asked : exchanges i = .revokeToken r tokenID) {answered : List Told}
    (ended : W.clients i = ⟨answered, .ready (.done .noContent)⟩) :
    ∃ row ∈ W'.shared.database.tokens, row.token.id = tokenID ∧
      ∀ j g r, (exchanges j).guard = some (g, r) →
        W.clients j = ⟨[], .ready ((exchanges j).script P)⟩ → Powerless P row r →
        (∀ e ∈ τ', e.call.unpair.1 = j →
          ∃ now, (⟨e.action, e.response⟩ : Concurrent.Answer Response) = ⟨.getToken row.hash now, none⟩) ∧
        ∀ answered answer, W'.clients j = ⟨answered, .ready (.done answer)⟩ → answer.IsDenial := by
  have script : (exchanges i).script P = revokeToken P r tokenID := by
    rw [asked]
    rfl
  have followed := Session.followed served ended
  rw [script] at followed
  have told := (revokeToken_told (h := [])).led followed rfl
  rw [List.nil_append] at told
  -- at every later state the same client has the same answer, so the index lacks the token there
  have gone : ∀ before after W₁, Session (fun i => (exchanges i).script P) W before W₁ →
      Session (fun i => (exchanges i).script P) W₁ after W' →
      ∃ row ∈ W₁.shared.database.tokens, row.token.id = tokenID ∧
        W₁.shared.tokens.lookup row.hash = none := by
    intro before after W₁ first last
    refine revoked_absent registered free loaded (served.trans first)
      (fun j n q member => unreceived j n q (last.asked_kept member)) (i := i) ?_
    rw [first.rests not_false ended]
    exact told
  obtain ⟨row, member, own, -⟩ := gone τ' [] W' later .refl
  have expelled : Expelled exchanges σ f τ τ' W W' row := by
    refine ⟨served, later, fun before after W₁ first last => ?_⟩
    obtain ⟨old, known, same, absent⟩ := gone before after W₁ first last
    obtain ⟨new, there, same', hash⟩ := rows_kept last old known
    obtain rfl := W'.shared.database.tokenIDs.eq there member ((same'.trans same).trans own.symm)
    rwa [hash]
  exact ⟨row, member, own, fun j g r guarded fresh alone => expelled.powerless alone guarded fresh⟩

section Sample

/-- Everything but a call of something else than a service. -/
def Serviced (ask : Ask Operation FrontStep) : Prop :=
  ∀ q, ask = .call q → ∃ request, q = .service request

theorem serviced_call (q : Request) : Serviced (.call (.service q)) := by
  rintro _ ⟨⟩
  exact ⟨q, rfl⟩

theorem serviced_front (b : FrontStep) : Serviced (.front b) := by
  rintro _ ⟨⟩

theorem authenticate_only (cookie : GoString) : (authenticate cookie).Only Serviced := by
  refine front_only (serviced_front _) fun now => call_only (serviced_call _) fun outcome => ?_
  split <;> trivial

theorem requireBearer_only (needed : List ApiToken.Scope) : (requireBearer r needed).Only Serviced := by
  unfold requireBearer
  split
  · trivial
  · refine Program.Only.bind (front_only (serviced_front _) fun now =>
      call_only (serviced_call _) fun outcome => ?_) fun found => ?_
    · split <;> trivial
    · split
      · trivial
      · split <;> trivial

theorem sample_serviced (i : Nat) : ((sampleExchanges i).script P).Only Serviced := by
  cases i with
  | zero =>
      refine Program.Only.bind ((authenticate_only _).bind fun found => ?_) fun decision => ?_
      · split
        · trivial
        · split <;> trivial
      · split
        · trivial
        · refine call_only (serviced_call _) fun outcome => ?_
          split <;> trivial
  | succ i =>
      have gate : (requireScope P .delete bearer .imagesDelete).Only Serviced :=
        requireBearer_only (r := bearer) [.imagesDelete]
      refine gate.bind fun decision => ?_
      split
      · trivial
      · refine call_only (serviced_call _) fun outcome => ?_
        split <;> trivial

/-- The program asks for a deletion after that. -/
def deleting : List (Nat × Choice × FrontChoice) := List.replicate 4 (1, .normal, .normal)

theorem normal_plain (n i : Nat) : ∀ step ∈ List.replicate n (i, Choice.normal, FrontChoice.normal),
    ∀ σ e, e.choice = step.2.1 → (plainServer samplePlatform).Admits σ e := by
  intro step member σ e normal q _ interrupted
  obtain rfl := List.eq_of_mem_replicate member
  rw [normal] at interrupted
  cases interrupted

theorem revoked_powerless_sample : ∃ W' : Clients (plainServer samplePlatform) Answer,
    ∃ answered answer, W'.clients 1 = ⟨answered, .ready (.done answer)⟩ ∧ answer.IsDenial := by
  obtain ⟨τ, W, τ', W', answered, answered', answer, served, later, ended, fresh, refused, rows⟩ :
      ∃ τ W τ' W' answered answered' answer,
        Served samplePlatform False (fun _ e => Plain e) sampleExchanges frontState sampleFront τ W ∧
        Session (fun i => (sampleExchanges i).script samplePlatform) W τ' W' ∧
        W.clients 0 = ⟨answered, .ready (.done .noContent)⟩ ∧
        W.clients 1 = ⟨[], .ready ((sampleExchanges 1).script samplePlatform)⟩ ∧
        W'.clients 1 = ⟨answered', .ready (.done answer)⟩ ∧
        W'.shared.database.tokens.map ApiToken.Row.hash =
          [(Accounts.sampleToken (str "ist_x")).hash] :=
    ⟨_, _, _, _, _, _, _, .of_execute revoking (normal_plain _ _) rfl,
      .of_execute deleting (normal_plain _ _) rfl, rfl, rfl, rfl, rfl⟩
  have unreceived : Unreceived W' := fun i n q asked =>
    Session.asked_only sample_serviced (served.trans later) asked q rfl
  have known := Accounts.tokenState_registered
  have registered : Registered frontState := ⟨known.ids, known.keys, known.aliases, known.files⟩
  obtain ⟨row, member, -, powerless⟩ :=
    revoked_powerless (i := 0) registered rfl Accounts.tokenState_loaded served later unreceived rfl ended
  have own := List.mem_map_of_mem (f := ApiToken.Row.hash) member
  rw [rows, List.mem_singleton] at own
  have alone : Powerless samplePlatform row bearer := by
    refine ⟨rfl, ?_⟩
    intro plaintext shown
    cases shown
    exact own.symm
  exact ⟨W', answered', answer, refused, (powerless 1 _ _ rfl fresh alone).2 _ _ refused⟩

end Sample

end ImageSilo.Http
