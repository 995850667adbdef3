import ImageSilo.Accounts.Tokens
import ImageSilo.Concurrent.Traces
import ImageSilo.Guarantees.Quiescence

/-! A revoked token never authenticates again. -/
namespace ImageSilo.Accounts

open Go Concurrent Tables Publication

variable {P : Platform} {requests : Nat → Request} {σ σ' : State} {ls : Nat → Ledger}
  {ks : Nat → Docket} {i j : Nat} {τ : List (Event (machine P))} {t₀ : Time}
  {w w' : World (machine P) Result}

/-- No call is between its database step and its step of the token index. A purge follows no database
step. -/
def TokensQuiet (w : World (machine P) Result) : Prop :=
  ∀ i s next, w.calls i = .act (.tokenStep s) next → ∃ now, s = .purgeExpired now

/-- No plaintext with this digest authenticates at any time. -/
def Rejected (P : Platform) (σ : State) (hash : Digest) : Prop :=
  ∀ plaintext now i choose, P.sha256 plaintext = hash →
    (machine P).alone i choose (authenticateToken P plaintext now) σ = some (none, σ)

/-- No clock value that a purge or a load of the tokens has used is later. -/
def Latest (t₀ : Time) (τ : List (Event (machine P))) (now : Time) : Prop :=
  t₀ ≤ now ∧ ∀ e ∈ τ, ∀ t ∈ tokenTime e, t ≤ now

theorem tokenUnexpired_mono {s t : Time} {row : ApiToken.Row} (earlier : s ≤ t)
    (unexpired : Database.tokenUnexpired t row = true) : Database.tokenUnexpired s row = true := by
  unfold Database.tokenUnexpired at unexpired ⊢
  rw [Option.all_eq_true] at unexpired ⊢
  intro u expires
  have later := of_decide_eq_true (unexpired u expires)
  exact decide_eq_true (lt_of_le_of_lt (unix_mono earlier) later)

theorem Latest.lasting {now : Time} {row : ApiToken.Row} (latest : Latest t₀ τ now)
    (unexpired : Database.tokenUnexpired now row = true) : Lasting t₀ τ row := by
  constructor
  · exact tokenUnexpired_mono latest.1 unexpired
  · intro e member t timed
    exact tokenUnexpired_mono (latest.2 e member t timed) unexpired

theorem rejected_of_absent {hash : Digest} (absent : σ.tokens.lookup hash = none) :
    Rejected P σ hash := by
  intro plaintext now i choose same
  unfold authenticateToken
  split
  · rfl
  · change some (ApiToken.getToken σ.tokens (P.sha256 plaintext) now, σ) = _
    rw [same, ApiToken.getToken, absent]
    rfl

/-- A call that owes a step of the token index has it before it. -/
theorem owing_call (obeyed : (dockets P requests).Obeyed w ks) {s : ApiToken.IndexStep}
    (single : (ks j).token = none ∨ (ks j).session = none) (owed : (ks j).token = some s) :
    ∃ next, w.calls j = .act (.tokenStep s) next := by
  have obeys := obeyed j
  have busy : ¬ (ks j).Idle := by
    intro idle
    rw [idle.token] at owed
    cases owed
  cases program : w.calls j with
  | done v =>
      rw [program] at obeys
      exact absurd obeys.1 busy
  | act a next =>
      rw [program] at obeys
      have permitted : (ks j).permits P a := obeys.1
      cases a with
      | tokenStep s' =>
          rcases permitted with mine | ⟨idle, -⟩
          · rw [owed] at mine
            cases mine
            exact ⟨next, rfl⟩
          · exact absurd idle busy
      | sessionStep s' =>
          rcases permitted with mine | ⟨idle, -⟩
          · rw [owed, mine] at single
            rcases single with none | none <;> cases none
          · exact absurd idle busy
      | sync s' => exact absurd permitted.1 busy
      | statement q => exact absurd permitted.1 busy
      | _ => exact absurd permitted busy

theorem Tokens.quiet (h : Tokens t₀ τ w.shared ks) (filed : Filed requests w.shared ls ks)
    (obeyed : (dockets P requests).Obeyed w ks) (quiet : TokensQuiet w) :
    ∀ j s, (ks j).token ≠ some s := by
  intro j s owed
  obtain ⟨next, program⟩ := owing_call obeyed (filed.orderly j).single owed
  obtain ⟨now, rfl⟩ := quiet j s next program
  rcases h.owed j _ owed with ⟨_, _, eq, -⟩ | ⟨_, -, eq, -⟩ <;> cases eq

theorem tokens_kept : Kept P requests (plainly P requests) fun τ σ ks => Tokens t₀ τ σ ks where
  call := by
    intro τ w ls ks i a c r σ' _ sound filed tokens permitted performed plain
    refine tokens.step filed sound permitted ?_ performed
    rintro ⟨q, rfl⟩
    exact plain q rfl
  environment := fun tokens moved => tokens.environment moved

/-- Once a revocation has succeeded its token is rejected for good; at rest the index holds exactly
active rows, and all of them that have not expired. -/
theorem revocation (registered : Registered σ) (free : σ.locks = .free)
    (loaded : Lists σ.database (fun row => Database.tokenUnexpired t₀ row = true) σ.tokens)
    {τ' : List (Event (machine P))} (run : Run (plainly P requests) (start P requests σ) τ w)
    (later : Run (plainly P requests) w τ' w') :
    (∀ i id, requests i = .revokeToken id → w.calls i = .done (.tokenRevoked (.ok ())) →
      ∃ row ∈ w'.shared.database.tokens, row.token.id = id ∧ Rejected P w'.shared row.hash) ∧
    (TokensQuiet w' →
      (∀ hash identity, w'.shared.tokens.lookup hash = some identity →
        Active w'.shared.database hash identity) ∧
      ∀ now, Latest t₀ (τ ++ τ') now → ∀ row ∈ w'.shared.database.tokens,
        row.token.isActive = true → Database.tokenUnexpired now row = true →
        ∃ identity, w'.shared.tokens.lookup row.hash = some identity ∧ Answers row identity) := by
  obtain ⟨ls, ks, obeyed, sound, filed, tokens⟩ :=
    docketed serving_serves id tokens_kept registered free (.begin loaded) (run.trans later)
  constructor
  · intro i token asked done
    have finished := obeyed i
    rw [later.finished id done] at finished
    have told : Docket.tells (ks i) (requests i) (.tokenRevoked (.ok ())) := finished.2
    rw [asked] at told
    obtain ⟨row, member, own, -, absent⟩ := tokens.gone i token (told.1 rfl)
    exact ⟨row, member, own, rejected_of_absent absent⟩
  · intro quiet
    have settled := tokens.quiet filed obeyed quiet
    have known : ∀ hash identity, w'.shared.tokens.lookup hash = some identity →
        Active w'.shared.database hash identity := by
      intro hash identity there
      rcases tokens.known hash identity there with active | ⟨j, owed⟩
      · exact active
      · exact absurd owed (settled j _)
    refine ⟨known, fun now latest row member live unexpired => ?_⟩
    rcases tokens.listed row member live (latest.lasting unexpired) with ⟨identity, there⟩ | owes
    · obtain ⟨row', member', same, -, answers⟩ := known row.hash identity there
      obtain rfl := w'.shared.database.tokenHashes.eq member' member same
      exact ⟨identity, there, answers⟩
    · obtain ⟨j, identity, owed⟩ := owes
      exact absurd owed (settled j _)

/-- An active token that never expires. -/
def sampleToken (plaintext : GoString) : ApiToken.Row :=
  ⟨⟨str "a", str "a", plaintext.take 12, [.imagesUpload], none, true, ofUnix 0⟩,
    samplePlatform.sha256 plaintext⟩

/-- An administrator, and the given tokens. -/
def Database.accounts (admin : Auth.Admin) (tokens : List ApiToken.Row)
    (tokenIDs : Unique (fun r : ApiToken.Row => r.token.id) tokens)
    (tokenHashes : Unique ApiToken.Row.hash tokens) : Database where
  images := []
  aliases := []
  admin := some admin
  sessions := []
  tokens := tokens
  imageIDs := List.nodup_nil
  storageKeys := List.nodup_nil
  checked := by simp
  aliasIDs := List.nodup_nil
  aliasPaths := List.nodup_nil
  aliasImages := by simp
  sessionIDs := List.nodup_nil
  sessionHashes := List.nodup_nil
  sessionAdmins := by simp
  tokenIDs := tokenIDs
  tokenHashes := tokenHashes

def sampleAdmin : Auth.Admin :=
  ⟨str "a", str "Ada", str "a@b.c", str "h", ofUnix 0, ofUnix 0⟩

/-- The token in its row and in the index. -/
def tokenState : State :=
  { State.booted (Database.accounts sampleAdmin [sampleToken (str "ist_x")] (List.nodup_singleton _)
      (List.nodup_singleton _)) ⟨fun _ => ∅, ∅, fun _ => none, ∅⟩ 0 with
    tokens := (∅ : ApiToken.Index).insert (sampleToken (str "ist_x")).hash
      (ApiToken.identityFromToken (sampleToken (str "ist_x")).token) }

theorem tokenState_registered : Registered tokenState := by
  have booted := booted_registered tokenState.database tokenState.files 0
  exact ⟨booted.ids, booted.keys, booted.aliases, booted.files⟩

theorem tokenState_loaded : Lists tokenState.database
    (fun row => Database.tokenUnexpired 0 row = true) tokenState.tokens := by
  constructor
  · intro hash identity there
    change ((∅ : ApiToken.Index).insert _ _).lookup hash = some identity at there
    rw [lookup_insert_ite] at there
    split at there
    · rename_i same
      cases there
      exact ⟨_, List.mem_singleton_self _, same.symm, rfl, answers_identity _⟩
    · simp at there
  · intro row member _ _
    obtain rfl := List.mem_singleton.mp member
    exact ⟨_, Finmap.lookup_insert _⟩

/-- A revocation, a reload of the tokens and somebody who shows the token. -/
def revokeAndShow : Nat → Request
  | 0 => .revokeToken (str "a")
  | 1 => .loadTokens (ofUnix 1)
  | _ => .authenticateToken (str "ist_x") (ofUnix 2)

theorem revocation_sample : ∃ τ w τ' w',
    Run (plainly samplePlatform revokeAndShow) (start samplePlatform revokeAndShow tokenState) τ w ∧
      w.calls 0 = .done (.tokenRevoked (.ok ())) ∧
      Run (plainly samplePlatform revokeAndShow) w τ' w' ∧
      w'.calls 1 = .done (.tokensLoaded (.ok ())) ∧ w'.calls 2 = .done (.tokenAuthenticated none) ∧
      Rejected samplePlatform w'.shared (sampleToken (str "ist_x")).hash := by
  obtain ⟨τ, w, τ', w', run, done, later, reloaded, refused, rows⟩ : ∃ τ w τ' w',
      Run (plainly samplePlatform revokeAndShow) (start samplePlatform revokeAndShow tokenState) τ w ∧
      w.calls 0 = .done (.tokenRevoked (.ok ())) ∧
      Run (plainly samplePlatform revokeAndShow) w τ' w' ∧
      w'.calls 1 = .done (.tokensLoaded (.ok ())) ∧ w'.calls 2 = .done (.tokenAuthenticated none) ∧
      w'.shared.database.tokens.map ApiToken.Row.hash = [(sampleToken (str "ist_x")).hash] :=
    ⟨_, _, _, _, .of_execute (List.replicate 6 (0, Choice.normal))
        (fun _ _ _ member _ => plain_scheduled (by simp) member) rfl, rfl,
      .of_execute (List.replicate 5 (1, Choice.normal) ++ [(2, Choice.normal)])
        (fun _ _ _ member _ => plain_scheduled (by simp) member) rfl, rfl, rfl, rfl⟩
  obtain ⟨row, member, -, rejected⟩ :=
    (revocation tokenState_registered rfl tokenState_loaded run later).1 0 (str "a") rfl done
  have own := List.mem_map_of_mem (f := ApiToken.Row.hash) member
  rw [rows, List.mem_singleton] at own
  exact ⟨τ, w, τ', w', run, done, later, reloaded, refused, own ▸ rejected⟩

end ImageSilo.Accounts
