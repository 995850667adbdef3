import ImageSilo.Guarantees.Quiescence
import ImageSilo.Guarantees.Reloads

/-! `status` compares the lengths of the indexes with counts of rows, and the counts of sessions and
tokens leave out what has expired. -/
namespace ImageSilo.Accounts

open Go Concurrent Tables Publication Delivery

variable {P : Platform} {requests : Nat → Request} {σ : State} {ls : Nat → Ledger} {ks : Nat → Docket}
  {τ : List (Event (machine P))} {t₀ now : Time} {w : World (machine P) Result}
  {owes : Auth.SessionStep → Prop} {used : Time → Prop}

section Counts

/-- Every image has its target. -/
theorem images_count (h : Agreement P σ ls) (idle : ∀ j, (ls j).owes = [])
    (whole : ∀ v ∈ σ.database.images, σ.whole v) :
    σ.index.byID.keys.card = σ.database.images.length := by
  have shows' : ∀ id, Shows σ id (σ.index.byID.lookup id) :=
    fun id => h.targets.settled id (by simp [idle])
  have all : ∀ k ∈ σ.database.images.map Image.id, k ∈ σ.index.byID := by
    intro k member
    obtain ⟨v, there, rfl⟩ := List.mem_map.mp member
    rw [← Finmap.lookup_isSome, Option.isSome_iff_ne_none]
    intro absent
    have none := shows' v.id
    rw [absent] at none
    exact none v there rfl (whole v there)
  rw [← List.length_map Image.id]
  refine (card_keys_of_all σ.database.imageIDs all).mpr fun k there => ?_
  obtain ⟨t, found⟩ := Finmap.mem_iff.mp there
  have shown := shows' k
  rw [found] at shown
  obtain ⟨v, member, own, -, -⟩ := shown
  exact List.mem_map.mpr ⟨v, member, own⟩

/-- Every alias has its entry but the one for the root. -/
theorem aliases_count (h : Agreement P σ ls) (idle : ∀ j, (ls j).owes = [])
    (whole : ∀ v ∈ σ.database.images, σ.whole v) :
    σ.index.aliases.keys.card = σ.database.aliases.length ↔
      ∀ m ∈ σ.database.aliases, m.path ≠ str "/" := by
  have leads {path : GoString} (other : path ≠ str "/") :
      Leads σ path (σ.index.aliases.lookup path) := by
    rcases h.mappings.settled path other (by simp [idle]) with leads | ⟨-, id, j, -, owed⟩
    · exact leads
    · rw [idle] at owed
      cases owed
  have none : ∀ k ∈ σ.index.aliases, k ∈ σ.database.aliases.map Alias.path := by
    intro k there
    obtain ⟨id, found⟩ := Finmap.mem_iff.mp there
    have other : k ≠ str "/" := by
      rintro rfl
      rw [h.mappings.root] at found
      cases found
    have led := leads other
    rw [found] at led
    obtain ⟨m, member, own, -⟩ := led
    exact List.mem_map.mpr ⟨m, member, own⟩
  rw [← List.length_map Alias.path, card_keys_of_none σ.database.aliasPaths none]
  constructor
  · intro all m member root
    have there := all m.path (List.mem_map_of_mem member)
    rw [root, ← Finmap.lookup_isSome, h.mappings.root] at there
    cases there
  · intro rootless k member
    obtain ⟨m, there, rfl⟩ := List.mem_map.mp member
    rw [← Finmap.lookup_isSome, Option.isSome_iff_ne_none]
    intro absent
    have led := leads (rootless m there)
    rw [absent] at led
    obtain ⟨v, known, own⟩ := σ.database.aliasImages m there
    exact led m there rfl ⟨v, known, own, whole v known⟩

/-- Sessions are counted alike exactly when no entry has expired. -/
theorem Balanced.count (h : Balanced used σ.database σ.sessions owes) (idle : ∀ step, ¬ owes step)
    (latest : ∀ u, used u → u ≤ now) :
    (σ.sessions.keys.card : Int) = σ.database.sessions.countP (fun s => unix now < unix s.expiresAt) ↔
      ∀ hash identity, σ.sessions.lookup hash = some identity →
        unix now < unix identity.expiresAt := by
  have distinct := (σ.database.sessionHashes.filter fun s => unix now < unix s.expiresAt)
  have listed {hash : Digest} : hash ∈ (σ.database.sessions.filter
      fun s => unix now < unix s.expiresAt).map Auth.Session.tokenHash ↔
        ∃ identity, (hash, identity) ∈ σ.database.activeSessions now := by
    constructor
    · intro member
      obtain ⟨s, selected, rfl⟩ := List.mem_map.mp member
      obtain ⟨known, unexpired⟩ := List.mem_filter.mp selected
      obtain ⟨admin, there, own⟩ := σ.database.sessionAdmins s known
      exact ⟨_, mem_activeSessions.mpr
        ⟨s, known, admin, there, own, by simpa using unexpired, rfl, rfl⟩⟩
    · rintro ⟨identity, member⟩
      obtain ⟨s, known, -, -, -, unexpired, rfl, -⟩ := mem_activeSessions.mp member
      exact List.mem_map_of_mem (List.mem_filter.mpr ⟨known, by simpa using unexpired⟩)
  have all : ∀ k ∈ (σ.database.sessions.filter fun s => unix now < unix s.expiresAt).map
      Auth.Session.tokenHash, k ∈ σ.sessions := by
    intro k member
    obtain ⟨identity, active⟩ := listed.mp member
    obtain ⟨entry, there, -⟩ := (h.agree idle latest _).mpr ⟨identity, active, rfl⟩
    exact Finmap.mem_iff.mpr ⟨entry, there⟩
  rw [List.countP_eq_length_filter, Nat.cast_inj, ← List.length_map Auth.Session.tokenHash,
    card_keys_of_all distinct all]
  constructor
  · intro rows hash identity there
    obtain ⟨identity', active⟩ := listed.mp (rows hash (Finmap.mem_iff.mpr ⟨identity, there⟩))
    obtain ⟨entry, there', later, -⟩ := (h.agree idle latest _).mpr ⟨identity', active, rfl⟩
    obtain rfl := Option.some.inj (there.symm.trans there')
    exact later
  · intro unexpired hash there
    obtain ⟨identity, found⟩ := Finmap.mem_iff.mp there
    obtain ⟨identity', active, -⟩ :=
      (h.agree idle latest _).mp ⟨identity, found, unexpired hash identity found, rfl⟩
    exact listed.mpr ⟨identity', active⟩

/-- The same for tokens. -/
theorem Tokens.count (h : Tokens t₀ τ σ ks) (settled : ∀ j s, (ks j).token ≠ some s)
    (latest : Latest t₀ τ now) :
    (σ.tokens.keys.card : Int) = (σ.database.activeTokens now).length ↔
      ∀ hash identity, σ.tokens.lookup hash = some identity → ∀ t ∈ identity.expiresAt,
        unix now < unix t := by
  have known {hash : Digest} {identity : ApiToken.Identity}
      (there : σ.tokens.lookup hash = some identity) : Active σ.database hash identity := by
    rcases h.known hash identity there with active | ⟨j, owed⟩
    · exact active
    · exact absurd owed (settled j _)
  have distinct : ((σ.database.activeTokens now).map ApiToken.Row.hash).Nodup :=
    σ.database.tokenHashes.filter _
  have all : ∀ k ∈ (σ.database.activeTokens now).map ApiToken.Row.hash, k ∈ σ.tokens := by
    intro k member
    obtain ⟨row, active, rfl⟩ := List.mem_map.mp member
    obtain ⟨there, live, unexpired⟩ := mem_activeTokens.mp active
    rcases h.listed row there live (latest.lasting unexpired) with entry | ⟨j, _, owed⟩
    · exact Finmap.mem_iff.mpr entry
    · exact absurd owed (settled j _)
  -- the row of an entry has expired when the entry has
  have same {row : ApiToken.Row} {identity : ApiToken.Identity} (answers : Answers row identity) :
      Database.tokenUnexpired now row = true ↔ ∀ t ∈ identity.expiresAt, unix now < unix t := by
    have eq := answers.expiresAt
    unfold Database.tokenUnexpired
    rw [Option.all_eq_true]
    cases there : identity.expiresAt with
    | none =>
        rw [there] at eq
        rw [Option.map_eq_none_iff.mp eq.symm]
        simp
    | some t =>
        rw [there] at eq
        obtain ⟨u, found, seconds⟩ := Option.map_eq_some_iff.mp eq.symm
        rw [found]
        simp [seconds]
  rw [Nat.cast_inj, ← List.length_map ApiToken.Row.hash, card_keys_of_all distinct all]
  constructor
  · intro rows hash identity there
    obtain ⟨row, active, own⟩ := List.mem_map.mp (rows hash (Finmap.mem_iff.mpr ⟨identity, there⟩))
    obtain ⟨member, -, unexpired⟩ := mem_activeTokens.mp active
    obtain ⟨row', member', own', -, answers⟩ := known there
    obtain rfl := σ.database.tokenHashes.eq member member' (own.trans own'.symm)
    exact (same answers).mp unexpired
  · intro unexpired hash there
    obtain ⟨identity, found⟩ := Finmap.mem_iff.mp there
    obtain ⟨row, member, own, live, answers⟩ := known found
    exact List.mem_map.mpr ⟨row, mem_activeTokens.mpr
      ⟨member, live, (same answers).mpr (unexpired hash identity found)⟩, own⟩

end Counts

/-- No entry of a session or a token has expired at this second, and no alias is for the root. -/
structure Uneventful (σ : State) (now : Time) : Prop where
  rootless : ∀ m ∈ σ.database.aliases, m.path ≠ str "/"
  sessions : ∀ hash identity, σ.sessions.lookup hash = some identity →
    unix now < unix identity.expiresAt
  tokens : ∀ hash identity, σ.tokens.lookup hash = some identity → ∀ t ∈ identity.expiresAt,
    unix now < unix t

/-- What `status` computes alone. -/
theorem status_counts (σ : State) (now : Time) (i : Nat) :
    ∃ p s, (machine P).alone i (fun _ => .normal) (status now) σ =
      some (.ok (p, s, consistent p s), σ) ∧
      p.imageCount = σ.database.images.length ∧ p.aliasCount = σ.database.aliases.length ∧
      p.activeSessions = σ.database.sessions.countP (fun s => unix now < unix s.expiresAt) ∧
      p.activeTokens = (σ.database.activeTokens now).length ∧
      s = ⟨σ.index.byID.keys.card, σ.index.aliases.keys.card, σ.sessions.keys.card,
        σ.tokens.keys.card⟩ :=
  ⟨_, _, rfl, rfl, rfl, rfl, rfl, rfl⟩

section Runs

/-- Wherever no call is between a database step and an index step, the flag that `status` computes at a
time not before those used so far is true exactly when nothing in the session index and the token index
has expired at this second and no alias is for the root. -/
theorem consistency_flag (begins : Begins P σ)
    (recorded : σ.rowFiles fun v content => (content.length : Int) = v.storedSize)
    (sessions : σ.sessions = mapOf (σ.database.activeSessions t₀))
    (tokens : σ.tokens = tokenMap σ.database t₀) (noDaily : ∀ i age, requests i ≠ .daily age)
    (run : Run (orderly P requests) (start P requests σ) τ w) (quiet : Quiet w)
    (still : SessionsQuiet w) (settled : TokensSettled w) (latest : ∀ u, Used t₀ τ u → u ≤ now)
    (timely : Latest t₀ τ now) (i : Nat) :
    ∃ p s flag, (machine P).alone i (fun _ => .normal) (status now) w.shared =
      some (.ok (p, s, flag), w.shared) ∧ (flag = true ↔ Uneventful w.shared now) := by
  -- the delivery index
  have plain : Run (plainly P requests) (start P requests σ) τ w :=
    run.relax rfl rfl id fun _ _ admitted => admitted.2
  obtain ⟨ls, obeyed, -, agreement, whole⟩ := followed (agreement_keeps noDaily) begins.registered
    begins.free ⟨.begin begins.indexed, begins_whole begins recorded⟩ plain
  have idle := quiet.idle obeyed
  -- the indexes of the accounts
  have loaded : Lists σ.database (fun row => Database.tokenUnexpired t₀ row = true) σ.tokens :=
    tokens ▸ lists_loaded t₀
  obtain ⟨_, ks, obeyed', -, filed, balance, index⟩ := docketed serving_serves id accounts_kept
    begins.registered begins.free ⟨.begin sessions, .begin loaded⟩ run
  have unowed : ∀ step, ¬ Owes ks step := by
    rintro step ⟨j, owed⟩
    obtain ⟨next, program⟩ := owing_step obeyed' (filed.orderly j) owed
    obtain ⟨m, rfl⟩ := still j step next program
    exact (filed.orderly j).backed _ owed
  have paid : ∀ j s, (ks j).token ≠ some s := by
    intro j s owed
    obtain ⟨next, program⟩ := owing_call obeyed' (filed.orderly j).single owed
    rcases index.owed j s owed with ⟨_, _, rfl, -⟩ | ⟨_, -, rfl, -⟩
    · rcases settled j _ next program with ⟨_, ⟨⟩⟩ | ⟨_, ⟨⟩⟩
    · rcases settled j _ next program with ⟨_, ⟨⟩⟩ | ⟨_, ⟨⟩⟩
  obtain ⟨p, s, computed, images, aliases, active, live, rfl⟩ := status_counts w.shared now i
  refine ⟨p, _, _, computed, ?_⟩
  have imagesEqual := images_count agreement idle whole
  have aliasesEqual := aliases_count agreement idle whole
  have sessionsEqual := balance.balanced.count unowed latest
  have tokensEqual := index.count paid timely
  simp only [consistent, Bool.and_eq_true, beq_iff_eq, images, aliases, active, live, Nat.cast_inj,
    imagesEqual, aliasesEqual, sessionsEqual, tokensEqual, true_and]
  constructor
  · rintro ⟨⟨rootless, unexpired⟩, unexpired'⟩
    exact ⟨rootless, unexpired, unexpired'⟩
  · intro uneventful
    exact ⟨⟨uneventful.rootless, uneventful.sessions⟩, uneventful.tokens⟩

/-- The flag after a login. -/
theorem consistency_flag_sample : ∃ w : World (machine verifyingPlatform) Result,
    (w.shared.sessions.lookup (verifyingPlatform.sha256 (str "iss_other"))).isSome = true ∧
      ∃ p s, (machine verifyingPlatform).alone 1 (fun _ => .normal) (status 0) w.shared =
        some (.ok (p, s, true), w.shared) := by
  obtain ⟨τ, w, turns, ended, times, timely, rootless, tokens, -, identity, expires, entered⟩ :=
    login_runs
  have begins : Begins verifyingPlatform verifiedState := ⟨booted_registered _ _ _, rfl, _, rfl, rfl⟩
  have quiet : Quiet w := by
    intro i s next program
    obtain ⟨v, done⟩ := ended i
    rw [done] at program
    cases program
  have settled : TokensSettled w := by
    intro i s next program
    obtain ⟨v, done⟩ := ended i
    rw [done] at program
    cases program
  obtain ⟨p, s, flag, computed, consistent⟩ := consistency_flag begins
    (fun _ member => absurd member List.not_mem_nil) rfl rfl
    (by intro i age; cases i <;> simp [loginRequests]) (inTurn_orderly turns) quiet (over_quiet ended) settled
    (latest_of_untimed times) (timely_of_untimed timely) 1
  have uneventful : Uneventful w.shared 0 := by
    refine ⟨by simp [rootless], ?_, by simp [tokens]⟩
    intro hash identity' there
    rw [entered, lookup_insert_ite] at there
    split at there
    · cases there
      rw [expires]
      decide
    · simp at there
  rw [consistent.mpr uneventful] at computed
  exact ⟨w, by rw [entered, Finmap.lookup_insert]; rfl, p, s, computed⟩

/-- Two days after a login the flag is false. -/
theorem expired_session_alarms : ∃ τ w,
    Run (inTurn verifyingPlatform loginRequests) (start verifyingPlatform loginRequests verifiedState)
      τ w ∧ (∀ i, ∃ v, w.calls i = .done v) ∧
    ∃ p s, (machine verifyingPlatform).alone 1 (fun _ => .normal) (status 172800000000000) w.shared =
      some (.ok (p, s, false), w.shared) := by
  obtain ⟨τ, w, turns, ended, -, -, -, -, rows, identity, -, entered⟩ := login_runs
  obtain ⟨p, s, computed, -, -, active, -, rfl⟩ := status_counts w.shared 172800000000000 1
  have none : w.shared.database.sessions.countP
      (fun s => unix 172800000000000 < unix s.expiresAt) = 0 := by
    rw [List.countP_eq_zero]
    intro s member
    have expires := List.mem_map_of_mem (f := Auth.Session.expiresAt) member
    rw [rows, List.mem_singleton] at expires
    rw [expires]
    decide
  have one : w.shared.sessions.keys.card = 1 := by
    rw [entered]
    rfl
  rw [none] at active
  have alarm : consistent p ⟨w.shared.index.byID.keys.card, w.shared.index.aliases.keys.card,
      w.shared.sessions.keys.card, w.shared.tokens.keys.card⟩ = false := by
    simp [consistent, active, one]
  rw [alarm] at computed
  exact ⟨τ, w, turns, ended, p, _, computed⟩

end Runs

end ImageSilo.Accounts
