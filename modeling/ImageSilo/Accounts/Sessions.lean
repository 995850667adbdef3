import ImageSilo.Accounts.Balance
import ImageSilo.Accounts.Mutexes

/-! The session table and the session index are balanced by the steps that calls owe. -/
namespace ImageSilo.Accounts

open Go Concurrent Tables Publication

variable {P : Platform} {requests : Nat → Request} {σ σ' : State} {ls : Nat → Ledger}
  {ks : Nat → Docket} {i j : Nat} {a : Action} {c : Choice} {r : Response a} {d : Docket}
  {τ : List (Event (machine P))} {e : Event (machine P)} {t₀ : Time}
  {w : World (machine P) Result} {owing : Auth.SessionStep}

/-- The time at which a step lets sessions expire. -/
def sessionTime (e : Event (machine P)) : Option Time :=
  match e.action with
  | .sessionStep (.purgeExpired now) => some now
  | .statement (.deleteExpiredSessions now) => some now
  | .statement (.listActiveSessions now) => some now
  | _ => none

/-- The times at which sessions have been let expire. -/
def Used (t₀ : Time) (τ : List (Event (machine P))) (t : Time) : Prop :=
  t = t₀ ∨ ∃ e ∈ τ, sessionTime e = some t

/-- Some call owes this step of the index. -/
def Owes (ks : Nat → Docket) (step : Auth.SessionStep) : Prop := ∃ j, (ks j).session = some step

/-- No session is logged out between the two steps of its login, and no login inserts a session between
the two steps of a logout with its digest. -/
def Spaced (w : World (machine P) Result) (e : Event (machine P)) : Prop :=
  (∀ s, e.action = .statement (.createSession s) → ∀ j next,
    w.calls j ≠ .act (.sessionStep (.remove s.tokenHash)) next) ∧
  ∀ hash, e.action = .statement (.deleteSessionByHash hash) → ∀ j identity next,
    w.calls j ≠ .act (.sessionStep (.add hash identity)) next

structure Sessions (t₀ : Time) (τ : List (Event (machine P))) (σ : State) (ks : Nat → Docket) :
    Prop where
  balanced : Balanced (Used t₀ τ) σ.database σ.sessions (Owes ks)
  noted : ∀ j admin, (ks j).admin = some admin → σ.database.admin = some admin
  loaded : ∀ j m, (ks j).sessions = some m →
    Balanced (Used t₀ τ) σ.database m fun _ => False

section Debts

theorem Used.later {t : Time} (h : Used t₀ τ t) : Used t₀ (τ ++ [e]) t := by
  rcases h with rfl | ⟨e', member, timed⟩
  · exact .inl rfl
  · exact .inr ⟨e', List.mem_append_left _ member, timed⟩

theorem Used.now {t : Time} (timed : sessionTime e = some t) : Used t₀ (τ ++ [e]) t :=
  .inr ⟨e, List.mem_append_right _ (List.mem_singleton_self e), timed⟩

/-- A call that owed nothing may owe a step now. -/
theorem owes_update (idle : (ks i).session = none) :
    Owes (Function.update ks i d) owing ↔ Owes ks owing ∨ d.session = some owing := by
  constructor
  · rintro ⟨j, owed⟩
    by_cases self : j = i
    · subst self
      rw [Function.update_self] at owed
      exact .inr owed
    · rw [Function.update_of_ne self] at owed
      exact .inl ⟨j, owed⟩
  · rintro (⟨j, owed⟩ | owed)
    · have other : j ≠ i := by
        rintro rfl
        rw [idle] at owed
        cases owed
      exact ⟨j, by rw [Function.update_of_ne other]; exact owed⟩
    · exact ⟨i, by rw [Function.update_self]; exact owed⟩

theorem owes_same (session : d.session = (ks i).session) :
    Owes (Function.update ks i d) owing ↔ Owes ks owing := by
  have same : ∀ j, (Function.update ks i d j).session = (ks j).session := by
    intro j
    by_cases self : j = i
    · rw [self, Function.update_self]
      exact session
    · rw [Function.update_of_ne self]
  simp only [Owes, same]

/-- A call that has paid owes nothing. -/
theorem owes_fewer (none : d.session = none) (owed : Owes (Function.update ks i d) owing) :
    Owes ks owing := by
  obtain ⟨j, owed⟩ := owed
  by_cases self : j = i
  · subst self
    rw [Function.update_self, none] at owed
    cases owed
  · rw [Function.update_of_ne self] at owed
    exact ⟨j, owed⟩

theorem owes_rest {other : Auth.SessionStep} (own : (ks i).session = some owing)
    (owed : Owes ks other) : other = owing ∨ Owes (Function.update ks i d) other := by
  obtain ⟨j, owed⟩ := owed
  by_cases self : j = i
  · subst self
    exact .inl (Option.some.inj (owed.symm.trans own))
  · exact .inr ⟨j, by rw [Function.update_of_ne self]; exact owed⟩

/-- The holder of the credentials mutex owes what is owed under it. -/
theorem Filed.unguarded (filed : Filed requests σ ls ks) (held : (ks i).credentials = true)
    (idle : (ks i).session = none) : Unguarded (Owes ks) := by
  have mine {j : Nat} {other : Auth.SessionStep} (holds : (ks j).credentials = true)
      (owed : (ks j).session = some other) : False := by
    rw [filed.keeper held holds, idle] at owed
    cases owed
  refine ⟨?_, ?_, ?_⟩
  · rintro hash identity ⟨j, owed⟩
    exact mine ((filed.orderly j).backed _ owed) owed
  · rintro kept ⟨j, owed⟩
    exact mine ((filed.orderly j).backed _ owed) owed
  · rintro adminID displayName email ⟨j, owed⟩
    exact mine ((filed.orderly j).backed _ owed) owed

/-- A call that owes a step of the session index has it before it. -/
theorem owing_step (obeyed : (dockets P requests).Obeyed w ks) (orderly : Orderly (ks j))
    (owed : (ks j).session = some owing) : ∃ next, w.calls j = .act (.sessionStep owing) next := by
  have obeys := obeyed j
  have busy : ¬ (ks j).Idle := by
    intro idle
    rw [idle.session] at owed
    cases owed
  cases program : w.calls j with
  | done v =>
      rw [program] at obeys
      exact absurd obeys.1 busy
  | act a next =>
      rw [program] at obeys
      have permitted : (ks j).permits P a := obeys.1
      cases a with
      | sessionStep s =>
          rcases permitted with mine | ⟨idle, -⟩
          · rw [owed] at mine
            cases mine
            exact ⟨next, rfl⟩
          · exact absurd idle busy
      | tokenStep s =>
          rcases permitted with mine | ⟨idle, -⟩
          · rcases orderly.single with none | none
            · rw [mine] at none
              cases none
            · rw [owed] at none
              cases none
          · exact absurd idle busy
      | sync s => exact absurd permitted.1 busy
      | statement q => exact absurd permitted.1 busy
      | _ => exact absurd permitted busy

end Debts

section Steps

/-- While a call changes something, no map of sessions is loaded. -/
theorem Filed.no_sessions (filed : Filed requests σ ls ks) (sound : Sound P requests σ ls)
    (changing : (ks i).hold = .shared) (j : Nat) (m : Auth.SessionIndex) : (ks j).sessions ≠ some m :=
  fun loaded => filed.unloaded sound changing j ((filed.orderly j).sessions m loaded)

/-- A step inside a change: no map is loaded. -/
theorem Sessions.within (filed : Filed requests σ ls ks) (sound : Sound P requests σ ls)
    (changing : (ks i).hold = .shared) (sessions : d.sessions = (ks i).sessions)
    (balanced : Balanced (Used t₀ (τ ++ [e])) σ'.database σ'.sessions (Owes (Function.update ks i d)))
    (noted : ∀ j admin, (Function.update ks i d j).admin = some admin →
      σ'.database.admin = some admin) : Sessions t₀ (τ ++ [e]) σ' (Function.update ks i d) where
  balanced := balanced
  noted := noted
  loaded j m loaded := by
    have before : (ks j).sessions = some m := by
      by_cases self : j = i
      · subst self
        rwa [Function.update_self, sessions] at loaded
      · rwa [Function.update_of_ne self] at loaded
    exact absurd before (filed.no_sessions sound changing j m)

/-- What calls have read of an administrator that stays as he is. -/
theorem Sessions.still_noted (h : Sessions t₀ τ σ ks) (row : σ'.database.admin = σ.database.admin)
    (admin : d.admin = (ks i).admin) (j : Nat) (noted : Auth.Admin)
    (there : (Function.update ks i d j).admin = some noted) : σ'.database.admin = some noted := by
  rw [row]
  by_cases self : j = i
  · subst self
    rw [Function.update_self, admin] at there
    exact h.noted j noted there
  · rw [Function.update_of_ne self] at there
    exact h.noted j noted there

/-- Nobody has read the administrator whom the holder of the mutex changes. -/
theorem Filed.none_noted (filed : Filed requests σ ls ks) (held : (ks i).credentials = true)
    (none : d.admin = none) (j : Nat) (noted : Auth.Admin) :
    (Function.update ks i d j).admin ≠ some noted := by
  intro there
  by_cases self : j = i
  · subst self
    rw [Function.update_self, none] at there
    cases there
  · rw [Function.update_of_ne self] at there
    exact self (filed.keeper held ((filed.orderly j).admin noted there))

/-- A step that is not about sessions. -/
theorem Sessions.frame (h : Sessions t₀ τ σ ks) (tables : σ'.database.sessions = σ.database.sessions)
    (row : σ'.database.admin = σ.database.admin) (index : σ'.sessions = σ.sessions)
    (session : d.session = (ks i).session)
    (admin : ∀ admin, d.admin = some admin →
      (ks i).admin = some admin ∨ σ.database.admin = some admin)
    (loaded : ∀ m, d.sessions = some m → (ks i).sessions = some m ∨
      Balanced (Used t₀ (τ ++ [e])) σ'.database m fun _ => False) :
    Sessions t₀ (τ ++ [e]) σ' (Function.update ks i d) := by
  have same : ∀ admin', σ'.database.admin = some admin' → ∃ admin, σ.database.admin = some admin ∧
      admin'.id = admin.id ∧ admin'.displayName = admin.displayName ∧ admin'.email = admin.email :=
    fun admin' there => ⟨admin', row ▸ there, rfl, rfl, rfl⟩
  constructor
  · rw [index]
    exact h.balanced.congr (fun _ => Used.later) tables same fun step => owes_same session
  · intro j noted there
    rw [row]
    by_cases self : j = i
    · subst self
      rw [Function.update_self] at there
      rcases admin noted there with before | now
      · exact h.noted j noted before
      · exact now
    · rw [Function.update_of_ne self] at there
      exact h.noted j noted there
  · intro j m noted
    have before (told : (ks j).sessions = some m) :
        Balanced (Used t₀ (τ ++ [e])) σ'.database m fun _ => False :=
      (h.loaded j m told).congr (fun _ => Used.later) tables same fun _ => Iff.rfl
    by_cases self : j = i
    · subst self
      rw [Function.update_self] at noted
      exact (loaded m noted).elim before id
    · rw [Function.update_of_ne self] at noted
      exact before noted

/-- A login inserts its session. -/
theorem Sessions.opened {s : Auth.Session} {db' : Database} (h : Sessions t₀ τ σ ks)
    (filed : Filed requests σ ls ks) (sound : Sound P requests σ ls) (idle : (ks i).Idle)
    (allowed : (ks i).allows P (.createSession s))
    (inserted : σ.database.insertSession (storedSession s) = some db')
    (staying : ¬ Owes ks (.remove s.tokenHash)) :
    Sessions t₀ (τ ++ [e]) { σ with database := db' }
      (Function.update ks i ((ks i).recordStatement (.createSession s) (.ok ()))) := by
  obtain ⟨changing, held, admin, _, _, _, _, noted, own, -⟩ := allowed
  obtain ⟨sessions, -, same, fresh⟩ := insertSession_some inserted
  have there := h.noted i admin noted
  refine .within filed sound changing rfl ?_ (h.still_noted same rfl)
  refine h.balanced.opened (s := storedSession s) (fun _ => Used.later) sessions same fresh
    (filed.unguarded held idle.session) staying (describes_identityOf s admin).stored ?_ ?_ ?_
  · intro row known
    obtain rfl := Option.some.inj (there.symm.trans known)
    exact ⟨rfl, rfl⟩
  · intro row known
    obtain rfl := Option.some.inj (there.symm.trans known)
    exact own
  · intro step
    rw [owes_update idle.session]
    refine or_congr_right ?_
    change (ks i).admin.map _ = some step ↔ _
    rw [noted, Option.map_some, Option.some.injEq, eq_comm]
    exact Iff.rfl

/-- A logout deletes its session. -/
theorem Sessions.closed {hash : Digest} (h : Sessions t₀ τ σ ks) (filed : Filed requests σ ls ks)
    (sound : Sound P requests σ ls) (idle : (ks i).Idle) (changing : (ks i).hold = .shared)
    (apart : ∀ identity, ¬ Owes ks (.add hash identity)) :
    Sessions t₀ (τ ++ [e])
      { σ with database := σ.database.removeSessions fun s => s.tokenHash == hash }
      (Function.update ks i ((ks i).recordStatement (.deleteSessionByHash hash) (.ok ()))) := by
  refine .within filed sound changing rfl ?_ (h.still_noted rfl rfl)
  have owed {step : Auth.SessionStep} : Owes (Function.update ks i
      ((ks i).recordStatement (.deleteSessionByHash hash) (.ok ()))) step ↔
        Owes ks step ∨ some (.remove hash) = some step := owes_update idle.session
  refine h.balanced.dropped (fun _ => Used.later) (fun s member => List.mem_of_mem_filter member)
    (fun admin there => ⟨admin, there, rfl, rfl, rfl⟩) ?_ ?_ (fun step before => owed.mpr (.inl before))
    ?_
  · intro s member
    by_cases own : s.tokenHash = hash
    · exact .inr (.inl (owed.mpr (.inr (by rw [own]))))
    · exact .inl (List.mem_filter.mpr ⟨member, by simpa using own⟩)
  · intro hash' identity adding s member own
    refine .inl (List.mem_filter.mpr ⟨member, ?_⟩)
    have other : s.tokenHash ≠ hash := by
      rintro rfl
      exact apart identity (own ▸ adding)
    simpa using other
  · intro step now
    refine (owed.mp now).imp_right ?_
    rintro ⟨⟩ s member
    simpa using (List.mem_filter.mp member).2

/-- A cleanup deletes what has expired. -/
theorem Sessions.expired {now : Time} (count : Int) (h : Sessions t₀ τ σ ks)
    (filed : Filed requests σ ls ks) (sound : Sound P requests σ ls) (idle : (ks i).Idle)
    (changing : (ks i).hold = .shared) (timed : sessionTime e = some now) :
    Sessions t₀ (τ ++ [e])
      { σ with database := σ.database.removeSessions fun s => unix s.expiresAt ≤ unix now }
      (Function.update ks i ((ks i).recordStatement (.deleteExpiredSessions now) (.ok count))) := by
  refine .within filed sound changing rfl ?_ (h.still_noted rfl rfl)
  have owed {step : Auth.SessionStep} : Owes (Function.update ks i
      ((ks i).recordStatement (.deleteExpiredSessions now) (.ok count))) step ↔
        Owes ks step ∨ some (.purgeExpired now) = some step := owes_update idle.session
  have fate (s : Auth.Session) (member : s ∈ σ.database.sessions) :
      s ∈ (σ.database.removeSessions fun s => unix s.expiresAt ≤ unix now).sessions ∨
        ∃ t, Used t₀ (τ ++ [e]) t ∧ unix s.expiresAt ≤ unix t := by
    by_cases late : unix s.expiresAt ≤ unix now
    · exact .inr ⟨now, .now timed, late⟩
    · exact .inl (List.mem_filter.mpr ⟨member, by simpa using late⟩)
  refine h.balanced.dropped (fun _ => Used.later) (fun s member => List.mem_of_mem_filter member)
    (fun admin there => ⟨admin, there, rfl, rfl, rfl⟩) ?_ ?_ (fun step before => owed.mpr (.inl before))
    ?_
  · exact fun s member => (fate s member).imp_right fun late => .inr (.inr late)
  · exact fun hash identity _ s member _ => fate s member
  · intro step now
    refine (owed.mp now).imp_right ?_
    rintro ⟨⟩
    trivial

/-- A change of the password deletes the other sessions. -/
theorem Sessions.secured {adminID passwordHash : GoString} {kept : Digest} {now : Time}
    {admin : Auth.Admin} {db' : Database} (h : Sessions t₀ τ σ ks) (filed : Filed requests σ ls ks)
    (sound : Sound P requests σ ls) (idle : (ks i).Idle)
    (allowed : (ks i).allows P (.changePassword adminID passwordHash kept now))
    (there : σ.database.admin = some admin) (own : admin.id = adminID)
    (written : db'.admin = some { admin with
      passwordHash := passwordHash, updatedAt := ofUnix (unix now) })
    (sessions : db'.sessions = σ.database.sessions.filter fun s =>
      !(s.adminID == adminID && s.tokenHash != kept)) :
    Sessions t₀ (τ ++ [e]) { σ with database := db' } (Function.update ks i
      ((ks i).recordStatement (.changePassword adminID passwordHash kept now) (.ok ()))) := by
  obtain ⟨changing, held, -⟩ := allowed
  refine .within filed sound changing rfl ?_ fun j noted there =>
    absurd there (filed.none_noted held rfl j noted)
  have unguarded := filed.unguarded held idle.session
  have owed {step : Auth.SessionStep} : Owes (Function.update ks i
      ((ks i).recordStatement (.changePassword adminID passwordHash kept now) (.ok ()))) step ↔
        Owes ks step ∨ some (.removeAllExcept kept) = some step := owes_update idle.session
  have stays (s : Auth.Session) : s ∈ db'.sessions ↔
      s ∈ σ.database.sessions ∧ s.tokenHash = kept := by
    rw [sessions, List.mem_filter]
    refine and_congr_right fun member => ?_
    obtain ⟨admin', there', mine⟩ := σ.database.sessionAdmins s member
    obtain rfl : admin = admin' := Option.some.inj (there.symm.trans there')
    have same : s.adminID = adminID := mine.symm.trans own
    simp [same]
  refine h.balanced.dropped (fun _ => Used.later) (fun s member => ((stays s).mp member).1) ?_ ?_ ?_
    (fun step before => owed.mpr (.inl before)) ?_
  · intro row known
    rw [written] at known
    cases known
    exact ⟨admin, there, rfl, rfl, rfl⟩
  · intro s member
    by_cases survives : s.tokenHash = kept
    · exact .inl ((stays s).mpr ⟨member, survives⟩)
    · exact .inr (.inr (.inl ⟨kept, Ne.symm survives, owed.mpr (.inr rfl)⟩))
  · exact fun hash identity adding => absurd adding (unguarded.1 _ _)
  · intro step now
    refine (owed.mp now).imp_right ?_
    rintro ⟨⟩ s member
    exact ((stays s).mp member).2

/-- The administrator is called by another name. -/
theorem Sessions.renamed {adminID displayName email : GoString} {now : Time} {admin : Auth.Admin}
    {db' : Database} (h : Sessions t₀ τ σ ks) (filed : Filed requests σ ls ks)
    (sound : Sound P requests σ ls) (idle : (ks i).Idle)
    (allowed : (ks i).allows P (.updateProfile adminID displayName email now))
    (there : σ.database.admin = some admin) (own : admin.id = adminID)
    (written : db'.admin = some { admin with
      displayName := displayName, email := email, updatedAt := ofUnix (unix now) })
    (sessions : db'.sessions = σ.database.sessions) :
    Sessions t₀ (τ ++ [e]) { σ with database := db' } (Function.update ks i
      ((ks i).recordStatement (.updateProfile adminID displayName email now) (.ok true))) := by
  obtain ⟨changing, held⟩ := allowed
  refine .within filed sound changing rfl ?_ fun j noted there =>
    absurd there (filed.none_noted held rfl j noted)
  refine h.balanced.renamed (fun _ => Used.later) sessions there written
    (filed.unguarded held idle.session) fun step => ?_
  rw [owes_update idle.session, own]
  refine or_congr_right ?_
  change some _ = some step ↔ _
  rw [Option.some.injEq, eq_comm]

/-- A statement that leaves the accounts alone. -/
theorem Sessions.leaving {q : Statement} {r : Response (.statement q)} (h : Sessions t₀ τ σ ks)
    (leaving : Leaving q r) (same : Same σ.database σ'.database)
    (performed : σ.perform P i (.statement q) c = some (r, σ')) :
    Sessions t₀ (τ ++ [⟨i, .statement q, c, r⟩]) σ'
      (Function.update ks i ((ks i).recordStatement q r)) := by
  have index : σ'.sessions = σ.sessions := (perform_frame performed).sessions (by simp)
  unfold Docket.recordStatement
  split
  case h_1 | h_2 =>
      obtain ⟨answer, -⟩ := statement_answer performed (by simp)
      refine h.frame same.sessions same.admin index rfl (fun admin told => ?_) fun _ loaded => .inl loaded
      cases told
      exact .inr (Option.filter_eq_some_iff.mp (orNoRows_ok answer)).1
  case h_8 now rows =>
      obtain ⟨answer, state⟩ := statement_answer performed (by simp)
      obtain rfl : σ' = σ := state
      cases answer
      refine h.frame rfl rfl rfl rfl (fun _ told => .inl told) fun m loaded => ?_
      cases loaded
      exact .inr (balanced_loaded _ (.now rfl))
  case h_3 | h_4 | h_5 | h_6 | h_7 | h_9 | h_10 => exact leaving.elim
  all_goals
    exact h.frame same.sessions same.admin index rfl (fun _ told => .inl told) fun _ loaded => .inl loaded

theorem Sessions.statement {q : Statement} {r : Response (.statement q)} (h : Sessions t₀ τ σ ks)
    (filed : Filed requests σ ls ks) (sound : Sound P requests σ ls)
    (permitted : (ks i).permits P (.statement q))
    (performed : σ.perform P i (.statement q) c = some (r, σ'))
    (staying : ∀ s, q = .createSession s → ¬ Owes ks (.remove s.tokenHash))
    (apart : ∀ hash, q = .deleteSessionByHash hash → ∀ identity, ¬ Owes ks (.add hash identity)) :
    Sessions t₀ (τ ++ [⟨i, .statement q, c, r⟩]) σ'
      (Function.update ks i ((ks i).record (.statement q) r)) := by
  obtain ⟨idle, allowed⟩ := permitted
  have amend := statement_amend (q := q) performed
  obtain ⟨db', rfl⟩ := statement_state (q := q) performed
  cases amend with
  | renamed adminID displayName email now admin db' there own written sessions tokens =>
      exact h.renamed filed sound idle allowed there own written sessions
  | opened s db' inserted => exact h.opened filed sound idle allowed inserted (staying s rfl)
  | closed hash => exact h.closed filed sound idle allowed (apart hash rfl)
  | expired now count => exact h.expired count filed sound idle allowed.1 rfl
  | secured adminID passwordHash kept now admin db' there own written sessions tokens =>
      exact h.secured filed sound idle allowed there own written sessions
  | issued t hash db' inserted =>
      obtain ⟨-, sessions, admin, -⟩ := insertToken_some inserted
      exact h.frame sessions admin rfl rfl (fun _ told => .inl told) fun _ loaded => .inl loaded
  | revoked | revokedUnseen | missing =>
      exact h.frame rfl rfl rfl rfl (fun _ told => .inl told) fun _ loaded => .inl loaded
  | none _ _ _ leaving same => exact h.leaving leaving same performed

/-- A step of the index, by the call that owes it or by one that has loaded a map. -/
theorem Sessions.sessionStep {s : Auth.SessionStep} {r : Response (.sessionStep s)}
    (h : Sessions t₀ τ σ ks) (filed : Filed requests σ ls ks) (sound : Sound P requests σ ls)
    (permitted : (ks i).permits P (.sessionStep s))
    (performed : σ.perform P i (.sessionStep s) c = some (r, σ')) :
    Sessions t₀ (τ ++ [⟨i, .sessionStep s, c, r⟩]) σ'
      (Function.update ks i ((ks i).record (.sessionStep s) r)) := by
  cases performed
  have later : ∀ t, Used t₀ τ t → Used t₀ (τ ++ [⟨i, .sessionStep s, c, ()⟩]) t := fun _ => Used.later
  refine ⟨?_, h.still_noted rfl rfl, ?_⟩
  · rcases permitted with owed | ⟨-, rebuilds, loaded, noted, rfl⟩
    · have debt : Owes ks s := ⟨i, owed⟩
      have fewer : ∀ step, Owes (Function.update ks i ((ks i).record (.sessionStep s) ())) step →
          Owes ks step := fun step => owes_fewer rfl
      have rest : ∀ step, Owes ks step → step = s ∨
          Owes (Function.update ks i ((ks i).record (.sessionStep s) ())) step :=
        fun step => owes_rest owed
      cases s with
      | replace m => exact ((filed.orderly i).backed _ owed).elim
      | add hash identity => exact h.balanced.added later debt fewer rest
      | remove hash => exact h.balanced.removed later debt fewer rest
      | removeAllExcept kept => exact h.balanced.pruned later debt fewer rest
      | updateAdmin adminID displayName email => exact h.balanced.called later debt fewer rest
      | purgeExpired now => exact h.balanced.purged later (.now rfl) fewer rest
    · refine (h.loaded i loaded noted).congr later rfl (fun admin there => ⟨admin, there, rfl, rfl, rfl⟩)
        fun step => ⟨fun owed => ?_, False.elim⟩
      obtain ⟨j, owed⟩ := owes_fewer rfl owed
      rw [(filed.undisturbed sound rebuilds j).2] at owed
      cases owed
  · intro j m told
    have before : (ks j).sessions = some m := by
      by_cases self : j = i
      · subst self
        rwa [Function.update_self] at told
      · rwa [Function.update_of_ne self] at told
    exact (h.loaded j m before).congr later rfl (fun admin there => ⟨admin, there, rfl, rfl, rfl⟩)
      fun _ => Iff.rfl

theorem Sessions.step (h : Sessions t₀ τ σ ks) (filed : Filed requests σ ls ks)
    (sound : Sound P requests σ ls) (permitted : (ks i).permits P a)
    (performed : σ.perform P i a c = some (r, σ'))
    (staying : ∀ s, a = .statement (.createSession s) → ¬ Owes ks (.remove s.tokenHash))
    (apart : ∀ hash, a = .statement (.deleteSessionByHash hash) →
      ∀ identity, ¬ Owes ks (.add hash identity)) :
    Sessions t₀ (τ ++ [⟨i, a, c, r⟩]) σ' (Function.update ks i ((ks i).record a r)) := by
  have frame := perform_frame performed
  cases a with
  | statement q =>
      exact h.statement filed sound permitted performed (fun s same => staying s (same ▸ rfl))
        fun hash same => apart hash (same ▸ rfl)
  | sessionStep s => exact h.sessionStep filed sound permitted performed
  | sync s =>
      have database := frame.database (by simp)
      refine h.frame (congrArg Database.sessions database) (congrArg Database.admin database)
        (frame.sessions (by simp)) ?_ ?_ ?_
      · cases s <;> rfl
      · intro admin told
        cases s <;> first | exact .inl told | cases told
      · intro m loaded
        cases s <;> first | exact .inl loaded | cases loaded
  | tokenStep s =>
      have database := frame.database (by simp)
      obtain ⟨gone, eq⟩ := recordToken_frame (ks i) s
      rw [Docket.record, eq]
      exact h.frame (congrArg Database.sessions database) (congrArg Database.admin database)
        (frame.sessions (by simp)) rfl (fun _ told => .inl told) fun _ loaded => .inl loaded
  | _ =>
      have database := frame.database (by simp)
      obtain ⟨drawn, eq⟩ := record_frame (ks i) _ r (by simp) (by simp) (by simp) (by simp)
      rw [eq]
      exact h.frame (congrArg Database.sessions database) (congrArg Database.admin database)
        (frame.sessions (by simp)) rfl (fun _ told => .inl told) fun _ loaded => .inl loaded

theorem Sessions.environment (h : Sessions t₀ τ σ ks) (moved : σ.environment σ') :
    Sessions t₀ τ σ' ks := by
  obtain ⟨t, -, rfl⟩ := moved
  exact ⟨h.balanced, h.noted, h.loaded⟩

theorem Sessions.begin (loaded : σ.sessions = mapOf (σ.database.activeSessions t₀)) :
    Sessions t₀ ([] : List (Event (machine P))) σ fun j => Docket.begin (requests j) where
  balanced := by
    rw [loaded]
    refine (balanced_loaded _ (.inl rfl)).congr (fun _ passed => passed) rfl
      (fun admin there => ⟨admin, there, rfl, rfl, rfl⟩) fun step => ⟨?_, False.elim⟩
    rintro ⟨j, owed⟩
    cases owed
  noted j admin noted := by cases noted
  loaded j m loaded := by cases loaded

end Steps

/-- Calls whose logins and logouts keep apart. -/
theorem sessions_kept : Kept P requests (serving P requests False Spaced)
    fun τ σ ks => Sessions t₀ τ σ ks where
  call := by
    intro τ w ls ks i a c r σ' obeyed sound filed sessions permitted performed spaced
    refine sessions.step filed sound permitted performed ?_ ?_
    · rintro s same ⟨j, owed⟩
      obtain ⟨next, program⟩ := owing_step obeyed (filed.orderly j) owed
      exact spaced.1 s same j next program
    · rintro hash same identity ⟨j, owed⟩
      obtain ⟨next, program⟩ := owing_step obeyed (filed.orderly j) owed
      exact spaced.2 hash same j identity next program
  environment := fun sessions moved => sessions.environment moved

end ImageSilo.Accounts
