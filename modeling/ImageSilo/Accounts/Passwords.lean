import ImageSilo.Accounts.Mutexes
import ImageSilo.Concurrent.Traces

/-! From the database step of a change of the password on, a session is the kept one or the work of a
login that has read the new hash. -/
namespace ImageSilo.Accounts

open Go Concurrent Tables Publication

variable {P : Platform}

/-- The call changes the password to one with this hash. -/
def Writes (e : Event (machine P)) (i : Nat) (hash : GoString) : Prop :=
  ∃ adminID kept now c, e = ⟨i, .statement (.changePassword adminID hash kept now), c, .ok ()⟩

/-- The call is told the row of the administrator. -/
def Reads (e : Event (machine P)) (i : Nat) (admin : Auth.Admin) : Prop :=
  (∃ email c, e = ⟨i, .statement (.findAdminByEmail email), c, .ok admin⟩) ∨
    ∃ id c, e = ⟨i, .statement (.findAdminByID id), c, .ok admin⟩

/-- This hash of a password has been written. -/
def Written (τ : List (Event (machine P))) (hash : GoString) : Prop :=
  ∃ e ∈ τ, ∃ i, Writes e i hash

/-- The call has read a hash that had been written before. -/
def ReadWritten (τ : List (Event (machine P))) (i : Nat) (admin : Auth.Admin) : Prop :=
  ∃ before e after, τ = before ++ e :: after ∧ Reads e i admin ∧ Written before admin.passwordHash

/-- A session of a login that has verified its password against a hash written before. -/
def Fresh (requests : Nat → Request) (τ : List (Event (machine P))) (hash : Digest) : Prop :=
  ∃ before after i s c email password now admin,
    τ = before ++ ⟨i, .statement (.createSession s), c, .ok ()⟩ :: after ∧ s.tokenHash = hash ∧
      requests i = .login email password now ∧ ReadWritten before i admin ∧
        P.verifyPassword password admin.passwordHash = some true

/-- The session was kept by the change of the password or is a fresh one. -/
def Survives (requests : Nat → Request) (kept : Digest) (τ : List (Event (machine P)))
    (hash : Digest) : Prop :=
  hash = kept ∨ Fresh requests τ hash

structure Since (requests : Nat → Request) (i : Nat) (kept : Digest) (τ : List (Event (machine P)))
    (σ : State) (ks : Nat → Docket) : Prop where
  admin : ∀ admin, σ.database.admin = some admin → Written τ admin.passwordHash
  read : ∀ j admin, (ks j).admin = some admin → ReadWritten τ j admin
  rows : ∀ s ∈ σ.database.sessions, Survives requests kept τ s.tokenHash
  loaded : ∀ j m hash identity, (ks j).sessions = some m → m.lookup hash = some identity →
    Survives requests kept τ hash
  added : ∀ j hash identity, (ks j).session = some (.add hash identity) →
    Survives requests kept τ hash
  entries : ∀ hash identity, σ.sessions.lookup hash = some identity →
    Survives requests kept τ hash ∨ (ks i).session = some (.removeAllExcept kept)

variable {requests : Nat → Request} {σ σ' : State} {ls : Nat → Ledger} {ks : Nat → Docket}
  {i j : Nat} {a : Action} {c : Choice} {r : Response a} {d : Docket} {kept hash : Digest}
  {τ : List (Event (machine P))} {e : Event (machine P)}

section Later

theorem Written.later {text : GoString} (h : Written τ text) : Written (τ ++ [e]) text := by
  obtain ⟨e', member, i, writes⟩ := h
  exact ⟨e', List.mem_append_left _ member, i, writes⟩

theorem ReadWritten.later {admin : Auth.Admin} (h : ReadWritten τ j admin) :
    ReadWritten (τ ++ [e]) j admin := by
  obtain ⟨before, e', after, rfl, told⟩ := h
  exact ⟨before, e', after ++ [e], by simp, told⟩

theorem Fresh.later (h : Fresh requests τ hash) : Fresh requests (τ ++ [e]) hash := by
  obtain ⟨before, after, i, s, c, email, password, now, admin, rfl, told⟩ := h
  exact ⟨before, after ++ [e], i, s, c, email, password, now, admin, by simp, told⟩

theorem Survives.later (h : Survives requests kept τ hash) : Survives requests kept (τ ++ [e]) hash :=
  h.imp_right Fresh.later

end Later

section Steps

/-- What a step has to show of the docket and the tables it leaves. -/
theorem Since.frame (h : Since requests i kept τ σ ks)
    (admin : ∀ admin, σ'.database.admin = some admin → Written (τ ++ [e]) admin.passwordHash)
    (read : ∀ admin, d.admin = some admin →
      (ks j).admin = some admin ∨ ReadWritten (τ ++ [e]) j admin)
    (rows : ∀ s ∈ σ'.database.sessions, s ∈ σ.database.sessions ∨
      Survives requests kept (τ ++ [e]) s.tokenHash)
    (loaded : ∀ m hash identity, d.sessions = some m → m.lookup hash = some identity →
      (ks j).sessions = some m ∨ Survives requests kept (τ ++ [e]) hash)
    (added : ∀ hash identity, d.session = some (.add hash identity) →
      (ks j).session = some (.add hash identity) ∨ Survives requests kept (τ ++ [e]) hash)
    (entries : ∀ hash identity, σ'.sessions.lookup hash = some identity →
      Survives requests kept (τ ++ [e]) hash ∨
        (Function.update ks j d i).session = some (.removeAllExcept kept)) :
    Since requests i kept (τ ++ [e]) σ' (Function.update ks j d) := by
  constructor
  · exact admin
  · intro k row noted
    by_cases self : k = j
    · subst self
      rw [Function.update_self] at noted
      rcases read row noted with before | now
      · exact (h.read k row before).later
      · exact now
    · rw [Function.update_of_ne self] at noted
      exact (h.read k row noted).later
  · intro s member
    rcases rows s member with old | new
    · exact (h.rows s old).later
    · exact new
  · intro k m hash identity noted there
    by_cases self : k = j
    · subst self
      rw [Function.update_self] at noted
      rcases loaded m hash identity noted there with before | now
      · exact (h.loaded k m hash identity before there).later
      · exact now
    · rw [Function.update_of_ne self] at noted
      exact (h.loaded k m hash identity noted there).later
  · intro k hash identity owed
    by_cases self : k = j
    · subst self
      rw [Function.update_self] at owed
      rcases added hash identity owed with before | now
      · exact (h.added k hash identity before).later
      · exact now
    · rw [Function.update_of_ne self] at owed
      exact (h.added k hash identity owed).later
  · exact entries

/-- While another call acts, the debt of the change is the same. -/
theorem Since.kept_entries (h : Since requests i kept τ σ ks)
    (apart : (ks j).session ≠ some (.removeAllExcept kept)) (index : σ'.sessions = σ.sessions) :
    ∀ hash identity, σ'.sessions.lookup hash = some identity →
      Survives requests kept (τ ++ [e]) hash ∨
        (Function.update ks j d i).session = some (.removeAllExcept kept) := by
  intro hash identity there
  rw [index] at there
  rcases h.entries hash identity there with fine | owed
  · exact .inl fine.later
  · have other : i ≠ j := by
      intro self
      exact apart (self ▸ owed)
    rw [Function.update_of_ne other]
    exact .inr owed

/-- What the database holds when a step leaves the administrator's hash and adds no session. -/
theorem Since.still (h : Since requests i kept τ σ ks)
    (admin : ∀ admin, σ'.database.admin = some admin → ∃ old, σ.database.admin = some old ∧
      old.passwordHash = admin.passwordHash)
    (rows : ∀ s ∈ σ'.database.sessions, s ∈ σ.database.sessions)
    (read : ∀ admin, d.admin = some admin → (ks j).admin = some admin)
    (loaded : ∀ m, d.sessions = some m → (ks j).sessions = some m)
    (added : ∀ hash identity, d.session = some (.add hash identity) →
      (ks j).session = some (.add hash identity))
    (entries : ∀ hash identity, σ'.sessions.lookup hash = some identity →
      Survives requests kept (τ ++ [e]) hash ∨
        (Function.update ks j d i).session = some (.removeAllExcept kept)) :
    Since requests i kept (τ ++ [e]) σ' (Function.update ks j d) := by
  apply h.frame
  · intro row there
    obtain ⟨old, before, same⟩ := admin row there
    rw [← same]
    exact (h.admin old before).later
  · exact fun row noted => .inl (read row noted)
  · exact fun s member => .inl (rows s member)
  · exact fun m hash identity noted _ => .inl (loaded m noted)
  · exact fun hash identity owed => .inl (added hash identity owed)
  · exact entries

/-- A login inserts its session. -/
theorem Since.opened {s : Auth.Session} {db' : Database} (h : Since requests i kept τ σ ks)
    (filed : Filed requests σ ls ks) (idle : (ks j).Idle)
    (allowed : (ks j).allows P (.createSession s))
    (inserted : σ.database.insertSession (storedSession s) = some db') :
    Since requests i kept (τ ++ [⟨j, .statement (.createSession s), c, .ok ()⟩])
      { σ with database := db' }
      (Function.update ks j ((ks j).recordStatement (.createSession s) (.ok ()))) := by
  obtain ⟨-, -, admin, email, password, now, -, noted, -, asked, verified, -, -⟩ := allowed
  obtain ⟨sessions, -, same, -⟩ := insertSession_some inserted
  have fresh : Fresh requests (τ ++ [⟨j, .statement (.createSession s), c, .ok ()⟩]) s.tokenHash := by
    refine ⟨τ, [], j, s, c, email, password, now, admin, rfl, rfl, ?_, h.read j admin noted, verified⟩
    rw [← filed.made j]
    exact asked
  apply h.frame
  · intro row there
    exact (h.admin row (same ▸ there)).later
  · exact fun row noted => .inl noted
  · intro row member
    rw [show ({ σ with database := db' } : State).database.sessions = _ from sessions,
      List.mem_append, List.mem_singleton] at member
    rcases member with old | rfl
    · exact .inl old
    · exact .inr (.inr fresh)
  · exact fun m hash identity loaded _ => .inl loaded
  · intro hash identity owed
    obtain ⟨row, -, eq⟩ := Option.map_eq_some_iff.mp owed
    cases eq
    exact .inr (.inr fresh)
  · exact h.kept_entries (by simp [idle.session]) rfl

/-- The change of a password writes a hash and leaves no other session than the one it keeps. -/
theorem Since.secured {adminID passwordHash : GoString} {kept' : Digest} {now : Time}
    {admin : Auth.Admin} {db' : Database} (h : Since requests i kept τ σ ks) (idle : (ks j).Idle)
    (written : db'.admin = some { admin with
      passwordHash := passwordHash, updatedAt := ofUnix (unix now) })
    (sessions : db'.sessions = σ.database.sessions.filter fun s =>
      !(s.adminID == adminID && s.tokenHash != kept')) :
    Since requests i kept
      (τ ++ [⟨j, .statement (.changePassword adminID passwordHash kept' now), c, .ok ()⟩])
      { σ with database := db' } (Function.update ks j
        ((ks j).recordStatement (.changePassword adminID passwordHash kept' now) (.ok ()))) := by
  apply h.frame
  · intro row there
    rw [show ({ σ with database := db' } : State).database.admin = _ from written] at there
    cases there
    exact ⟨_, List.mem_append_right _ (List.mem_singleton_self _), j, adminID, kept', now, c, rfl⟩
  · exact fun row noted => by cases noted
  · intro row member
    rw [show ({ σ with database := db' } : State).database.sessions = _ from sessions] at member
    exact .inl (List.mem_of_mem_filter member)
  · exact fun m hash identity loaded _ => .inl loaded
  · exact fun hash identity owed => by cases owed
  · exact h.kept_entries (by simp [idle.session]) rfl

/-- A call reads the row of the administrator. -/
theorem Since.noted {admin : Auth.Admin} (h : Since requests i kept τ σ ks) (idle : (ks j).Idle)
    (there : σ.database.admin = some admin) (reads : Reads e j admin) :
    Since requests i kept (τ ++ [e]) σ (Function.update ks j { ks j with admin := some admin }) := by
  apply h.frame
  · exact fun row there => (h.admin row there).later
  · intro row noted
    cases noted
    exact .inr ⟨τ, e, [], rfl, reads, h.admin admin there⟩
  · exact fun s member => .inl member
  · exact fun m hash identity loaded _ => .inl loaded
  · exact fun hash identity owed => .inl owed
  · exact h.kept_entries (by simp [idle.session]) rfl

/-- A call loads the sessions. -/
theorem Since.listed {now : Time} (h : Since requests i kept τ σ ks) (idle : (ks j).Idle) :
    Since requests i kept (τ ++ [e]) σ (Function.update ks j
      { ks j with sessions := some (mapOf (σ.database.activeSessions now)) }) := by
  apply h.frame
  · exact fun row there => (h.admin row there).later
  · exact fun row noted => .inl noted
  · exact fun s member => .inl member
  · intro m hash identity loaded there
    cases loaded
    obtain ⟨s, member, -, -, -, -, rfl, -⟩ := mem_activeSessions.mp (lookup_activeSessions.mp there)
    exact .inr (h.rows s member).later
  · exact fun hash identity owed => .inl owed
  · exact h.kept_entries (by simp [idle.session]) rfl

/-- A statement that leaves the accounts alone. -/
theorem Since.leaving {q : Statement} {r : Response (.statement q)} (h : Since requests i kept τ σ ks)
    (idle : (ks j).Idle) (leaving : Leaving q r) (same : Same σ.database σ'.database)
    (performed : σ.perform P j (.statement q) c = some (r, σ')) :
    Since requests i kept (τ ++ [⟨j, .statement q, c, r⟩]) σ'
      (Function.update ks j ((ks j).recordStatement q r)) := by
  have index : σ'.sessions = σ.sessions := (perform_frame performed).sessions (by simp)
  have admin : ∀ admin, σ'.database.admin = some admin → ∃ old, σ.database.admin = some old ∧
      old.passwordHash = admin.passwordHash := fun row there => ⟨row, same.admin ▸ there, rfl⟩
  have rows : ∀ s ∈ σ'.database.sessions, s ∈ σ.database.sessions := by simp [same.sessions]
  have entries {d : Docket} := h.kept_entries (d := d) (e := ⟨j, .statement q, c, r⟩) (j := j)
    (by simp [idle.session]) index
  unfold Docket.recordStatement
  split
  case h_1 email row =>
      obtain ⟨answer, state⟩ := statement_answer performed (by simp)
      obtain rfl : σ' = σ := state
      exact h.noted idle (Option.filter_eq_some_iff.mp (orNoRows_ok answer)).1 (.inl ⟨email, c, rfl⟩)
  case h_2 id row =>
      obtain ⟨answer, state⟩ := statement_answer performed (by simp)
      obtain rfl : σ' = σ := state
      exact h.noted idle (Option.filter_eq_some_iff.mp (orNoRows_ok answer)).1 (.inr ⟨id, c, rfl⟩)
  case h_8 now rows =>
      obtain ⟨answer, state⟩ := statement_answer performed (by simp)
      obtain rfl : σ' = σ := state
      cases answer
      exact h.listed idle
  case h_3 | h_4 | h_5 | h_6 | h_7 | h_9 | h_10 => exact leaving.elim
  all_goals
    exact h.still admin rows (fun _ noted => noted) (fun _ loaded => loaded) (fun _ _ owed => owed)
      entries

theorem Since.statement {q : Statement} {r : Response (.statement q)}
    (h : Since requests i kept τ σ ks) (filed : Filed requests σ ls ks)
    (permitted : (ks j).permits P (.statement q))
    (performed : σ.perform P j (.statement q) c = some (r, σ')) :
    Since requests i kept (τ ++ [⟨j, .statement q, c, r⟩]) σ'
      (Function.update ks j ((ks j).record (.statement q) r)) := by
  obtain ⟨idle, allowed⟩ := permitted
  have amend := statement_amend (q := q) performed
  have apart : (ks j).session ≠ some (.removeAllExcept kept) := by simp [idle.session]
  obtain ⟨db', rfl⟩ := statement_state (q := q) performed
  have same : ∀ admin, db'.admin = σ.database.admin → db'.admin = some admin →
      ∃ old, σ.database.admin = some old ∧ old.passwordHash = admin.passwordHash :=
    fun admin eq there => ⟨admin, eq ▸ there, rfl⟩
  cases amend with
  | renamed adminID displayName email now admin db' there own renamed sessions tokens =>
      refine h.still ?_ (fun s member => sessions ▸ member) (fun _ noted => by cases noted)
        (fun _ loaded => loaded) (fun _ _ owed => by cases owed) (h.kept_entries apart rfl)
      intro row there'
      rw [show ({ σ with database := db' } : State).database.admin = _ from renamed] at there'
      cases there'
      exact ⟨admin, there, rfl⟩
  | opened s db' inserted => exact h.opened filed idle allowed inserted
  | closed hash | expired now count =>
      exact h.still (fun row => same row rfl) (fun s member => List.mem_of_mem_filter member)
        (fun _ noted => noted) (fun _ loaded => loaded) (fun _ _ owed => by cases owed)
        (h.kept_entries apart rfl)
  | secured adminID passwordHash kept' now admin db' there own written sessions tokens =>
      exact h.secured idle written sessions
  | issued t hash db' inserted =>
      obtain ⟨-, sessions, admin, -⟩ := insertToken_some inserted
      exact h.still (fun row => same row admin) (fun s member => sessions ▸ member)
        (fun _ noted => noted) (fun _ loaded => loaded) (fun _ _ owed => owed)
        (h.kept_entries apart rfl)
  | revoked | revokedUnseen | missing =>
      exact h.still (fun row => same row rfl) (fun s member => member) (fun _ noted => noted)
        (fun _ loaded => loaded) (fun _ _ owed => owed) (h.kept_entries apart rfl)
  | none _ _ _ leaving same => exact h.leaving idle leaving same performed

/-- A step of the index by the call that owes it, or by one that has loaded a map. -/
theorem Since.sessionStep {s : Auth.SessionStep} {r : Response (.sessionStep s)}
    (h : Since requests i kept τ σ ks) (filed : Filed requests σ ls ks)
    (permitted : (ks j).permits P (.sessionStep s))
    (performed : σ.perform P j (.sessionStep s) c = some (r, σ')) :
    Since requests i kept (τ ++ [⟨j, .sessionStep s, c, r⟩]) σ'
      (Function.update ks j ((ks j).record (.sessionStep s) r)) := by
  cases performed
  refine h.still (fun row there => ⟨row, there, rfl⟩) (fun s member => member) (fun _ noted => noted)
    (fun _ loaded => loaded) (fun _ _ owed => by cases owed) ?_
  intro hash identity there
  change (s.apply σ.sessions).lookup hash = some identity at there
  -- an entry that was there before
  have before (apart : (ks j).session ≠ some (.removeAllExcept kept)) {old : Auth.SessionIdentity}
      (there : σ.sessions.lookup hash = some old) :
      Survives requests kept (τ ++ [⟨j, .sessionStep s, c, ()⟩]) hash ∨
        (Function.update ks j ((ks j).record (.sessionStep s) ()) i).session =
          some (.removeAllExcept kept) := by
    have same : σ.sessions = σ.sessions := rfl
    exact h.kept_entries apart same hash old there
  rcases permitted with owed | ⟨idle, -, loaded, noted, rfl⟩
  · have other {s' : Auth.SessionStep} (ne : s ≠ s') : (ks j).session ≠ some s' := by
      intro same
      exact ne (Option.some.inj (owed.symm.trans same))
    cases s with
    | replace m => exact ((filed.orderly j).backed _ owed).elim
    | add hash' identity' =>
        change (σ.sessions.insert hash' identity').lookup hash = some identity at there
        rw [lookup_insert_ite] at there
        split at there
        · rename_i same
          subst same
          exact .inl (h.added j hash identity' owed).later
        · exact before (other (by simp)) there
    | remove hash' =>
        change (σ.sessions.erase hash').lookup hash = some identity at there
        rw [lookup_erase_ite] at there
        split at there
        · cases there
        · exact before (other (by simp)) there
    | removeAllExcept kept' =>
        change (keep _ σ.sessions).lookup hash = some identity at there
        rw [lookup_keep, Option.filter_eq_some_iff] at there
        by_cases own : kept' = kept
        · exact .inl (.inl (by simpa [own] using there.2))
        · exact before (other (by simpa using own)) there.1
    | updateAdmin adminID displayName email =>
        change (mapValues _ σ.sessions).lookup hash = some identity at there
        rw [lookup_mapValues, Option.map_eq_some_iff] at there
        obtain ⟨old, there, -⟩ := there
        exact before (other (by simp)) there
    | purgeExpired now =>
        change (keep _ σ.sessions).lookup hash = some identity at there
        rw [lookup_keep, Option.filter_eq_some_iff] at there
        exact before (other (by simp)) there.1
  · exact .inl (h.loaded j loaded hash identity noted there).later

theorem Since.step (h : Since requests i kept τ σ ks) (filed : Filed requests σ ls ks)
    (permitted : (ks j).permits P a) (performed : σ.perform P j a c = some (r, σ')) :
    Since requests i kept (τ ++ [⟨j, a, c, r⟩]) σ'
      (Function.update ks j ((ks j).record a r)) := by
  have frame := perform_frame performed
  have admin (other : ∀ q, a ≠ .statement q) : ∀ admin, σ'.database.admin = some admin →
      ∃ old, σ.database.admin = some old ∧ old.passwordHash = admin.passwordHash := by
    intro row there
    rw [frame.database other] at there
    exact ⟨row, there, rfl⟩
  have rows (other : ∀ q, a ≠ .statement q) : ∀ s ∈ σ'.database.sessions, s ∈ σ.database.sessions := by
    rw [frame.database other]
    exact fun _ member => member
  cases a with
  | statement q => exact h.statement filed permitted performed
  | sessionStep s => exact h.sessionStep filed permitted performed
  | sync s =>
      have apart : (ks j).session ≠ some (.removeAllExcept kept) := by simp [permitted.1.session]
      refine h.still (admin (by simp)) (rows (by simp)) ?_ ?_ ?_
        (h.kept_entries apart (frame.sessions (by simp)))
      · intro row noted
        cases s <;> first | exact noted | cases noted
      · intro m loaded
        cases s <;> first | exact loaded | cases loaded
      · intro hash identity owed
        cases s <;> exact owed
  | tokenStep s =>
      have apart : (ks j).session ≠ some (.removeAllExcept kept) := by
        have none : (ks j).session = none := by
          rcases permitted with owed | ⟨idle, -⟩
          · exact (filed.orderly j).single.resolve_left (by simp [owed])
          · exact idle.session
        simp [none]
      obtain ⟨gone, eq⟩ := recordToken_frame (ks j) s
      rw [Docket.record, eq]
      exact h.still (admin (by simp)) (rows (by simp)) (fun _ noted => noted) (fun _ loaded => loaded)
        (fun _ _ owed => owed) (h.kept_entries apart (frame.sessions (by simp)))
  | _ =>
      obtain ⟨drawn, eq⟩ := record_frame (ks j) _ r (by simp) (by simp) (by simp) (by simp)
      have apart : (ks j).session ≠ some (.removeAllExcept kept) := by
        rw [(show (ks j).Idle from permitted).session]
        simp
      rw [eq]
      exact h.still (admin (by simp)) (rows (by simp)) (fun _ noted => noted) (fun _ loaded => loaded)
        (fun _ _ owed => owed) (h.kept_entries apart (frame.sessions (by simp)))

/-- The database step of a change of the password: no other call has read the old hash, owes the entry
of a session or has loaded a map. -/
theorem Since.change {adminID passwordHash : GoString} {now : Time} {admin : Auth.Admin}
    {db' : Database} (filed : Filed requests σ ls ks) (sound : Sound P requests σ ls)
    (allowed : (ks i).allows P (.changePassword adminID passwordHash kept now))
    (there : σ.database.admin = some admin) (own : admin.id = adminID)
    (written : db'.admin = some { admin with
      passwordHash := passwordHash, updatedAt := ofUnix (unix now) })
    (sessions : db'.sessions = σ.database.sessions.filter fun s =>
      !(s.adminID == adminID && s.tokenHash != kept)) :
    Since requests i kept
      ([⟨i, .statement (.changePassword adminID passwordHash kept now), c, .ok ()⟩] :
        List (Event (machine P)))
      { σ with database := db' } (Function.update ks i
        ((ks i).recordStatement (.changePassword adminID passwordHash kept now) (.ok ()))) := by
  obtain ⟨changing, held, -⟩ := allowed
  constructor
  · intro row there'
    rw [show ({ σ with database := db' } : State).database.admin = _ from written] at there'
    cases there'
    exact ⟨_, List.mem_singleton_self _, i, adminID, kept, now, c, rfl⟩
  · intro j row noted
    by_cases self : j = i
    · subst self
      rw [Function.update_self] at noted
      cases noted
    · rw [Function.update_of_ne self] at noted
      exact absurd (filed.keeper held ((filed.orderly j).admin row noted)) self
  · intro s member
    rw [show ({ σ with database := db' } : State).database.sessions = _ from sessions,
      List.mem_filter] at member
    obtain ⟨old, selected⟩ := member
    obtain ⟨admin', there', known⟩ := σ.database.sessionAdmins s old
    obtain rfl : admin = admin' := Option.some.inj (there.symm.trans there')
    have mine : s.adminID = adminID := known.symm.trans own
    exact .inl (by simpa [mine] using selected)
  · intro j m hash identity noted _
    have before : (ks j).sessions = some m := by
      by_cases self : j = i
      · subst self
        rwa [Function.update_self] at noted
      · rwa [Function.update_of_ne self] at noted
    exact absurd ((filed.orderly j).sessions m before) (filed.unloaded sound changing j)
  · intro j hash identity owed
    by_cases self : j = i
    · subst self
      rw [Function.update_self] at owed
      cases owed
    · rw [Function.update_of_ne self] at owed
      exact absurd (filed.keeper held ((filed.orderly j).backed _ owed)) self
  · intro hash identity _
    rw [Function.update_self]
    exact .inr rfl

theorem Since.environment (h : Since requests i kept τ σ ks) (moved : σ.environment σ') :
    Since requests i kept τ σ' ks := by
  obtain ⟨t, -, rfl⟩ := moved
  exact ⟨h.admin, h.read, h.rows, h.loaded, h.added, h.entries⟩

end Steps

end ImageSilo.Accounts
