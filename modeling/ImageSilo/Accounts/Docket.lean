import ImageSilo.Accounts.Bystanders
import ImageSilo.Publication.Ledger

/-! The discipline of the accounts: what a call has read under its mutexes and the step of an index it
owes. -/
namespace ImageSilo.Accounts

open Go Concurrent Publication

/-- The time a request is made at, if it carries one. -/
def timeOf : Request → Option Time
  | .upload _ _ _ now | .importImage _ _ _ _ now | .createAlias _ _ _ now | .rebuild now
  | .inspect now | .login _ _ now | .updateProfile _ _ _ now | .changePassword _ _ _ _ now
  | .cleanupSessions now | .loadSessions now | .createToken _ _ _ now | .cleanupTokens now
  | .loadTokens now | .authenticateSession _ now | .authenticateToken _ now => some now
  | _ => none

structure Docket where
  request : Request
  hold : Hold
  credentials : Bool
  mutations : Bool
  admin : Option Auth.Admin
  drawn : List GoString
  session : Option Auth.SessionStep
  token : Option ApiToken.IndexStep
  sessions : Option Auth.SessionIndex
  tokens : Option ApiToken.Index
  changed : Bool
  gone : Option GoString
  missed : Option GoString

def Docket.begin (request : Request) : Docket :=
  { request := request, hold := .free, credentials := false, mutations := false, admin := none,
    drawn := [], session := none, token := none, sessions := none, tokens := none, changed := false,
    gone := none, missed := none }

/-- No index step is owed. -/
structure Docket.Idle (d : Docket) : Prop where
  session : d.session = none
  token : d.token = none

variable (P : Platform)

def Docket.allows (d : Docket) : Statement → Prop
  | .findAdminByEmail _ => d.credentials = true
  | .findAdminByID _ => d.credentials = true
  | .createSession s =>
      d.hold = .shared ∧ d.credentials = true ∧ ∃ admin email password now token,
        d.admin = some admin ∧ s.adminID = admin.id ∧ d.request = .login email password now ∧
          P.verifyPassword password admin.passwordHash = some true ∧ token ∈ d.drawn ∧
            s.tokenHash = P.sha256 token
  | .changePassword adminID _ kept now =>
      d.hold = .shared ∧ d.credentials = true ∧ ∃ identity token current new,
        d.request = .changePassword identity token current new now ∧ adminID = identity.adminID ∧
          kept = P.sha256 token
  | .updateProfile _ _ _ _ => d.hold = .shared ∧ d.credentials = true
  | .deleteSessionByHash _ => d.hold = .shared
  | .deleteExpiredSessions now => d.hold = .shared ∧ timeOf d.request = some now
  | .listActiveSessions now => d.hold = .exclusive ∧ timeOf d.request = some now
  | .createToken token _ => d.hold = .shared ∧ d.mutations = true ∧ token.isActive = true
  | .revokeToken id => d.hold = .shared ∧ d.mutations = true ∧ d.request = .revokeToken id
  | .listActiveTokens now => d.hold = .exclusive ∧ timeOf d.request = some now
  | _ => True

def Docket.allowsSync (d : Docket) : Sync → Prop
  | .lockCredentials => d.credentials = false
  | .unlockCredentials => d.credentials = true
  | .lockMutations => d.mutations = false
  | .unlockMutations => d.mutations = true
  | _ => True

def Docket.permits (d : Docket) : Action → Prop
  | .sessionStep s =>
      d.session = some s ∨
        (d.Idle ∧ d.hold = .exclusive ∧ ∃ loaded, d.sessions = some loaded ∧ s = .replace loaded)
  | .tokenStep s =>
      d.token = some s ∨
        (d.Idle ∧ ((d.hold = .exclusive ∧ ∃ loaded, d.tokens = some loaded ∧ s = .replace loaded) ∨
          (d.hold = .shared ∧ ∃ now, timeOf d.request = some now ∧ s = .purgeExpired now)))
  | .sync s => d.Idle ∧ d.allowsSync s
  | .statement q => d.Idle ∧ d.allows P q
  | _ => d.Idle

def Docket.recordSync (d : Docket) : Sync → Docket
  | .lockCredentials => { d with credentials := true, admin := none }
  | .unlockCredentials => { d with credentials := false, admin := none }
  | .lockMutations => { d with mutations := true }
  | .unlockMutations => { d with mutations := false }
  | .beginChange => { d with hold := .shared }
  | .endChange => { d with hold := .free }
  | .announceRebuild => { d with hold := .waiting }
  | .beginRebuild => { d with hold := .exclusive }
  | .endRebuild => { d with hold := .free, sessions := none, tokens := none }
  | _ => d

def Docket.recordStatement (d : Docket) : (q : Statement) → Except DatabaseError q.Value → Docket
  | .findAdminByEmail _, .ok admin => { d with admin := some admin }
  | .findAdminByID _, .ok admin => { d with admin := some admin }
  | .createSession s, .ok _ =>
      { d with session := d.admin.map fun a => .add s.tokenHash (Database.identityOf s a) }
  | .deleteSessionByHash hash, .ok _ => { d with session := some (.remove hash) }
  | .deleteExpiredSessions now, .ok _ => { d with session := some (.purgeExpired now) }
  | .changePassword _ _ kept _, .ok _ =>
      { d with session := some (.removeAllExcept kept), admin := none, changed := true }
  | .updateProfile adminID displayName email _, .ok true =>
      { d with session := some (.updateAdmin adminID displayName email), admin := none }
  | .listActiveSessions _, .ok rows => { d with sessions := some (mapOf rows) }
  | .createToken token hash, .ok _ =>
      { d with token := some (.add hash (ApiToken.identityFromToken token)) }
  | .revokeToken _, .ok hash => { d with token := some (.remove hash) }
  | .revokeToken id, .error .noRows => { d with missed := some id }
  | .listActiveTokens _, .ok rows => { d with tokens := some (mapOf rows) }
  | _, _ => d

def Docket.recordToken (d : Docket) : ApiToken.IndexStep → Docket
  | .remove _ =>
      match d.request with
      | .revokeToken id => { d with token := none, gone := some id }
      | _ => { d with token := none }
  | _ => { d with token := none }

def Docket.record (d : Docket) : (a : Action) → Response a → Docket
  | .sync s, _ => d.recordSync s
  | .statement q, r => d.recordStatement q r
  | .sessionStep _, _ => { d with session := none }
  | .tokenStep s, _ => d.recordToken s
  | .newToken _, .ok token => { d with drawn := token :: d.drawn }
  | _, _ => d

abbrev docketDiscipline : Discipline Action Response where
  Ledger := Docket
  Permits d a := d.permits P a
  Reports _ _ _ := True
  record := Docket.record

/-- From this docket the program asks for permitted actions only, and ends in `Q`. -/
abbrev Abides {α : Type} (p : Call α) (d : Docket) (Q : α → Docket → Prop) : Prop :=
  p.Obeys (docketDiscipline P) Q d

variable {P} {α β : Type} {d : Docket}

theorem Abides.done {v : α} {Q : α → Docket → Prop} (q : Q v d) : Abides P (pure v) d Q := q

theorem Abides.seq {p : Call α} {f : α → Call β} {Q : β → Docket → Prop}
    (h : Abides P p d fun v d' => Abides P (f v) d' Q) : Abides P (p >>= f) d Q :=
  (Program.obeys_bind (docketDiscipline P) p f Q d).mpr h

theorem Abides.bind {p : Call α} {f : α → Call β} {Q : α → Docket → Prop} {Q' : β → Docket → Prop}
    (h : Abides P p d Q) (rest : ∀ v d', Q v d' → Abides P (f v) d' Q') : Abides P (p >>= f) d Q' :=
  Program.Obeys.bind h rest

theorem Abides.mono {p : Call α} {Q Q' : α → Docket → Prop} (h : Abides P p d Q)
    (weaker : ∀ v d', Q v d' → Q' v d') : Abides P p d Q' :=
  Program.Obeys.mono h weaker

section Rules

theorem request_abides {a : Action} {Q : Response a → Docket → Prop} (permitted : d.permits P a)
    (next : ∀ r, Q r (d.record a r)) : Abides P (request a) d Q :=
  ⟨permitted, fun r _ => next r⟩

theorem sync_abides {s : Sync} {Q : Unit → Docket → Prop} (idle : d.Idle) (allowed : d.allowsSync s)
    (next : Q () (d.recordSync s)) : Abides P (sync s) d Q :=
  request_abides ⟨idle, allowed⟩ fun _ => next

theorem statement_abides {q : Statement} {Q : Except DatabaseError q.Value → Docket → Prop}
    (idle : d.Idle) (allowed : d.allows P q) (next : ∀ r, Q r (d.recordStatement q r)) :
    Abides P (statement q) d Q :=
  request_abides ⟨idle, allowed⟩ next

/-- The step that a call owes. -/
theorem sessionStep_abides {s : Auth.SessionStep} {Q : Unit → Docket → Prop}
    (owed : d.session = some s) (next : Q () { d with session := none }) :
    Abides P (sessionStep s) d Q :=
  request_abides (.inl owed) fun _ => next

theorem tokenStep_abides {s : ApiToken.IndexStep} {Q : Unit → Docket → Prop}
    (owed : d.token = some s) (next : Q () (d.recordToken s)) : Abides P (tokenStep s) d Q :=
  request_abides (.inl owed) fun _ => next

end Rules

/-- What a docket says of a call between two database steps: it owes nothing and holds no lock. -/
structure Docket.AtRest (d : Docket) : Prop extends d.Idle where
  hold : d.hold = .free
  credentials : d.credentials = false
  mutations : d.mutations = false

/-- A bystander asks for nothing that needs a docket, and owes nothing. -/
theorem Bystander.abides {p : Call α} (aside : Bystander p) (idle : d.Idle) :
    Abides P p d fun _ d' => d'.Idle := by
  refine Program.Only.obeys (D := docketDiscipline P) Docket.Idle aside ?_ ?_ idle
  · intro d a idle aside
    cases a with
    | sessionStep s => simp [concerned] at aside
    | tokenStep s => simp [concerned] at aside
    | sync s =>
        refine ⟨idle, ?_⟩
        cases s <;> trivial
    | statement q =>
        refine ⟨idle, ?_⟩
        cases q <;> trivial
    | _ => exact idle
  · intro d a r idle aside
    cases a with
    | sessionStep s => simp [concerned] at aside
    | tokenStep s => simp [concerned] at aside
    | sync s => cases s <;> exact ⟨idle.session, idle.token⟩
    | statement q =>
        cases q <;> first | exact idle | simp [concerned, ofAccounts] at aside
    | newToken text =>
        cases r with
        | ok token => exact ⟨idle.session, idle.token⟩
        | error e => exact idle
    | _ => exact idle

/-- Work on rows and files leaves no trace in a docket. -/
theorem Confined.abides {p : Call α} (confined : Confined p) (idle : d.Idle) :
    Abides P p d fun _ d' => d' = d := by
  refine Program.Only.obeys (D := docketDiscipline P) (fun d' => d' = d) confined ?_ ?_ rfl
  · rintro d a rfl (⟨q, rfl, aside⟩ | ⟨b, rfl⟩)
    · refine ⟨idle, ?_⟩
      cases q <;> trivial
    · exact idle
  · rintro d a r rfl (⟨q, rfl, aside⟩ | ⟨b, rfl⟩)
    · cases q <;> first | rfl | simp [ofAccounts] at aside
    · rfl

end ImageSilo.Accounts
