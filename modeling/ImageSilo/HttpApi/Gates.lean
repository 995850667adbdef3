import ImageSilo.HttpApi.Handlers

/-! Until its gate has accepted a session or a token, each of these handlers can only look up what the
request carries and turn it away. -/
namespace ImageSilo.Http

open Go Concurrent

variable (P : Platform)

/-- An ask of a handler with its answer. -/
abbrev Told := Concurrent.Answer (@Ask.Answered Operation FrontStep Outcome FrontReply)

/-- What lets a request in. -/
inductive Guard
  | session (requireCSRF : Bool)
  | scopes (needed : List ApiToken.Scope)

/-- The gate of a handler and what the request shows at it. Logins, deliveries and what the process does
by itself have none. -/
def Exchange.guard : Exchange → Option (Guard × Credentials)
  | current r => some (.session false, r)
  | logout r => some (.session true, r)
  | changePassword r _ => some (.session true, r)
  | updateProfile r _ => some (.session true, r)
  | createToken r _ => some (.session true, r)
  | revokeToken r _ => some (.session true, r)
  | createAlias r _ => some (.scopes [.aliasesWrite], r)
  | deleteAlias r _ => some (.scopes [.aliasesWrite], r)
  | deleteImage r _ => some (.scopes [.imagesDelete], r)
  | batchDelete r _ => some (.scopes [.imagesDelete], r)
  | changeVisibility r _ _ => some (.session true, r)
  | batchVisibility r _ => some (.session true, r)
  | convertToWebP r _ => some (.session true, r)
  | upload r _ => some (.scopes [.imagesUpload], r)
  | createImport r _ => some (.scopes [.imagesUpload, .aliasesWrite], r)
  | getSettings r => some (.session false, r)
  | updateDefaultVisibility r _ => some (.session true, r)
  | updateProcessing r _ => some (.session true, r)
  | rebuild r => some (.session true, r)
  | inspect r => some (.session true, r)
  | login _ _ _ | deliver _ | internal _ => none

/-- The session cookie has been accepted, with the CSRF token where it is required. -/
def SessionShown (r : Credentials) (requireCSRF : Bool) (h : List Told) : Prop :=
  ∃ cookie now identity, r.sessionCookie = some cookie ∧
    (requireCSRF = true → validCSRF P r identity = true) ∧
    (⟨.call (.service (.authenticateSession cookie now)),
      .service (.sessionAuthenticated (some identity))⟩ : Told) ∈ h

/-- The bearer token has been accepted, and has the scopes. -/
def TokenShown (r : Credentials) (needed : List ApiToken.Scope) (h : List Told) : Prop :=
  ∃ plaintext now identity, bearerToken r.authorization = some plaintext ∧
    (∀ scope ∈ needed, identity.hasScope scope = true) ∧
    (⟨.call (.service (.authenticateToken plaintext now)),
      .service (.tokenAuthenticated (some identity))⟩ : Told) ∈ h

def Guard.Passed (r : Credentials) : Guard → List Told → Prop
  | .session requireCSRF, h => SessionShown P r requireCSRF h
  | .scopes needed, h => SessionShown P r true h ∨ TokenShown r needed h

/-- The lookups that a gate makes. -/
inductive Lookup
  | cookie (text : GoString)
  | bearer (plaintext : GoString)

def lookupOf : Ask Operation FrontStep → Option Lookup
  | .call (.service (.authenticateSession cookie _)) => some (.cookie cookie)
  | .call (.service (.authenticateToken plaintext _)) => some (.bearer plaintext)
  | _ => none

/-- A request shows its own cookie and its own token. -/
def Credentials.Shows (r : Credentials) : Lookup → Prop
  | .cookie text => r.sessionCookie = some text
  | .bearer plaintext => bearerToken r.authorization = some plaintext

/-- What has to be shown before something is asked for, if anything has. -/
def needs : Ask Operation FrontStep → Option Guard
  | .front .now | .front .getSettings => none
  | .call (.service (.createAlias _ _ _ _)) | .call (.service (.deleteAlias _)) =>
      some (.scopes [.aliasesWrite])
  | .call (.service (.deleteImage _)) => some (.scopes [.imagesDelete])
  | .call (.upload _) => some (.scopes [.imagesUpload])
  | .call (.createImport _) => some (.scopes [.imagesUpload, .aliasesWrite])
  | _ => some (.session true)

/-- A handler looks up what the request shows; for the rest it has to be shown what that needs. -/
def Warrants (r : Credentials) (h : List Told) (ask : Ask Operation FrontStep) : Prop :=
  (∃ lookup, lookupOf ask = some lookup ∧ r.Shows lookup) ∨ ∀ g ∈ needs ask, g.Passed P r h

/-- Whoever has passed the gate has shown what is needed. -/
def Guard.Covers (r : Credentials) (g : Guard) (ask : Ask Operation FrontStep) : Prop :=
  ∀ h, g.Passed P r h → ∀ g' ∈ needs ask, g'.Passed P r h

/-- A request that is turned away. -/
def Answer.IsDenial (a : Answer) : Prop :=
  ∃ code message, a = writeError 401 code message ∨ a = writeError 403 code message

section Walks

variable {P} {g : Guard} {r : Credentials} {h h' : List Told}

theorem SessionShown.mono {requireCSRF : Bool} (shown : SessionShown P r requireCSRF h)
    (more : h ⊆ h') : SessionShown P r requireCSRF h' := by
  obtain ⟨cookie, now, identity, own, csrf, told⟩ := shown
  exact ⟨cookie, now, identity, own, csrf, more told⟩

theorem Guard.Passed.mono (passed : g.Passed P r h) (more : h ⊆ h') : g.Passed P r h' := by
  cases g with
  | session requireCSRF => exact SessionShown.mono passed more
  | scopes needed =>
      rcases passed with shown | ⟨plaintext, now, identity, own, held, told⟩
      · exact .inl (shown.mono more)
      · exact .inr ⟨plaintext, now, identity, own, held, more told⟩

/-- A session with its CSRF token is enough for everything. -/
theorem session_covers (ask : Ask Operation FrontStep) : (Guard.session true).Covers P r ask := by
  intro h passed g needed
  unfold needs at needed
  split at needed <;> cases needed
  all_goals first | exact passed | exact .inl passed

theorem covers_free {ask : Ask Operation FrontStep} (free : needs ask = none) : g.Covers P r ask := by
  intro h _ g' needed
  rw [free] at needed
  cases needed

theorem covers_own {ask : Ask Operation FrontStep} (own : needs ask = some g) : g.Covers P r ask := by
  intro h passed g' needed
  rw [own] at needed
  cases needed
  exact passed

theorem only_all {α : Type} {allowed : Ask Operation FrontStep → Prop} (all : ∀ ask, allowed ask)
    (p : Handler α) : p.Only allowed := by
  induction p with
  | done v => trivial
  | act ask next ih => exact ⟨all ask, ih⟩

/-- Behind its gate a handler is warranted. -/
theorem obeys_passed {α : Type} {p : Handler α} (only : p.Only (g.Covers P r))
    (passed : g.Passed P r h) :
    p.Obeys (.history (Warrants P r)) (fun _ h' => g.Passed P r h') h :=
  Program.Only.obeys (D := .history (Warrants P r)) (g.Passed P r) only
    (fun h _ passed covers => Or.inr (covers h passed))
    (fun _ _ _ passed _ => Guard.Passed.mono passed (List.subset_append_left _ _)) passed

theorem authenticate_obeys {cookie : GoString} (own : r.sessionCookie = some cookie) :
    (authenticate cookie).Obeys (.history (Warrants P r)) (fun found h' => ∀ identity ∈ found,
      ∃ now, (⟨.call (.service (.authenticateSession cookie now)),
        .service (.sessionAuthenticated (some identity))⟩ : Told) ∈ h') h := by
  unfold authenticate
  refine Program.Obeys.bind (Program.obeys_once (.inr (by simp [needs]))) ?_
  rintro now _ rfl
  refine Program.Obeys.bind (Program.obeys_once (.inl ⟨_, rfl, own⟩)) ?_
  rintro outcome _ rfl
  split
  · intro identity found
    exact ⟨now, by simp [Option.mem_def.mp found]⟩
  · intro identity found
    cases found

theorem authenticateBearer_obeys {plaintext : GoString}
    (own : bearerToken r.authorization = some plaintext) :
    (authenticateBearer plaintext).Obeys (.history (Warrants P r)) (fun found h' =>
      ∀ identity ∈ found, ∃ now, (⟨.call (.service (.authenticateToken plaintext now)),
        .service (.tokenAuthenticated (some identity))⟩ : Told) ∈ h') h := by
  unfold authenticateBearer
  refine Program.Obeys.bind (Program.obeys_once (.inr (by simp [needs]))) ?_
  rintro now _ rfl
  refine Program.Obeys.bind (Program.obeys_once (.inl ⟨_, rfl, own⟩)) ?_
  rintro outcome _ rfl
  split
  · intro identity found
    exact ⟨now, by simp [Option.mem_def.mp found]⟩
  · intro identity found
    cases found

/-- What a gate leads to: the request is let in, or it is turned away. -/
def Decided (P : Platform) (g : Guard) (r : Credentials) (decision : Except Answer Principal)
    (h : List Told) : Prop :=
  match decision with
  | .ok _ => g.Passed P r h
  | .error answer => answer.IsDenial

theorem unauthorized (code message : String) : (writeError 401 code message).IsDenial :=
  ⟨code, message, .inl rfl⟩

theorem forbidden (code message : String) : (writeError 403 code message).IsDenial :=
  ⟨code, message, .inr rfl⟩

theorem requireSession_obeys (requireCSRF : Bool) :
    (requireSession P r requireCSRF).Obeys (.history (Warrants P r))
      (Decided P (.session requireCSRF) r) h := by
  unfold requireSession
  split
  · exact unauthorized _ _
  · rename_i cookie own
    refine (authenticate_obeys own).bind ?_
    intro found h' told
    split
    · exact unauthorized _ _
    · rename_i identity
      obtain ⟨now, told⟩ := told identity rfl
      split
      · exact forbidden _ _
      · rename_i valid
        refine ⟨cookie, now, identity, own, ?_, told⟩
        rintro rfl
        simpa using valid

theorem requireBearer_obeys {needed : List ApiToken.Scope} :
    (requireBearer r needed).Obeys (.history (Warrants P r))
      (Decided P (.scopes needed) r) h := by
  unfold requireBearer
  split
  · exact unauthorized _ _
  · rename_i plaintext own
    refine (authenticateBearer_obeys own).bind ?_
    intro found h' told
    split
    · exact unauthorized _ _
    · rename_i identity
      obtain ⟨now, told⟩ := told identity rfl
      split
      · rename_i all
        exact .inr ⟨plaintext, now, identity, own, List.all_eq_true.mp all, told⟩
      · exact forbidden _ _

theorem requireScopes_obeys {method : Method} {needed : List ApiToken.Scope}
    (changing : isSafeMethod method = false) :
    (requireScopes P method r needed).Obeys (.history (Warrants P r))
      (Decided P (.scopes needed) r) h := by
  unfold requireScopes
  split
  · exact requireBearer_obeys
  · rename_i cookie own
    refine (authenticate_obeys own).bind ?_
    intro found h' told
    split
    · exact requireBearer_obeys
    · rename_i identity
      obtain ⟨now, told⟩ := told identity rfl
      rw [changing]
      split
      · exact forbidden _ _
      · rename_i valid
        exact .inl ⟨cookie, now, identity, own, fun _ => by simpa using valid, told⟩

/-- A handler behind a gate: it answers a request that has been let in, or turns it away. -/
theorem guarded_obeys {gate : Handler (Except Answer Principal)} {body : Principal → Handler Answer}
    (obeys : gate.Obeys (.history (Warrants P r)) (Decided P g r) h)
    (only : ∀ principal, (body principal).Only (g.Covers P r)) :
    (guarded gate body).Obeys (.history (Warrants P r))
      (fun answer h' => g.Passed P r h' ∨ answer.IsDenial) h := by
  unfold guarded
  refine obeys.bind ?_
  intro decision h' decided
  split
  · exact .inr decided
  · exact (obeys_passed (only _) decided).mono fun _ _ passed => .inl passed

end Walks

section Bodies

variable {P} {g : Guard} {r : Credentials} {h : List Told}

theorem call_only {α : Type} {allowed : Ask Operation FrontStep → Prop} {q : Request}
    {rest : Outcome → Handler α} (own : allowed (.call (.service q)))
    (later : ∀ outcome, (rest outcome).Only allowed) : (call q >>= rest).Only allowed :=
  (Program.Only.perform own).bind later

theorem front_only {α : Type} {allowed : Ask Operation FrontStep → Prop} {b : FrontStep}
    {rest : FrontReply b → Handler α} (own : allowed (.front b))
    (later : ∀ reply, (rest reply).Only allowed) : (front b >>= rest).Only allowed :=
  (Program.Only.perform own).bind later

theorem eachImage_only {allowed : Ask Operation FrontStep → Prop} {q : GoString → Request}
    {item : GoString → Outcome → BatchOperationItem} (ids : List GoString)
    (each : ∀ id, allowed (.call (.service (q id)))) : (eachImage q item ids).Only allowed := by
  induction ids with
  | nil => trivial
  | cons id ids ih => exact ⟨each id, fun _ => ih.bind fun _ => trivial⟩

theorem receive_only {operation : Uploads.MultipartRequest → Operation}
    {body : Uploads.MultipartRequest} {principal : Principal}
    (own : ∀ body, needs (.call (operation body)) = some g) :
    (receive operation body principal).Only (g.Covers P r) := by
  refine front_only (covers_free rfl) fun settings =>
    (Program.Only.perform (covers_own (own _))).bind fun outcome => ?_
  cases outcome <;> trivial

/-- Every handler keeps to its gate. -/
theorem script_obeys (x : Exchange) (guarded : x.guard = some (g, r)) :
    (x.script P).Obeys (.history (Warrants P r))
      (fun answer h' => g.Passed P r h' ∨ answer.IsDenial) h := by
  cases x with
  | login => cases guarded
  | deliver => cases guarded
  | internal => cases guarded
  | current r =>
      cases guarded
      refine guarded_obeys (requireSession_obeys false) fun principal => ?_
      split
      · split <;> trivial
      · trivial
  | getSettings r =>
      cases guarded
      refine guarded_obeys (requireSession_obeys false) fun _ =>
        front_only (covers_free rfl) fun found => ?_
      cases found <;> trivial
  | createAlias r body =>
      cases guarded
      refine guarded_obeys (requireScopes_obeys rfl) fun _ => ?_
      cases body with
      | none => trivial
      | some request =>
          refine front_only (covers_free rfl) fun now => call_only (covers_own rfl) fun outcome => ?_
          split <;> trivial
  | deleteAlias r aliasID =>
      cases guarded
      refine guarded_obeys (requireScopes_obeys rfl) fun _ =>
        call_only (covers_own rfl) fun outcome => ?_
      split <;> trivial
  | deleteImage r imageID =>
      cases guarded
      refine guarded_obeys (requireScopes_obeys rfl) fun _ =>
        call_only (covers_own rfl) fun outcome => ?_
      split <;> trivial
  | batchDelete r body =>
      cases guarded
      refine guarded_obeys (requireScopes_obeys rfl) fun _ => ?_
      cases body with
      | none => trivial
      | some imageIDs =>
          dsimp only
          split
          · trivial
          · split
            · trivial
            · exact (eachImage_only _ fun _ => covers_own rfl).bind fun _ => trivial
  | upload r body =>
      cases guarded
      exact guarded_obeys (requireScopes_obeys rfl) fun _ => receive_only fun _ => rfl
  | createImport r body =>
      cases guarded
      exact guarded_obeys (requireScopes_obeys rfl) fun _ => receive_only fun _ => rfl
  | _ =>
      cases guarded
      exact guarded_obeys (requireSession_obeys true) fun _ => only_all session_covers _

/-- A step that writes the settings. -/
def writesSettings : Ask Operation FrontStep → Bool
  | .front (.writeDefaultVisibility _ _) | .front (.writeProcessing _ _) => true
  | _ => false

theorem rotateSession_only (token : GoString) :
    (rotateSession r token).Only fun ask => writesSettings ask = false := by
  unfold rotateSession
  split
  · trivial
  · split
    · trivial
    · refine call_only rfl fun outcome => ?_
      split
      · trivial
      · exact call_only rfl fun _ => trivial

theorem login_only (address : GoString) (body : Option LoginRequest) :
    (login P r address body).Only fun ask => writesSettings ask = false := by
  unfold login
  split
  · trivial
  · dsimp only
    split
    · trivial
    · refine front_only rfl fun now => front_only rfl fun reply => ?_
      split
      · trivial
      · refine front_only rfl fun reply => ?_
        split
        · trivial
        · refine call_only rfl fun outcome => ?_
          split
          · refine (rotateSession_only _).bind fun rotated => ?_
            split
            · exact front_only rfl fun _ => front_only rfl fun _ => trivial
            · trivial
          · trivial
          · trivial

/-- A handler without a gate leaves the settings alone. -/
theorem ungated_only (x : Exchange) (ungated : x.guard = none) :
    (x.script P).Only fun ask => writesSettings ask = false := by
  cases x with
  | login r address body => exact login_only address body
  | deliver r =>
      refine call_only rfl fun outcome => ?_
      split <;> trivial
  | internal q => exact call_only rfl fun _ => trivial
  | _ => cases ungated

end Bodies

end ImageSilo.Http
