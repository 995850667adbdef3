import ImageSilo.Concurrent.Histories
import ImageSilo.HttpApi.LoginLimiter
import ImageSilo.HttpApi.Router
import ImageSilo.HttpApi.Uploads
import ImageSilo.System.Requests

/-! A handler is a script of calls of the services and steps at the front; `requireSession` and
`requireScopes` are its gates. -/
namespace ImageSilo.Http

open Go Concurrent

/-- A method of a service, or what an upload or an import does behind its gate. -/
inductive Operation
  | service (q : Request)
  | upload (r : Uploads.MultipartRequest)
  | createImport (r : Uploads.MultipartRequest)

inductive Outcome
  | service (r : Result)
  | multipart (r : Uploads.Answer)

/-- The columns that `UpdateProcessing` writes. -/
structure ProcessingSettings where
  compressionEnabled : Bool
  jpegQuality : Int
  webpQuality : Int
  pngCompressionLevel : Int
  conversionEnabled : Bool
  conversionWebPQuality : Int
  conversionLossless : Bool

inductive FrontStep
  | now
  | allowAddress (key : GoString) (now : Time)
  | allowAccount (key : GoString) (now : Time)
  | resetAddress (key : GoString)
  | resetAccount (key : GoString)
  | getSettings
  | writeDefaultVisibility (visibility : Visibility) (now : Time)
  | writeProcessing (value : ProcessingSettings) (now : Time)

abbrev FrontReply : FrontStep → Type
  | .now => Time
  | .allowAddress _ _ => Bool × Int
  | .allowAccount _ _ => Bool × Int
  | .resetAddress _ => Unit
  | .resetAccount _ => Unit
  | .getSettings => Option Setup.Settings
  | .writeDefaultVisibility _ _ => Bool
  | .writeProcessing _ _ => Bool

/-- The limiters of the logins, and the row of the settings. -/
structure Front where
  addressLimiter : LoginLimiter
  accountLimiter : LoginLimiter
  settings : Setup.Settings

/-- Whether a statement on the settings goes through. -/
inductive FrontChoice
  | normal
  | fault

def withProcessing (s : Setup.Settings) (value : ProcessingSettings) (now : Time) : Setup.Settings :=
  { s with preferences :=
    { s.preferences with
      compressionEnabled := value.compressionEnabled
      jpegQuality := value.jpegQuality
      webpQuality := value.webpQuality
      pngCompressionLevel := value.pngCompressionLevel
      conversionEnabled := value.conversionEnabled
      conversionWebPQuality := value.conversionWebPQuality
      conversionLossless := value.conversionLossless
      updatedAt := ofUnix (unix now) } }

def withDefaultVisibility (s : Setup.Settings) (visibility : Visibility) (now : Time) :
    Setup.Settings :=
  { s with preferences :=
    { s.preferences with defaultVisibility := visibility, updatedAt := ofUnix (unix now) } }

def Front.perform (f : Front) (clock : Time) : (b : FrontStep) → FrontChoice → FrontReply b × Front
  | .now, _ => (clock, f)
  | .allowAddress key now, _ =>
      ((f.addressLimiter.allow key now).1,
        { f with addressLimiter := (f.addressLimiter.allow key now).2 })
  | .allowAccount key now, _ =>
      ((f.accountLimiter.allow key now).1,
        { f with accountLimiter := (f.accountLimiter.allow key now).2 })
  | .resetAddress key, _ => ((), { f with addressLimiter := f.addressLimiter.reset key })
  | .resetAccount key, _ => ((), { f with accountLimiter := f.accountLimiter.reset key })
  | .getSettings, .normal => (some f.settings, f)
  | .getSettings, .fault => (none, f)
  | .writeDefaultVisibility visibility now, .normal =>
      (true, { f with settings := withDefaultVisibility f.settings visibility now })
  | .writeDefaultVisibility _ _, .fault => (false, f)
  | .writeProcessing value now, .normal =>
      (true, { f with settings := withProcessing f.settings value now })
  | .writeProcessing _ _, .fault => (false, f)

variable (P : Platform)

def Operation.program : Operation → Call Outcome
  | .service q => (q.program P).map Outcome.service
  | .upload r => (Uploads.upload P r).map Outcome.multipart
  | .createImport r => (Uploads.create P r).map Outcome.multipart

/-- The services and the front. A process that restarts has new limiters. -/
abbrev server (crashes : Prop) (admits : State → Event (machine P) → Prop) :
    Service (machine P) Operation Outcome FrontStep FrontReply where
  program q := q.program P
  aborted := .service .aborted
  Front := Front
  FrontChoice := FrontChoice
  act b c σ f := some (f.perform σ.clock b c)
  reset f :=
    { f with
      addressLimiter := newLoginLimiter f.addressLimiter.limit f.addressLimiter.window
      accountLimiter := newLoginLimiter f.accountLimiter.limit f.accountLimiter.window }
  Crashes := crashes
  Admits := admits

abbrev Handler := Script Operation Outcome FrontStep FrontReply

def call (q : Request) : Handler Outcome := Program.perform (Ask.call (.service q))

def front (b : FrontStep) : Handler (FrontReply b) := Program.perform (Ask.front b)

def timeNow : Handler Time := front .now

structure BatchOperationItem where
  imageID : GoString
  status : String
  cleanupPending : Bool
  errorCode : String
  deriving DecidableEq

inductive Answer
  | problem (status : Nat) (code message : String) (retryAfter : Option Int)
  | noContent
  | session (identity : Auth.SessionIdentity) (csrfToken : GoString)
  | loggedIn (identity : Auth.SessionIdentity) (token csrfToken : GoString)
  | loggedOut
  | tokenCreated (token : ApiToken.Token) (plaintext : GoString)
  | aliasCreated (value : Alias)
  | deleted (result : DeleteResult)
  | batch (items : List BatchOperationItem)
  | converted (result : ConversionResult)
  | settings (value : Setup.Settings)
  | rebuilt (result : RebuildResult)
  | inspected (result : InspectionResult)
  | multipart (answer : Uploads.Answer)
  | delivered (reply : Reply)
  /-- The services of the system never lead here. -/
  | unanswered

def writeError (status : Nat) (code message : String) : Answer := .problem status code message none

def internalError (message : String) : Answer := writeError 500 "internal_error" message

/-- What a request carries to identify its sender. -/
structure Credentials where
  sessionCookie : Option GoString
  csrfCookie : Option GoString
  csrfHeader : GoString
  authorization : GoString

structure Principal where
  session : Option Auth.SessionIdentity
  apiToken : Option ApiToken.Identity
  rawSessionToken : GoString

def validateCSRF (identity : Auth.SessionIdentity) (token : GoString) : Bool :=
  token ≠ [] && P.sha256 token == identity.csrfHash

def validCSRF (r : Credentials) (identity : Auth.SessionIdentity) : Bool :=
  match r.csrfCookie with
  | none => false
  | some cookie => r.csrfHeader ≠ [] && r.csrfHeader == cookie && validateCSRF P identity r.csrfHeader

def isSafeMethod : Method → Bool
  | .get | .head => true
  | _ => false

def authenticate (cookie : GoString) : Handler (Option Auth.SessionIdentity) := do
  let now ← timeNow
  match ← call (.authenticateSession cookie now) with
  | .service (.sessionAuthenticated identity) => pure identity
  | _ => pure none

def authenticateBearer (plaintext : GoString) : Handler (Option ApiToken.Identity) := do
  let now ← timeNow
  match ← call (.authenticateToken plaintext now) with
  | .service (.tokenAuthenticated identity) => pure identity
  | _ => pure none

def requireSession (r : Credentials) (requireCSRF : Bool) : Handler (Except Answer Principal) :=
  match r.sessionCookie with
  | none =>
      pure (.error (writeError 401 "authentication_required" "Administrator session is required."))
  | some cookie => do
      match ← authenticate cookie with
      | none =>
          pure (.error (writeError 401 "invalid_session" "Administrator session is invalid or expired."))
      | some identity =>
          if requireCSRF && !validCSRF P r identity then
            pure (.error (writeError 403 "invalid_csrf" "CSRF validation failed."))
          else pure (.ok ⟨some identity, none, cookie⟩)

/-- The second half of `requireScopes`: no session has been found. -/
def requireBearer (r : Credentials) (scopes : List ApiToken.Scope) :
    Handler (Except Answer Principal) :=
  match bearerToken r.authorization with
  | none =>
      pure (.error (writeError 401 "authentication_required"
        "Administrator session or Bearer token is required."))
  | some plaintext => do
      match ← authenticateBearer plaintext with
      | none => pure (.error (writeError 401 "invalid_token" "Bearer token is invalid or expired."))
      | some identity =>
          if scopes.all identity.hasScope then pure (.ok ⟨none, some identity, []⟩)
          else
            pure (.error (writeError 403 "insufficient_scope"
              "Bearer token does not have the required scope."))

/-- A session is looked for first; without a valid one the bearer token decides. -/
def requireScopes (method : Method) (r : Credentials) (scopes : List ApiToken.Scope) :
    Handler (Except Answer Principal) :=
  match r.sessionCookie with
  | none => requireBearer r scopes
  | some cookie => do
      match ← authenticate cookie with
      | none => requireBearer r scopes
      | some identity =>
          if !isSafeMethod method && !validCSRF P r identity then
            pure (.error (writeError 403 "invalid_csrf" "CSRF validation failed."))
          else pure (.ok ⟨some identity, none, cookie⟩)

def requireScope (method : Method) (r : Credentials) (scope : ApiToken.Scope) :
    Handler (Except Answer Principal) :=
  requireScopes P method r [scope]

/-- A handler behind its gate. -/
def guarded (gate : Handler (Except Answer Principal)) (body : Principal → Handler Answer) :
    Handler Answer := do
  match ← gate with
  | .error answer => pure answer
  | .ok principal => body principal

end ImageSilo.Http
