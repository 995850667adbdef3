import ImageSilo.System.Calls

/-! The handlers for `/image/{imageID}` and for alias paths, without the gate that limits their number. -/
namespace ImageSilo

open Go Concurrent Storage

structure ImageRequest where
  /-- The route parameter, for requests that the route of single images dispatches. -/
  imageID : Option GoString
  escapedPath : GoString
  queryNames : List GoString
  sessionCookie : Option GoString
  authorization : GoString

inductive Reply
  | urlTokenForbidden
  | notFound
  | authenticationRequired
  | insufficientScope
  /-- A file handed to `http.ServeContent` under the headers of a target. -/
  | content (target : Delivery.Target) (bytes : Bytes)
  | migration (image : MigrationImage)

variable (P : Platform)

def lowerByte (c : UInt8) : UInt8 := if 0x41 ≤ c && c ≤ 0x5a then c + 0x20 else c

/-- `strings.Cut` at one byte. -/
def cut (s : GoString) (separator : UInt8) : Option (GoString × GoString) :=
  if separator ∈ s then
    some (s.takeWhile (fun c => c != separator), (s.dropWhile fun c => c != separator).drop 1)
  else none

def bearerToken (authorization : GoString) : Option GoString :=
  match cut (trimSpace authorization) 0x20 with
  | none => none
  | some (scheme, value) =>
      if scheme.map lowerByte ≠ str "bearer" then none
      else
        let value := trimSpace value
        if value = [] ∨ containsAny value (str " \t\r\n") then none else some value

/-- `auth.Service.Authenticate`. -/
def authenticateSession (token : GoString) (now : Time) : Call (Option Auth.SessionIdentity) :=
  if token = [] then pure none else request (.getSession (P.sha256 token) now)

/-- `apitoken.Service.Authenticate`. -/
def authenticateToken (plaintext : GoString) (now : Time) : Call (Option ApiToken.Identity) :=
  if !hasPrefix plaintext (str "ist_") then pure none
  else request (.getToken (P.sha256 plaintext) now)

inductive Access
  | allowed
  | denied
  | insufficientScope
  deriving DecidableEq

def tokenAccess (authorization : GoString) : Call Access :=
  match bearerToken authorization with
  | none => pure .denied
  | some plaintext => do
      let now ← clockNow
      match ← authenticateToken P plaintext now with
      | none => pure .denied
      | some identity =>
          pure (if identity.hasScope .imagesReadPrivate then .allowed else .insufficientScope)

def privateImageAccess (r : ImageRequest) : Call Access :=
  match r.sessionCookie with
  | none => tokenAccess P r.authorization
  | some cookie => do
      let now ← clockNow
      match ← authenticateSession P cookie now with
      | some _ => pure .allowed
      | none => tokenAccess P r.authorization

def serveFile (target : Delivery.Target) : Call Reply := do
  match ← openImage target.storageKey with
  | .error _ => pure .notFound
  | .ok bytes => pure (.content target bytes)

def serveTarget (r : ImageRequest) (target : Delivery.Target) : Call Reply :=
  if target.visibility = .isPrivate then do
    match ← privateImageAccess P r with
    | .insufficientScope => pure .insufficientScope
    | .denied => pure .authenticationRequired
    | .allowed => serveFile target
  else serveFile target

def serveMigration (canonicalPath : GoString) : Call Reply :=
  match pathUnescape canonicalPath with
  | none => pure .notFound
  | some decoded => do
      let opened : Option MigrationImage ← file (.openMigration (trimPrefix decoded (str "/")))
      match opened with
      | none => pure .notFound
      | some image => pure (.migration image)

def rejectURLToken (r : ImageRequest) : Bool :=
  [str "token", str "key", str "api_key", str "access_token"].any fun name =>
    r.queryNames.contains name

def serveAliasUnlocked (r : ImageRequest) : Call Reply :=
  if rejectURLToken r then pure .urlTokenForbidden
  else
    match Delivery.normalizeAliasPath P r.escapedPath with
    | .error _ => pure .notFound
    | .ok path => do
        let target : Option Delivery.Target ← request (.getAlias path)
        match target with
        | some target => serveTarget P r target
        | none => serveMigration path

def serveUnlocked (r : ImageRequest) (rawID : GoString) : Call Reply :=
  if rejectURLToken r then pure .urlTokenForbidden
  else if !P.isCanonicalUUID rawID then serveAliasUnlocked P r
  else do
    let target : Option Delivery.Target ← request (.getTarget rawID)
    match target with
    | none => pure .notFound
    | some target => serveTarget P r target

/-- The lookup in the index that a request leads to. -/
inductive Lookup
  | byID (id : GoString)
  | byAlias (path : GoString)

def ImageRequest.lookup (r : ImageRequest) : Option Lookup :=
  if rejectURLToken r then none
  else
    match r.imageID.filter P.isCanonicalUUID, Delivery.normalizeAliasPath P r.escapedPath with
    | some id, _ => some (.byID id)
    | none, .ok path => some (.byAlias path)
    | none, .error _ => none

/-- The route of single images has a parameter; every other delivery goes through the alias route. -/
def serve (r : ImageRequest) : Call Reply :=
  match r.imageID with
  | some rawID => serveUnlocked P r rawID
  | none => serveAliasUnlocked P r

end ImageSilo
