import ImageSilo.Maintenance.Service

/-! The services of sessions and API tokens, step by step. -/
namespace ImageSilo

open Go Concurrent

variable (P : Platform)

def dummyPasswordHash : GoString :=
  str "$argon2id$v=19$m=19456,t=2,p=1$CaZiBzg+q0Gx30vFL1d3Xg$rt3GDgS5aKjp0hB3w/VcOEuZBdYepyP0FgzG7dhZqTU"

def maximumPasswordBytes : Nat := 1024

/-- `VerifyPassword`: a stored hash that cannot be read is an error. -/
def verifyPassword (password encoded : GoString) : Except Error Bool :=
  if maximumPasswordBytes < password.length then .error .passwordTooLong
  else
    match P.verifyPassword password encoded with
    | none => .error .passwordHash
    | some valid => .ok valid

theorem verifyPassword_true {password encoded : GoString}
    (verified : verifyPassword P password encoded = .ok true) :
    P.verifyPassword password encoded = some true := by
  unfold verifyPassword at verified
  split at verified
  · cases verified
  · split at verified
    · cases verified
    · rename_i valid same
      cases verified
      exact same

def sessionStep (s : Auth.SessionStep) : Call Unit := request (.sessionStep s)

def tokenStep (s : ApiToken.IndexStep) : Call Unit := request (.tokenStep s)

def loadSessions (now : Time) : Call (Except Error Unit) := do
  beginRebuild
  match ← listActiveSessions now with
  | .error e =>
      endRebuild
      pure (.error (.database e))
  | .ok sessions =>
      sessionStep (.replace sessions)
      endRebuild
      pure (.ok ())

/-- A fresh token with its digest. -/
def newRandomToken (start : GoString) : Call (Except Error (GoString × Digest)) := do
  let drawn : Except Error GoString ← request (.newToken start)
  pure (drawn.map fun token => (token, P.sha256 token))

structure LoggedIn where
  identity : Auth.SessionIdentity
  token : GoString
  csrfToken : GoString

/-- The new session in the table and in the index. -/
def publishSession (session : Auth.Session) (identity : Auth.SessionIdentity)
    (token csrfToken : GoString) : Call (Except Error LoggedIn) := do
  beginChange
  let created ← statement (.createSession session)
  match created with
  | .error e =>
      endChange
      pure (.error (.database e))
  | .ok _ =>
      sessionStep (.add session.tokenHash identity)
      endChange
      pure (.ok ⟨identity, token, csrfToken⟩)

def createSessionFor (admin : Auth.Admin) (now : Time) : Call (Except Error LoggedIn) := do
  match ← newRandomToken P (str "iss_") with
  | .error e => pure (.error e)
  | .ok (token, hash) =>
      match ← newRandomToken P (str "isc_") with
      | .error e => pure (.error e)
      | .ok (csrfToken, csrfHash) =>
          match ← newUUID with
          | .error e => pure (.error e)
          | .ok sessionID =>
              publishSession
                { id := sessionID, adminID := admin.id, tokenHash := hash, csrfHash := csrfHash,
                  expiresAt := now + Auth.sessionLifetime, createdAt := now }
                { sessionID := sessionID, adminID := admin.id, displayName := admin.displayName,
                  email := admin.email, csrfHash := csrfHash,
                  expiresAt := now + Auth.sessionLifetime }
                token csrfToken

def loginLocked (email password : GoString) (now : Time) : Call (Except Error LoggedIn) := do
  let found : Except DatabaseError Auth.Admin ←
    statement (.findAdminByEmail (P.toLower (trimSpace email)))
  match found with
  | .error .noRows =>
      -- an unknown address costs a verification too
      match verifyPassword P password dummyPasswordHash with
      | .error e => pure (.error e)
      | .ok _ => pure (.error .invalidCredentials)
  | .error e => pure (.error (.database e))
  | .ok admin =>
      match verifyPassword P password admin.passwordHash with
      | .error e => pure (.error e)
      | .ok false => pure (.error .invalidCredentials)
      | .ok true => createSessionFor P admin now

def login (email password : GoString) (now : Time) : Call (Except Error LoggedIn) := do
  sync .lockCredentials
  let result ← loginLocked P email password now
  sync .unlockCredentials
  pure result

def updateProfileLocked (identity : Auth.SessionIdentity) (displayName email : GoString)
    (now : Time) : Call (Except Error Auth.SessionIdentity) := do
  beginChange
  let updated : Except DatabaseError Bool ←
    statement (.updateProfile identity.adminID displayName email now)
  match updated with
  | .error .unique =>
      endChange
      pure (.error .adminExists)
  | .error e =>
      endChange
      pure (.error (.database e))
  | .ok false =>
      endChange
      pure (.error (.database .failed))
  | .ok true =>
      sessionStep (.updateAdmin identity.adminID displayName email)
      endChange
      pure (.ok { identity with displayName := displayName, email := email })

def updateProfile (identity : Auth.SessionIdentity) (displayName email : GoString) (now : Time) :
    Call (Except Error Auth.SessionIdentity) :=
  match Auth.normalizeDisplayName displayName with
  | .error e => pure (.error e)
  | .ok displayName =>
      match Auth.normalizeEmail P email with
      | .error e => pure (.error e)
      | .ok email => do
          sync .lockCredentials
          let result ← updateProfileLocked identity displayName email now
          sync .unlockCredentials
          pure result

def logout (token : GoString) : Call (Except Error Unit) :=
  if token = [] then pure (.ok ())
  else do
    beginChange
    let deleted : Except DatabaseError Unit ← statement (.deleteSessionByHash (P.sha256 token))
    match deleted with
    | .error e =>
        endChange
        pure (.error (.database e))
    | .ok _ =>
        sessionStep (.remove (P.sha256 token))
        endChange
        pure (.ok ())

/-- `HashPassword` checks the length and then draws a salt. -/
def hashPassword (password : GoString) : Call (Except Error GoString) :=
  if password.length < 12 then pure (.error .passwordTooShort)
  else if maximumPasswordBytes < password.length then pure (.error .passwordTooLong)
  else request (.hashPassword password)

def replacePassword (adminID newHash : GoString) (keepSessionHash : Digest) (now : Time) :
    Call (Except Error Unit) := do
  beginChange
  let changed : Except DatabaseError Unit ←
    statement (.changePassword adminID newHash keepSessionHash now)
  match changed with
  | .error e =>
      endChange
      pure (.error (.database e))
  | .ok _ =>
      sessionStep (.removeAllExcept keepSessionHash)
      endChange
      pure (.ok ())

def changePasswordLocked (adminID sessionToken currentPassword newPassword : GoString)
    (now : Time) : Call (Except Error Unit) := do
  let found : Except DatabaseError Auth.Admin ← statement (.findAdminByID adminID)
  match found with
  | .error e => pure (.error (.database e))
  | .ok admin =>
      match verifyPassword P currentPassword admin.passwordHash with
      | .error e => pure (.error e)
      | .ok false => pure (.error .invalidCredentials)
      | .ok true =>
          match ← hashPassword newPassword with
          | .error e => pure (.error e)
          | .ok newHash => replacePassword adminID newHash (P.sha256 sessionToken) now

def changePassword (identity : Auth.SessionIdentity)
    (sessionToken currentPassword newPassword : GoString) (now : Time) :
    Call (Except Error Unit) := do
  sync .lockCredentials
  let result ← changePasswordLocked P identity.adminID sessionToken currentPassword newPassword now
  sync .unlockCredentials
  pure result

def cleanupSessions (now : Time) : Call (Except Error Int) := do
  beginChange
  let deleted : Except DatabaseError Int ← statement (.deleteExpiredSessions now)
  match deleted with
  | .error e =>
      endChange
      pure (.error (.database e))
  | .ok count =>
      sessionStep (.purgeExpired now)
      endChange
      pure (.ok count)

def loadTokens (now : Time) : Call (Except Error Unit) := do
  beginRebuild
  match ← listActiveTokens now with
  | .error e =>
      endRebuild
      pure (.error (.database e))
  | .ok tokens =>
      tokenStep (.replace tokens)
      endRebuild
      pure (.ok ())

def publishToken (token : ApiToken.Token) (hash : Digest) (plaintext : GoString) :
    Call (Except Error (ApiToken.Token × GoString)) := do
  sync .lockMutations
  beginChange
  let created ← statement (.createToken token hash)
  match created with
  | .error e =>
      endChange
      sync .unlockMutations
      pure (.error (.database e))
  | .ok _ =>
      tokenStep (.add hash (ApiToken.identityFromToken token))
      endChange
      sync .unlockMutations
      pure (.ok (token, plaintext))

/-- The first twelve bytes of a token are kept in clear. -/
def generateToken (name : GoString) (scopes : List ApiToken.Scope) (expiresAt : Option Time)
    (now : Time) : Call (Except Error (ApiToken.Token × GoString)) := do
  match ← newRandomToken P (str "ist_") with
  | .error e => pure (.error e)
  | .ok (plaintext, hash) =>
      match ← newUUID with
      | .error e => pure (.error e)
      | .ok id =>
          publishToken
            { id := id, name := name, tokenPrefix := plaintext.take 12, scopes := scopes,
              expiresAt := expiresAt, isActive := true, createdAt := now }
            hash plaintext

def createToken (name : GoString) (scopes : List (Option ApiToken.Scope))
    (expiresAt : Option Time) (now : Time) : Call (Except Error (ApiToken.Token × GoString)) :=
  let name := trimSpace name
  if name = [] ∨ 100 < (runes name).length then pure (.error .invalidName)
  else
    match ApiToken.normalizeScopes scopes with
    | .error e => pure (.error e)
    | .ok scopes =>
        if !ApiToken.alive now expiresAt then pure (.error .invalidExpiration)
        else generateToken P name scopes expiresAt now

def revokeToken (id : GoString) : Call (Except Error Unit) := do
  sync .lockMutations
  beginChange
  let revoked : Except DatabaseError Digest ← statement (.revokeToken id)
  match revoked with
  | .error e =>
      endChange
      sync .unlockMutations
      pure (.error (if e = .noRows then .tokenNotFound else .database e))
  | .ok hash =>
      tokenStep (.remove hash)
      endChange
      sync .unlockMutations
      pure (.ok ())

def cleanupTokens (now : Time) : Call Unit := do
  beginChange
  tokenStep (.purgeExpired now)
  endChange

end ImageSilo
