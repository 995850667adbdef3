import ImageSilo.Image.Model
import ImageSilo.Tables.Unique
import Mathlib.Data.List.Sort

/-! The records of the packages `auth` and `apitoken` and their two in-memory indexes. -/
namespace ImageSilo

open Go Tables

namespace Auth

structure Admin where
  id : GoString
  displayName : GoString
  email : GoString
  passwordHash : GoString
  createdAt : Time
  updatedAt : Time

structure Session where
  id : GoString
  adminID : GoString
  tokenHash : Digest
  csrfHash : Digest
  expiresAt : Time
  createdAt : Time

structure SessionIdentity where
  sessionID : GoString
  adminID : GoString
  displayName : GoString
  email : GoString
  csrfHash : Digest
  expiresAt : Time
  deriving DecidableEq

def sessionLifetime : Int := 24 * 3600 * second

abbrev SessionIndex := Finmap fun _ : Digest => SessionIdentity

inductive SessionStep
  | replace (sessions : SessionIndex)
  | add (hash : Digest) (identity : SessionIdentity)
  | remove (hash : Digest)
  | removeAllExcept (keep : Digest)
  | updateAdmin (adminID displayName email : GoString)
  | purgeExpired (now : Time)

def SessionStep.apply : SessionStep → SessionIndex → SessionIndex
  | replace sessions, _ => sessions
  | add hash identity, index => index.insert hash identity
  | remove hash, index => index.erase hash
  | removeAllExcept kept, index => keep (fun hash _ => hash == kept) index
  | updateAdmin adminID displayName email, index =>
      mapValues (fun _ identity =>
        if identity.adminID = adminID then
          { identity with displayName := displayName, email := email }
        else identity) index
  | purgeExpired now, index => keep (fun _ identity => now < identity.expiresAt) index

/-- `SessionIndex.Get`. -/
def getSession (index : SessionIndex) (hash : Digest) (now : Time) : Option SessionIdentity :=
  (index.lookup hash).filter fun identity => now < identity.expiresAt

def normalizeEmail (P : Platform) (raw : GoString) : Except Error GoString :=
  let normalized := P.toLower (trimSpace raw)
  if P.parseAddress normalized ≠ some normalized ∨ 254 < normalized.length then
    .error .invalidEmail
  else .ok normalized

def normalizeDisplayName (raw : GoString) : Except Error GoString :=
  let normalized := trimSpace raw
  if (runes normalized).length < 1 ∨ 80 < (runes normalized).length then
    .error .invalidDisplayName
  else .ok normalized

end Auth

namespace ApiToken

/-- The validated scopes; `validScopes` lists exactly these. -/
inductive Scope
  | aliasesWrite
  | imagesDelete
  | imagesReadPrivate
  | imagesUpload
  deriving DecidableEq

structure Token where
  id : GoString
  name : GoString
  tokenPrefix : GoString
  scopes : List Scope
  expiresAt : Option Time
  isActive : Bool
  createdAt : Time

structure Identity where
  tokenID : GoString
  tokenPrefix : GoString
  scopes : List Scope
  expiresAt : Option Time
  deriving DecidableEq

def Identity.hasScope (identity : Identity) (scope : Scope) : Bool := identity.scopes.contains scope

abbrev Index := Finmap fun _ : Digest => Identity

def alive (now : Time) (expiresAt : Option Time) : Bool := expiresAt.all fun t => now < t

inductive IndexStep
  | replace (tokens : Index)
  | add (hash : Digest) (identity : Identity)
  | remove (hash : Digest)
  | purgeExpired (now : Time)

def IndexStep.apply : IndexStep → Index → Index
  | replace tokens, _ => tokens
  | add hash identity, index => index.insert hash identity
  | remove hash, index => index.erase hash
  | purgeExpired now, index => keep (fun _ identity => alive now identity.expiresAt) index

/-- `Index.Get`. -/
def getToken (index : Index) (hash : Digest) (now : Time) : Option Identity :=
  (index.lookup hash).filter fun identity => alive now identity.expiresAt

/-- The four scopes in the order of their texts. -/
def Scope.all : List Scope := [.aliasesWrite, .imagesDelete, .imagesReadPrivate, .imagesUpload]

/-- `normalizeScopes`: no duplicates, sorted by text; `none` stands for a text that is no scope. -/
def normalizeScopes (scopes : List (Option Scope)) : Except Error (List Scope) :=
  if scopes = [] ∨ none ∈ scopes then .error .invalidScope
  else .ok (Scope.all.filter fun scope => some scope ∈ scopes)

def identityFromToken (token : Token) : Identity :=
  { tokenID := token.id
    tokenPrefix := token.tokenPrefix
    scopes := token.scopes
    expiresAt := token.expiresAt }

end ApiToken

end ImageSilo
