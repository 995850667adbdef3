import ImageSilo.Auth.Model
import ImageSilo.Concurrent.Traces

/-! `Initialize` of the package `setup` as a program of atomic steps in transactions. -/
namespace ImageSilo.Setup

open Go Concurrent

structure Request where
  bootstrapToken : GoString
  displayName : GoString
  email : GoString
  password : GoString
  /-- `none` stands for a text that is neither visibility. -/
  defaultVisibility : Option Visibility
  compressionEnabled : Bool
  jpegQuality : Int
  webpQuality : Int
  pngCompressionLevel : Int
  conversionEnabled : Bool
  conversionWebPQuality : Int
  conversionLossless : Bool

/-- The columns of `app_settings` that the setup writes. -/
structure Preferences where
  defaultVisibility : Visibility
  compressionEnabled : Bool
  jpegQuality : Int
  webpQuality : Int
  pngCompressionLevel : Int
  conversionEnabled : Bool
  conversionWebPQuality : Int
  conversionLossless : Bool
  updatedAt : Time

/-- The row of `app_settings`. -/
structure Settings where
  maxUploadBytes : Int
  maxBatchCount : Int
  maxTotalPixels : Int
  maintenanceHour : Int
  preferences : Preferences

inductive Error
  | alreadyInitialized
  | invalidBootstrapToken
  | invalidSettings
  | account (e : ImageSilo.Error)
  | random
  | database

/-- The settings that a request asks for, if they are valid. -/
def Request.preferences (r : Request) (now : Time) : Option Preferences :=
  match r.defaultVisibility with
  | none => none
  | some visibility =>
      if r.jpegQuality < 1 ∨ 100 < r.jpegQuality ∨ r.webpQuality < 1 ∨ 100 < r.webpQuality ∨
          r.pngCompressionLevel < 0 ∨ 9 < r.pngCompressionLevel ∨
          r.conversionWebPQuality < 1 ∨ 100 < r.conversionWebPQuality then none
      else
        some ⟨visibility, r.compressionEnabled, r.jpegQuality, r.webpQuality, r.pngCompressionLevel,
          r.conversionEnabled, r.conversionWebPQuality, r.conversionLossless, ofUnix (unix now)⟩

/-- An open transaction: how many administrators it has read, and what it is going to write. -/
structure Tx where
  seen : Option Nat
  admin : Option Auth.Admin
  preferences : Option Preferences

structure State where
  admins : List Auth.Admin
  settings : Settings
  /-- Who holds `initializeMu`. -/
  holder : Option Nat
  tokenHash : Digest
  tokenSet : Bool
  txs : Nat → Option Tx

inductive Action
  | lock
  | unlock
  | countAdmins
  | bootstrap
  | hashPassword (password : GoString)
  | newV7
  | begin
  | countInside
  | insertAdmin (admin : Auth.Admin)
  | updateSettings (preferences : Preferences)
  | commit
  | rollback
  | consume

abbrev Response : Action → Type
  | .lock => Unit
  | .unlock => Unit
  | .countAdmins => Option Nat
  | .bootstrap => Bool × Digest
  | .hashPassword _ => Option GoString
  | .newV7 => Option GoString
  | .begin => Bool
  | .countInside => Option Nat
  | .insertAdmin _ => Bool
  | .updateSettings _ => Bool
  | .commit => Bool
  | .rollback => Unit
  | .consume => Unit

/-- What is left open: a step fails, it goes through, or a text is drawn. -/
inductive Choice
  | fault
  | normal
  | name (text : GoString)

def State.withTx (σ : State) (call : Nat) (tx : Option Tx) : State :=
  { σ with txs := Function.update σ.txs call tx }

/-- The rows after the commit of a transaction. -/
def State.apply (σ : State) (tx : Tx) : State :=
  { σ with
    admins := σ.admins ++ tx.admin.toList
    settings := (tx.preferences.map fun p => { σ.settings with preferences := p }).getD σ.settings }

/-- What a transaction has read still holds, and the table has room for what it writes. -/
def State.serializable (σ : State) (tx : Tx) : Bool :=
  tx.seen == some σ.admins.length && decide ((σ.admins ++ tx.admin.toList).length ≤ 1)

def State.perform (call : Nat) : (a : Action) → Choice → State → Option (Response a × State)
  | .lock, _, σ => if σ.holder = none then some ((), { σ with holder := some call }) else none
  | .unlock, _, σ => some ((), { σ with holder := none })
  | .countAdmins, .fault, σ => some (none, σ)
  | .countAdmins, _, σ => some (some σ.admins.length, σ)
  | .bootstrap, _, σ => some ((σ.tokenSet, σ.tokenHash), σ)
  | .hashPassword _, .fault, σ => some (none, σ)
  | .hashPassword _, .name hash, σ => some (some hash, σ)
  | .hashPassword _, .normal, _ => none
  | .newV7, .fault, σ => some (none, σ)
  | .newV7, .name id, σ => some (some id, σ)
  | .newV7, .normal, _ => none
  | .begin, .fault, σ => some (false, σ)
  | .begin, _, σ => some (true, σ.withTx call (some ⟨none, none, none⟩))
  | .countInside, .fault, σ => some (none, σ)
  | .countInside, _, σ =>
      some (some σ.admins.length,
        σ.withTx call ((σ.txs call).map fun tx => { tx with seen := some σ.admins.length }))
  | .insertAdmin _, .fault, σ => some (false, σ)
  | .insertAdmin admin, _, σ =>
      match σ.txs call with
      | some tx =>
          if tx.seen = some 0 ∧ tx.admin.isNone then
            some (true, σ.withTx call (some { tx with admin := some admin }))
          else some (false, σ)
      | none => some (false, σ)
  | .updateSettings _, .fault, σ => some (false, σ)
  | .updateSettings preferences, _, σ =>
      some (true, σ.withTx call
        ((σ.txs call).map fun tx => { tx with preferences := some preferences }))
  | .commit, .fault, σ => some (false, σ.withTx call none)
  | .commit, _, σ =>
      match σ.txs call with
      | some tx =>
          if σ.serializable tx then some (true, (σ.apply tx).withTx call none)
          else some (false, σ.withTx call none)
      | none => some (false, σ)
  | .rollback, _, σ => some ((), σ.withTx call none)
  | .consume, _, σ => some ((), { σ with tokenHash := Vector.replicate 32 0, tokenSet := false })

/-- Another process creates the administrator. -/
def State.environment (σ σ' : State) : Prop :=
  σ.admins = [] ∧ ∃ admin, σ' = { σ with admins := [admin] }

abbrev machine : Machine Action Response where
  Shared := State
  Choice := Choice
  perform := State.perform
  environment := State.environment
  restart _ _ := False

abbrev Call := Program Action Response

def request (a : Action) : Call (Response a) := Program.perform a

variable (P : Platform)

/-- The service that `NewService` returns, and its token if it has made one. -/
def newService (admins : List Auth.Admin) (settings : Settings) (drawn : GoString) :
    State × Option GoString :=
  if 0 < admins.length then
    (⟨admins, settings, none, Vector.replicate 32 0, false, fun _ => none⟩, none)
  else (⟨admins, settings, none, P.sha256 drawn, true, fun _ => none⟩, some drawn)

/-- The row of an administrator, with its times at whole seconds. -/
def storedAdmin (admin : Auth.Admin) : Auth.Admin :=
  { admin with createdAt := ofUnix (unix admin.createdAt), updatedAt := ofUnix (unix admin.updatedAt) }

def commitInside (admin : Auth.Admin) : Call (Except Error Auth.Admin) := do
  let committed : Bool ← request .commit
  if !committed then pure (.error .database)
  else
    request .consume
    pure (.ok admin)

/-- The transaction, after it has begun. -/
def saveInside (admin : Auth.Admin) (preferences : Preferences) :
    Call (Except Error Auth.Admin) := do
  let count : Option Nat ← request .countInside
  match count with
  | none => pure (.error .database)
  | some count =>
      if 0 < count then pure (.error .alreadyInitialized)
      else
        let inserted : Bool ← request (.insertAdmin (storedAdmin admin))
        if !inserted then pure (.error .database)
        else
          let updated : Bool ← request (.updateSettings preferences)
          if !updated then pure (.error .database) else commitInside admin

def save (admin : Auth.Admin) (preferences : Preferences) : Call (Except Error Auth.Admin) := do
  let begun : Bool ← request .begin
  if !begun then pure (.error .database)
  else
    let result ← saveInside admin preferences
    -- the deferred rollback; after a commit it does nothing
    request .rollback
    pure result

/-- `HashPassword` checks the length and then draws a salt. -/
def hashPassword (password : GoString) : Call (Except Error GoString) :=
  if password.length < 12 then pure (.error (.account .passwordTooShort))
  else if 1024 < password.length then pure (.error (.account .passwordTooLong))
  else do
    let hashed : Option GoString ← request (.hashPassword password)
    pure (hashed.elim (.error .random) .ok)

def initializeAdmin (r : Request) (now : Time) (displayName email : GoString) :
    Call (Except Error Auth.Admin) := do
  match ← hashPassword r.password with
  | .error e => pure (.error e)
  | .ok passwordHash =>
      match r.preferences now with
      | none => pure (.error .invalidSettings)
      | some preferences =>
          let id : Option GoString ← request .newV7
          match id with
          | none => pure (.error .random)
          | some id => save ⟨id, displayName, email, passwordHash, now, now⟩ preferences

def initializeLocked (r : Request) (now : Time) : Call (Except Error Auth.Admin) := do
  let count : Option Nat ← request .countAdmins
  match count with
  | none => pure (.error .database)
  | some count =>
      if 0 < count then pure (.error .alreadyInitialized)
      else
        let token : Bool × Digest ← request .bootstrap
        if !token.1 || P.sha256 r.bootstrapToken != token.2 then
          pure (.error .invalidBootstrapToken)
        else
          match Auth.normalizeDisplayName r.displayName with
          | .error e => pure (.error (.account e))
          | .ok displayName =>
              match Auth.normalizeEmail P r.email with
              | .error e => pure (.error (.account e))
              | .ok email => initializeAdmin r now displayName email

/-- `Service.Initialize`. -/
def serviceInitialize (r : Request) (now : Time) : Call (Except Error Auth.Admin) := do
  request .lock
  let result ← initializeLocked P r now
  request .unlock
  pure result

end ImageSilo.Setup
