import ImageSilo.Concurrent.Interleaving
import ImageSilo.Delivery.Loader
import ImageSilo.Storage.Filesystem

/-! The state of the system, and its atomic steps with their answers. -/
namespace ImageSilo

open Go Tables

/-- Who waits for or has the exclusive side of the rebuild lock. -/
structure Writer where
  call : Nat
  entered : Bool
  deriving DecidableEq

structure Locks where
  images : Finmap fun _ : GoString => Nat
  aliases : Finmap fun _ : GoString => Nat
  readers : Finset Nat
  writer : Option Writer
  credentials : Option Nat
  mutations : Option Nat

def Locks.free : Locks := ⟨∅, ∅, ∅, none, none, none⟩

inductive Sync
  | lockImage (id : GoString)
  | unlockImage (id : GoString)
  | lockAlias (path : GoString)
  | unlockAlias (path : GoString)
  | beginChange
  | endChange
  | announceRebuild
  | beginRebuild
  | endRebuild
  | lockCredentials
  | unlockCredentials
  | lockMutations
  | unlockMutations

def lockKey (locks : Finmap fun _ : GoString => Nat) (call : Nat) (key : GoString) :
    Option (Finmap fun _ : GoString => Nat) :=
  if (locks.lookup key).isNone then some (locks.insert key call) else none

def unlockKey (locks : Finmap fun _ : GoString => Nat) (call : Nat) (key : GoString) :
    Option (Finmap fun _ : GoString => Nat) :=
  if locks.lookup key = some call then some (locks.erase key) else none

def Locks.perform (l : Locks) (call : Nat) : Sync → Option Locks
  | .lockImage id => (lockKey l.images call id).map fun images => { l with images := images }
  | .unlockImage id => (unlockKey l.images call id).map fun images => { l with images := images }
  | .lockAlias path => (lockKey l.aliases call path).map fun aliases => { l with aliases := aliases }
  | .unlockAlias path =>
      (unlockKey l.aliases call path).map fun aliases => { l with aliases := aliases }
  | .beginChange =>
      if l.writer = none then some { l with readers := insert call l.readers } else none
  | .endChange =>
      if call ∈ l.readers then some { l with readers := l.readers.erase call } else none
  | .announceRebuild => if l.writer = none then some { l with writer := some ⟨call, false⟩ } else none
  | .beginRebuild =>
      if l.writer = some ⟨call, false⟩ ∧ l.readers = ∅ then
        some { l with writer := some ⟨call, true⟩ }
      else none
  | .endRebuild => if l.writer = some ⟨call, true⟩ then some { l with writer := none } else none
  | .lockCredentials =>
      if l.credentials = none then some { l with credentials := some call } else none
  | .unlockCredentials =>
      if l.credentials = some call then some { l with credentials := none } else none
  | .lockMutations => if l.mutations = none then some { l with mutations := some call } else none
  | .unlockMutations =>
      if l.mutations = some call then some { l with mutations := none } else none

/-- The processing gate: a channel with `capacity` slots, and the leases that are active. -/
structure Gate where
  capacity : Nat
  occupied : Nat
  leases : Finset Nat

inductive GateAction
  | tryAcquireLease
  | releaseLease
  | leaseActive
  | tryAcquire
  | release

/-- `releaseLease` is the swap of the active flag: only the first release gives the slot back. -/
def Gate.perform (g : Gate) (call : Nat) : GateAction → Bool × Gate
  | .tryAcquireLease =>
      if g.occupied < g.capacity then
        (true, { g with occupied := g.occupied + 1, leases := insert call g.leases })
      else (false, g)
  | .releaseLease =>
      if call ∈ g.leases then
        (true, { g with occupied := g.occupied - 1, leases := g.leases.erase call })
      else (false, g)
  | .leaseActive => (decide (call ∈ g.leases), g)
  | .tryAcquire =>
      if g.occupied < g.capacity then (true, { g with occupied := g.occupied + 1 }) else (false, g)
  | .release => (true, { g with occupied := g.occupied - 1 })

structure State where
  locks : Locks
  gate : Gate
  database : Database
  index : Delivery.Index
  sessions : Auth.SessionIndex
  tokens : ApiToken.Index
  files : Storage.Files
  clock : Time
  /-- Identifiers and tokens that are in use or have been handed out. -/
  issued : Finset GoString

inductive Action
  | sync (s : Sync)
  | gate (g : GateAction)
  | statement (q : Statement)
  | index (s : Delivery.IndexStep)
  | getTarget (id : GoString)
  | getAlias (path : GoString)
  | indexLen
  | aliasLen
  | sessionStep (s : Auth.SessionStep)
  | getSession (hash : Digest) (now : Time)
  | sessionLen
  | tokenStep (s : ApiToken.IndexStep)
  | getToken (hash : Digest) (now : Time)
  | tokenLen
  | file (a : Storage.FileAction)
  | now
  | newUUID
  | newToken (start : GoString)
  | hashPassword (password : GoString)

abbrev Response : Action → Type
  | .sync _ => Unit
  | .gate _ => Bool
  | .statement q => Except DatabaseError q.Value
  | .index _ => Unit
  | .getTarget _ => Option Delivery.Target
  | .getAlias _ => Option Delivery.Target
  | .indexLen => Nat
  | .aliasLen => Nat
  | .sessionStep _ => Unit
  | .getSession _ _ => Option Auth.SessionIdentity
  | .sessionLen => Nat
  | .tokenStep _ => Unit
  | .getToken _ _ => Option ApiToken.Identity
  | .tokenLen => Nat
  | .file a => a.Response
  | .now => Time
  | .newUUID => Except Error GoString
  | .newToken _ => Except Error GoString
  | .hashPassword _ => Except Error GoString

def State.statement (σ : State) (q : Statement) :
    Choice → Option (Except DatabaseError q.Value × State)
  | .normal => some ((σ.database.execute q).1, { σ with database := (σ.database.execute q).2 })
  | .fault => some (.error .failed, σ)
  | .interrupted =>
      if q.isReturning then
        some (.error .failed, { σ with database := (σ.database.execute q).2 })
      else none
  | _ => none

/-- A fresh text: it has not been handed out, and is not in use. -/
def State.fresh (σ : State) (accepts : GoString → Bool) :
    Choice → Option (Except Error GoString × State)
  | .name text =>
      if text ∉ σ.issued ∧ accepts text then
        some (.ok text, { σ with issued := insert text σ.issued })
      else none
  | .fault => some (.error .random, σ)
  | _ => none

variable (P : Platform)

def State.perform (σ : State) (call : Nat) : (a : Action) → Choice → Option (Response a × State)
  | .sync s, _ => (σ.locks.perform call s).map fun locks => ((), { σ with locks := locks })
  | .gate g, _ => some ((σ.gate.perform call g).1, { σ with gate := (σ.gate.perform call g).2 })
  | .statement q, c => σ.statement q c
  | .index s, _ => some ((), { σ with index := s.apply σ.index })
  | .getTarget id, _ => some (σ.index.get id, σ)
  | .getAlias path, _ => some (σ.index.getAlias path, σ)
  | .indexLen, _ => some (σ.index.byID.keys.card, σ)
  | .aliasLen, _ => some (σ.index.aliases.keys.card, σ)
  | .sessionStep s, _ => some ((), { σ with sessions := s.apply σ.sessions })
  | .getSession hash now, _ => some (Auth.getSession σ.sessions hash now, σ)
  | .sessionLen, _ => some (σ.sessions.keys.card, σ)
  | .tokenStep s, _ => some ((), { σ with tokens := s.apply σ.tokens })
  | .getToken hash now, _ => some (ApiToken.getToken σ.tokens hash now, σ)
  | .tokenLen, _ => some (σ.tokens.keys.card, σ)
  | .file a, c => (σ.files.perform P σ.clock a c).map fun (r, files) => (r, { σ with files := files })
  | .now, _ => some (σ.clock, σ)
  | .newUUID, c => σ.fresh P.isCanonicalUUID c
  | .newToken start, c => σ.fresh (hasPrefix · start) c
  | .hashPassword _, .name hash => some (.ok hash, σ)
  | .hashPassword _, .fault => some (.error .random, σ)
  | .hashPassword _, _ => none

/-- Only the clock moves by itself, and never backwards. -/
def State.environment (σ σ' : State) : Prop := ∃ t, σ.clock ≤ t ∧ σ' = { σ with clock := t }

/-- A restarted process holds no lock and no slot, and its indexes are empty until they are loaded;
the database and the data directory persist. -/
def State.restart (σ σ' : State) : Prop :=
  ∃ t, σ.clock ≤ t ∧
    σ' = { σ with
      locks := .free
      gate := ⟨σ.gate.capacity, 0, ∅⟩
      index := .empty
      sessions := ∅
      tokens := ∅
      clock := t }

abbrev machine : Concurrent.Machine Action Response where
  Shared := State
  Choice := Choice
  perform call a c σ := σ.perform P call a c
  environment := State.environment
  restart := State.restart

abbrev Call := Concurrent.Program Action Response

end ImageSilo
