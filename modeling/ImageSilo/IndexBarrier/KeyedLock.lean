import ImageSilo.Concurrent.Interleaving
import ImageSilo.Go.Text
import ImageSilo.Tables.Unique

/-! `KeyedLocker` keeps a reference-counted entry per key. -/
namespace ImageSilo.IndexBarrier

open Go Tables Concurrent

structure KeyedLockEntry where
  locked : Bool
  refs : Int

structure KeyedLocker where
  entries : Finmap fun _ : GoString => Nat
  heap : Nat → KeyedLockEntry
  next : Nat

def KeyedLocker.empty : KeyedLocker := ⟨∅, fun _ => ⟨false, 0⟩, 0⟩

inductive LockAction
  | register (key : GoString)
  | acquire (entry : Nat)
  | release (entry : Nat)
  | deregister (key : GoString) (entry : Nat)

abbrev LockResponse : LockAction → Type
  | .register _ => Nat
  | _ => Unit

namespace KeyedLocker

/-- One more reference to an entry of the map. -/
def join (l : KeyedLocker) (entry : Nat) : KeyedLocker :=
  { l with
    heap := Function.update l.heap entry { l.heap entry with refs := (l.heap entry).refs + 1 } }

/-- A new entry with its first reference. -/
def create (l : KeyedLocker) (key : GoString) : KeyedLocker where
  entries := l.entries.insert key l.next
  heap := Function.update l.heap l.next ⟨false, 1⟩
  next := l.next + 1

/-- The section of `Lock` under the mutex of the map. -/
def register (l : KeyedLocker) (key : GoString) : Nat × KeyedLocker :=
  match l.entries.lookup key with
  | some entry => (entry, l.join entry)
  | none => (l.next, l.create key)

/-- The section of the unlock function under the mutex of the map. -/
def deregister (l : KeyedLocker) (key : GoString) (entry : Nat) : KeyedLocker :=
  { l with
    heap := Function.update l.heap entry { l.heap entry with refs := (l.heap entry).refs - 1 }
    entries := if (l.heap entry).refs - 1 = 0 then l.entries.erase key else l.entries }

def setLocked (l : KeyedLocker) (entry : Nat) (locked : Bool) : KeyedLocker :=
  { l with heap := Function.update l.heap entry { l.heap entry with locked := locked } }

/-- A mutex that is held cannot be locked, and one that is free cannot be unlocked. -/
def perform (l : KeyedLocker) : (a : LockAction) → Option (LockResponse a × KeyedLocker)
  | .register key => some (l.register key)
  | .acquire entry => if (l.heap entry).locked then none else some ((), l.setLocked entry true)
  | .release entry => if (l.heap entry).locked then some ((), l.setLocked entry false) else none
  | .deregister key entry => some ((), l.deregister key entry)

end KeyedLocker

abbrev LockProgram := Program LockAction LockResponse

/-- `KeyedLocker.Lock`; the unlock function closes over the entry. -/
def lock (key : GoString) : LockProgram Nat := do
  let entry : Nat ← Program.perform (LockAction.register key)
  let _ ← Program.perform (LockAction.acquire entry)
  pure entry

def unlock (key : GoString) (entry : Nat) : LockProgram Unit := do
  let _ ← Program.perform (LockAction.release entry)
  Program.perform (LockAction.deregister key entry)

/-- A caller takes the lock of its key and gives it back. -/
def locking (key : GoString) : LockProgram Unit := do
  let entry ← lock key
  unlock key entry

abbrev lockMachine : Machine LockAction LockResponse where
  Shared := KeyedLocker
  Choice := Unit
  perform _ a _ l := l.perform a
  environment _ _ := False
  restart _ _ := False

end ImageSilo.IndexBarrier
