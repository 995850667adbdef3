import ImageSilo.Concurrent.Sequence
import ImageSilo.Go.Text
import Mathlib.Data.List.Sort

/-! `Apply` executes the embedded scripts that are not recorded, each in a transaction with its record. -/
namespace ImageSilo.Schema

open Go Concurrent

/-- An entry of the embedded directory. -/
structure EmbeddedFile where
  name : GoString
  isDir : Bool
  source : GoString

/-- `strings.HasSuffix`. -/
def hasSuffix (s suffix : GoString) : Bool := suffix.isSuffixOf s

/-- The scripts of the directory in the order of their names. -/
def upScripts (files : List EmbeddedFile) : List EmbeddedFile :=
  (files.filter fun f => !f.isDir && hasSuffix f.name (str ".up.sql")).insertionSort
    fun f g => f.name ≤ g.name

inductive ApplyError
  | createTable
  | query (name : GoString)
  | begin (name : GoString)
  | execute (name : GoString)
  | record (name : GoString)
  | commit (name : GoString)

variable (S : Type)

/-- The database: the versions of `schema_migrations`, if there is that table, and the schema. -/
structure Store where
  versions : Option (List GoString)
  schema : S

structure State where
  stored : Store S
  pending : Option (Store S)

inductive Action
  | createTable
  | isApplied (name : GoString)
  | beginTx
  | execScript (source : GoString)
  | insertVersion (name : GoString)
  | commit
  | rollback

/-- `none` stands for an error of the driver. -/
abbrev Response : Action → Type
  | .isApplied _ => Option Bool
  | _ => Option Unit

/-- What is left open of a step: it may fail, a script may fail after some of its statements, and a
commit may fail after it has taken effect. -/
inductive Choice
  | normal
  | fault
  | broken (schema : S)
  | unseen

variable {S} (execute : GoString → S → Option S)

/-- A statement of the transaction. -/
def State.transact (σ : State S) (statement : Store S → Option (Store S)) : Option Unit × State S :=
  match σ.pending with
  | none => (none, σ)
  | some store =>
      match statement store with
      | none => (none, σ)
      | some store' => (some (), { σ with pending := some store' })

def Store.exec (store : Store S) (source : GoString) : Option (Store S) :=
  (execute source store.schema).map fun schema => { store with schema := schema }

/-- The version is the primary key. -/
def Store.insertVersion (store : Store S) (name : GoString) : Option (Store S) :=
  match store.versions with
  | none => none
  | some versions =>
      if versions.contains name then none else some { store with versions := some (versions ++ [name]) }

def State.perform (σ : State S) : (a : Action) → Choice S → Option (Response a × State S)
  | .createTable, .normal =>
      some (some (),
        { σ with stored := { σ.stored with versions := some (σ.stored.versions.getD []) } })
  | .isApplied name, .normal =>
      some (σ.stored.versions.map fun versions => versions.contains name, σ)
  | .isApplied _, .fault => some (none, σ)
  | .beginTx, .normal => some (some (), { σ with pending := some σ.stored })
  | .execScript source, .normal => some (σ.transact fun store => store.exec execute source)
  | .execScript _, .broken schema =>
      some (none, { σ with pending := σ.pending.map fun store => { store with schema := schema } })
  | .insertVersion name, .normal => some (σ.transact fun store => store.insertVersion name)
  | .commit, .normal =>
      match σ.pending with
      | none => some (none, σ)
      | some store => some (some (), ⟨store, none⟩)
  | .commit, .fault => some (none, { σ with pending := none })
  | .commit, .unseen => some (none, ⟨σ.pending.getD σ.stored, none⟩)
  | .rollback, .normal => some (some (), { σ with pending := none })
  | .createTable, .fault | .beginTx, .fault | .execScript _, .fault | .insertVersion _, .fault =>
      some (none, σ)
  | _, _ => none

abbrev machine : Machine Action Response where
  Shared := State S
  Choice := Choice S
  perform _ a c σ := σ.perform execute a c
  environment _ _ := False
  restart σ σ' := σ' = { σ with pending := none }

abbrev Call := Program Action Response

/-- The transaction of one script. -/
def transaction (file : EmbeddedFile) : Call (Except ApplyError Unit) := do
  let executed : Option Unit ← Program.perform (Action.execScript file.source)
  match executed with
  | none => pure (.error (.execute file.name))
  | some _ =>
      let recorded : Option Unit ← Program.perform (Action.insertVersion file.name)
      match recorded with
      | none => pure (.error (.record file.name))
      | some _ =>
          let committed : Option Unit ← Program.perform Action.commit
          match committed with
          | none => pure (.error (.commit file.name))
          | some _ => pure (.ok ())

/-- The rollback is deferred, so it also follows a commit, and then does nothing. -/
def applyOne (file : EmbeddedFile) : Call (Except ApplyError Unit) := do
  let begun : Option Unit ← Program.perform Action.beginTx
  match begun with
  | none => pure (.error (.begin file.name))
  | some _ =>
      let result ← transaction file
      let _ ← Program.perform Action.rollback
      pure result

def applyAll : List EmbeddedFile → Call (Except ApplyError Unit)
  | [] => pure (.ok ())
  | file :: files => do
      let applied : Option Bool ← Program.perform (Action.isApplied file.name)
      match applied with
      | none => pure (.error (.query file.name))
      | some true => applyAll files
      | some false =>
          match ← applyOne file with
          | .error e => pure (.error e)
          | .ok _ => applyAll files

def apply (files : List EmbeddedFile) : Call (Except ApplyError Unit) := do
  let created : Option Unit ← Program.perform Action.createTable
  match created with
  | none => pure (.error .createTable)
  | some _ => applyAll (upScripts files)

end ImageSilo.Schema
