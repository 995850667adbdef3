import ImageSilo.Database.Statements

/-! `Index` is the in-memory state that requests are answered from, with one step for each method. -/
namespace ImageSilo.Delivery

open Go Tables

structure Index where
  byID : Finmap fun _ : GoString => Target
  aliases : Finmap fun _ : GoString => GoString

def Index.empty : Index := ⟨∅, ∅⟩

structure Snapshot where
  targets : Finmap fun _ : GoString => Target
  aliases : Finmap fun _ : GoString => GoString

inductive IndexStep
  | replaceAll (snapshot : Snapshot)
  | add (id : GoString) (target : Target)
  | updateVisibility (id : GoString) (visibility : Visibility)
  | addAlias (path imageID : GoString)
  | removeAlias (path : GoString)
  | removeImage (id : GoString)

def IndexStep.apply : IndexStep → Index → Index
  | replaceAll snapshot, _ => ⟨snapshot.targets, snapshot.aliases⟩
  | add id target, index => { index with byID := index.byID.insert id target }
  | updateVisibility id visibility, index =>
      match index.byID.lookup id with
      | none => index
      | some target =>
          { index with byID := index.byID.insert id { target with visibility := visibility } }
  | addAlias path imageID, index =>
      if (index.byID.lookup imageID).isSome then
        { index with aliases := index.aliases.insert path imageID }
      else index
  | removeAlias path, index => { index with aliases := index.aliases.erase path }
  | removeImage id, index =>
      { byID := index.byID.erase id, aliases := keep (fun _ imageID => imageID != id) index.aliases }

/-- `Index.Get`. -/
def Index.get (index : Index) (id : GoString) : Option Target := index.byID.lookup id

/-- `Index.GetAlias`: both lookups under one lock. -/
def Index.getAlias (index : Index) (path : GoString) : Option Target :=
  (index.aliases.lookup path).bind fun id => index.byID.lookup id

structure LoadResult where
  loadedIDs : List GoString
  missingIDs : List GoString
  invalidSizeIDs : List GoString
  loadedAliasCount : Nat
  skippedAliasCount : Nat

inductive LoadError
  | database
  | storage
  | invalidAlias
  | aliasNotCanonical
  | unknownImage
  | duplicateAlias
  deriving DecidableEq

/-- The maps and the report while `Build` goes through its rows. -/
structure Loading where
  snapshot : Snapshot
  result : LoadResult

def Loading.start : Loading := ⟨⟨∅, ∅⟩, ⟨[], [], [], 0, 0⟩⟩

def targetOfRow (row : DeliveryRow) : Target :=
  { storageKey := row.storageKey
    mimeType := row.mimeType
    etag := etag row.hash
    size := row.size
    lastModified := ofUnix row.createdAt
    visibility := row.visibility
    originalName := row.originalName }

/-- One image row, given the size of its file, if there is one. -/
def Loading.addRow (l : Loading) (row : DeliveryRow) (storedSize : Option Int) : Loading :=
  match storedSize with
  | none => { l with result := { l.result with missingIDs := l.result.missingIDs ++ [row.id] } }
  | some size =>
      if size ≠ row.size then
        { l with result := { l.result with invalidSizeIDs := l.result.invalidSizeIDs ++ [row.id] } }
      else
        { snapshot :=
            { l.snapshot with targets := l.snapshot.targets.insert row.id (targetOfRow row) }
          result := { l.result with loadedIDs := l.result.loadedIDs ++ [row.id] } }

def Loading.skipAlias (l : Loading) : Loading :=
  { l with result := { l.result with skippedAliasCount := l.result.skippedAliasCount + 1 } }

variable (P : Platform)

def Loading.addAlias (l : Loading) (path imageID : GoString) : Except LoadError Loading :=
  if path = str "/" then .ok l.skipAlias
  else
    match normalizeAliasPath P path with
    | .error _ => .error .invalidAlias
    | .ok normalized =>
        if normalized ≠ path then .error .aliasNotCanonical
        else if imageID ∈ l.result.missingIDs ++ l.result.invalidSizeIDs then .ok l.skipAlias
        else if (l.snapshot.targets.lookup imageID).isNone then .error .unknownImage
        else if (l.snapshot.aliases.lookup path).isSome then .error .duplicateAlias
        else
          .ok
            { snapshot := { l.snapshot with aliases := l.snapshot.aliases.insert path imageID }
              result := { l.result with loadedAliasCount := l.result.loadedAliasCount + 1 } }

def Loading.addAliases (l : Loading) : List (GoString × GoString) → Except LoadError Loading
  | [] => .ok l
  | (path, imageID) :: rest =>
      match l.addAlias P path imageID with
      | .error e => .error e
      | .ok l' => l'.addAliases rest

/-- What `Build` reads. -/
structure Source (m : Type → Type) where
  deliveryRows : m (Except DatabaseError (List DeliveryRow))
  storedSize : GoString → m (Except Error (Option Int))
  aliasRows : m (Except DatabaseError (List (GoString × GoString)))

variable {m : Type → Type} [Monad m]

def addRows (storedSize : GoString → m (Except Error (Option Int))) (l : Loading) :
    List DeliveryRow → m (Except LoadError Loading)
  | [] => pure (.ok l)
  | row :: rest => do
      match ← storedSize row.storageKey with
      | .error _ => pure (.error .storage)
      | .ok size => addRows storedSize (l.addRow row size) rest

def build (source : Source m) : m (Except LoadError Loading) := do
  match ← source.deliveryRows with
  | .error _ => pure (.error .database)
  | .ok rows =>
      match ← addRows source.storedSize Loading.start rows with
      | .error e => pure (.error e)
      | .ok l =>
          match ← source.aliasRows with
          | .error _ => pure (.error .database)
          | .ok aliases => pure (l.addAliases P aliases)

end ImageSilo.Delivery
