import ImageSilo.System.Machine

/-! The methods of the repositories, the file system and the barrier as programs. -/
namespace ImageSilo

open Go Concurrent

def request (a : Action) : Call (Response a) := Program.perform a

def sync (s : Sync) : Call Unit := request (.sync s)

def gate (g : GateAction) : Call Bool := request (.gate g)

def statement (q : Statement) : Call (Except DatabaseError q.Value) :=
  request (.statement q)

def index (s : Delivery.IndexStep) : Call Unit := request (.index s)

def file (a : Storage.FileAction) : Call a.Response := request (.file a)

def clockNow : Call Time := request .now

def newUUID : Call (Except Error GoString) := request .newUUID

/-- `lease.Release`: the swap makes every release but the first do nothing. -/
def releaseLease : Call Unit := do
  let _ ← gate .releaseLease
  pure ()

section Storage

open Storage

def createTemporary : Call (Except Error GoString) := file .createTemporary

def closeTemporary (path : GoString) : Call (Except Error Unit) := file (.closeTemporary path)

/-- Every caller ignores the error. -/
def removeTemporary (path : GoString) : Call Unit := do
  let _ ← file (.remove .temporary path)
  pure ()

/-- Removes a temporary file and returns the error. -/
def discard {α : Type} (path : GoString) (e : Error) : Call (Except Error α) := do
  removeTemporary path
  pure (.error e)

def inspectFile (ref : FileRef) (limits : Processor.Limits) :
    Call (Except Error Processor.Metadata) := do
  let inspected : Except Processor.Error Processor.Metadata ← file (.inspect ref limits)
  pure (inspected.mapError Error.processor)

def hashFile (path : GoString) : Call (Except Error (Int × Digest)) := file (.hash path)

def commitTemporary (path storageKey : GoString) : Call (Except Error Unit) :=
  if !validKey storageKey then pure (.error .storage)
  else do
    let present : Except Error Bool ← file (.statImage storageKey)
    match present with
    | .error e => pure (.error e)
    | .ok true => pure (.error .storage)
    | .ok false => file (.rename path .images storageKey)

def commitThumbnailTemporary (path imageID : GoString) : Call (Except Error Unit) :=
  if !validKey imageID then pure (.error .storage) else file (.rename path .thumbnails imageID)

def removeKey (folder : Folder) (key : GoString) : Call (Except Error Unit) :=
  if !validKey key then pure (.error .storage) else file (.remove folder key)

def openImage (storageKey : GoString) : Call (Except OpenError Bytes) :=
  if !validKey storageKey then pure (.error .failed) else file (.openImage storageKey)

def storedSize (storageKey : GoString) : Call (Except Error (Option Int)) := do
  match ← openImage storageKey with
  | .ok content => pure (.ok (some content.length))
  | .error .notExist => pure (.ok none)
  | .error .failed => pure (.error .storage)

end Storage

section Repositories

def imageError : DatabaseError → Error
  | .noRows => .imageNotFound
  | e => .database e

def aliasError : DatabaseError → Error
  | .noRows => .aliasNotFound
  | .unique => .aliasConflict
  | e => .database e

def createImage (value : Image) : Call (Except Error Unit) := do
  let created ← statement (.createImage value)
  pure (created.mapError Error.database)

def getImage (id : GoString) : Call (Except Error Image) := do
  let found ← statement (.getImage id)
  pure (found.mapError imageError)

def deleteImageRow (id : GoString) : Call (Except Error Image) := do
  let deleted ← statement (.deleteImage id)
  pure (deleted.mapError imageError)

def updateVisibility (id : GoString) (visibility : Visibility) : Call (Except Error Bool) := do
  let updated ← statement (.updateVisibility id visibility)
  pure (updated.mapError Error.database)

def updateContent (value : Image) : Call (Except Error Bool) := do
  let updated ← statement (.updateContent value)
  pure (updated.mapError Error.database)

/-- Without the image the statement inserts nothing. -/
def createAliasRow (value : Alias) : Call (Except Error Unit) := do
  let affected ← statement (.createAlias value)
  match affected with
  | .error e => pure (.error (aliasError e))
  | .ok false => pure (.error .targetImageNotFound)
  | .ok true => pure (.ok ())

def pathByID (id : GoString) : Call (Except Error GoString) := do
  let found ← statement (.aliasPathByID id)
  pure (found.mapError aliasError)

def deleteAliasRow (id : GoString) : Call (Except Error GoString) := do
  let deleted ← statement (.deleteAlias id)
  pure (deleted.mapError aliasError)

def aliasExists (path : GoString) : Call (Except Error Bool) := do
  let found ← statement (.aliasExists path)
  pure (found.mapError Error.database)

def createImport (value : Image) (mapping : Alias) : Call (Except Error Unit) := do
  let created ← statement (.createImport value mapping)
  pure (created.mapError aliasError)

end Repositories

section Barrier

def lockImage (id : GoString) : Call Unit := sync (.lockImage id)

def unlockImage (id : GoString) : Call Unit := sync (.unlockImage id)

def beginChange : Call Unit := sync .beginChange

def endChange : Call Unit := sync .endChange

def beginAliasChange (path : GoString) : Call Unit := do
  sync (.lockAlias path)
  sync .beginChange

def endAliasChange (path : GoString) : Call Unit := do
  sync .endChange
  sync (.unlockAlias path)

/-- `RWMutex.Lock`: a writer first keeps new readers out, then waits for the old ones. -/
def beginRebuild : Call Unit := do
  sync .announceRebuild
  sync .beginRebuild

def endRebuild : Call Unit := sync .endRebuild

end Barrier

end ImageSilo
