import ImageSilo.System.Calls

/-! The rebuild of the indexes, the inspection and the daily maintenance, step by step. -/
namespace ImageSilo

open Go Concurrent Storage

variable (P : Platform)

structure RebuildResult where
  delivery : Delivery.LoadResult
  sessions : Nat
  tokens : Nat

/-- The map that a list of rows fills in order. -/
def mapOf {β : Type} (rows : List (Digest × β)) : Finmap fun _ : Digest => β :=
  rows.foldl (fun result row => result.insert row.1 row.2) ∅

def listActiveSessions (now : Time) : Call (Except DatabaseError Auth.SessionIndex) := do
  let rows : Except DatabaseError (List (Digest × Auth.SessionIdentity)) ←
    statement (.listActiveSessions now)
  pure (rows.map mapOf)

def listActiveTokens (now : Time) : Call (Except DatabaseError ApiToken.Index) := do
  let rows : Except DatabaseError (List (Digest × ApiToken.Identity)) ←
    statement (.listActiveTokens now)
  pure (rows.map mapOf)

def deliverySource : Delivery.Source Call where
  deliveryRows := statement .deliveryRows
  storedSize := storedSize
  aliasRows := statement .aliasRows

structure Loaded where
  delivery : Delivery.Loading
  sessions : Auth.SessionIndex
  tokens : ApiToken.Index

def load (now : Time) : Call (Except Delivery.LoadError Loaded) := do
  match ← Delivery.build P deliverySource with
  | .error e => pure (.error e)
  | .ok delivery =>
      match ← listActiveSessions now with
      | .error _ => pure (.error .database)
      | .ok sessions =>
          match ← listActiveTokens now with
          | .error _ => pure (.error .database)
          | .ok tokens => pure (.ok ⟨delivery, sessions, tokens⟩)

def rebuild (now : Time) : Call (Except Delivery.LoadError RebuildResult) := do
  beginRebuild
  match ← load P now with
  | .error e =>
      endRebuild
      pure (.error e)
  | .ok loaded =>
      index (.replaceAll loaded.delivery.snapshot)
      request (.sessionStep (.replace loaded.sessions))
      request (.tokenStep (.replace loaded.tokens))
      endRebuild
      pure (.ok ⟨loaded.delivery.result, loaded.sessions.keys.card, loaded.tokens.keys.card⟩)

structure InspectionResult where
  checkedAt : Time
  databaseImages : Nat
  imageFiles : Int
  thumbnailFiles : Int
  temporaryFiles : Int
  missingImageCount : Nat
  missingImageIDs : List GoString
  orphanImageCount : Int
  orphanThumbnailCount : Int

structure ScanState where
  records : List ImageFileRecord
  imageFiles : List FileEntry
  thumbnailFiles : List FileEntry
  temporaryFiles : List FileEntry

def maxReportedMissingIDs : Nat := 100

/-- The rows by storage key; of several rows with one key the last one counts. -/
def ScanState.expected (s : ScanState) (key : GoString) : Option ImageFileRecord :=
  (s.records.filter fun r => r.storageKey == key).getLast?

def ScanState.present (s : ScanState) (key : GoString) : Bool :=
  s.imageFiles.any fun e =>
    e.key == key && e.regular && (s.expected key).any fun r => e.size == r.storedSize

def ScanState.missing (s : ScanState) : List ImageFileRecord :=
  s.records.filter fun r => !s.present r.storageKey

def ScanState.hasImage (s : ScanState) (id : GoString) : Bool := s.records.any fun r => r.id == id

def ScanState.inspection (s : ScanState) (now : Time) : InspectionResult :=
  { checkedAt := now
    databaseImages := s.records.length
    imageFiles := s.imageFiles.length
    thumbnailFiles := s.thumbnailFiles.length
    temporaryFiles := s.temporaryFiles.length
    missingImageCount := s.missing.length
    missingImageIDs := (s.missing.map ImageFileRecord.id).take maxReportedMissingIDs
    orphanImageCount := s.imageFiles.countP fun e => (s.expected e.key).isNone || !e.regular
    orphanThumbnailCount := s.thumbnailFiles.countP fun e => !s.hasImage e.key || !e.regular }

def listFolder (folder : Folder) : Call (Except Error (List FileEntry)) := file (.list folder)

def scan : Call (Except Error ScanState) := do
  let records : Except DatabaseError (List ImageFileRecord) ← statement .imageFiles
  match records with
  | .error e => pure (.error (.database e))
  | .ok records =>
      match ← listFolder .images with
      | .error e => pure (.error e)
      | .ok imageFiles =>
          match ← listFolder .thumbnails with
          | .error e => pure (.error e)
          | .ok thumbnailFiles =>
              match ← listFolder .temporary with
              | .error e => pure (.error e)
              | .ok temporaryFiles =>
                  pure (.ok ⟨records, imageFiles, thumbnailFiles, temporaryFiles⟩)

def inspect (now : Time) : Call (Except Error InspectionResult) := do
  match ← scan with
  | .error e => pure (.error e)
  | .ok s => pure (.ok (s.inspection now))

structure Cleaned where
  removed : Nat
  failures : Nat

/-- One of the three removal loops of `Daily`. -/
def cleanFolder (folder : Folder) (referenced : GoString → Bool) (cutoff : Time) :
    List FileEntry → Call Cleaned
  | [] => pure ⟨0, 0⟩
  | entry :: rest =>
      if referenced entry.key || !entry.regular || cutoff < entry.modifiedAt then
        cleanFolder folder referenced cutoff rest
      else do
        let removed ← removeKey folder entry.key
        let cleaned ← cleanFolder folder referenced cutoff rest
        pure
          (if removed.isOk then { cleaned with removed := cleaned.removed + 1 }
          else { cleaned with failures := cleaned.failures + 1 })

structure PersistentStats where
  imageCount : Int
  aliasCount : Int
  storedBytes : Int
  activeSessions : Int
  activeTokens : Int

structure IndexStats where
  images : Nat
  aliases : Nat
  sessions : Nat
  tokens : Nat

def persistentStats (now : Time) : Call (Except DatabaseError PersistentStats) := do
  let totals : Except DatabaseError (Int × Int) ← statement .imageTotals
  match totals with
  | .error e => pure (.error e)
  | .ok totals =>
      let aliases : Except DatabaseError Int ← statement .aliasCount
      match aliases with
      | .error e => pure (.error e)
      | .ok aliases =>
          let sessions : Except DatabaseError Int ← statement (.activeSessionCount now)
          match sessions with
          | .error e => pure (.error e)
          | .ok sessions =>
              let tokens : Except DatabaseError Int ← statement (.activeTokenCount now)
              pure (tokens.map fun tokens => ⟨totals.1, aliases, totals.2, sessions, tokens⟩)

def indexStats : Call IndexStats := do
  let images ← request .indexLen
  let aliases ← request .aliasLen
  let sessions ← request .sessionLen
  let tokens ← request .tokenLen
  pure ⟨images, aliases, sessions, tokens⟩

def consistent (p : PersistentStats) (i : IndexStats) : Bool :=
  i.images == p.imageCount && i.aliases == p.aliasCount && i.sessions == p.activeSessions &&
    i.tokens == p.activeTokens

/-- `Service.status`; `Daily` ends with its steps. -/
def status (now : Time) : Call (Except DatabaseError (PersistentStats × IndexStats × Bool)) := do
  match ← persistentStats now with
  | .error e => pure (.error e)
  | .ok persistent =>
      let indexes ← indexStats
      pure (.ok (persistent, indexes, consistent persistent indexes))

structure DailyResult where
  completedAt : Time
  inspection : InspectionResult
  removedTemporaryFiles : Nat
  removedOrphanImages : Nat
  removedOrphanThumbnails : Nat
  cleanupFailures : Nat
  persistent : PersistentStats
  indexes : IndexStats
  indexConsistent : Bool

def effectiveAge (safetyAge : Int) : Int := if safetyAge ≤ 0 then 24 * 3600 * second else safetyAge

/-- The inspection after the removals. -/
def afterCleanup (i : InspectionResult) (images thumbnails temporary : Cleaned) :
    InspectionResult :=
  { i with
    imageFiles := i.imageFiles - images.removed
    orphanImageCount := i.orphanImageCount - images.removed
    thumbnailFiles := i.thumbnailFiles - thumbnails.removed
    orphanThumbnailCount := i.orphanThumbnailCount - thumbnails.removed
    temporaryFiles := i.temporaryFiles - temporary.removed }

def cleanUp (s : ScanState) (now cutoff : Time) : Call (Except Error DailyResult) := do
  let images ← cleanFolder .images (fun key => (s.expected key).isSome) cutoff s.imageFiles
  let thumbnails ← cleanFolder .thumbnails s.hasImage cutoff s.thumbnailFiles
  let temporary ← cleanFolder .temporary (fun _ => false) cutoff s.temporaryFiles
  match ← persistentStats now with
  | .error e => pure (.error (.database e))
  | .ok persistent =>
      let indexes ← indexStats
      pure (.ok
        { completedAt := now
          inspection := afterCleanup (s.inspection now) images thumbnails temporary
          removedTemporaryFiles := temporary.removed
          removedOrphanImages := images.removed
          removedOrphanThumbnails := thumbnails.removed
          cleanupFailures := images.failures + thumbnails.failures + temporary.failures
          persistent := persistent
          indexes := indexes
          indexConsistent := consistent persistent indexes })

/-- The clock is read before the scan, by the caller of the service. -/
def daily (safetyAge : Int) : Call (Except Error DailyResult) := do
  let now ← clockNow
  match ← scan with
  | .error e => pure (.error e)
  | .ok s => cleanUp s now (now - effectiveAge safetyAge)

/-- What the service keeps under its mutex for the overview. -/
structure Reported where
  missingImageCount : Nat
  missingImageIDs : List GoString
  lastInspection : Option InspectionResult
  lastDaily : Option DailyResult

def Reported.afterDaily (r : Reported) : Except Error DailyResult → Reported
  | .error _ => r
  | .ok result =>
      { missingImageCount := result.inspection.missingImageCount
        missingImageIDs := result.inspection.missingImageIDs
        lastInspection := some result.inspection
        lastDaily := some result }

end ImageSilo
