import ImageSilo.System.Requests
import ImageSilo.System.Snapshot

/-! The state of a process that has just started on a given database and data directory. -/
namespace ImageSilo

open Go Tables Delivery Storage

/-- Every identifier and every key in use counts as handed out. -/
structure Registered (σ : State) : Prop where
  ids : ∀ v ∈ σ.database.images, v.id ∈ σ.issued
  keys : ∀ v ∈ σ.database.images, v.storageKey ∈ σ.issued
  aliases : ∀ m ∈ σ.database.aliases, m.id ∈ σ.issued
  files : ∀ k entry, σ.files.images.lookup k = some entry → k ∈ σ.issued

/-- Every image row has a regular file under its key, and the file fits the row. -/
def State.rowFiles (σ : State) (fits : Image → Bytes → Prop) : Prop :=
  ∀ v ∈ σ.database.images, ∃ content modifiedAt,
    σ.files.images.lookup v.storageKey = some ⟨.regular content, modifiedAt⟩ ∧ fits v content

/-- Nobody is in the middle of anything, and the index is the one that `Build` computes. -/
structure Begins (P : Platform) (σ : State) : Prop where
  registered : Registered σ
  free : σ.locks = .free
  indexed : σ.Indexed P

/-- Identifiers, keys and file names in use. -/
def namesInUse (db : Database) (files : Files) : Finset GoString :=
  (db.images.map Image.id ++ db.images.map Image.storageKey ++ db.aliases.map Alias.id).toFinset ∪
    (files.images.keys ∪ files.thumbnails.keys)

def State.booted (db : Database) (files : Files) (clock : Time) : State where
  locks := .free
  gate := ⟨2, 0, ∅⟩
  database := db
  index := .empty
  sessions := ∅
  tokens := ∅
  files := files
  clock := clock
  issued := namesInUse db files

theorem booted_registered (db : Database) (files : Files) (clock : Time) :
    Registered (State.booted db files clock) where
  ids v member := by
    have := List.mem_map_of_mem (f := Image.id) member
    simp only [State.booted, namesInUse, Finset.mem_union, List.mem_toFinset, List.mem_append]
    exact .inl (.inl (.inl this))
  keys v member := by
    have := List.mem_map_of_mem (f := Image.storageKey) member
    simp only [State.booted, namesInUse, Finset.mem_union, List.mem_toFinset, List.mem_append]
    exact .inl (.inl (.inr this))
  aliases m member := by
    have := List.mem_map_of_mem (f := Alias.id) member
    simp only [State.booted, namesInUse, Finset.mem_union, List.mem_toFinset, List.mem_append]
    exact .inl (.inr this)
  files k entry there := by
    have : k ∈ files.images.keys := Finmap.mem_keys.mpr (Finmap.mem_of_lookup_eq_some there)
    simp only [State.booted, namesInUse, Finset.mem_union]
    exact .inr (.inl this)

variable (P : Platform)

/-- The state with the index that `Build` computes, if it computes one. -/
def State.loaded (σ : State) : State :=
  match σ.built P with
  | .ok L => { σ with index := ⟨L.snapshot.targets, L.snapshot.aliases⟩ }
  | .error _ => σ

variable {P}

theorem loaded_eq {σ : State} {L : Loading} (built : σ.built P = .ok L) :
    σ.loaded P = { σ with index := ⟨L.snapshot.targets, L.snapshot.aliases⟩ } := by
  unfold State.loaded
  rw [built]

theorem loaded_database (σ : State) : (σ.loaded P).database = σ.database := by
  unfold State.loaded
  split <;> rfl

theorem loaded_files (σ : State) : (σ.loaded P).files = σ.files := by
  unfold State.loaded
  split <;> rfl

/-- A process that could build its index is ready to serve. -/
theorem loaded_begins {db : Database} {files : Files} {clock : Time}
    (built : ∃ L, (State.booted db files clock).built P = .ok L) :
    Begins P ((State.booted db files clock).loaded P) := by
  obtain ⟨L, eq⟩ := built
  have registered := booted_registered db files clock
  rw [loaded_eq eq]
  exact ⟨⟨registered.ids, registered.keys, registered.aliases, registered.files⟩, rfl, L, eq, rfl⟩

section Sample

theorem no_sessions :
    ∀ s ∈ ([] : List Auth.Session), ∃ a ∈ (none : Option Auth.Admin), a.id = s.adminID := by
  simp

/-- A database with one image and some aliases of it. -/
def Database.single (v : Image) (aliases : List Alias) (valid : v.admissible = true)
    (aliasIDs : Unique Alias.id aliases) (aliasPaths : Unique Alias.path aliases)
    (aliasImages : ∀ a ∈ aliases, v.id = a.imageID) : Database where
  images := [v]
  aliases := aliases
  admin := none
  sessions := []
  tokens := []
  imageIDs := List.nodup_singleton _
  storageKeys := List.nodup_singleton _
  checked := by simpa using valid
  aliasIDs := aliasIDs
  aliasPaths := aliasPaths
  aliasImages a member := ⟨v, List.mem_singleton_self v, aliasImages a member⟩
  sessionIDs := List.nodup_nil
  sessionHashes := List.nodup_nil
  sessionAdmins := no_sessions
  tokenIDs := List.nodup_nil
  tokenHashes := List.nodup_nil

/-- A data directory whose only file is in the images directory. -/
def Files.single (key : GoString) (content : Bytes) : Files where
  directory
    | .images => Finmap.singleton key ⟨.regular content, 0⟩
    | _ => ∅
  handedOut := ∅
  migrations _ := none
  lastWrite := Finmap.singleton key 0

/-- Every text is canonical, a digest tells the length, and nothing can be decoded. -/
def samplePlatform : Platform where
  parseUUID id := some id
  sha256 content := Vector.replicate 32 content.length.toUInt8
  decodeConfig _ := none
  decode _ := none
  decodeAllGIF _ := none
  detectContentType _ := []
  verifyPassword _ _ := none
  toLower s := s
  parseAddress _ := none

def sampleImage (content : Bytes) (mimeType : GoString) (visibility : Visibility) : Image where
  id := str "a"
  originalName := str "a.png"
  storageKey := str "a"
  extension := str ".png"
  mimeType := mimeType
  width := 1
  height := 1
  sourceSize := content.length
  storedSize := content.length
  sourceSHA256 := samplePlatform.sha256 content
  storedSHA256 := samplePlatform.sha256 content
  processingSummary := []
  visibility := visibility
  uploadedVia := str "admin"
  uploadedByAPITokenID := none
  createdAt := ofUnix 1
  updatedAt := ofUnix 1

def sampleState (content : Bytes) (mimeType : GoString) (visibility : Visibility)
    (valid : (sampleImage content mimeType visibility).admissible = true) : State :=
  (State.booted
    (Database.single (sampleImage content mimeType visibility) [] valid List.nodup_nil
      List.nodup_nil (by simp))
    (Files.single (str "a") content) 0).loaded samplePlatform

section

variable {content : Bytes} {mimeType : GoString} {visibility : Visibility}
  {valid : (sampleImage content mimeType visibility).admissible = true}

theorem sample_begins : Begins samplePlatform (sampleState content mimeType visibility valid) := by
  refine loaded_begins (built_total ?_ (by simp [State.booted, Database.single]))
  intro v member
  obtain rfl := List.mem_singleton.mp member
  exact ⟨some content.length, rfl⟩

theorem sample_images :
    (sampleState content mimeType visibility valid).database.images =
      [sampleImage content mimeType visibility] := by
  rw [sampleState, loaded_database]
  rfl

theorem sample_rowFiles {fits : Image → Bytes → Prop}
    (fit : fits (sampleImage content mimeType visibility) content) :
    (sampleState content mimeType visibility valid).rowFiles fits := by
  intro v member
  rw [sample_images, List.mem_singleton] at member
  subst member
  refine ⟨content, 0, ?_, fit⟩
  rw [sampleState, loaded_files]
  rfl

end

/-- A request for the image by its identifier, without credentials. -/
def sampleRequest : ImageRequest := ⟨some (str "a"), str "/a", [], none, []⟩

/-- What the sample decoder tells of a file: one pixel, of the format in question. -/
def dot (content : Bytes) : Configuration :=
  ⟨1, 1, if (str "RIFF").isPrefixOf content then str "webp" else str "png"⟩

def convertingPlatform : Platform :=
  { samplePlatform with
    decodeConfig := fun content => some (dot content)
    decode := fun content => some (dot content) }

theorem converting_begins : Begins convertingPlatform
    (sampleState Processor.pngSignature (str "image/png") .isPublic (by decide)) :=
  ⟨sample_begins.registered, sample_begins.free, _, rfl, rfl⟩

def webpHeader : Bytes := str "RIFF" ++ [0, 0, 0, 0] ++ str "WEBP"

def sampleConversion : Request := .convertToWebP (str "a") ⟨false, 80, 80, 6, true, 80, false⟩

/-- A conversion up to the update of the row. -/
def converting : List (Nat × Choice) :=
  [(1, .normal), (1, .normal), (1, .normal), (1, .normal), (1, .name (str "t")), (1, .normal),
    (1, .processed none (some webpHeader)), (1, .normal), (1, .normal), (1, .name (str "u")),
    (1, .normal), (1, .processed none (some [0])), (1, .name (str "b")), (1, .normal), (1, .normal),
    (1, .normal), (1, .normal)]

end Sample

end ImageSilo
