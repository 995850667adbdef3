import ImageSilo.Go.Text

/-! What the program takes from packages outside the repository: UUIDs, the digest, decoders, content
sniffing, password verification and mail addresses. -/
namespace ImageSilo

open Go

abbrev Bytes := List UInt8

/-- Nanoseconds since the Unix epoch. -/
abbrev Time := Int

def second : Int := 1000000000

def unix (t : Time) : Int := t / second

def ofUnix (seconds : Int) : Time := seconds * second

@[simp] theorem unix_ofUnix (seconds : Int) : unix (ofUnix seconds) = seconds := by
  simp only [unix, ofUnix, second]
  omega

theorem unix_mono {s t : Time} (h : s ≤ t) : unix s ≤ unix t :=
  Int.ediv_le_ediv (by decide) h

/-- `[32]byte`. -/
abbrev Digest := Vector UInt8 32

/-- What `image.DecodeConfig`, `image.Decode` and `gif.DecodeAll` tell about a file. -/
structure Configuration where
  width : Int
  height : Int
  format : GoString
  deriving DecidableEq

structure Animation where
  frames : Nat
  width : Int
  height : Int
  deriving DecidableEq

structure Platform where
  /-- `uuid.Parse` followed by `String`: the canonical text of an accepted one. -/
  parseUUID : GoString → Option GoString
  sha256 : Bytes → Digest
  decodeConfig : Bytes → Option Configuration
  decode : Bytes → Option Configuration
  decodeAllGIF : Bytes → Option Animation
  /-- `http.DetectContentType` of the first 512 bytes. -/
  detectContentType : Bytes → GoString
  /-- The comparison of a password with a stored hash; `none` is a hash that cannot be read. -/
  verifyPassword : GoString → GoString → Option Bool
  /-- `strings.ToLower`. -/
  toLower : GoString → GoString
  /-- `mail.ParseAddress` and the address it finds. -/
  parseAddress : GoString → Option GoString

variable (P : Platform)

/-- The guard `parsed, err := uuid.Parse(id); err != nil || parsed.String() != id`, turned around. -/
def Platform.isCanonicalUUID (id : GoString) : Bool := P.parseUUID id == some id

end ImageSilo
