import ImageSilo.Delivery.Path
import ImageSilo.Processor.Inspect

/-! The records of the packages `image`, `imagealias` and `importer`, with the pure functions that check
options, name files and describe the processing. -/
namespace ImageSilo

open Go

/-- The database admits the first two only; a request may carry any text. -/
inductive Visibility
  | isPublic
  | isPrivate
  | other (text : GoString)
  deriving DecidableEq

structure Image where
  id : GoString
  originalName : GoString
  storageKey : GoString
  extension : GoString
  mimeType : GoString
  width : Int
  height : Int
  sourceSize : Int
  storedSize : Int
  sourceSHA256 : Digest
  storedSHA256 : Digest
  processingSummary : GoString
  visibility : Visibility
  uploadedVia : GoString
  uploadedByAPITokenID : Option GoString
  createdAt : Time
  updatedAt : Time
  deriving DecidableEq

structure Alias where
  id : GoString
  path : GoString
  imageID : GoString
  source : GoString
  createdAt : Time
  deriving DecidableEq

inductive DatabaseError
  | noRows
  | unique
  | failed
  deriving DecidableEq

inductive Error
  | invalidVisibility
  | invalidUploadSource
  | fileTooLarge
  | invalidImage
  | unsupportedFormat
  | tooManyPixels
  | processingBusy
  | processingUnavailable
  | imageNotFound
  | conversionNotSupported
  | aliasConflict
  | aliasNotFound
  | targetImageNotFound
  | invalidSource
  | invalidTargetImage
  | aliasPath (e : Delivery.PathError)
  | processor (e : Processor.Error)
  | database (e : DatabaseError)
  | storage
  | invalidCredentials
  | invalidEmail
  | invalidDisplayName
  | adminExists
  | passwordTooShort
  | passwordTooLong
  | passwordHash
  | invalidName
  | invalidScope
  | invalidExpiration
  | tokenNotFound
  | random
  deriving DecidableEq

structure UploadOptions where
  visibility : Visibility
  uploadedVia : GoString
  uploadedByAPITokenID : Option GoString
  limits : Processor.Limits
  processing : Processor.Options

structure DeleteResult where
  imageID : GoString
  imageFileDeleted : Bool
  thumbnailDeleted : Bool
  cleanupPending : Bool

structure ConversionResult where
  image : Image
  originalFileDeleted : Bool
  thumbnailUpdated : Bool
  cleanupPending : Bool

def maxUploadBytes : Int := 20971520

def maxTotalPixels : Int := 16000000

def defaultLimits (limits : Processor.Limits) : Processor.Limits :=
  { maxBytes := if limits.maxBytes ≤ 0 then maxUploadBytes else limits.maxBytes
    maxTotalPixels :=
      if limits.maxTotalPixels ≤ 0 then ImageSilo.maxTotalPixels else limits.maxTotalPixels }

def normalizeUploadOptions (options : UploadOptions) : Except Error UploadOptions :=
  if options.visibility ≠ .isPublic ∧ options.visibility ≠ .isPrivate then
    .error .invalidVisibility
  else if options.uploadedVia ≠ str "admin" ∧ options.uploadedVia ≠ str "api_token" ∧
      options.uploadedVia ≠ str "import" then
    .error .invalidUploadSource
  else .ok { options with limits := defaultLimits options.limits }

structure ImportOptions where
  visibility : Visibility
  uploadedByAPITokenID : Option GoString
  limits : Processor.Limits

def normalizeOptions (options : ImportOptions) : Except Error ImportOptions :=
  if options.visibility ≠ .isPublic ∧ options.visibility ≠ .isPrivate then
    .error .invalidVisibility
  else .ok { options with limits := defaultLimits options.limits }

def mapProcessorError : Error → Error
  | .processor .fileTooLarge => .fileTooLarge
  | .processor .invalidImage => .invalidImage
  | .processor .unsupportedFormat => .unsupportedFormat
  | .processor .tooManyPixels => .tooManyPixels
  | .processor .unavailable => .processingUnavailable
  | e => e

/-- The importer leaves an unavailable processor as it is. -/
def mapImportError : Error → Error
  | .processor .fileTooLarge => .fileTooLarge
  | .processor .invalidImage => .invalidImage
  | .processor .unsupportedFormat => .unsupportedFormat
  | .processor .tooManyPixels => .tooManyPixels
  | e => e

def sanitizeOriginalName (name : GoString) : GoString :=
  let kept := (runes (base (trimSpace name))).filter fun r =>
    !(isControl r || r == 0x2f || r == 0x5c)
  let name := kept.flatMap encodeRune
  if name = [] ∨ name = str "." then str "image" else (kept.take 255).flatMap encodeRune

def replaceExtension (name extension : GoString) : GoString :=
  let stem := name.take (name.length - (ext name).length)
  sanitizeOriginalName ((if stem = [] then str "image" else stem) ++ extension)

structure ProcessingSummary where
  action : Processor.Act
  sourceFormat : Processor.Format
  storedFormat : Processor.Format
  preserved : Bool
  compressionEnabled : Bool
  conversionEnabled : Bool
  compressionRejected : Bool

def Processor.Act.name : Processor.Act → GoString
  | preserve => str "preserve"
  | compress => str "compress"
  | convert => str "convert"

def quoted (text : GoString) : GoString := 0x22 :: text ++ [0x22]

def boolText (b : Bool) : GoString := if b then str "true" else str "false"

/-- `json.Marshal` of a summary; the last field is omitted when it is false. -/
def ProcessingSummary.encode (s : ProcessingSummary) : GoString :=
  let field (name : String) (value : GoString) := quoted (str name) ++ str ":" ++ value
  let fields :=
    [field "action" (quoted s.action.name), field "sourceFormat" (quoted s.sourceFormat.name),
      field "storedFormat" (quoted s.storedFormat.name), field "preserved" (boolText s.preserved),
      field "compressionEnabled" (boolText s.compressionEnabled),
      field "conversionEnabled" (boolText s.conversionEnabled)] ++
    if s.compressionRejected then [field "compressionRejected" (boolText true)] else []
  str "\x7b" ++ join 0x2c fields ++ str "\x7d"

/-- The source of an alias as `Create` accepts it. -/
def normalizeSource (source : GoString) : Except Error GoString :=
  let source := trimSpace source
  if source = [] ∨ 100 < (runes source).length ∨ (runes source).any isControl then
    .error .invalidSource
  else .ok source

namespace Delivery

structure Target where
  storageKey : GoString
  mimeType : GoString
  etag : GoString
  size : Int
  lastModified : Time
  visibility : Visibility
  originalName : GoString
  deriving DecidableEq

def hexDigit (n : UInt8) : UInt8 := if n < 10 then 0x30 + n else 0x57 + n

/-- The digest in lower-case hexadecimal between quotation marks. -/
def etag (digest : Digest) : GoString :=
  quoted (digest.toList.flatMap fun b => [hexDigit (b / 16), hexDigit (b % 16)])

/-- The target a service adds for the image it has just committed. -/
def targetOf (value : Image) : Target :=
  { storageKey := value.storageKey
    mimeType := value.mimeType
    etag := etag value.storedSHA256
    size := value.storedSize
    lastModified := value.updatedAt
    visibility := value.visibility
    originalName := value.originalName }

end Delivery

end ImageSilo
