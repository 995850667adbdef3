import ImageSilo.Platform
import Mathlib.Algebra.Group.Nat.Defs
import Mathlib.Tactic.Common

/-! `processor.InspectFile` on the bytes of a regular file, with products that wrap at 64 bits. -/
namespace ImageSilo.Processor

open Go

inductive Format
  | jpeg
  | png
  | webp
  | gif
  deriving DecidableEq

def Format.name : Format → GoString
  | jpeg => str "jpeg"
  | png => str "png"
  | webp => str "webp"
  | gif => str "gif"

inductive Error
  | invalidImage
  | unsupportedFormat
  | fileTooLarge
  | tooManyPixels
  | unavailable
  | other
  deriving DecidableEq

structure Limits where
  maxBytes : Int
  maxTotalPixels : Int

structure Metadata where
  format : Format
  mimeType : GoString
  extension : GoString
  width : Int
  height : Int
  frames : Int
  deriving DecidableEq

structure Options where
  compressionEnabled : Bool
  jpegQuality : Int
  webpQuality : Int
  pngCompressionLevel : Int
  conversionEnabled : Bool
  conversionWebPQuality : Int
  conversionWebPLossless : Bool

inductive Act
  | preserve
  | compress
  | convert
  deriving DecidableEq

structure Plan where
  action : Act
  outputFormat : Format
  deriving DecidableEq

def selectPlan (metadata : Metadata) (options : Options) : Plan :=
  if metadata.format = .gif then ⟨.preserve, .gif⟩
  else if options.conversionEnabled ∧ (metadata.format = .jpeg ∨ metadata.format = .png) then
    ⟨.convert, .webp⟩
  else if options.compressionEnabled then ⟨.compress, metadata.format⟩
  else ⟨.preserve, metadata.format⟩

def formatMetadata : Format → GoString × GoString
  | .jpeg => (str "image/jpeg", str ".jpg")
  | .png => (str "image/png", str ".png")
  | .webp => (str "image/webp", str ".webp")
  | .gif => (str "image/gif", str ".gif")

def int64 (x : Int) : Int := x.bmod (2 ^ 64)

def pngSignature : Bytes := [0x89, 0x50, 0x4e, 0x47, 0x0d, 0x0a, 0x1a, 0x0a]

def detectFormat (header : Bytes) : Except Error Format :=
  if [0xff, 0xd8, 0xff].isPrefixOf header then .ok .jpeg
  else if pngSignature.isPrefixOf header then .ok .png
  else if (str "GIF87a").isPrefixOf header || (str "GIF89a").isPrefixOf header then .ok .gif
  else if (str "RIFF").isPrefixOf header && (str "WEBP").isPrefixOf (header.drop 8) then .ok .webp
  else .error .unsupportedFormat

def discardGIFBytes (count : Nat) (reader : Bytes) : Option Bytes :=
  if count ≤ reader.length then some (reader.drop count) else none

/-- Every sub-block takes at least one byte, so the length of the file is enough fuel. -/
def skipGIFSubBlocks : Nat → Bytes → Option Bytes
  | 0, _ => none
  | _ + 1, [] => none
  | fuel + 1, size :: reader =>
      if size = 0 then some reader
      else (discardGIFBytes size.toNat reader).bind (skipGIFSubBlocks fuel)

def colourTable (flags : UInt8) (reader : Bytes) : Option Bytes :=
  if flags &&& 0x80 ≠ 0 then discardGIFBytes (3 <<< ((flags &&& 0x07).toNat + 1)) reader
  else some reader

def gifBlocks (maxFrames : Int) : Nat → Int → Bytes → Except Error Int
  | 0, _, _ => .error .invalidImage
  | _ + 1, _, [] => .error .invalidImage
  | fuel + 1, frames, marker :: reader =>
      if marker = 0x00 then gifBlocks maxFrames fuel frames reader
      else if marker = 0x21 then
        match (discardGIFBytes 1 reader).bind (skipGIFSubBlocks fuel) with
        | none => .error .invalidImage
        | some reader => gifBlocks maxFrames fuel frames reader
      else if marker = 0x2c then
        match reader.take 9, discardGIFBytes 9 reader with
        | [_, _, _, _, _, _, _, _, flags], some reader =>
            let frames := frames + 1
            if 0 < maxFrames ∧ maxFrames < frames then .error .tooManyPixels
            else
              match ((colourTable flags reader).bind (discardGIFBytes 1)).bind
                  (skipGIFSubBlocks fuel) with
              | none => .error .invalidImage
              | some reader => gifBlocks maxFrames fuel frames reader
        | _, _ => .error .invalidImage
      else if marker = 0x3b then
        if frames = 0 then .error .invalidImage else .ok frames
      else .error .invalidImage

def preflightGIFFrames (content : Bytes) (maxFrames : Int) : Except Error Int :=
  let header := content.take 13
  if header.length < 13 then .error .invalidImage
  else if !((str "GIF87a").isPrefixOf header || (str "GIF89a").isPrefixOf header) then
    .error .invalidImage
  else
    match colourTable (header.getD 10 0) (content.drop 13) with
    | none => .error .invalidImage
    | some reader => gifBlocks maxFrames (content.length + 1) 0 reader

variable (P : Platform)

/-- `validateDecode` of the portable build. -/
def validateDecode (content : Bytes) (format : Format) (width height : Int) : Except Error Int :=
  if format = .gif then
    match P.decodeAllGIF content with
    | none => .error .invalidImage
    | some animation =>
        if animation.frames = 0 ∨ animation.width ≠ width ∨ animation.height ≠ height then
          .error .invalidImage
        else .ok animation.frames
  else
    match P.decode content with
    | none => .error .invalidImage
    | some decoded =>
        if decoded.format ≠ format.name ∨ decoded.width ≠ width ∨ decoded.height ≠ height then
          .error .invalidImage
        else .ok 1

def inspectFile (content : Bytes) (limits : Limits) : Except Error Metadata := do
  if content = [] then throw .invalidImage
  if 0 < limits.maxBytes ∧ limits.maxBytes < content.length then throw .fileTooLarge
  let format ← detectFormat (content.take 16)
  let configuration ← (P.decodeConfig content).elim (throw .invalidImage) pure
  if configuration.width ≤ 0 ∨ configuration.height ≤ 0 ∨ configuration.format ≠ format.name then
    throw .invalidImage
  let pixels := int64 (configuration.width * configuration.height)
  if pixels ≤ 0 ∨ (0 < limits.maxTotalPixels ∧ limits.maxTotalPixels < pixels) then
    throw .tooManyPixels
  let maxFrames := if 0 < limits.maxTotalPixels then limits.maxTotalPixels / pixels else 0
  let preflightFrames ← if format = .gif then preflightGIFFrames content maxFrames else pure 0
  let frames ← validateDecode P content format configuration.width configuration.height
  if 0 < preflightFrames ∧ frames ≠ preflightFrames then throw .invalidImage
  if 0 < limits.maxTotalPixels ∧ limits.maxTotalPixels < int64 (pixels * frames) then
    throw .tooManyPixels
  let (mimeType, extension) := formatMetadata format
  return ⟨format, mimeType, extension, configuration.width, configuration.height, frames⟩

/-- The MIME type that the first bytes of a file tell. -/
def contentMIME (content : Bytes) : Option GoString :=
  match detectFormat (content.take 16) with
  | .ok format => some (formatMetadata format).1
  | .error _ => none

/-- What is inspected with success has the format that its first bytes tell. -/
theorem inspectFile_format {content : Bytes} {limits : Limits} {metadata : Metadata}
    (inspected : inspectFile P content limits = .ok metadata) :
    detectFormat (content.take 16) = .ok metadata.format ∧
      metadata.mimeType = (formatMetadata metadata.format).1 ∧
      metadata.extension = (formatMetadata metadata.format).2 := by
  unfold inspectFile at inspected
  simp only [bind, Except.bind, pure, Except.pure, throw, throwThe,
    MonadExceptOf.throw] at inspected
  split at inspected
  · cases inspected
  split at inspected
  · cases inspected
  split at inspected
  · cases inspected
  rename_i format detected
  repeat' split at inspected
  all_goals cases inspected
  all_goals exact ⟨detected, rfl, rfl⟩

/-- So the MIME type found does not depend on the limits. -/
theorem inspectFile_mime {content : Bytes} {limits : Limits} {metadata : Metadata}
    (inspected : inspectFile P content limits = .ok metadata) :
    contentMIME content = some metadata.mimeType := by
  obtain ⟨detected, mime, -⟩ := inspectFile_format P inspected
  simp only [contentMIME, detected, mime]

end ImageSilo.Processor
