import ImageSilo.Go.Text

/-! `escapedPath` writes a decoded path the way `(&url.URL{Path: d}).EscapedPath()` does, `pathUnescape`
reads it back. -/
namespace Go

def percent : UInt8 := 0x25

def isHex (c : UInt8) : Bool :=
  (0x30 ≤ c && c ≤ 0x39) || (0x61 ≤ c && c ≤ 0x66) || (0x41 ≤ c && c ≤ 0x46)

def unhex (c : UInt8) : UInt8 :=
  if 0x30 ≤ c && c ≤ 0x39 then c - 0x30
  else if 0x61 ≤ c && c ≤ 0x66 then c - 0x61 + 10
  else c - 0x41 + 10

/-- `url.PathUnescape`; the only error is a percent sign without two hexadecimal digits. -/
def pathUnescape : GoString → Option GoString
  | [] => some []
  | c :: rest =>
      if c = percent then
        match rest with
        | a :: b :: rest =>
            if isHex a && isHex b then (pathUnescape rest).map ((unhex a * 16 + unhex b) :: ·)
            else none
        | _ => none
      else (pathUnescape rest).map (c :: ·)

def isAlphanumeric (c : UInt8) : Bool :=
  (0x30 ≤ c && c ≤ 0x39) || (0x61 ≤ c && c ≤ 0x7a) || (0x41 ≤ c && c ≤ 0x5a)

/-- `shouldEscape` in the mode for a whole path. -/
def shouldEscape (c : UInt8) : Bool :=
  !(isAlphanumeric c || (str "-_.~$&+,/:;=@").contains c)

def upperHex (n : UInt8) : UInt8 := if n < 10 then 0x30 + n else 0x37 + n

def escapeByte (c : UInt8) : GoString :=
  if shouldEscape c then [percent, upperHex (c / 16), upperHex (c % 16)] else [c]

/-- `URL.EscapedPath` of a URL that has only its `Path` set. -/
def escapedPath (path : GoString) : GoString :=
  if path = str "*" then str "*" else path.flatMap escapeByte

/-- A statement about every byte is checked byte by byte. -/
theorem forall_byte {P : UInt8 → Prop} (h : ∀ n : Fin 256, P (UInt8.ofFin n)) (c : UInt8) : P c :=
  h c.toFin

theorem pathUnescape_plain {c : UInt8} (plain : c ≠ percent) (rest : GoString) :
    pathUnescape (c :: rest) = (pathUnescape rest).map (c :: ·) := by
  rw [pathUnescape.eq_def]
  simp only [if_neg plain]

/-- Without a percent sign there is nothing to decode. -/
theorem pathUnescape_self {path : GoString} (plain : percent ∉ path) :
    pathUnescape path = some path := by
  induction path with
  | nil => rfl
  | cons c rest ih =>
      obtain ⟨first, others⟩ := not_or.mp (mt List.mem_cons.mpr plain)
      rw [pathUnescape_plain (Ne.symm first), ih others]
      rfl

theorem unescape_escapeByte (c : UInt8) (rest : GoString) :
    pathUnescape (escapeByte c ++ rest) = (pathUnescape rest).map (c :: ·) := by
  have digits : ∀ c : UInt8, (isHex (upperHex (c / 16)) && isHex (upperHex (c % 16))) = true ∧
      unhex (upperHex (c / 16)) * 16 + unhex (upperHex (c % 16)) = c :=
    forall_byte (by decide +kernel)
  unfold escapeByte
  split
  · simp only [List.cons_append, List.nil_append, pathUnescape, if_true, (digits c).1, (digits c).2]
  · have plain : ∀ c : UInt8, shouldEscape c = false → c ≠ percent := forall_byte (by decide +kernel)
    exact pathUnescape_plain (plain c (by simpa using ‹¬shouldEscape c = true›)) rest

theorem pathUnescape_flatMap (path : GoString) :
    pathUnescape (path.flatMap escapeByte) = some path := by
  induction path with
  | nil => rfl
  | cons c rest ih => rw [List.flatMap_cons, unescape_escapeByte, ih, Option.map_some]

theorem pathUnescape_escapedPath (path : GoString) :
    pathUnescape (escapedPath path) = some path := by
  unfold escapedPath
  split
  · rename_i star
    rw [star]
    rfl
  · exact pathUnescape_flatMap path

/-- The bytes that an escaped path is made of. -/
def isURLByte (c : UInt8) : Bool :=
  !shouldEscape c || c == percent || c == 0x2a

theorem isURLByte_spec : ∀ c : UInt8, isURLByte c = true →
    spaceStart c = false ∧ c < 0x80 ∧ (str "\\?#\r\n\t").contains c = false ∧ c ≠ 0 :=
  forall_byte (by decide +kernel)

theorem escapedPath_bytes (path : GoString) : ∀ c ∈ escapedPath path, isURLByte c = true := by
  have escaped : ∀ c : UInt8, (escapeByte c).all isURLByte = true := forall_byte (by decide +kernel)
  intro c member
  unfold escapedPath at member
  split at member
  · obtain rfl : c = 0x2a := by simpa [str] using member
    rfl
  · obtain ⟨d, _, member⟩ := List.mem_flatMap.mp member
    exact List.all_eq_true.mp (escaped d) c member

/-- The first byte of an escaped path tells whether the path begins with a slash. -/
theorem escapedPath_cons_slash (rest : GoString) :
    escapedPath (slash :: rest) = slash :: rest.flatMap escapeByte := by
  unfold escapedPath
  rw [if_neg (by simp [str, slash])]
  rfl

theorem flatMap_escapeByte_head (path : GoString) :
    hasPrefix (path.flatMap escapeByte) (str "/") = hasPrefix path (str "/") := by
  cases path with
  | nil => rfl
  | cons c rest =>
      have head : ∀ c : UInt8,
          ((escapeByte c).head?.all fun d => (d == slash) == (c == slash)) = true :=
        forall_byte (by decide +kernel)
      obtain ⟨d, tail, same⟩ : ∃ d tail, escapeByte c = d :: tail := by
        unfold escapeByte
        split <;> exact ⟨_, _, rfl⟩
      have first : (d == slash) = (c == slash) := by simpa [same] using head c
      simp only [List.flatMap_cons, same, List.cons_append, hasPrefix]
      change (slash == d && true) = (slash == c && true)
      rw [Bool.beq_comm (a := slash), first, Bool.beq_comm (a := c)]

end Go
