import Mathlib.Data.List.TakeWhile
import Mathlib.Tactic.Common

/-! A Go string is a sequence of bytes; these are the functions on it that decide which paths and keys are
accepted. -/
namespace Go

abbrev GoString := List UInt8

/-- A literal of ASCII text. -/
def str (s : String) : GoString := s.toList.map fun c => c.toNat.toUInt8

def isContinuation (b : UInt8) : Bool := 0x80 ≤ b && b ≤ 0xbf

/-- The rune at the front of a string and its width, if the bytes there are a valid encoding: no
overlong form, no surrogate, nothing above U+10FFFF. -/
def decodeRune : GoString → Option (Nat × Nat)
  | [] => none
  | b :: rest =>
      if b < 0x80 then some (b.toNat, 1)
      else
        match rest with
        | [] => none
        | c :: rest =>
            if !isContinuation c then none
            else if 0xc2 ≤ b && b ≤ 0xdf then
              some (b.toNat % 0x20 * 0x40 + c.toNat % 0x40, 2)
            else
              match rest with
              | [] => none
              | d :: rest =>
                  if !isContinuation d then none
                  else if 0xe0 ≤ b && b ≤ 0xef then
                    if (b == 0xe0 && c < 0xa0) || (b == 0xed && 0x9f < c) then none
                    else some (b.toNat % 0x10 * 0x1000 + c.toNat % 0x40 * 0x40 + d.toNat % 0x40, 3)
                  else
                    match rest with
                    | [] => none
                    | e :: _ =>
                        if !isContinuation e || b < 0xf0 || 0xf4 < b || (b == 0xf0 && c < 0x90) ||
                            (b == 0xf4 && 0x8f < c) then none
                        else
                          some (b.toNat % 0x08 * 0x40000 + c.toNat % 0x40 * 0x1000 +
                            d.toNat % 0x40 * 0x40 + e.toNat % 0x40, 4)

/-- Reads a string rune by rune; the first argument counts the bytes still to skip. A byte that
begins no valid encoding is read alone. -/
def scan : Nat → GoString → List (Option Nat)
  | _, [] => []
  | skip + 1, _ :: rest => scan skip rest
  | 0, b :: rest =>
      match decodeRune (b :: rest) with
      | some (r, width) => some r :: scan (width - 1) rest
      | none => none :: scan 0 rest

/-- `utf8.ValidString`. -/
def utf8Valid (s : GoString) : Bool := (scan 0 s).all Option.isSome

/-- `[]rune(s)`. -/
def runes (s : GoString) : List Nat := (scan 0 s).map fun r => r.getD 0xfffd

def encodeRune (r : Nat) : GoString :=
  if r < 0x80 then [r.toUInt8]
  else if r < 0x800 then [(0xc0 + r / 0x40).toUInt8, (0x80 + r % 0x40).toUInt8]
  else if r < 0x10000 then
    [(0xe0 + r / 0x1000).toUInt8, (0x80 + r / 0x40 % 0x40).toUInt8, (0x80 + r % 0x40).toUInt8]
  else
    [(0xf0 + r / 0x40000).toUInt8, (0x80 + r / 0x1000 % 0x40).toUInt8,
      (0x80 + r / 0x40 % 0x40).toUInt8, (0x80 + r % 0x40).toUInt8]

/-- `unicode.IsControl`. -/
def isControl (r : Nat) : Bool := r < 0x20 || (0x7f ≤ r && r ≤ 0x9f)

/-- The white space of `unicode.IsSpace`, as the UTF-8 encoding of each code point. -/
def spaces : List GoString :=
  [[0x09], [0x0a], [0x0b], [0x0c], [0x0d], [0x20], [0xc2, 0x85], [0xc2, 0xa0], [0xe1, 0x9a, 0x80],
    [0xe2, 0x80, 0x80], [0xe2, 0x80, 0x81], [0xe2, 0x80, 0x82], [0xe2, 0x80, 0x83],
    [0xe2, 0x80, 0x84], [0xe2, 0x80, 0x85], [0xe2, 0x80, 0x86], [0xe2, 0x80, 0x87],
    [0xe2, 0x80, 0x88], [0xe2, 0x80, 0x89], [0xe2, 0x80, 0x8a], [0xe2, 0x80, 0xa8],
    [0xe2, 0x80, 0xa9], [0xe2, 0x80, 0xaf], [0xe2, 0x81, 0x9f], [0xe3, 0x80, 0x80]]

/-- Drops members of `codes` from the front of `s`; the fuel is the length of `s`. -/
def trimPrefixes (codes : List GoString) : Nat → GoString → GoString
  | 0, s => s
  | fuel + 1, s =>
      match codes.find? fun code => code.isPrefixOf s with
      | some code => trimPrefixes codes fuel (s.drop code.length)
      | none => s

/-- `strings.TrimSpace`. -/
def trimSpace (s : GoString) : GoString :=
  let left := trimPrefixes spaces s.length s
  (trimPrefixes (spaces.map List.reverse) left.length left.reverse).reverse

/-- `strings.HasPrefix`. -/
def hasPrefix (s p : GoString) : Bool := p.isPrefixOf s

/-- `strings.TrimPrefix`. -/
def trimPrefix (s p : GoString) : GoString := if hasPrefix s p then s.drop p.length else s

/-- `strings.ContainsAny` for a set of ASCII characters. -/
def containsAny (s chars : GoString) : Bool := s.any fun c => chars.contains c

/-- `strings.ReplaceAll` of a part that is not empty; the first argument counts the bytes still to
skip. -/
def replaceFrom (old new : GoString) : Nat → GoString → GoString
  | _, [] => []
  | skip + 1, _ :: rest => replaceFrom old new skip rest
  | 0, c :: rest =>
      if hasPrefix (c :: rest) old then new ++ replaceFrom old new (old.length - 1) rest
      else c :: replaceFrom old new 0 rest

def replaceAll (s old new : GoString) : GoString := replaceFrom old new 0 s

/-- `strings.Split` at one byte. -/
def split (separator : UInt8) : GoString → List GoString
  | [] => [[]]
  | c :: rest =>
      match split separator rest with
      | [] => [[c]]
      | segment :: segments =>
          if c = separator then [] :: segment :: segments else (c :: segment) :: segments

/-- `strings.Join` with one byte between the elements. -/
def join (separator : UInt8) : List GoString → GoString
  | [] => []
  | [segment] => segment
  | segment :: segments => segment ++ separator :: join separator segments

def slash : UInt8 := 0x2f

/-- One element of a path on the stack of elements kept so far, innermost first. -/
def cleanStep (rooted : Bool) (stack : List GoString) (element : GoString) : List GoString :=
  if element = [] ∨ element = str "." then stack
  else if element = str ".." then
    match stack with
    | top :: below => if top = str ".." then element :: stack else below
    | [] => if rooted then [] else [element]
  else element :: stack

/-- `path.Clean`. -/
def clean (p : GoString) : GoString :=
  let rooted := hasPrefix p (str "/")
  let elements := ((split slash p).foldl (cleanStep rooted) []).reverse
  let cleaned := if rooted then slash :: join slash elements else join slash elements
  if cleaned = [] then str "." else cleaned

/-- `filepath.Base` on Unix. -/
def base (p : GoString) : GoString :=
  if p = [] then str "."
  else
    let stripped := (p.reverse.dropWhile fun c => c == slash).reverse
    if stripped = [] then str "/"
    else (stripped.reverse.takeWhile fun c => c != slash).reverse

/-- `fs.ValidPath`. -/
def validPath (name : GoString) : Bool :=
  utf8Valid name &&
    (name == str "." ||
      (split slash name).all fun element =>
        element != [] && element != str "." && element != str "..")

/-- `path.Ext`: the suffix that begins at the last dot of the last element. -/
def ext (p : GoString) : GoString :=
  let last := (p.reverse.takeWhile fun c => c != slash)
  let suffix := last.takeWhile fun c => c != 0x2e
  if suffix.length < last.length then 0x2e :: suffix.reverse else []

theorem utf8Valid_ascii {s : GoString} (ascii : ∀ c ∈ s, c < 0x80) : utf8Valid s = true := by
  induction s with
  | nil => rfl
  | cons c rest ih =>
      have decoded : decodeRune (c :: rest) = some (c.toNat, 1) := by
        rw [decodeRune.eq_def]
        exact if_pos (ascii c (by simp))
      simpa [utf8Valid, scan, decoded] using ih fun d member => ascii d (by simp [member])

/-- The replacement of one byte. -/
theorem replaceAll_byte (s : GoString) (b : UInt8) (new : GoString) :
    replaceAll s [b] new = s.flatMap fun c => if c = b then new else [c] := by
  unfold replaceAll
  induction s with
  | nil => rfl
  | cons c rest ih =>
      have front : hasPrefix (c :: rest) [b] = true ↔ c = b := by
        change (b == c && true) = true ↔ c = b
        rw [Bool.and_true, beq_iff_eq]
        exact eq_comm
      rw [replaceFrom, List.flatMap_cons, ← ih]
      by_cases same : c = b
      · rw [if_pos (front.mpr same), if_pos same]
        rfl
      · rw [if_neg (mt front.mp same), if_neg same]
        rfl

/-- A first byte of white space. -/
def spaceStart (b : UInt8) : Bool :=
  (0x09 ≤ b && b ≤ 0x0d) || b == 0x20 || 0x80 ≤ b

theorem trimPrefixes_of_head {codes : List GoString} {bad : UInt8 → Bool}
    (codesBad : ∀ code ∈ codes, code.head?.any bad = true) {c : UInt8} {s : GoString}
    (good : bad c = false) (fuel : Nat) : trimPrefixes codes fuel (c :: s) = c :: s := by
  cases fuel with
  | zero => rfl
  | succ fuel =>
      have missing : (codes.find? fun code => code.isPrefixOf (c :: s)) = none := by
        rw [List.find?_eq_none]
        intro code member isPrefix
        have isBad := codesBad code member
        cases code with
        | nil => simp at isBad
        | cons b rest =>
            obtain rfl : b = c := by
              have := isPrefix
              simp only [List.isPrefixOf_cons_cons, Bool.and_eq_true, beq_iff_eq] at this
              exact this.1
            simp [good] at isBad
      simp [trimPrefixes, missing]

theorem spaces_start : ∀ code ∈ spaces, code.head?.any spaceStart = true := by decide

theorem spaces_stop : ∀ code ∈ spaces.map List.reverse, code.head?.any spaceStart = true := by
  decide

/-- Text that neither begins nor ends with a byte of white space is left alone. -/
theorem trimSpace_of_ends {s : GoString} (good : ∀ c ∈ s, spaceStart c = false) :
    trimSpace s = s := by
  have left : trimPrefixes spaces s.length s = s := by
    cases s with
    | nil => rfl
    | cons c rest => exact trimPrefixes_of_head spaces_start (good c (by simp)) _
  unfold trimSpace
  simp only [left]
  cases reversed : s.reverse with
  | nil =>
      obtain rfl : s = [] := by simpa using reversed
      rfl
  | cons c rest =>
      have member : c ∈ s := by
        rw [← List.mem_reverse, reversed]
        simp
      rw [trimPrefixes_of_head spaces_stop (good c member), ← reversed, List.reverse_reverse]

/-- A name without slashes is its own last element. -/
theorem base_of_slashless {p : GoString} (nonempty : p ≠ []) (plain : slash ∉ p) : base p = p := by
  have all : ∀ c ∈ p.reverse, (c != slash) = true := by
    intro c member
    rw [bne_iff_ne]
    rintro rfl
    exact plain (List.mem_reverse.mp member)
  have stripped : (p.reverse.dropWhile fun c => c == slash) = p.reverse := by
    cases shape : p.reverse with
    | nil => rfl
    | cons c rest =>
        have here := all c (by rw [shape]; exact List.mem_cons_self)
        rw [List.dropWhile_cons_of_neg]
        simpa using here
  have taken : p.reverse.takeWhile (fun c => c != slash) = p.reverse :=
    List.takeWhile_eq_self_iff.mpr all
  unfold base
  rw [if_neg nonempty, stripped, List.reverse_reverse, if_neg nonempty, taken, List.reverse_reverse]

theorem isContinuation_slash : isContinuation slash = false := rfl

/-- A slash ends an encoding, so a rune that is read before one is read without it. -/
theorem decodeRune_before_slash {c : UInt8} {a b : GoString} {r width : Nat}
    (decoded : decodeRune (c :: a ++ slash :: b) = some (r, width)) :
    decodeRune (c :: a) = some (r, width) ∧ width - 1 ≤ a.length := by
  rcases a with _ | ⟨d, _ | ⟨e, _ | ⟨f, a⟩⟩⟩ <;>
    simp only [List.cons_append, List.nil_append] at decoded <;>
    rw [decodeRune.eq_def] at decoded ⊢ <;>
    grind [isContinuation_slash]

theorem scan_before_slash {a b : GoString} {skip : Nat} (short : skip ≤ a.length)
    (valid : (scan skip (a ++ slash :: b)).all Option.isSome = true) :
    (scan skip a).all Option.isSome = true := by
  induction a generalizing skip with
  | nil => cases skip <;> rfl
  | cons c a ih =>
      cases skip with
      | succ skip => exact ih (Nat.le_of_succ_le_succ short) valid
      | zero =>
          rw [List.cons_append, scan] at valid
          cases decoded : decodeRune (c :: (a ++ slash :: b)) with
          | none => simp [decoded] at valid
          | some read =>
              obtain ⟨r, width⟩ := read
              obtain ⟨before, fits⟩ := decodeRune_before_slash decoded
              rw [decoded] at valid
              rw [scan, before]
              simpa using ih fits (by simpa using valid)

theorem utf8Valid_before_slash {a b : GoString} (valid : utf8Valid (a ++ slash :: b) = true) :
    utf8Valid a = true := scan_before_slash (Nat.zero_le _) valid

theorem split_ne_nil (p : GoString) : split slash p ≠ [] := by
  cases p with
  | nil => simp [split]
  | cons c rest =>
      unfold split
      split
      · simp
      · split <;> simp

theorem split_slash (rest : GoString) : split slash (slash :: rest) = [] :: split slash rest := by
  rw [split]
  cases segments : split slash rest with
  | nil => exact absurd segments (split_ne_nil rest)
  | cons segment later => simp

theorem split_name {name rest : GoString} (plain : slash ∉ name) :
    split slash (name ++ slash :: rest) = name :: split slash rest := by
  induction name with
  | nil => exact split_slash rest
  | cons c name ih =>
      obtain ⟨first, others⟩ := not_or.mp (mt List.mem_cons.mpr plain)
      rw [List.cons_append, split, ih others]
      exact if_neg (Ne.symm first)

theorem split_plain {name : GoString} (plain : slash ∉ name) : split slash name = [name] := by
  induction name with
  | nil => rfl
  | cons c name ih =>
      obtain ⟨first, others⟩ := not_or.mp (mt List.mem_cons.mpr plain)
      rw [split, ih others]
      exact if_neg (Ne.symm first)

theorem split_join {path : List GoString} (nonempty : path ≠ [])
    (plain : ∀ name ∈ path, slash ∉ name) : split slash (join slash path) = path := by
  induction path with
  | nil => exact absurd rfl nonempty
  | cons name rest ih =>
      have here := plain name List.mem_cons_self
      cases rest with
      | nil => exact split_plain here
      | cons next later =>
          rw [join]
          · rw [split_name here, ih (by simp) fun n member => plain n (List.mem_cons_of_mem name member)]
          · simp

theorem split_plain_members {p name : GoString} (member : name ∈ split slash p) : slash ∉ name := by
  induction p generalizing name with
  | nil =>
      obtain rfl := List.mem_singleton.mp member
      simp
  | cons c rest ih =>
      rw [split] at member
      cases segments : split slash rest with
      | nil => exact absurd segments (split_ne_nil rest)
      | cons segment later =>
          simp only [segments] at member
          by_cases same : c = slash
          · rw [if_pos same] at member
            rcases List.mem_cons.mp member with rfl | there
            · simp
            · exact ih (by rw [segments]; exact there)
          · rw [if_neg same] at member
            rcases List.mem_cons.mp member with rfl | there
            · have rest := @ih segment (by rw [segments]; simp)
              simp [rest, Ne.symm same]
            · exact ih (by rw [segments]; exact List.mem_cons_of_mem segment there)

/-- The segments of a path, joined, are the path. -/
theorem join_split (p : GoString) : join slash (split slash p) = p := by
  induction p with
  | nil => rfl
  | cons c rest ih =>
      have nonempty := split_ne_nil rest
      unfold split
      cases segments : split slash rest with
      | nil => exact absurd segments nonempty
      | cons segment later =>
          rw [segments] at ih
          dsimp only
          split
          · rename_i same
            rw [join, ih, same]
            · rfl
            · simp
          · cases later with
            | nil =>
                rw [join] at ih
                rw [join, ih]
            | cons s t =>
                rw [join] at ih
                · rw [join, ← ih]
                  · rfl
                  · simp
                · simp

theorem join_append {first rest : List GoString} (front : first ≠ []) (back : rest ≠ []) :
    join slash (first ++ rest) = join slash first ++ slash :: join slash rest := by
  induction first with
  | nil => exact absurd rfl front
  | cons segment later ih =>
      cases later with
      | nil =>
          cases rest with
          | nil => exact absurd rfl back
          | cons s t => rfl
      | cons s t =>
          have := ih (by simp)
          change segment ++ slash :: join slash (s :: t ++ rest) =
            (segment ++ slash :: join slash (s :: t)) ++ slash :: join slash rest
          rw [this]
          simp

end Go
