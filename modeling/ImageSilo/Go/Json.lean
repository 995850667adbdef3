import ImageSilo.Go.Text
import Mathlib.Data.Nat.Digits.Lemmas

/-! The part of the package `encoding/json` that small records need: one value is read or written. -/
namespace Go.Json

inductive Value
  | null
  | bool (b : Bool)
  | number (text : GoString)
  | string (text : GoString)
  | array (values : List Value)
  | object (members : List (GoString × Value))

def isSpace (c : UInt8) : Bool := c == 0x20 || c == 0x09 || c == 0x0d || c == 0x0a

def skipSpaces (s : GoString) : GoString := s.dropWhile isSpace

def isDigit (c : UInt8) : Bool := 0x30 ≤ c && c ≤ 0x39

/-- One or more digits. -/
def readDigits (s : GoString) : Option (GoString × GoString) :=
  if s.takeWhile isDigit = [] then none else some (s.takeWhile isDigit, s.dropWhile isDigit)

def readInteger : GoString → Option (GoString × GoString)
  | [] => none
  | c :: rest => if c = 0x30 then some ([c], rest) else readDigits (c :: rest)

def readFraction : GoString → Option (GoString × GoString)
  | [] => some ([], [])
  | c :: rest =>
      if c = 0x2e then (readDigits rest).map fun (digits, rest) => (c :: digits, rest)
      else some ([], c :: rest)

def readExponent : GoString → Option (GoString × GoString)
  | [] => some ([], [])
  | c :: rest =>
      if c = 0x65 ∨ c = 0x45 then
        let sign := rest.take 1 |>.filter fun d => d == 0x2b || d == 0x2d
        (readDigits (rest.drop sign.length)).map fun (digits, rest) => (c :: sign ++ digits, rest)
      else some ([], c :: rest)

def readNumber (s : GoString) : Option (GoString × GoString) :=
  let sign := s.take 1 |>.filter fun c => c == 0x2d
  (readInteger (s.drop sign.length)).bind fun (whole, rest) =>
    (readFraction rest).bind fun (fraction, rest) =>
      (readExponent rest).map fun (exponent, rest) => (sign ++ whole ++ fraction ++ exponent, rest)

/-- A byte of a string, or a code unit that is written in hexadecimal. -/
inductive Piece
  | byte (b : UInt8)
  | unit (u : Nat)

def hexValue (c : UInt8) : Option Nat :=
  if isDigit c then some (c.toNat - 0x30)
  else if 0x61 ≤ c && c ≤ 0x66 then some (c.toNat - 0x57)
  else if 0x41 ≤ c && c ≤ 0x46 then some (c.toNat - 0x37)
  else none

def escaped (c : UInt8) : Option UInt8 :=
  (str "\"\\/bfnrt").idxOf? c |>.bind fun n =>
    [0x22, 0x5c, 0x2f, 0x08, 0x0c, 0x0a, 0x0d, 0x09][n]?

/-- The string whose opening quotation mark was read. -/
def readPieces : GoString → Option (List Piece × GoString)
  | [] => none
  | c :: rest =>
      if c = 0x22 then some ([], rest)
      else if c < 0x20 then none
      else if c = 0x5c then
        match rest with
        | [] => none
        | e :: rest =>
            if e = 0x75 then
              match rest with
              | p :: q :: r :: s :: rest =>
                  (hexValue p).bind fun p => (hexValue q).bind fun q => (hexValue r).bind fun r =>
                    (hexValue s).bind fun s => (readPieces rest).map fun (pieces, rest) =>
                      (.unit (((p * 16 + q) * 16 + r) * 16 + s) :: pieces, rest)
              | _ => none
            else
              (escaped e).bind fun b => (readPieces rest).map fun (pieces, rest) =>
                (.byte b :: pieces, rest)
      else (readPieces rest).map fun (pieces, rest) => (.byte c :: pieces, rest)

/-- Two code units of a surrogate pair are one rune; a surrogate alone is replaced. -/
def joinPieces : List Piece → GoString
  | [] => []
  | .byte b :: rest => b :: joinPieces rest
  | .unit u :: rest =>
      if 0xd800 ≤ u ∧ u < 0xe000 then
        match rest with
        | .unit v :: rest =>
            if u < 0xdc00 ∧ 0xdc00 ≤ v ∧ v < 0xe000 then
              encodeRune ((u - 0xd800) * 0x400 + (v - 0xdc00) + 0x10000) ++ joinPieces rest
            else encodeRune 0xfffd ++ joinPieces (.unit v :: rest)
        | rest => encodeRune 0xfffd ++ joinPieces rest
      else encodeRune u ++ joinPieces rest

/-- Bytes that are no UTF-8 are replaced. -/
def unquote (pieces : List Piece) : GoString := (runes (joinPieces pieces)).flatMap encodeRune

def readString (s : GoString) : Option (GoString × GoString) :=
  (readPieces s).map fun (pieces, rest) => (unquote pieces, rest)

def maxNestingDepth : Nat := 10000

mutual

def readValue : Nat → Nat → GoString → Option (Value × GoString)
  | 0, _, _ => none
  | fuel + 1, depth, s =>
      match skipSpaces s with
      | [] => none
      | c :: rest =>
          if c = 0x22 then (readString rest).map fun (text, rest) => (.string text, rest)
          else if c = 0x7b then
            if depth = maxNestingDepth then none
            else if (skipSpaces rest).head? = some 0x7d then
              some (.object [], (skipSpaces rest).tail)
            else (readMembers fuel (depth + 1) rest).map fun (members, rest) =>
              (.object members, rest)
          else if c = 0x5b then
            if depth = maxNestingDepth then none
            else if (skipSpaces rest).head? = some 0x5d then
              some (.array [], (skipSpaces rest).tail)
            else (readElements fuel (depth + 1) rest).map fun (values, rest) =>
              (.array values, rest)
          else if hasPrefix (c :: rest) (str "null") then some (.null, rest.drop 3)
          else if hasPrefix (c :: rest) (str "true") then some (.bool true, rest.drop 3)
          else if hasPrefix (c :: rest) (str "false") then some (.bool false, rest.drop 4)
          else (readNumber (c :: rest)).map fun (text, rest) => (.number text, rest)

def readElements : Nat → Nat → GoString → Option (List Value × GoString)
  | 0, _, _ => none
  | fuel + 1, depth, s =>
      (readValue fuel depth s).bind fun (value, rest) =>
        match skipSpaces rest with
        | [] => none
        | c :: rest =>
            if c = 0x2c then
              (readElements fuel depth rest).map fun (values, rest) => (value :: values, rest)
            else if c = 0x5d then some ([value], rest)
            else none

def readMembers : Nat → Nat → GoString → Option (List (GoString × Value) × GoString)
  | 0, _, _ => none
  | fuel + 1, depth, s =>
      match skipSpaces s with
      | [] => none
      | c :: rest =>
          if c ≠ 0x22 then none
          else (readString rest).bind fun (name, rest) =>
            match skipSpaces rest with
            | [] => none
            | c :: rest =>
                if c ≠ 0x3a then none
                else (readValue fuel depth rest).bind fun (value, rest) =>
                  match skipSpaces rest with
                  | [] => none
                  | c :: rest =>
                      if c = 0x2c then
                        (readMembers fuel depth rest).map fun (members, rest) =>
                          ((name, value) :: members, rest)
                      else if c = 0x7d then some ([(name, value)], rest)
                      else none

end

/-- The whole text is one value; every call reads a byte or makes one further call for a value. -/
def parse (s : GoString) : Option Value :=
  (readValue (2 * s.length + 2) 0 s).bind fun (value, rest) =>
    if skipSpaces rest = [] then some value else none

/-- The key of a record's field is compared without regard to the case of ASCII letters. -/
def foldName (name : GoString) : GoString :=
  name.map fun c => if 0x41 ≤ c && c ≤ 0x5a then c + 0x20 else c

def ofDecimal (digits : GoString) : Nat := digits.foldl (fun n c => n * 10 + (c.toNat - 0x30)) 0

/-- `strconv.ParseInt` of a number for a field of type `int64`. -/
def parseInt64 (text : GoString) : Option Int :=
  let negative := text.head? = some 0x2d
  let digits := if negative then text.tail else text
  let n : Int := if negative then -(ofDecimal digits : Int) else ofDecimal digits
  if digits = [] ∨ !digits.all isDigit ∨ n < -9223372036854775808 ∨ 9223372036854775807 < n then
    none
  else some n

def decimal (n : Nat) : GoString :=
  if n = 0 then [0x30] else (Nat.digits 10 n).reverse.map fun d => (d + 0x30).toUInt8

def formatInt (n : Int) : GoString :=
  if n < 0 then 0x2d :: decimal n.natAbs else decimal n.natAbs

def hexDigit (n : Nat) : UInt8 := (if n < 10 then n + 0x30 else n + 0x57).toUInt8

/-- Characters that are written as they are. -/
def isSafe (c : UInt8) : Bool :=
  0x20 ≤ c && c < 0x80 && !(str "\"&<>\\").contains c

def unicodeEscape (r : Nat) : GoString :=
  str "\\u" ++ [hexDigit (r / 4096), hexDigit (r / 256 % 16), hexDigit (r / 16 % 16),
    hexDigit (r % 16)]

def quoteRune : Option Nat → GoString
  | none => str "\\ufffd"
  | some r =>
      if r < 0x80 then
        if isSafe r.toUInt8 then [r.toUInt8]
        else if r = 0x22 ∨ r = 0x5c then [0x5c, r.toUInt8]
        else if r = 0x08 then str "\\b"
        else if r = 0x0c then str "\\f"
        else if r = 0x0a then str "\\n"
        else if r = 0x0d then str "\\r"
        else if r = 0x09 then str "\\t"
        else unicodeEscape r
      else if r = 0x2028 ∨ r = 0x2029 then unicodeEscape r
      else encodeRune r

def quote (s : GoString) : GoString := 0x22 :: (scan 0 s).flatMap quoteRune ++ [0x22]

section Bytes

theorem scan_ascii {s : GoString} (ascii : ∀ c ∈ s, c < 0x80) :
    scan 0 s = s.map fun c => some c.toNat := by
  induction s with
  | nil => rfl
  | cons c rest ih =>
      have decoded : decodeRune (c :: rest) = some (c.toNat, 1) := by
        rw [decodeRune.eq_def]
        exact if_pos (ascii c List.mem_cons_self)
      have later := ih fun d member => ascii d (List.mem_cons_of_mem c member)
      rw [scan, decoded, List.map_cons]
      exact congrArg (some c.toNat :: ·) later

theorem encodeRune_ascii {c : UInt8} (ascii : c < 0x80) : encodeRune c.toNat = [c] := by
  have small : c.toNat < 0x80 := ascii
  unfold encodeRune
  rw [if_pos small]
  simp

theorem isSafe_ascii {c : UInt8} (safe : isSafe c = true) : c < 0x80 := by
  simp only [isSafe, Bool.and_eq_true, decide_eq_true_eq] at safe
  exact safe.1.2

theorem runes_encode_ascii {s : GoString} (ascii : ∀ c ∈ s, c < 0x80) :
    (runes s).flatMap encodeRune = s := by
  unfold runes
  rw [scan_ascii ascii, List.map_map]
  induction s with
  | nil => rfl
  | cons c rest ih =>
      have later := ih fun d member => ascii d (List.mem_cons_of_mem c member)
      rw [List.map_cons, List.flatMap_cons, later]
      exact congrArg (· ++ rest) (encodeRune_ascii (ascii c List.mem_cons_self))

end Bytes

section Strings

/-- A character that is written as it is, or an ampersand. -/
def isPlain (c : UInt8) : Bool := isSafe c || c == 0x26

def written (c : UInt8) : GoString := if c = 0x26 then str "\\u0026" else [c]

def pieceOf (c : UInt8) : Piece := if c = 0x26 then .unit 0x26 else .byte c

theorem isSafe.plain {c : UInt8} (safe : isSafe c = true) : isPlain c = true := by
  rw [isPlain, safe, Bool.true_or]

theorem isSafe.written {c : UInt8} (safe : isSafe c = true) : written c = [c] := by
  refine if_neg ?_
  rintro rfl
  exact absurd safe (by decide)

theorem isPlain_ascii {c : UInt8} (plain : isPlain c = true) : c < 0x80 := by
  rcases Bool.or_eq_true_iff.mp plain with safe | ampersand
  · exact isSafe_ascii safe
  · rw [beq_iff_eq.mp ampersand]
    decide

theorem quoteRune_plain {c : UInt8} (plain : isPlain c = true) :
    quoteRune (some c.toNat) = written c := by
  have small : c.toNat < 0x80 := isPlain_ascii plain
  rcases Bool.or_eq_true_iff.mp plain with safe | ampersand
  · rw [isSafe.written safe]
    simp [quoteRune, small, safe]
  · rw [beq_iff_eq.mp ampersand]
    decide

theorem quote_plain {text : GoString} (plain : ∀ c ∈ text, isPlain c = true) :
    quote text = 0x22 :: text.flatMap written ++ [0x22] := by
  have ascii : ∀ c ∈ text, c < 0x80 := fun c member => isPlain_ascii (plain c member)
  unfold quote
  rw [scan_ascii ascii, List.flatMap_map]
  congr 2
  exact List.flatMap_congr fun c member => quoteRune_plain (plain c member)

theorem readPieces_written {c : UInt8} (plain : isPlain c = true) (rest : GoString) :
    readPieces (written c ++ rest) = (readPieces rest).map fun (pieces, rest) =>
      (pieceOf c :: pieces, rest) := by
  rcases Bool.or_eq_true_iff.mp plain with safe | ampersand
  · have differs : c ≠ 0x22 ∧ ¬ c < 0x20 ∧ c ≠ 0x5c ∧ c ≠ 0x26 := by
      refine ⟨?_, ?_, ?_, ?_⟩
      · rintro rfl
        exact absurd safe (by decide)
      · simp only [isSafe, Bool.and_eq_true, decide_eq_true_eq] at safe
        exact UInt8.not_lt.mpr safe.1.1
      · rintro rfl
        exact absurd safe (by decide)
      · rintro rfl
        exact absurd safe (by decide)
    rw [isSafe.written safe, List.singleton_append, pieceOf, if_neg differs.2.2.2, readPieces.eq_def]
    simp only [if_neg differs.1, if_neg differs.2.1, if_neg differs.2.2.1]
  · rw [beq_iff_eq.mp ampersand]
    change readPieces (0x5c :: 0x75 :: 0x30 :: 0x30 :: 0x32 :: 0x36 :: rest) = _
    rw [readPieces.eq_def]
    rfl

theorem readPieces_plain {text rest : GoString} (plain : ∀ c ∈ text, isPlain c = true) :
    readPieces (text.flatMap written ++ 0x22 :: rest) = some (text.map pieceOf, rest) := by
  induction text with
  | nil =>
      unfold readPieces
      rfl
  | cons c text ih =>
      have later := ih fun d member => plain d (List.mem_cons_of_mem c member)
      rw [List.flatMap_cons, List.append_assoc, readPieces_written (plain c List.mem_cons_self), later]
      rfl

theorem joinPieces_pieceOf (text : GoString) : joinPieces (text.map pieceOf) = text := by
  induction text with
  | nil => rfl
  | cons c text ih =>
      rw [List.map_cons, pieceOf]
      split
      · rename_i ampersand
        rw [ampersand, joinPieces.eq_def]
        simp only
        rw [if_neg (by decide), ih]
        rfl
      · rw [joinPieces, ih]

theorem readString_plain {text rest : GoString} (plain : ∀ c ∈ text, isPlain c = true) :
    readString (text.flatMap written ++ 0x22 :: rest) = some (text, rest) := by
  have ascii : ∀ c ∈ text, c < 0x80 := fun c member => isPlain_ascii (plain c member)
  unfold readString unquote
  rw [readPieces_plain plain]
  change some ((runes (joinPieces (text.map pieceOf))).flatMap encodeRune, rest) = some (text, rest)
  rw [joinPieces_pieceOf, runes_encode_ascii ascii]

theorem flatMap_written {text : GoString} (safe : ∀ c ∈ text, isSafe c = true) :
    text.flatMap written = text := by
  rw [List.flatMap_congr fun c member => isSafe.written (safe c member)]
  exact List.flatMap_singleton' text

theorem quote_safe {text : GoString} (safe : ∀ c ∈ text, isSafe c = true) :
    quote text = 0x22 :: text ++ [0x22] := by
  rw [quote_plain fun c member => isSafe.plain (safe c member), flatMap_written safe]

theorem readString_safe {text rest : GoString} (safe : ∀ c ∈ text, isSafe c = true) :
    readString (text ++ 0x22 :: rest) = some (text, rest) := by
  have read := @readString_plain text rest fun c member => isSafe.plain (safe c member)
  rwa [flatMap_written safe] at read

end Strings

section Numbers

theorem digit_of_small {d : Nat} (small : d < 10) :
    isDigit (d + 0x30).toUInt8 = true ∧ (d + 0x30).toUInt8.toNat - 0x30 = d := by
  have all : ∀ d < 10, isDigit (d + 0x30).toUInt8 = true ∧
      (d + 0x30).toUInt8.toNat - 0x30 = d := by decide
  exact all d small

theorem decimal_digits (n : Nat) : ∀ c ∈ decimal n, isDigit c = true := by
  intro c member
  unfold decimal at member
  split at member
  · rw [List.mem_singleton] at member
    subst member
    decide
  · obtain ⟨d, there, rfl⟩ := List.mem_map.mp member
    exact (digit_of_small (Nat.digits_lt_base (by decide) (List.mem_reverse.mp there))).1

theorem decimal_ne_nil (n : Nat) : decimal n ≠ [] := by
  unfold decimal
  split
  · exact List.cons_ne_nil _ _
  · rename_i positive
    rw [Ne, List.map_eq_nil_iff, List.reverse_eq_nil_iff]
    exact Nat.digits_ne_nil_iff_ne_zero.mpr positive

/-- No superfluous zero is written. -/
theorem decimal_head {n : Nat} {c : UInt8} {rest : GoString} (written : decimal n = c :: rest)
    (zero : c = 0x30) : rest = [] := by
  subst zero
  unfold decimal at written
  split at written
  · exact (List.cons.inj written).2.symm
  · rename_i positive
    exfalso
    have nonempty : Nat.digits 10 n ≠ [] := Nat.digits_ne_nil_iff_ne_zero.mpr positive
    have last := Nat.getLast_digit_ne_zero 10 positive
    have reversed : (Nat.digits 10 n).reverse ≠ [] := by simpa using nonempty
    have front := congrArg List.head? written
    rw [List.head?_map, List.head?_reverse, List.getLast?_eq_some_getLast nonempty] at front
    have small : (Nat.digits 10 n).getLast nonempty < 10 :=
      Nat.digits_lt_base (by decide) (List.getLast_mem nonempty)
    have value := (digit_of_small small).2
    have same : ((Nat.digits 10 n).getLast nonempty + 0x30).toUInt8 = 0x30 := by
      simpa using front
    rw [same] at value
    exact last value.symm

theorem ofDecimal_decimal (n : Nat) : ofDecimal (decimal n) = n := by
  unfold decimal
  split
  · rename_i zero
    subst zero
    rfl
  · have small : ∀ d ∈ Nat.digits 10 n, d < 10 := fun d there => Nat.digits_lt_base (by decide) there
    have folded : ∀ ds : List Nat, (∀ d ∈ ds, d < 10) →
        ofDecimal (ds.reverse.map fun d => (d + 0x30).toUInt8) = Nat.ofDigits 10 ds := by
      intro ds
      unfold ofDecimal
      rw [List.foldl_map, List.foldl_reverse]
      induction ds with
      | nil => intro; rfl
      | cons d ds ih =>
          intro small
          have later := ih fun e there => small e (List.mem_cons_of_mem d there)
          rw [List.foldr_cons, later, Nat.ofDigits_cons, (digit_of_small (small d List.mem_cons_self)).2]
          omega
    rw [folded _ small, Nat.ofDigits_digits]

theorem readDigits_append {digits rest : GoString} (nonempty : digits ≠ [])
    (all : ∀ c ∈ digits, isDigit c = true) (stop : rest.head?.all fun c => !isDigit c) :
    readDigits (digits ++ rest) = some (digits, rest) := by
  have taken : (digits ++ rest).takeWhile isDigit = digits := by
    rw [List.takeWhile_append_of_pos all]
    cases rest with
    | nil => simp
    | cons c rest =>
        have no : isDigit c = false := by simpa using stop
        simp [no]
  have dropped : (digits ++ rest).dropWhile isDigit = rest := by
    rw [List.dropWhile_append_of_pos all]
    cases rest with
    | nil => rfl
    | cons c rest =>
        have no : isDigit c = false := by simpa using stop
        simp [no]
  unfold readDigits
  rw [taken, dropped, if_neg nonempty]

/-- A byte that ends a number. -/
def isStop (c : UInt8) : Bool := !isDigit c && c != 0x2e && c != 0x65 && c != 0x45

theorem readInteger_decimal (n : Nat) {c : UInt8} (rest : GoString) (stop : isStop c = true) :
    readInteger (decimal n ++ c :: rest) = some (decimal n, c :: rest) := by
  simp only [isStop, Bool.and_eq_true] at stop
  have ends : (c :: rest).head?.all fun c => !isDigit c := by simpa using stop.1.1.1
  cases written : decimal n with
  | nil => exact absurd written (decimal_ne_nil n)
  | cons d digits =>
      rw [List.cons_append, readInteger]
      split
      · rename_i zero
        rw [decimal_head written zero]
        rfl
      · have all : ∀ e ∈ d :: digits, isDigit e = true := by
          intro e member
          rw [← written] at member
          exact decimal_digits n e member
        exact readDigits_append (List.cons_ne_nil _ _) all ends

theorem readTail {c : UInt8} (rest : GoString) (stop : isStop c = true) :
    readFraction (c :: rest) = some ([], c :: rest) ∧
      readExponent (c :: rest) = some ([], c :: rest) := by
  simp only [isStop, Bool.and_eq_true, bne_iff_ne, ne_eq] at stop
  constructor
  · unfold readFraction
    exact if_neg stop.1.1.2
  · unfold readExponent
    exact if_neg (not_or.mpr ⟨stop.1.2, stop.2⟩)

theorem readNumber_formatInt (n : Int) {c : UInt8} (rest : GoString) (stop : isStop c = true) :
    readNumber (formatInt n ++ c :: rest) = some (formatInt n, c :: rest) := by
  have whole := readInteger_decimal n.natAbs rest stop
  obtain ⟨fraction, exponent⟩ := readTail rest stop
  unfold formatInt
  split
  · simp only [readNumber, List.cons_append, List.take_succ_cons, List.take_zero]
    simp [whole, fraction, exponent]
  · cases written : decimal n.natAbs with
    | nil => exact absurd written (decimal_ne_nil _)
    | cons d digits =>
        have digit : isDigit d = true := by
          refine decimal_digits n.natAbs d ?_
          rw [written]
          exact List.mem_cons_self
        have unsigned : (d == 0x2d) = false := by
          rw [beq_eq_false_iff_ne]
          rintro rfl
          exact absurd digit (by decide)
        rw [written] at whole
        simp only [readNumber, List.cons_append, List.take_succ_cons, List.take_zero,
          List.filter_cons, unsigned, List.filter_nil]
        simp only [List.cons_append] at whole
        simp [whole, fraction, exponent]

theorem parseInt64_formatInt {n : Int} (lower : -9223372036854775808 ≤ n)
    (upper : n ≤ 9223372036854775807) : parseInt64 (formatInt n) = some n := by
  have digits : (decimal n.natAbs).all isDigit = true :=
    List.all_eq_true.mpr (decimal_digits n.natAbs)
  have nonempty := decimal_ne_nil n.natAbs
  have value := ofDecimal_decimal n.natAbs
  unfold formatInt
  split
  · rename_i negative
    simp only [parseInt64, List.head?_cons, List.tail_cons, if_true, value, digits]
    rw [if_neg]
    · congr 1
      omega
    · simp only [nonempty, Bool.not_true, Bool.false_eq_true, false_or, not_or]
      omega
  · rename_i positive
    have unsigned : (decimal n.natAbs).head? ≠ some 0x2d := by
      intro front
      have digit := decimal_digits n.natAbs 0x2d (List.mem_of_mem_head? front)
      exact absurd digit (by decide)
    simp only [parseInt64, if_neg unsigned, value, digits]
    rw [if_neg]
    · congr 1
      omega
    · simp only [nonempty, Bool.not_true, Bool.false_eq_true, false_or, not_or]
      omega

end Numbers

section Records

variable {fuel depth : Nat} {name text rest rest' : GoString} {value : Value}

theorem skipSpaces_cons {c : UInt8} (visible : isSpace c = false) :
    skipSpaces (c :: rest) = c :: rest := by
  unfold skipSpaces
  rw [List.dropWhile_cons_of_neg]
  simp [visible]

theorem readValue_quote (plain : ∀ c ∈ text, isPlain c = true) :
    readValue (fuel + 1) depth (quote text ++ rest) = some (.string text, rest) := by
  rw [quote_plain plain]
  simp only [List.cons_append, List.append_assoc, List.nil_append]
  rw [readValue, skipSpaces_cons (by decide)]
  simp only [if_true]
  rw [readString_plain plain]
  rfl

/-- The bytes that begin a number. -/
def isNumberStart (c : UInt8) : Bool := isDigit c || c == 0x2d

theorem formatInt_head (n : Int) : ∃ c tail, formatInt n = c :: tail ∧ isNumberStart c = true := by
  unfold formatInt
  split
  · exact ⟨0x2d, _, rfl, rfl⟩
  · cases written : decimal n.natAbs with
    | nil => exact absurd written (decimal_ne_nil _)
    | cons d digits =>
        refine ⟨d, digits, rfl, ?_⟩
        unfold isNumberStart
        rw [decimal_digits n.natAbs d (by rw [written]; exact List.mem_cons_self), Bool.true_or]

theorem readValue_number {c : UInt8} (start : isNumberStart c = true) :
    readValue (fuel + 1) depth (c :: rest) =
      (readNumber (c :: rest)).map fun (text, rest) => (.number text, rest) := by
  have differs : ∀ d : UInt8, isNumberStart d = false → c ≠ d := by
    rintro d other rfl
    rw [start] at other
    cases other
  have visible : isSpace c = false := by
    cases space : isSpace c with
    | false => rfl
    | true =>
        simp only [isSpace, Bool.or_eq_true, beq_iff_eq] at space
        rcases space with ((rfl | rfl) | rfl) | rfl <;> exact absurd start (by decide)
  have plain : ∀ (d : UInt8) (tail : GoString), isNumberStart d = false →
      hasPrefix (c :: rest) (d :: tail) = false := by
    intro d tail other
    have no : (d == c) = false := by simpa using (differs d other).symm
    simp [hasPrefix, List.isPrefixOf, no]
  rw [readValue, skipSpaces_cons visible]
  simp only [differs 0x22 (by decide), differs 0x7b (by decide), differs 0x5b (by decide), if_false]
  rw [show str "null" = 0x6e :: str "ull" from rfl, show str "true" = 0x74 :: str "rue" from rfl,
    show str "false" = 0x66 :: str "alse" from rfl, plain _ _ (by decide), plain _ _ (by decide),
    plain _ _ (by decide)]
  rfl

theorem readValue_formatInt (n : Int) {c : UInt8} (stop : isStop c = true) :
    readValue (fuel + 1) depth (formatInt n ++ c :: rest) =
      some (.number (formatInt n), c :: rest) := by
  have read := readNumber_formatInt n rest stop
  obtain ⟨d, tail, written, start⟩ := formatInt_head n
  rw [written, List.cons_append] at read ⊢
  rw [readValue_number start, read]
  rfl

/-- One member of an object that others follow. -/
theorem readMembers_more (safe : ∀ c ∈ name, isSafe c = true)
    (read : readValue fuel depth rest = some (value, 0x2c :: rest')) :
    readMembers (fuel + 1) depth (quote name ++ 0x3a :: rest) =
      (readMembers fuel depth rest').map fun (members, rest) => ((name, value) :: members, rest) := by
  rw [quote_safe safe]
  simp only [List.cons_append, List.append_assoc, List.nil_append]
  rw [readMembers, skipSpaces_cons (by decide)]
  simp only [not_true_eq_false, if_false, ne_eq]
  rw [readString_safe safe]
  simp only [Option.bind_some]
  rw [skipSpaces_cons (by decide)]
  simp only [not_true_eq_false, if_false]
  rw [read]
  simp only [Option.bind_some]
  rw [skipSpaces_cons (by decide)]
  simp only [if_true]

/-- The last member of an object. -/
theorem readMembers_last (safe : ∀ c ∈ name, isSafe c = true)
    (read : readValue fuel depth rest = some (value, 0x7d :: rest')) :
    readMembers (fuel + 1) depth (quote name ++ 0x3a :: rest) = some ([(name, value)], rest') := by
  rw [quote_safe safe]
  simp only [List.cons_append, List.append_assoc, List.nil_append]
  rw [readMembers, skipSpaces_cons (by decide)]
  simp only [not_true_eq_false, if_false, ne_eq]
  rw [readString_safe safe]
  simp only [Option.bind_some]
  rw [skipSpaces_cons (by decide)]
  simp only [not_true_eq_false, if_false]
  rw [read]
  simp only [Option.bind_some]
  rw [skipSpaces_cons (by decide)]
  rfl

/-- A text that is one object with members. -/
theorem parse_members {members : List (GoString × Value)}
    (read : readMembers (2 * rest.length + 5) 1 (0x22 :: rest) = some (members, [])) :
    parse (0x7b :: 0x22 :: rest) = some (.object members) := by
  have value : readValue (2 * rest.length + 6) 0 (0x7b :: 0x22 :: rest) =
      some (.object members, []) := by
    rw [readValue, skipSpaces_cons (by decide)]
    simp only [show (0x7b : UInt8) ≠ 0x22 by decide, if_false, if_true]
    rw [if_neg (by decide), skipSpaces_cons (by decide), if_neg (by simp), read]
    rfl
  unfold parse
  rw [show 2 * (0x7b :: 0x22 :: rest).length + 2 = 2 * rest.length + 6 by simp; omega, value]
  rfl

end Records

end Go.Json
