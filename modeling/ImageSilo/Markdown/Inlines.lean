import ImageSilo.Go.URL

/-! The inlines of a paragraph by the CommonMark specification, as far as they decide what is an image. -/
namespace Markdown

open Go

abbrev backslash : UInt8 := 0x5c
abbrev backtick : UInt8 := 0x60
abbrev bang : UInt8 := 0x21
abbrev opening : UInt8 := 0x5b
abbrev closing : UInt8 := 0x5d
abbrev leftParen : UInt8 := 0x28
abbrev rightParen : UInt8 := 0x29
abbrev less : UInt8 := 0x3c
abbrev greater : UInt8 := 0x3e
abbrev newline : UInt8 := 0x0a

/-- ASCII punctuation. -/
def isPunctuation (c : UInt8) : Bool :=
  (0x21 ≤ c && c ≤ 0x2f) || (0x3a ≤ c && c ≤ 0x40) || (0x5b ≤ c && c ≤ 0x60) ||
    (0x7b ≤ c && c ≤ 0x7e)

def isLetter (c : UInt8) : Bool := (0x61 ≤ c && c ≤ 0x7a) || (0x41 ≤ c && c ≤ 0x5a)

def isBlank (c : UInt8) : Bool := c == 0x20 || c == 0x09

/-- Reads one given character. -/
def expect (c : UInt8) : GoString → Option GoString
  | [] => none
  | d :: rest => if d = c then some rest else none

/-- Spaces and tabs, with at most one line ending among them. -/
def skipWhitespace (s : GoString) : GoString :=
  match expect newline (s.dropWhile isBlank) with
  | some rest => rest.dropWhile isBlank
  | none => s.dropWhile isBlank

/-- The text after the first occurrence of a mark. -/
def after (mark : GoString) : GoString → Option GoString
  | [] => none
  | c :: rest =>
      if hasPrefix (c :: rest) mark then some ((c :: rest).drop mark.length) else after mark rest

section CodeSpans

/-- The characters up to the end of the first run of `n` backticks; the first number is the length of the
run that is being read. -/
def findRun (n : Nat) : Nat → GoString → Option Nat
  | run, [] => if run = n then some 0 else none
  | run, c :: rest =>
      if c = backtick then (findRun n (run + 1) rest).map (· + 1)
      else if run = n then some 0
      else (findRun n 0 rest).map (· + 1)

/-- The length of the code span at the front, or that of the backticks there. -/
def codeSpan (s : GoString) : Nat :=
  let n := (s.takeWhile (· == backtick)).length
  match findRun n 0 (s.drop n) with
  | some width => n + width
  | none => n

end CodeSpans

section Autolinks

def isSchemeByte (c : UInt8) : Bool := isAlphanumeric c || (str "+.-").contains c

def isURIByte (c : UInt8) : Bool := 0x20 < c && c != 0x7f && c != less && c != greater

/-- An absolute URI, read after the angle bracket. -/
def uriAutolink (s : GoString) : Option GoString :=
  let scheme := s.takeWhile isSchemeByte
  if scheme.head?.any isLetter && 2 ≤ scheme.length && scheme.length ≤ 32 then
    (expect 0x3a (s.dropWhile isSchemeByte)).bind fun rest => expect greater (rest.dropWhile isURIByte)
  else none

def isLocalByte (c : UInt8) : Bool := isAlphanumeric c || (str ".!#$%&'*+/=?^_`\x7b|\x7d~-").contains c

def isDomainByte (c : UInt8) : Bool := isAlphanumeric c || c == 0x2d || c == 0x2e

def isLabel (label : GoString) : Bool :=
  label.head?.any isAlphanumeric && label.getLast?.any isAlphanumeric && label.length ≤ 63

def emailAutolink (s : GoString) : Option GoString :=
  if s.takeWhile isLocalByte = [] then none
  else
    (expect 0x40 (s.dropWhile isLocalByte)).bind fun rest =>
      if (split 0x2e (rest.takeWhile isDomainByte)).all isLabel then
        expect greater (rest.dropWhile isDomainByte)
      else none

end Autolinks

section HTML

def tagName (s : GoString) : Option GoString :=
  if s.head?.any isLetter then some (s.dropWhile fun c => isAlphanumeric c || c == 0x2d) else none

def attributeName (s : GoString) : Option GoString :=
  if s.head?.any fun c => isLetter c || c == 0x5f || c == 0x3a then
    some (s.dropWhile fun c => isAlphanumeric c || (str "_.:-").contains c)
  else none

def isUnquoted (c : UInt8) : Bool := !(str " \t\n\"'=<>`").contains c

def attributeValue (s : GoString) : Option GoString :=
  match s with
  | [] => none
  | c :: rest =>
      if c = 0x22 ∨ c = 0x27 then expect c (rest.dropWhile (· != c))
      else if isUnquoted c then some (rest.dropWhile isUnquoted)
      else none

/-- An attribute, with a value or without one. -/
def tagAttribute (s : GoString) : Option GoString :=
  (attributeName s).bind fun rest =>
    match expect 0x3d (skipWhitespace rest) with
    | some value => attributeValue (skipWhitespace value)
    | none => some rest

/-- Attributes, each after white space. -/
def attributes : Nat → GoString → GoString
  | 0, s => s
  | fuel + 1, s =>
      if skipWhitespace s = s then s
      else
        match tagAttribute (skipWhitespace s) with
        | some rest => attributes fuel rest
        | none => s

def openTag (s : GoString) : Option GoString :=
  (tagName s).bind fun rest =>
    let rest := skipWhitespace (attributes rest.length rest)
    expect greater ((expect 0x2f rest).getD rest)

def closingTag (s : GoString) : Option GoString :=
  (tagName s).bind fun rest => expect greater (skipWhitespace rest)

def comment (s : GoString) : Option GoString :=
  if hasPrefix s (str ">") then some (s.drop 1)
  else if hasPrefix s (str "->") then some (s.drop 2)
  else after (str "-->") s

/-- A tag, a comment, a processing instruction, a declaration or a section of character data. -/
def html (s : GoString) : Option GoString :=
  if hasPrefix s (str "!--") then comment (s.drop 3)
  else if hasPrefix s (str "?") then after (str "?>") (s.drop 1)
  else if hasPrefix s (str "![CDATA[") then after (str "]]>") (s.drop 8)
  else if hasPrefix s (str "!") then
    if (s.drop 1).head?.any isLetter then after (str ">") (s.drop 1) else none
  else if hasPrefix s (str "/") then closingTag (s.drop 1)
  else openTag s

end HTML

/-- The text after what an angle bracket opens. -/
def angle (s : GoString) : Option GoString := uriAutolink s <|> emailAutolink s <|> html s

/-- How many characters are read as one. -/
def width : GoString → Nat
  | [] => 0
  | c :: rest =>
      if c = backslash then if rest.head?.any isPunctuation then 2 else 1
      else if c = backtick then codeSpan (c :: rest)
      else if c = less then
        match angle rest with
        | some beyond => rest.length - beyond.length + 1
        | none => 1
      else 1

section Destinations

/-- One more character before a part of the text. -/
def addFront (c : UInt8) (part : GoString × GoString) : GoString × GoString := (c :: part.1, part.2)

/-- A destination without angle brackets and the text after it; the flag tells that a backslash stands
before the first character. -/
def takeDestination : Bool → Nat → GoString → Option (GoString × GoString)
  | _, depth, [] => if depth = 0 then some ([], []) else none
  | true, depth, c :: rest => (takeDestination false depth rest).map (addFront c)
  | false, depth, c :: rest =>
      let next (escaped : Bool) (depth : Nat) :=
        (takeDestination escaped depth rest).map (addFront c)
      if c ≤ 0x20 ∨ c = 0x7f then if depth = 0 then some ([], c :: rest) else none
      else if c = leftParen then next false (depth + 1)
      else if c = rightParen then if depth = 0 then some ([], c :: rest) else next false (depth - 1)
      else next (c == backslash && rest.head?.any isPunctuation) depth

/-- A destination between angle brackets, after the first of them. -/
def takeAngle : Bool → GoString → Option (GoString × GoString)
  | _, [] => none
  | escaped, c :: rest =>
      if c = newline then none
      else if !escaped && c == greater then some ([], rest)
      else if !escaped && c == less then none
      else
        (takeAngle (!escaped && c == backslash && rest.head?.any isPunctuation) rest).map (addFront c)

/-- A title, after its first delimiter; `stop` tells the delimiters that may not stand in it. -/
def takeTitle (close : UInt8) (stop : UInt8 → Bool) : Bool → GoString → Option GoString
  | _, [] => none
  | escaped, c :: rest =>
      if !escaped && c == close then some rest
      else if !escaped && stop c then none
      else takeTitle close stop (!escaped && c == backslash && rest.head?.any isPunctuation) rest

def title : GoString → Option GoString
  | [] => none
  | c :: rest =>
      if c = 0x22 ∨ c = 0x27 then takeTitle c (fun _ => false) false rest
      else if c = leftParen then takeTitle rightParen (· == leftParen) false rest
      else none

/-- The destination in parentheses after a closing bracket, as it is written, and the text after it. -/
def target (s : GoString) : Option (GoString × GoString) :=
  (expect leftParen s).bind fun s =>
    let place := skipWhitespace s
    (match expect less place with
      | some inside => takeAngle false inside
      | none => takeDestination false 0 place).bind fun (raw, rest) =>
        match expect rightParen (skipWhitespace rest) with
        | some beyond => some (raw, beyond)
        | none =>
            if skipWhitespace rest = rest then none
            else
              (title (skipWhitespace rest)).bind fun rest =>
                (expect rightParen (skipWhitespace rest)).map fun beyond => (raw, beyond)

end Destinations

section References

variable (entity : GoString → Option GoString)

def numeric (base : Nat) (digits : GoString) : GoString :=
  let n := digits.foldl (fun n c => n * base + (unhex c).toNat) 0
  if n = 0 ∨ 0x10ffff < n ∨ (0xd800 ≤ n ∧ n < 0xe000) then encodeRune 0xfffd else encodeRune n

/-- What a reference stands for, read after the ampersand, and the number of characters read; `entity` is
the table of named characters. -/
def reference (s : GoString) : Option (GoString × Nat) :=
  let isDigit (c : UInt8) : Bool := 0x30 ≤ c && c ≤ 0x39
  let decimal := (s.drop 1).takeWhile isDigit
  let hexadecimal := (s.drop 2).takeWhile isHex
  let name := s.takeWhile isAlphanumeric
  let ended (n : Nat) : Bool := (s.drop n).head? == some 0x3b
  if s.head? = some 0x23 ∧ decimal ≠ [] then
    if decimal.length ≤ 7 && ended (decimal.length + 1) then
      some (numeric 10 decimal, decimal.length + 2)
    else none
  else if s.head? = some 0x23 then
    if (s.drop 1).head?.any (fun c => c == 0x78 || c == 0x58) && hexadecimal != [] &&
        hexadecimal.length ≤ 6 && ended (hexadecimal.length + 2) then
      some (numeric 16 hexadecimal, hexadecimal.length + 3)
    else none
  else if ended name.length then (entity name).map fun text => (text, name.length + 1)
  else none

/-- The meaning of a destination; the first argument counts the characters still to skip. -/
def decode : Nat → GoString → GoString
  | _, [] => []
  | skip + 1, _ :: rest => decode skip rest
  | 0, c :: rest =>
      if c = backslash ∧ rest.head?.any isPunctuation then rest.take 1 ++ decode 1 rest
      else if c = 0x26 then
        match reference entity rest with
        | some (text, width) => text ++ decode width rest
        | none => c :: decode 0 rest
      else c :: decode 0 rest

end References

/-- An opening bracket, of an image or of a link. -/
structure Opener where
  image : Bool
  active : Bool

/-- A link holds no link: the brackets around it can no longer begin one. -/
def deactivate (opened : List Opener) : List Opener :=
  opened.map fun opener => if opener.image then opener else { opener with active := false }

/-- The destinations of the images, in the order of their ends. The first argument counts the characters
still to skip; the brackets that are open stand in the list, the last first. -/
def images (entity : GoString → Option GoString) : Nat → List Opener → GoString → List GoString
  | _, _, [] => []
  | skip + 1, opened, _ :: rest => images entity skip opened rest
  | 0, opened, c :: rest =>
      if c = bang ∧ rest.head? = some opening then images entity 1 (⟨true, true⟩ :: opened) rest
      else if c = opening then images entity 0 (⟨false, true⟩ :: opened) rest
      else if c = closing then
        match opened with
        | [] => images entity 0 [] rest
        | opener :: opened =>
            if opener.active then
              match target rest with
              | some (raw, beyond) =>
                  if opener.image then
                    decode entity 0 raw :: images entity (rest.length - beyond.length) opened rest
                  else images entity (rest.length - beyond.length) (deactivate opened) rest
              | none => images entity 0 opened rest
            else images entity 0 opened rest
      else images entity (width (c :: rest) - 1) opened rest

end Markdown
