import ImageSilo.Go.Utf8
import Mathlib.Data.List.Infix

/-! `LOWER`, `HEX` and `LIKE … ESCAPE` of SQLite without an extension for Unicode: only ASCII letters have
a case. -/
namespace Sqlite

open Go

def lowerByte (b : UInt8) : UInt8 := if 0x41 ≤ b && b ≤ 0x5a then b + 0x20 else b

/-- `LOWER`. -/
def lower (s : GoString) : GoString := s.map lowerByte

def hexDigit (n : UInt8) : UInt8 := if n < 10 then 0x30 + n else 0x37 + n

/-- `HEX`. -/
def hex (s : GoString) : GoString := s.flatMap fun b => [hexDigit (b / 16), hexDigit (b % 16)]

/-- The bits that the first byte of a sequence contributes. -/
def leadBits (b : UInt8) : Nat :=
  if b < 0xe0 then b.toNat - 0xc0
  else if b < 0xf0 then b.toNat - 0xe0
  else if b < 0xf8 then b.toNat - 0xf0
  else if b < 0xfc then b.toNat - 0xf8
  else if b < 0xfe then b.toNat - 0xfc
  else 0

/-- Surrogates, what is too short for its sequence and two of the noncharacters are replaced. -/
def replaced (c : Nat) : Nat :=
  if c < 0x80 ∨ (0xd800 ≤ c ∧ c < 0xe000) ∨ c = 0xfffe ∨ c = 0xffff then 0xfffd else c

/-- The code points of a text up to the first zero; the first argument counts the bytes to skip. -/
def codes : Nat → GoString → List Nat
  | _, [] => []
  | skip + 1, _ :: rest => codes skip rest
  | 0, b :: rest =>
      if b = 0 then []
      else if b < 0xc0 then b.toNat :: codes 0 rest
      else
        let tail := rest.takeWhile isContinuation
        replaced (tail.foldl (fun c d => (c * 0x40 + d.toNat % 0x40) % 0x100000000) (leadBits b)) ::
          codes tail.length rest

def lowerCode (c : Nat) : Nat := if 0x41 ≤ c ∧ c ≤ 0x5a then c + 0x20 else c

/-- Equal, or the same ASCII letter. -/
def sameCode (c d : Nat) : Bool := c == d || (c < 0x80 && d < 0x80 && lowerCode c == lowerCode d)

def percent : Nat := 0x25

def underscore : Nat := 0x5f

def matchesCodes (escape : Nat) : List Nat → List Nat → Bool
  | [], text => text = []
  | p :: pattern, text =>
      if p = percent then text.tails.any (matchesCodes escape pattern)
      else if p = escape then
        match pattern with
        | [] => false
        | q :: pattern =>
            match text with
            | [] => false
            | c :: text => sameCode q c && matchesCodes escape pattern text
      else
        match text with
        | [] => false
        | c :: text => (sameCode p c || p == underscore) && matchesCodes escape pattern text

/-- `text LIKE pattern ESCAPE escape`. -/
def like (escape : Nat) (pattern text : GoString) : Bool :=
  matchesCodes escape (codes 0 pattern) (codes 0 text)

section Tokens

/-- What one place of a pattern stands for: any sequence, any one character, a character, or nothing
at all because the text ends after the escape character. -/
inductive Token
  | many
  | one
  | literal (c : Nat)
  | dangling

def tokens (escape : Nat) : List Nat → List Token
  | [] => []
  | p :: pattern =>
      if p = percent then .many :: tokens escape pattern
      else if p = escape then
        match pattern with
        | [] => [.dangling]
        | q :: pattern => .literal q :: tokens escape pattern
      else if p = underscore then .one :: tokens escape pattern
      else .literal p :: tokens escape pattern

def matchesTokens : List Token → List Nat → Bool
  | [], text => text = []
  | .many :: pattern, text => text.tails.any (matchesTokens pattern)
  | .one :: _, [] => false
  | .one :: pattern, _ :: text => matchesTokens pattern text
  | .literal _ :: _, [] => false
  | .literal q :: pattern, c :: text => sameCode q c && matchesTokens pattern text
  | .dangling :: _, _ => false

/-- A pattern is matched place by place. -/
theorem matchesCodes_tokens (escape : Nat) (pattern text : List Nat) :
    matchesCodes escape pattern text = matchesTokens (tokens escape pattern) text := by
  induction pattern using tokens.induct escape generalizing text with
  | case1 =>
      rw [matchesCodes.eq_def]
      rfl
  | case2 pattern ih =>
      rw [matchesCodes.eq_def, tokens.eq_def]
      simp only [if_true, matchesTokens]
      congr
      funext rest
      exact ih rest
  | case3 other =>
      rw [matchesCodes.eq_def, tokens.eq_def]
      simp only [other, if_true, if_false, matchesTokens]
  | case4 q pattern other ih =>
      rw [matchesCodes.eq_def, tokens.eq_def]
      simp only [other, if_true, if_false]
      cases text with
      | nil => rfl
      | cons c text =>
          dsimp only
          rw [matchesTokens, ih]
  | case5 pattern other plain ih =>
      rw [matchesCodes.eq_def, tokens.eq_def]
      simp only [other, plain, if_true, if_false]
      cases text with
      | nil => rfl
      | cons c text =>
          dsimp only
          rw [matchesTokens, ih, beq_self_eq_true, Bool.or_true, Bool.true_and]
  | case6 p pattern other plain several ih =>
      rw [matchesCodes.eq_def, tokens.eq_def]
      simp only [other, plain, several, if_false]
      cases text with
      | nil => rfl
      | cons c text =>
          dsimp only
          rw [matchesTokens, ih, beq_false_of_ne several, Bool.or_false]

end Tokens

section Codes

/-- A rune as it is compared: two noncharacters are seen as the replacement character. -/
def seen (r : Nat) : Nat := if r = 0xfffe ∨ r = 0xffff then 0xfffd else r

theorem codes_skip (skipped rest : GoString) :
    codes skipped.length (skipped ++ rest) = codes 0 rest := by
  induction skipped with
  | nil => rfl
  | cons c skipped ih => exact ih

theorem takeWhile_tail {tail rest : GoString} (continued : ∀ c ∈ tail, isContinuation c = true)
    (ends : ∀ c later, rest = c :: later → isContinuation c = false) :
    (tail ++ rest).takeWhile isContinuation = tail := by
  rw [List.takeWhile_append_of_pos continued]
  cases rest with
  | nil => simp
  | cons c later => simp [ends c later rfl]

theorem codes_lead {b : UInt8} (tail rest : GoString) (lead : 0xc0 ≤ b.toNat)
    (continued : ∀ c ∈ tail, isContinuation c = true)
    (ends : ∀ c later, rest = c :: later → isContinuation c = false) :
    codes 0 (b :: (tail ++ rest)) =
      replaced (tail.foldl (fun c d => (c * 0x40 + d.toNat % 0x40) % 0x100000000) (leadBits b)) ::
        codes 0 rest := by
  have nonzero : b ≠ 0 := by
    rintro rfl
    exact absurd lead (by decide)
  have high : ¬ b < 0xc0 := by
    rw [byte_lt]
    exact Nat.not_lt.mpr lead
  rw [codes, if_neg nonzero, if_neg high]
  simp only [takeWhile_tail continued ends, codes_skip]

theorem replaced_scalar {r : Nat} (scalar : Scalar r) (high : 0x80 ≤ r) : replaced r = seen r := by
  unfold Scalar at scalar
  unfold replaced seen
  by_cases nonchar : r = 0xfffe ∨ r = 0xffff
  · rw [if_pos nonchar, if_pos (.inr (.inr nonchar))]
  · rw [if_neg nonchar, if_neg]
    omega

theorem codes_encodeRune {r : Nat} (scalar : Scalar r) (nonzero : r ≠ 0) {rest : GoString}
    (ends : ∀ c later, rest = c :: later → isContinuation c = false) :
    codes 0 (encodeRune r ++ rest) = seen r :: codes 0 rest := by
  have scalar' := scalar
  unfold Scalar at scalar'
  have tail : ∀ n, isContinuation (0x80 + n % 0x40).toUInt8 = true := by
    intro n
    have := toNat_byte (n := 0x80 + n % 0x40) (by omega)
    exact isContinuation_iff.mpr (by omega)
  have last := toNat_byte (n := 0x80 + r % 0x40) (by omega)
  have middle := toNat_byte (n := 0x80 + r / 0x40 % 0x40) (by omega)
  unfold encodeRune
  split
  · rename_i ascii
    have b := toNat_byte (n := r) (by omega)
    have here : r.toUInt8 ≠ 0 := by
      intro zero
      rw [zero] at b
      exact nonzero b.symm
    have low : r.toUInt8 < 0xc0 := by
      rw [byte_lt, b]
      exact Nat.lt_trans ascii (by decide)
    rw [List.singleton_append, codes, if_neg here, if_pos low, b]
    unfold seen
    rw [if_neg (by omega)]
  rename_i high
  rw [← replaced_scalar scalar (Nat.not_lt.mp high)]
  split
  · have b := toNat_byte (n := 0xc0 + r / 0x40) (by omega)
    have bits : leadBits (0xc0 + r / 0x40).toUInt8 = r / 0x40 := by
      unfold leadBits
      rw [if_pos (by rw [byte_lt, b]; change _ < 0xe0; omega), b]
      omega
    have read := codes_lead (b := (0xc0 + r / 0x40).toUInt8)
      [(0x80 + r % 0x40).toUInt8] rest (by omega)
      (by rw [List.forall_mem_singleton]; exact tail _) ends
    refine read.trans (congrArg (replaced · :: codes 0 rest) ?_)
    simp only [List.foldl_cons, List.foldl_nil, bits, last]
    omega
  split
  · have b := toNat_byte (n := 0xe0 + r / 0x1000) (by omega)
    have bits : leadBits (0xe0 + r / 0x1000).toUInt8 = r / 0x1000 := by
      unfold leadBits
      rw [if_neg (by rw [byte_lt, b]; change ¬ _ < 0xe0; omega),
        if_pos (by rw [byte_lt, b]; change _ < 0xf0; omega), b]
      omega
    have read := codes_lead (b := (0xe0 + r / 0x1000).toUInt8)
      [(0x80 + r / 0x40 % 0x40).toUInt8, (0x80 + r % 0x40).toUInt8] rest
      (by omega) (by
        rw [List.forall_mem_cons, List.forall_mem_singleton]
        exact ⟨tail _, tail _⟩) ends
    refine read.trans (congrArg (replaced · :: codes 0 rest) ?_)
    simp only [List.foldl_cons, List.foldl_nil, bits, last, middle]
    omega
  · have b := toNat_byte (n := 0xf0 + r / 0x40000) (by omega)
    have second := toNat_byte (n := 0x80 + r / 0x1000 % 0x40) (by omega)
    have bits : leadBits (0xf0 + r / 0x40000).toUInt8 = r / 0x40000 := by
      unfold leadBits
      rw [if_neg (by rw [byte_lt, b]; change ¬ _ < 0xe0; omega),
        if_neg (by rw [byte_lt, b]; change ¬ _ < 0xf0; omega),
        if_pos (by rw [byte_lt, b]; change _ < 0xf8; omega), b]
      omega
    have read := codes_lead (b := (0xf0 + r / 0x40000).toUInt8)
      [(0x80 + r / 0x1000 % 0x40).toUInt8, (0x80 + r / 0x40 % 0x40).toUInt8,
        (0x80 + r % 0x40).toUInt8] rest
      (by omega) (by
        rw [List.forall_mem_cons, List.forall_mem_cons, List.forall_mem_singleton]
        exact ⟨tail _, tail _, tail _⟩) ends
    refine read.trans (congrArg (replaced · :: codes 0 rest) ?_)
    simp only [List.foldl_cons, List.foldl_nil, bits, last, middle, second]
    omega

/-- Valid text without zeros is read rune by rune. -/
theorem codes_encode {rs : List Nat} (scalars : ∀ r ∈ rs, Scalar r) (nonzero : ∀ r ∈ rs, r ≠ 0) :
    codes 0 (encode rs) = rs.map seen := by
  induction rs with
  | nil => rfl
  | cons r rs ih =>
      have later : ∀ s ∈ rs, Scalar s := fun s member => scalars s (List.mem_cons_of_mem r member)
      have ends : ∀ c rest, encode rs = c :: rest → isContinuation c = false :=
        fun c rest front => encode_head later front
      rw [List.map_cons, ← ih later fun s member => nonzero s (List.mem_cons_of_mem r member)]
      exact codes_encodeRune (scalars r List.mem_cons_self) (nonzero r List.mem_cons_self) ends

end Codes

section Lower

theorem lower_ascii : ∀ r < 0x80, lower (encodeRune r) = encodeRune (lowerCode r) := by decide

theorem encodeRune_high {r : Nat} (scalar : Scalar r) (high : 0x80 ≤ r) :
    ∀ b ∈ encodeRune r, 0x80 ≤ b.toNat := by
  intro b member
  obtain ⟨c, tail, shape, lead, continued⟩ := encodeRune_shape scalar
  have decoded := decodeRune_encodeRune scalar []
  rw [shape] at member decoded
  rcases List.mem_cons.mp member with rfl | there
  · by_contra low
    rw [List.append_nil, decodeRune_one (by omega)] at decoded
    have same := (Prod.mk.inj (Option.some.inj decoded)).1
    omega
  · exact (isContinuation_iff.mp (continued b there)).1

theorem lower_encodeRune {r : Nat} (scalar : Scalar r) :
    lower (encodeRune r) = encodeRune (lowerCode r) := by
  by_cases high : 0x80 ≤ r
  · have same : lowerCode r = r := if_neg (by omega)
    rw [same]
    have unchanged : ∀ b ∈ encodeRune r, lowerByte b = b := by
      intro b member
      have big := encodeRune_high scalar high b member
      unfold lowerByte
      rw [if_neg]
      simp only [Bool.and_eq_true, decide_eq_true_eq, byte_le, not_and, Nat.not_le]
      intro
      exact Nat.lt_of_lt_of_le (by decide) big
    unfold lower
    rw [List.map_congr_left unchanged, List.map_id']
  · exact lower_ascii r (by omega)

/-- Only ASCII letters change. -/
theorem lower_encode {rs : List Nat} (scalars : ∀ r ∈ rs, Scalar r) :
    lower (encode rs) = encode (rs.map lowerCode) := by
  induction rs with
  | nil => rfl
  | cons r rs ih =>
      have front : lower (encode (r :: rs)) = lower (encodeRune r) ++ lower (encode rs) :=
        List.map_append
      rw [front, lower_encodeRune (scalars r List.mem_cons_self),
        ih fun s member => scalars s (List.mem_cons_of_mem r member)]
      rfl

end Lower

section Like

/-- The code points of a pattern that stand for one character each. -/
def escapeCode (escape r : Nat) : List Nat :=
  if r = escape ∨ r = percent ∨ r = underscore then [escape, r] else [r]

theorem tokens_percent (escape : Nat) (pattern : List Nat) :
    tokens escape (percent :: pattern) = .many :: tokens escape pattern := by
  rw [tokens.eq_def]
  simp only [if_true]

theorem tokens_escaped {escape : Nat} (plain : escape ≠ percent) (ps pattern : List Nat) :
    tokens escape (ps.flatMap (escapeCode escape) ++ pattern) =
      ps.map Token.literal ++ tokens escape pattern := by
  induction ps with
  | nil => rfl
  | cons p ps ih =>
      rw [List.flatMap_cons, List.append_assoc, List.map_cons, List.cons_append, ← ih]
      generalize ps.flatMap (escapeCode escape) ++ pattern = later
      unfold escapeCode
      by_cases special : p = escape ∨ p = percent ∨ p = underscore
      · rw [if_pos special, tokens.eq_def]
        simp only [List.cons_append, List.nil_append, plain, if_true, if_false]
      · obtain ⟨first, second, third⟩ : p ≠ escape ∧ p ≠ percent ∧ p ≠ underscore := by
          simpa [not_or] using special
        rw [if_neg special, List.singleton_append, tokens.eq_def]
        simp only [first, second, third, if_false]

theorem matchesTokens_literals (ps : List Nat) (pattern : List Token) (text : List Nat) :
    matchesTokens (ps.map Token.literal ++ pattern) text = true ↔
      ∃ front back, text = front ++ back ∧ List.Forall₂ (fun p c => sameCode p c = true) ps front ∧
        matchesTokens pattern back = true := by
  induction ps generalizing text with
  | nil =>
      constructor
      · intro found
        exact ⟨[], text, rfl, .nil, found⟩
      · rintro ⟨front, back, rfl, ⟨⟩, found⟩
        exact found
  | cons p ps ih =>
      cases text with
      | nil =>
          constructor
          · intro found
            cases found
          · rintro ⟨front, back, empty, all, -⟩
            cases all
            cases empty
      | cons c text =>
          rw [List.map_cons, List.cons_append, matchesTokens, Bool.and_eq_true, ih]
          constructor
          · rintro ⟨same, front, back, rfl, all, ends⟩
            exact ⟨c :: front, back, rfl, .cons same all, ends⟩
          · rintro ⟨front, back, whole, all, ends⟩
            cases all with
            | cons same all =>
                cases whole
                exact ⟨same, _, back, rfl, all, ends⟩

/-- A pattern between two percent signs is looked for everywhere in the text. -/
theorem matchesCodes_within {escape : Nat} (plain : escape ≠ percent) (ps text : List Nat) :
    matchesCodes escape (percent :: ps.flatMap (escapeCode escape) ++ [percent]) text = true ↔
      ∃ part, part <:+: text ∧ List.Forall₂ (fun p c => sameCode p c = true) ps part := by
  have pattern : tokens escape (percent :: ps.flatMap (escapeCode escape) ++ [percent]) =
      .many :: (ps.map Token.literal ++ [.many]) := by
    rw [List.cons_append, tokens_percent, tokens_escaped plain, tokens_percent, tokens]
  have ends : ∀ back, matchesTokens [.many] back = true := by
    intro back
    rw [matchesTokens, List.any_eq_true]
    exact ⟨[], (List.mem_tails _ _).mpr List.nil_suffix, rfl⟩
  rw [matchesCodes_tokens, pattern, matchesTokens, List.any_eq_true]
  constructor
  · rintro ⟨tail, member, found⟩
    obtain ⟨front, back, rfl, all, -⟩ := (matchesTokens_literals ps _ tail).mp found
    obtain ⟨start, same⟩ := (List.mem_tails _ _).mp member
    exact ⟨front, ⟨start, back, by rw [List.append_assoc]; exact same⟩, all⟩
  · rintro ⟨part, ⟨start, back, same⟩, all⟩
    rw [List.append_assoc] at same
    refine ⟨part ++ back, (List.mem_tails _ _).mpr ⟨start, same⟩, ?_⟩
    exact (matchesTokens_literals ps _ _).mpr ⟨part, back, rfl, all, ends back⟩

end Like

end Sqlite
