import ImageSilo.Go.Text

/-! A valid text is the encoding of a list of scalar values, in one way. -/
namespace Go

/-- A code point that is no surrogate. -/
def Scalar (r : Nat) : Prop := r < 0xd800 ∨ (0xe000 ≤ r ∧ r < 0x110000)

def encode (rs : List Nat) : GoString := rs.flatMap encodeRune

theorem byte_lt {a b : UInt8} : (a < b) = (a.toNat < b.toNat) := propext UInt8.lt_iff_toNat_lt

theorem byte_le {a b : UInt8} : (a ≤ b) = (a.toNat ≤ b.toNat) := propext UInt8.le_iff_toNat_le

theorem isContinuation_iff {b : UInt8} :
    isContinuation b = true ↔ 0x80 ≤ b.toNat ∧ b.toNat ≤ 0xbf := by
  simp [isContinuation, byte_le]

theorem toNat_byte {n : Nat} (small : n < 256) : n.toUInt8.toNat = n :=
  Nat.mod_eq_of_lt small

section Decoding

variable {b c d e : UInt8} {rest : GoString}

theorem decodeRune_one (hb : b.toNat < 0x80) : decodeRune (b :: rest) = some (b.toNat, 1) := by
  rw [decodeRune.eq_def]
  exact if_pos (UInt8.lt_iff_toNat_lt.mpr hb)

theorem not_ascii (hb : 0x80 ≤ b.toNat) : ¬ b < 0x80 := by
  rw [UInt8.lt_iff_toNat_lt]
  exact Nat.not_lt.mpr hb

theorem decodeRune_two (hb : 0xc2 ≤ b.toNat ∧ b.toNat ≤ 0xdf) (hc : isContinuation c = true) :
    decodeRune (b :: c :: rest) = some (b.toNat % 0x20 * 0x40 + c.toNat % 0x40, 2) := by
  have high := not_ascii (b := b) (by omega)
  have range : (0xc2 ≤ b && b ≤ 0xdf) = true := by
    simp only [Bool.and_eq_true, decide_eq_true_eq, byte_le]
    exact hb
  rw [decodeRune.eq_def]
  simp only [high, if_false, hc, Bool.not_true, Bool.false_eq_true, range, if_true]

theorem decodeRune_three (hb : 0xe0 ≤ b.toNat ∧ b.toNat ≤ 0xef) (hc : isContinuation c = true)
    (hd : isContinuation d = true) (low : b.toNat = 0xe0 → 0xa0 ≤ c.toNat)
    (high : b.toNat = 0xed → c.toNat ≤ 0x9f) :
    decodeRune (b :: c :: d :: rest) =
      some (b.toNat % 0x10 * 0x1000 + c.toNat % 0x40 * 0x40 + d.toNat % 0x40, 3) := by
  have big := not_ascii (b := b) (by omega)
  have notTwo : (0xc2 ≤ b && b ≤ 0xdf) = false := by
    rw [Bool.and_eq_false_iff]
    right
    rw [decide_eq_false_iff_not, byte_le]
    exact Nat.not_le.mpr (Nat.lt_of_lt_of_le (by decide) hb.1)
  have range : (0xe0 ≤ b && b ≤ 0xef) = true := by
    simp only [Bool.and_eq_true, decide_eq_true_eq, byte_le]
    exact hb
  have fits : ((b == 0xe0 && c < 0xa0) || (b == 0xed && 0x9f < c)) = false := by
    rw [Bool.or_eq_false_iff, Bool.and_eq_false_imp, Bool.and_eq_false_imp]
    simp only [beq_iff_eq, decide_eq_false_iff_not, byte_lt]
    constructor
    · rintro rfl
      exact Nat.not_lt.mpr (low rfl)
    · rintro rfl
      exact Nat.not_lt.mpr (high rfl)
  rw [decodeRune.eq_def]
  simp only [big, if_false, hc, hd, Bool.not_true, Bool.false_eq_true, notTwo, range, if_true, fits]

theorem decodeRune_four (hb : 0xf0 ≤ b.toNat ∧ b.toNat ≤ 0xf4) (hc : isContinuation c = true)
    (hd : isContinuation d = true) (he : isContinuation e = true)
    (low : b.toNat = 0xf0 → 0x90 ≤ c.toNat) (high : b.toNat = 0xf4 → c.toNat ≤ 0x8f) :
    decodeRune (b :: c :: d :: e :: rest) =
      some (b.toNat % 0x08 * 0x40000 + c.toNat % 0x40 * 0x1000 + d.toNat % 0x40 * 0x40 +
        e.toNat % 0x40, 4) := by
  have big := not_ascii (b := b) (by omega)
  have notTwo : (0xc2 ≤ b && b ≤ 0xdf) = false := by
    rw [Bool.and_eq_false_iff]
    right
    rw [decide_eq_false_iff_not, byte_le]
    exact Nat.not_le.mpr (Nat.lt_of_lt_of_le (by decide) hb.1)
  have notThree : (0xe0 ≤ b && b ≤ 0xef) = false := by
    rw [Bool.and_eq_false_iff]
    right
    rw [decide_eq_false_iff_not, byte_le]
    exact Nat.not_le.mpr (Nat.lt_of_lt_of_le (by decide) hb.1)
  have fits : (!isContinuation e || b < 0xf0 || 0xf4 < b || (b == 0xf0 && c < 0x90) ||
      (b == 0xf4 && 0x8f < c)) = false := by
    simp only [he, Bool.not_true, Bool.false_or, Bool.or_eq_false_iff, Bool.and_eq_false_imp,
      beq_iff_eq, decide_eq_false_iff_not, byte_lt]
    refine ⟨⟨⟨Nat.not_lt.mpr hb.1, Nat.not_lt.mpr hb.2⟩, ?_⟩, ?_⟩
    · rintro rfl
      exact Nat.not_lt.mpr (low rfl)
    · rintro rfl
      exact Nat.not_lt.mpr (high rfl)
  rw [decodeRune.eq_def]
  simp only [big, if_false, hc, hd, Bool.not_true, Bool.false_eq_true, notTwo, notThree, fits]

end Decoding

/-- The encoding of a scalar value is read back, whatever follows. -/
theorem decodeRune_encodeRune {r : Nat} (scalar : Scalar r) (rest : GoString) :
    decodeRune (encodeRune r ++ rest) = some (r, (encodeRune r).length) := by
  unfold Scalar at scalar
  unfold encodeRune
  split
  · have b := toNat_byte (n := r) (by omega)
    rw [List.singleton_append, decodeRune_one (by omega), b]
    rfl
  split
  · have b := toNat_byte (n := 0xc0 + r / 0x40) (by omega)
    have c := toNat_byte (n := 0x80 + r % 0x40) (by omega)
    rw [List.cons_append, List.singleton_append,
      decodeRune_two (by omega) (isContinuation_iff.mpr (by omega)), b, c]
    exact congrArg some (Prod.ext (show _ = r by omega) rfl)
  split
  · have b := toNat_byte (n := 0xe0 + r / 0x1000) (by omega)
    have c := toNat_byte (n := 0x80 + r / 0x40 % 0x40) (by omega)
    have d := toNat_byte (n := 0x80 + r % 0x40) (by omega)
    rw [List.cons_append, List.cons_append, List.singleton_append,
      decodeRune_three (by omega) (isContinuation_iff.mpr (by omega))
        (isContinuation_iff.mpr (by omega)) (by omega) (by omega), b, c, d]
    exact congrArg some (Prod.ext (show _ = r by omega) rfl)
  · have b := toNat_byte (n := 0xf0 + r / 0x40000) (by omega)
    have c := toNat_byte (n := 0x80 + r / 0x1000 % 0x40) (by omega)
    have d := toNat_byte (n := 0x80 + r / 0x40 % 0x40) (by omega)
    have e := toNat_byte (n := 0x80 + r % 0x40) (by omega)
    rw [List.cons_append, List.cons_append, List.cons_append, List.singleton_append,
      decodeRune_four (by omega) (isContinuation_iff.mpr (by omega))
        (isContinuation_iff.mpr (by omega)) (isContinuation_iff.mpr (by omega)) (by omega)
        (by omega), b, c, d, e]
    exact congrArg some (Prod.ext (show _ = r by omega) rfl)

/-- The shape of an encoding: a first byte that begins a rune, and continuation bytes. -/
theorem encodeRune_shape {r : Nat} (scalar : Scalar r) :
    ∃ b tail, encodeRune r = b :: tail ∧ isContinuation b = false ∧
      ∀ c ∈ tail, isContinuation c = true := by
  unfold Scalar at scalar
  have lead : ∀ {b : UInt8}, b.toNat < 0x80 ∨ 0xbf < b.toNat → isContinuation b = false := by
    intro b range
    rw [← Bool.not_eq_true, isContinuation_iff]
    omega
  have tail : ∀ n, isContinuation (0x80 + n % 0x40).toUInt8 = true := by
    intro n
    have := toNat_byte (n := 0x80 + n % 0x40) (by omega)
    exact isContinuation_iff.mpr (by omega)
  unfold encodeRune
  split
  · have := toNat_byte (n := r) (by omega)
    exact ⟨_, _, rfl, lead (by omega), by simp⟩
  split
  · have := toNat_byte (n := 0xc0 + r / 0x40) (by omega)
    refine ⟨_, _, rfl, lead (by omega), ?_⟩
    intro c member
    rw [List.mem_singleton.mp member]
    exact tail _
  split
  · have := toNat_byte (n := 0xe0 + r / 0x1000) (by omega)
    refine ⟨_, _, rfl, lead (by omega), ?_⟩
    intro c member
    simp only [List.mem_cons, List.not_mem_nil, or_false] at member
    rcases member with rfl | rfl <;> exact tail _
  · have := toNat_byte (n := 0xf0 + r / 0x40000) (by omega)
    refine ⟨_, _, rfl, lead (by omega), ?_⟩
    intro c member
    simp only [List.mem_cons, List.not_mem_nil, or_false] at member
    rcases member with rfl | rfl | rfl <;> exact tail _

section Reading

theorem scan_append (skipped rest : GoString) : scan skipped.length (skipped ++ rest) = scan 0 rest := by
  induction skipped with
  | nil => rfl
  | cons c skipped ih => exact ih

theorem scan_encodeRune {r : Nat} (scalar : Scalar r) (rest : GoString) :
    scan 0 (encodeRune r ++ rest) = some r :: scan 0 rest := by
  have decoded := decodeRune_encodeRune scalar rest
  obtain ⟨b, tail, shape, -, -⟩ := encodeRune_shape scalar
  rw [shape, List.cons_append] at decoded ⊢
  rw [scan, decoded]
  exact congrArg (some r :: ·) (scan_append tail rest)

theorem scan_encode {rs : List Nat} (scalars : ∀ r ∈ rs, Scalar r) :
    scan 0 (encode rs) = rs.map some := by
  induction rs with
  | nil => rfl
  | cons r rs ih =>
      rw [List.map_cons, ← ih fun s member => scalars s (List.mem_cons_of_mem r member)]
      exact scan_encodeRune (scalars r List.mem_cons_self) (encode rs)

theorem runes_encode {rs : List Nat} (scalars : ∀ r ∈ rs, Scalar r) : runes (encode rs) = rs := by
  unfold runes
  rw [scan_encode scalars, List.map_map]
  exact List.map_id rs

theorem byte_of {n : Nat} {b : UInt8} (same : n = b.toNat) : n.toUInt8 = b := by
  subst same
  simp

/-- What is decoded is an encoding. -/
theorem encodeRune_decodeRune {s : GoString} {r width : Nat}
    (decoded : decodeRune s = some (r, width)) :
    Scalar r ∧ ∃ rest, s = encodeRune r ++ rest ∧ width = (encodeRune r).length := by
  unfold Scalar
  cases s with
  | nil => cases decoded
  | cons b rest =>
      have hb := b.toNat_lt
      rw [decodeRune.eq_def] at decoded
      dsimp only at decoded
      split at decoded
      · rename_i ascii
        rw [byte_lt] at ascii
        have small : b.toNat < 0x80 := ascii
        obtain ⟨rfl, rfl⟩ := Prod.mk.inj (Option.some.inj decoded)
        refine ⟨.inl (by omega), rest, ?_, ?_⟩ <;> simp [encodeRune, small]
      rename_i high
      rw [byte_lt] at high
      have high : ¬ b.toNat < 0x80 := high
      cases rest with
      | nil => cases decoded
      | cons c rest =>
      dsimp only at decoded
      split at decoded
      · cases decoded
      rename_i hc
      rw [Bool.not_eq_true', Bool.not_eq_false, isContinuation_iff] at hc
      split at decoded
      · rename_i two
        simp only [Bool.and_eq_true, decide_eq_true_eq, byte_le] at two
        have two : 0xc2 ≤ b.toNat ∧ b.toNat ≤ 0xdf := two
        obtain ⟨rfl, rfl⟩ := Prod.mk.inj (Option.some.inj decoded)
        have shape : encodeRune (b.toNat % 0x20 * 0x40 + c.toNat % 0x40) = [b, c] := by
          unfold encodeRune
          rw [if_neg (by omega), if_pos (by omega), byte_of (b := b) (by omega),
            byte_of (b := c) (by omega)]
        refine ⟨.inl (by omega), rest, ?_, ?_⟩ <;> rw [shape] <;> rfl
      rename_i notTwo
      simp only [Bool.and_eq_true, decide_eq_true_eq, byte_le] at notTwo
      have notTwo : ¬ (0xc2 ≤ b.toNat ∧ b.toNat ≤ 0xdf) := notTwo
      cases rest with
      | nil => cases decoded
      | cons d rest =>
      dsimp only at decoded
      split at decoded
      · cases decoded
      rename_i hd
      rw [Bool.not_eq_true', Bool.not_eq_false, isContinuation_iff] at hd
      split at decoded
      · rename_i three
        simp only [Bool.and_eq_true, decide_eq_true_eq, byte_le] at three
        have three : 0xe0 ≤ b.toNat ∧ b.toNat ≤ 0xef := three
        split at decoded
        · cases decoded
        rename_i fits
        simp only [Bool.or_eq_true, Bool.and_eq_true, beq_iff_eq, decide_eq_true_eq, byte_lt,
          ← UInt8.toNat_inj] at fits
        have fits : ¬ ((b.toNat = 0xe0 ∧ c.toNat < 0xa0) ∨ (b.toNat = 0xed ∧ 0x9f < c.toNat)) := fits
        obtain ⟨rfl, rfl⟩ := Prod.mk.inj (Option.some.inj decoded)
        have shape : encodeRune
            (b.toNat % 0x10 * 0x1000 + c.toNat % 0x40 * 0x40 + d.toNat % 0x40) = [b, c, d] := by
          unfold encodeRune
          rw [if_neg (by omega), if_neg (by omega), if_pos (by omega), byte_of (b := b) (by omega),
            byte_of (b := c) (by omega), byte_of (b := d) (by omega)]
        refine ⟨by omega, rest, ?_, ?_⟩ <;> rw [shape] <;> rfl
      rename_i notThree
      simp only [Bool.and_eq_true, decide_eq_true_eq, byte_le] at notThree
      have notThree : ¬ (0xe0 ≤ b.toNat ∧ b.toNat ≤ 0xef) := notThree
      cases rest with
      | nil => cases decoded
      | cons e rest =>
      dsimp only at decoded
      split at decoded
      · cases decoded
      rename_i fits
      simp only [Bool.or_eq_true, Bool.and_eq_true, beq_iff_eq, decide_eq_true_eq, byte_lt,
        ← UInt8.toNat_inj, not_or, Bool.not_eq_true', Bool.not_eq_false, isContinuation_iff] at fits
      have fits : ((((0x80 ≤ e.toNat ∧ e.toNat ≤ 0xbf) ∧ ¬ b.toNat < 0xf0) ∧ ¬ 0xf4 < b.toNat) ∧
          ¬ (b.toNat = 0xf0 ∧ c.toNat < 0x90)) ∧ ¬ (b.toNat = 0xf4 ∧ 0x8f < c.toNat) := fits
      obtain ⟨rfl, rfl⟩ := Prod.mk.inj (Option.some.inj decoded)
      have shape : encodeRune (b.toNat % 0x08 * 0x40000 + c.toNat % 0x40 * 0x1000 +
          d.toNat % 0x40 * 0x40 + e.toNat % 0x40) = [b, c, d, e] := by
        unfold encodeRune
        rw [if_neg (by omega), if_neg (by omega), if_neg (by omega), byte_of (b := b) (by omega),
          byte_of (b := c) (by omega), byte_of (b := d) (by omega), byte_of (b := e) (by omega)]
      refine ⟨by omega, rest, ?_, ?_⟩ <;> rw [shape] <;> rfl

/-- A valid text is the encoding of its runes. -/
theorem encode_runes {s : GoString} (valid : utf8Valid s = true) :
    encode (runes s) = s ∧ ∀ r ∈ runes s, Scalar r := by
  have parts : ∀ n, ∀ s : GoString, s.length ≤ n → utf8Valid s = true →
      encode (runes s) = s ∧ ∀ r ∈ runes s, Scalar r := by
    intro n
    induction n with
    | zero =>
        intro s short _
        rw [List.length_eq_zero_iff.mp (Nat.le_zero.mp short)]
        exact ⟨rfl, by simp [runes, scan]⟩
    | succ n ih =>
        intro s short valid
        cases s with
        | nil => exact ⟨rfl, by simp [runes, scan]⟩
        | cons b rest =>
            cases decoded : decodeRune (b :: rest) with
            | none =>
                unfold utf8Valid at valid
                rw [scan, decoded] at valid
                simp at valid
            | some read =>
                obtain ⟨r, width⟩ := read
                obtain ⟨scalar, later, same, -⟩ := encodeRune_decodeRune decoded
                rw [same] at short valid ⊢
                obtain ⟨c, tail, shape, -⟩ := encodeRune_shape scalar
                unfold utf8Valid at valid
                rw [scan_encodeRune scalar, List.all_cons, Option.isSome_some, Bool.true_and] at valid
                have shorter : later.length ≤ n := by
                  rw [shape, List.cons_append, List.length_cons, List.length_append] at short
                  omega
                obtain ⟨whole, scalars⟩ := ih later shorter valid
                have front : runes (encodeRune r ++ later) = r :: runes later := by
                  unfold runes
                  rw [scan_encodeRune scalar]
                  rfl
                rw [front]
                refine ⟨?_, ?_⟩
                · exact congrArg (encodeRune r ++ ·) whole
                · intro s member
                  rcases List.mem_cons.mp member with rfl | there
                  · exact scalar
                  · exact scalars s there
  exact parts s.length s (Nat.le_refl _) valid

theorem runes_scalar (s : GoString) : ∀ r ∈ runes s, Scalar r := by
  have parts : ∀ skip, ∀ r ∈ scan skip s, ∀ n, r = some n → Scalar n := by
    induction s with
    | nil => simp [scan]
    | cons b rest ih =>
        intro skip r member n same
        cases skip with
        | succ skip => exact ih skip r member n same
        | zero =>
            rw [scan] at member
            cases decoded : decodeRune (b :: rest) with
            | none =>
                rw [decoded] at member
                rcases List.mem_cons.mp member with rfl | later
                · cases same
                · exact ih 0 r later n same
            | some read =>
                obtain ⟨first, width⟩ := read
                rw [decoded] at member
                rcases List.mem_cons.mp member with rfl | later
                · cases same
                  exact (encodeRune_decodeRune decoded).1
                · exact ih (width - 1) r later n same
  intro r member
  obtain ⟨read, there, rfl⟩ := List.mem_map.mp member
  cases read with
  | none => exact .inr (by decide)
  | some n => exact parts 0 _ there n rfl

end Reading

section Parts

theorem encode_append (rs ss : List Nat) : encode (rs ++ ss) = encode rs ++ encode ss :=
  List.flatMap_append

/-- The first byte of a text is no continuation byte. -/
theorem encode_head {rs : List Nat} (scalars : ∀ r ∈ rs, Scalar r) {b : UInt8} {rest : GoString}
    (front : encode rs = b :: rest) : isContinuation b = false := by
  cases rs with
  | nil => cases front
  | cons r rs =>
      obtain ⟨c, tail, shape, lead, -⟩ := encodeRune_shape (scalars r List.mem_cons_self)
      have first : encode (r :: rs) = c :: (tail ++ encode rs) := by
        rw [← List.cons_append, ← shape]
        rfl
      rw [first] at front
      obtain ⟨rfl, -⟩ := List.cons.inj front
      exact lead

/-- A text that begins another begins it rune by rune. -/
theorem encode_begins {rs ss : List Nat} (first : ∀ r ∈ rs, Scalar r) (second : ∀ r ∈ ss, Scalar r)
    {rest : GoString} (same : encode rs ++ rest = encode ss) :
    ∃ ts, ss = rs ++ ts ∧ rest = encode ts := by
  induction rs generalizing ss with
  | nil => exact ⟨ss, rfl, same⟩
  | cons r rs ih =>
      have scalar := first r List.mem_cons_self
      have left : encode (r :: rs) ++ rest = encodeRune r ++ (encode rs ++ rest) :=
        List.append_assoc _ _ _
      cases ss with
      | nil =>
          obtain ⟨c, tail, shape, -⟩ := encodeRune_shape scalar
          rw [left, shape] at same
          cases same
      | cons s ss =>
          have right : encode (s :: ss) = encodeRune s ++ encode ss := rfl
          rw [left, right] at same
          have equal : s = r := by
            have read := decodeRune_encodeRune scalar (encode rs ++ rest)
            rw [same, decodeRune_encodeRune (second s List.mem_cons_self)] at read
            exact (Prod.mk.inj (Option.some.inj read)).1
          subst equal
          obtain ⟨ts, rfl, tail⟩ := ih (fun t there => first t (List.mem_cons_of_mem _ there))
            (fun t there => second t (List.mem_cons_of_mem _ there)) (List.append_cancel_left same)
          exact ⟨ts, rfl, tail⟩

/-- A text that occurs in another occurs there rune by rune. -/
theorem encode_occurs {rs ss : List Nat} (nonempty : rs ≠ []) (first : ∀ r ∈ rs, Scalar r)
    (second : ∀ r ∈ ss, Scalar r) (occurs : encode rs <:+: encode ss) : rs <:+: ss := by
  obtain ⟨a, b, same⟩ := occurs
  induction ss generalizing a with
  | nil =>
      have empty := congrArg List.length same
      obtain ⟨r, rs, rfl⟩ := List.exists_cons_of_ne_nil nonempty
      obtain ⟨c, tail, shape, -⟩ := encodeRune_shape (first r List.mem_cons_self)
      simp [encode, shape] at empty
  | cons s ss ih =>
      have scalar := second s List.mem_cons_self
      have right : encode (s :: ss) = encodeRune s ++ encode ss := rfl
      rw [right, List.append_assoc] at same
      rcases List.append_eq_append_iff.mp same with ⟨a', cut, later⟩ | ⟨a', cut, later⟩
      · cases a with
        | nil =>
            rw [List.nil_append, ← right] at same
            obtain ⟨ts, eq, -⟩ := encode_begins first second same
            exact ⟨[], ts, by rw [eq]; rfl⟩
        | cons x a =>
            cases a' with
            | nil =>
                have whole := ih (fun t there => second t (List.mem_cons_of_mem _ there)) []
                  (by simpa using later)
                obtain ⟨l, m, eq⟩ := whole
                exact ⟨s :: l, m, by rw [← eq]; rfl⟩
            | cons y a' =>
                exfalso
                obtain ⟨r, rs, rfl⟩ := List.exists_cons_of_ne_nil nonempty
                obtain ⟨c, tail, shape, lead, -⟩ := encodeRune_shape (first r List.mem_cons_self)
                obtain ⟨d, rest, shape', -, continued⟩ := encodeRune_shape scalar
                have here : y = c := by
                  have front := congrArg List.head? later
                  simpa [encode, shape] using front.symm
                rw [shape'] at cut
                have inside : y ∈ rest := by
                  rw [(List.cons.inj cut).2]
                  simp
                rw [here, ← Bool.not_eq_true] at *
                exact lead (continued _ inside)
      · have whole := ih (fun t there => second t (List.mem_cons_of_mem _ there)) a'
          (by rw [List.append_assoc]; exact later.symm)
        obtain ⟨l, m, eq⟩ := whole
        exact ⟨s :: l, m, by rw [← eq]; rfl⟩

end Parts

end Go
