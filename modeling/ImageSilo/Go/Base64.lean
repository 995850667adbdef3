import ImageSilo.Go.Text

/-! `base64.RawURLEncoding` of the package `encoding/base64`. -/
namespace Go.Base64

def alphabet : GoString :=
  str "ABCDEFGHIJKLMNOPQRSTUVWXYZabcdefghijklmnopqrstuvwxyz0123456789-_"

def symbol (digit : Nat) : UInt8 := alphabet.getD digit 0

def digit? (c : UInt8) : Option Nat := alphabet.idxOf? c

def toDigits : GoString → List Nat
  | [] => []
  | [a] => [a.toNat / 4, a.toNat % 4 * 16]
  | [a, b] => [a.toNat / 4, a.toNat % 4 * 16 + b.toNat / 16, b.toNat % 16 * 4]
  | a :: b :: c :: rest =>
      a.toNat / 4 :: (a.toNat % 4 * 16 + b.toNat / 16) :: (b.toNat % 16 * 4 + c.toNat / 64) ::
        c.toNat % 64 :: toDigits rest

def ofDigits : List Nat → Option GoString
  | [] => some []
  | [_] => none
  | [p, q] => some [(p * 4 + q / 16).toUInt8]
  | [p, q, r] => some [(p * 4 + q / 16).toUInt8, (q % 16 * 16 + r / 4).toUInt8]
  | p :: q :: r :: s :: rest =>
      (ofDigits rest).map fun tail =>
        (p * 4 + q / 16).toUInt8 :: (q % 16 * 16 + r / 4).toUInt8 :: (r % 4 * 64 + s).toUInt8 :: tail

def encode (s : GoString) : GoString := (toDigits s).map symbol

def isLineBreak (c : UInt8) : Bool := c == 0x0a || c == 0x0d

def decode (s : GoString) : Option GoString :=
  ((s.filter fun c => !isLineBreak c).mapM digit?).bind ofDigits

theorem toDigits_small (s : GoString) : ∀ d ∈ toDigits s, d < 64 := by
  induction s using toDigits.induct with
  | case1 => simp [toDigits]
  | case2 a =>
      have := a.toNat_lt
      simp only [toDigits, List.mem_cons, List.not_mem_nil, or_false, forall_eq_or_imp, forall_eq]
      omega
  | case3 a b =>
      have := a.toNat_lt
      have := b.toNat_lt
      simp only [toDigits, List.mem_cons, List.not_mem_nil, or_false, forall_eq_or_imp, forall_eq]
      omega
  | case4 a b c rest ih =>
      have := a.toNat_lt
      have := b.toNat_lt
      have := c.toNat_lt
      simp only [toDigits, List.mem_cons, forall_eq_or_imp]
      refine ⟨by omega, by omega, by omega, by omega, ih⟩

theorem toUInt8_of_eq {n : Nat} {b : UInt8} (same : n = b.toNat) : n.toUInt8 = b := by
  subst same
  simp

theorem ofDigits_toDigits (s : GoString) : ofDigits (toDigits s) = some s := by
  induction s using toDigits.induct with
  | case1 => rfl
  | case2 a =>
      simp only [toDigits, ofDigits]
      rw [toUInt8_of_eq (b := a) (by omega)]
  | case3 a b =>
      have := b.toNat_lt
      simp only [toDigits, ofDigits]
      rw [toUInt8_of_eq (b := a) (by omega), toUInt8_of_eq (b := b) (by omega)]
  | case4 a b c rest ih =>
      have := b.toNat_lt
      have := c.toNat_lt
      simp only [toDigits, ofDigits, ih, Option.map_some]
      rw [toUInt8_of_eq (b := a) (by omega), toUInt8_of_eq (b := b) (by omega),
        toUInt8_of_eq (b := c) (by omega)]

theorem symbols_read : ∀ d < 64, digit? (symbol d) = some d ∧ isLineBreak (symbol d) = false := by
  decide

/-- What is written is read back. -/
theorem decode_encode (s : GoString) : decode (encode s) = some s := by
  have small := toDigits_small s
  have plain : (encode s).filter (fun c => !isLineBreak c) = encode s := by
    rw [List.filter_eq_self]
    intro c member
    obtain ⟨d, there, rfl⟩ := List.mem_map.mp member
    rw [(symbols_read d (small d there)).2]
    rfl
  have digits : ∀ ds : List Nat, (∀ d ∈ ds, d < 64) → (ds.map symbol).mapM digit? = some ds := by
    intro ds
    induction ds with
    | nil => intro; rfl
    | cons d ds ih =>
        intro small
        rw [List.map_cons, List.mapM_cons, (symbols_read d (small d List.mem_cons_self)).1,
          ih fun e member => small e (List.mem_cons_of_mem d member)]
        rfl
  unfold decode
  rw [plain, encode, digits _ small]
  exact ofDigits_toDigits s

theorem length_encode (s : GoString) : 3 * (encode s).length ≤ 4 * s.length + 2 := by
  unfold encode
  rw [List.length_map]
  induction s using toDigits.induct with
  | case1 => simp [toDigits]
  | case2 a => simp [toDigits]
  | case3 a b => simp [toDigits]
  | case4 a b c rest ih =>
      simp only [toDigits, List.length_cons]
      omega

theorem encode_ne_nil {s : GoString} (nonempty : s ≠ []) : encode s ≠ [] := by
  intro empty
  have back := decode_encode s
  rw [empty] at back
  exact nonempty (Option.some.inj back).symm

end Go.Base64
