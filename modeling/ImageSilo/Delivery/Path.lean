import ImageSilo.Go.URL
import ImageSilo.Platform

/-! `normalizeAliasPath` accepts one canonical spelling of a path and the unescaped spelling of the same
path. -/
namespace ImageSilo.Delivery

open Go

def maxAliasPathBytes : Nat := 2048

inductive PathError
  | invalidAliasPath
  | reservedAliasPath
  deriving DecidableEq

variable (P : Platform)

def isReservedAliasPath (canonical : GoString) : Bool :=
  match pathUnescape canonical with
  | none => true
  | some decoded =>
      decoded == str "/" ||
      [str "/api/v1", str "/admin", str "/assets", str "/brand"].any (fun p =>
        decoded == p || hasPrefix decoded (p ++ str "/")) ||
      decoded == str "/healthz" || decoded == str "/readyz" ||
      (hasPrefix decoded (str "/image/") && (P.parseUUID (trimPrefix decoded (str "/image/"))).isSome)

/-- The characters no alias path may hold, decoded or not. -/
def forbidden : GoString := 0 :: str "\\?#\r\n\t"

/-- The checks on the path as it is written. -/
def acceptsRaw (raw : GoString) : Bool :=
  raw != [] && raw.length ≤ maxAliasPathBytes && hasPrefix raw (str "/") &&
    !hasPrefix raw (str "//") && utf8Valid raw && raw == trimSpace raw && !containsAny raw forbidden

/-- The checks on the decoded path. -/
def acceptsDecoded (decoded : GoString) : Bool :=
  utf8Valid decoded && !decoded.contains percent && !containsAny decoded forbidden &&
    !hasPrefix decoded (str "//") &&
    (split slash decoded).all (fun segment => segment != str "." && segment != str "..") &&
    clean decoded == decoded

def normalizeAliasPath (raw : GoString) : Except PathError GoString :=
  if !acceptsRaw raw then .error .invalidAliasPath
  else
    match pathUnescape raw with
    | none => .error .invalidAliasPath
    | some decoded =>
        if !acceptsDecoded decoded then .error .invalidAliasPath
        else
          let canonical := escapedPath decoded
          if canonical == [] || canonical.length > maxAliasPathBytes then .error .invalidAliasPath
          else if raw.contains percent && raw != canonical then .error .invalidAliasPath
          else if isReservedAliasPath P canonical then .error .reservedAliasPath
          else .ok canonical

variable {P}

/-- Everything an accepted path went through. -/
theorem normalizeAliasPath_ok {raw canonical : GoString}
    (accepted : normalizeAliasPath P raw = .ok canonical) :
    acceptsRaw raw = true ∧ ∃ decoded, pathUnescape raw = some decoded ∧
      acceptsDecoded decoded = true ∧ canonical = escapedPath decoded ∧
      canonical.length ≤ maxAliasPathBytes ∧ isReservedAliasPath P canonical = false := by
  unfold normalizeAliasPath at accepted
  split at accepted
  · cases accepted
  rename_i rawAccepted
  split at accepted
  · cases accepted
  rename_i decoded unescaped
  split at accepted
  · cases accepted
  rename_i decodedAccepted
  simp only at accepted
  split at accepted
  · cases accepted
  rename_i sized
  split at accepted
  · cases accepted
  split at accepted
  · cases accepted
  rename_i unreserved
  cases accepted
  simp only [gt_iff_lt, Bool.or_eq_true, beq_iff_eq, decide_eq_true_eq, not_or, Nat.not_lt] at sized
  exact ⟨by simpa using rawAccepted, decoded, unescaped, by simpa using decodedAccepted, rfl,
    sized.2, by simpa using unreserved⟩

/-- A spelling with a percent sign is accepted only if it is the canonical one. -/
theorem normalizeAliasPath_encoded {raw canonical : GoString}
    (accepted : normalizeAliasPath P raw = .ok canonical) (encoded : percent ∈ raw) :
    ∃ decoded, pathUnescape raw = some decoded ∧ raw = escapedPath decoded := by
  unfold normalizeAliasPath at accepted
  split at accepted
  · cases accepted
  split at accepted
  · cases accepted
  rename_i decoded unescaped
  split at accepted
  · cases accepted
  simp only at accepted
  split at accepted
  · cases accepted
  split at accepted
  · cases accepted
  rename_i same
  refine ⟨decoded, unescaped, ?_⟩
  simpa [encoded] using same

/-- A path that is accepted decodes to one that begins with a single slash. -/
theorem decoded_slash {raw decoded : GoString} (rawAccepted : acceptsRaw raw = true)
    (unescaped : pathUnescape raw = some decoded) : ∃ rest, decoded = slash :: rest := by
  cases raw with
  | nil => simp [acceptsRaw] at rawAccepted
  | cons c rest =>
      have rooted : hasPrefix (c :: rest) (str "/") = true := by
        simp only [acceptsRaw, Bool.and_eq_true] at rawAccepted
        exact rawAccepted.1.1.1.1.2
      obtain rfl : c = slash := by
        change (slash == c && true) = true at rooted
        simp only [Bool.and_true, beq_iff_eq] at rooted
        exact rooted.symm
      rw [pathUnescape_plain (by decide)] at unescaped
      cases unescapedRest : pathUnescape rest with
      | none => simp [unescapedRest] at unescaped
      | some tail =>
          refine ⟨tail, ?_⟩
          simpa [unescapedRest, eq_comm] using unescaped

/-- An escaped path is accepted as it stands when its decoded form was. -/
theorem acceptsRaw_escapedPath {rest : GoString}
    (single : hasPrefix (slash :: rest) (str "//") = false)
    (short : (escapedPath (slash :: rest)).length ≤ maxAliasPathBytes) :
    acceptsRaw (escapedPath (slash :: rest)) = true := by
  have bytes := escapedPath_bytes (slash :: rest)
  have plain : ∀ c ∈ escapedPath (slash :: rest),
      spaceStart c = false ∧ c < 0x80 ∧ (str "\\?#\r\n\t").contains c = false ∧ c ≠ 0 :=
    fun c member => isURLByte_spec c (bytes c member)
  have valid : utf8Valid (escapedPath (slash :: rest)) = true :=
    utf8Valid_ascii fun c member => (plain c member).2.1
  have trimmed : trimSpace (escapedPath (slash :: rest)) = escapedPath (slash :: rest) :=
    trimSpace_of_ends fun c member => (plain c member).1
  have clear : containsAny (escapedPath (slash :: rest)) forbidden = false := by
    rw [containsAny, List.any_eq_false]
    intro c member
    have h := plain c member
    simp only [forbidden, List.contains_cons, Bool.or_eq_true, beq_iff_eq, not_or,
      Bool.not_eq_true]
    exact ⟨h.2.2.2, h.2.2.1⟩
  have notDouble : hasPrefix (escapedPath (slash :: rest)) (str "//") = false := by
    rw [escapedPath_cons_slash]
    have := flatMap_escapeByte_head rest
    change (slash == slash && hasPrefix (rest.flatMap escapeByte) (str "/")) = false
    rw [this]
    exact single
  have rooted : hasPrefix (escapedPath (slash :: rest)) (str "/") = true := by
    rw [escapedPath_cons_slash]
    rfl
  have nonempty : (escapedPath (slash :: rest) != []) = true := by
    rw [escapedPath_cons_slash]
    rfl
  simp only [acceptsRaw, valid, trimmed, clear, notDouble, rooted, nonempty, short, decide_true,
    Bool.and_true, Bool.not_false, beq_self_eq_true]

theorem normalizeAliasPath_idempotent {raw canonical : GoString}
    (accepted : normalizeAliasPath P raw = .ok canonical) :
    normalizeAliasPath P canonical = .ok canonical := by
  obtain ⟨rawAccepted, decoded, unescaped, decodedAccepted, rfl, short, unreserved⟩ :=
    normalizeAliasPath_ok accepted
  obtain ⟨rest, rfl⟩ := decoded_slash rawAccepted unescaped
  have single : hasPrefix (slash :: rest) (str "//") = false := by
    simp only [acceptsDecoded, Bool.and_eq_true, Bool.not_eq_true'] at decodedAccepted
    exact decodedAccepted.1.1.2
  have nonempty : escapedPath (slash :: rest) ≠ [] := by
    rw [escapedPath_cons_slash]
    simp
  unfold normalizeAliasPath
  simp only [acceptsRaw_escapedPath single short, pathUnescape_escapedPath, decodedAccepted,
    unreserved, Bool.not_true, Bool.false_eq_true, if_false, bne_self_eq_false, Bool.and_false]
  rw [if_neg]
  simp [nonempty, short]

/-- The root is reserved, so it is never a result. -/
theorem normalizeAliasPath_ne_root {raw canonical : GoString}
    (accepted : normalizeAliasPath P raw = .ok canonical) : canonical ≠ str "/" := by
  obtain ⟨-, decoded, -, -, -, -, unreserved⟩ := normalizeAliasPath_ok accepted
  rintro rfl
  have reserved : isReservedAliasPath P (str "/") = true := rfl
  rw [reserved] at unreserved
  cases unreserved

end ImageSilo.Delivery
