import ImageSilo.Delivery.Path
import Mathlib.Data.List.Basic

/-! A path has the spelling that the server stores and the minimal one that clients send. -/
namespace ImageSilo.Delivery

open Go

variable {P : Platform}

section Canonical

variable {raw raw' canonical canonical' decoded : GoString}

theorem unescape_canonical (accepted : normalizeAliasPath P raw = .ok canonical)
    (unescaped : pathUnescape raw = some decoded) : pathUnescape canonical = some decoded := by
  obtain ⟨-, d, same, -, rfl, -, -⟩ := normalizeAliasPath_ok accepted
  rw [pathUnescape_escapedPath, ← same, unescaped]

/-- One canonical form per path: accepted spellings agree exactly when they decode alike. -/
theorem canonical_unique (accepted : normalizeAliasPath P raw = .ok canonical)
    (accepted' : normalizeAliasPath P raw' = .ok canonical') :
    canonical = canonical' ↔ pathUnescape raw = pathUnescape raw' := by
  obtain ⟨-, d, same, -, rfl, -, -⟩ := normalizeAliasPath_ok accepted
  obtain ⟨-, d', same', -, rfl, -, -⟩ := normalizeAliasPath_ok accepted'
  rw [same, same']
  constructor
  · intro eq
    have := congrArg pathUnescape eq
    rwa [pathUnescape_escapedPath, pathUnescape_escapedPath] at this
  · rintro ⟨⟩
    rfl

end Canonical

/-- The marks that a URI path may hold as they are and that the path mode of `escape` encodes. -/
def marks : GoString := str "!'()*"

/-- The bytes that may stand raw in a path. -/
def rawInPath (c : UInt8) : Bool :=
  isAlphanumeric c || (str "-._~!$&'()*+,;=:@/").contains c

def spellByte (c : UInt8) : GoString :=
  if rawInPath c then [c] else [percent, upperHex (c / 16), upperHex (c % 16)]

/-- The minimal spelling of a decoded path. -/
def minimalSpelling (decoded : GoString) : GoString := decoded.flatMap spellByte

theorem spellByte_unmarked {c : UInt8} (unmarked : c ∉ marks) : spellByte c = escapeByte c := by
  have same : ∀ c : UInt8, marks.contains c = false → spellByte c = escapeByte c :=
    forall_byte (by decide +kernel)
  exact same c (by simpa using unmarked)

theorem spellByte_raw {c : UInt8} (raw : rawInPath c = true) : spellByte c = [c] := if_pos raw

theorem escapeByte_unmarked (c : UInt8) : ∀ d ∈ escapeByte c, d ∉ marks := by
  have none : ∀ c : UInt8, ((escapeByte c).all fun d => !marks.contains d) = true :=
    forall_byte (by decide +kernel)
  intro d member
  simpa using List.all_eq_true.mp (none c) d member

theorem marks_raw {c : UInt8} (mark : c ∈ marks) : rawInPath c = true := by
  have raw : ∀ c : UInt8, marks.contains c = true → rawInPath c = true :=
    forall_byte (by decide +kernel)
  exact raw c (by simpa using mark)

theorem minimalSpelling_raw {decoded : GoString} (raw : ∀ c ∈ decoded, rawInPath c = true) :
    minimalSpelling decoded = decoded := by
  unfold minimalSpelling
  induction decoded with
  | nil => rfl
  | cons c rest ih =>
      rw [List.flatMap_cons, spellByte_raw (raw c List.mem_cons_self),
        ih fun d member => raw d (List.mem_cons_of_mem c member)]
      rfl

theorem minimalSpelling_unmarked {rest : GoString} (unmarked : ∀ c ∈ slash :: rest, c ∉ marks) :
    minimalSpelling (slash :: rest) = escapedPath (slash :: rest) := by
  rw [escapedPath_cons_slash, minimalSpelling, List.flatMap_cons]
  change slash :: rest.flatMap spellByte = _
  rw [List.flatMap_congr fun c member =>
    spellByte_unmarked (unmarked c (List.mem_cons_of_mem slash member))]

theorem unescape_spellByte (c : UInt8) (rest : GoString) (plain : c ≠ percent) :
    pathUnescape (spellByte c ++ rest) = (pathUnescape rest).map (c :: ·) := by
  by_cases raw : rawInPath c = true
  · rw [spellByte_raw raw]
    exact pathUnescape_plain plain rest
  · rw [spellByte_unmarked fun mark => raw (marks_raw mark)]
    exact unescape_escapeByte c rest

theorem unescape_minimalSpelling {decoded : GoString} (plain : percent ∉ decoded) :
    pathUnescape (minimalSpelling decoded) = some decoded := by
  unfold minimalSpelling
  induction decoded with
  | nil => rfl
  | cons c rest ih =>
      obtain ⟨first, others⟩ := not_or.mp (mt List.mem_cons.mpr plain)
      rw [List.flatMap_cons, unescape_spellByte c _ (Ne.symm first), ih others, Option.map_some]

/-- A byte that has to be escaped leaves a percent sign. -/
theorem percent_mem_minimalSpelling {decoded : GoString} {c : UInt8} (member : c ∈ decoded)
    (escaped : rawInPath c = false) : percent ∈ minimalSpelling decoded := by
  refine List.mem_flatMap.mpr ⟨c, member, ?_⟩
  rw [spellByte, if_neg (by simp [escaped])]
  exact List.mem_cons_self

/-- A mixture is not the canonical spelling: that one has no marks. -/
theorem minimalSpelling_ne {rest : GoString} {c : UInt8} (member : c ∈ slash :: rest)
    (mark : c ∈ marks) : minimalSpelling (slash :: rest) ≠ escapedPath (slash :: rest) := by
  intro same
  have there : c ∈ minimalSpelling (slash :: rest) := by
    refine List.mem_flatMap.mpr ⟨c, member, ?_⟩
    rw [spellByte_raw (marks_raw mark)]
    exact List.mem_singleton_self c
  rw [same, escapedPath_cons_slash] at there
  rcases List.mem_cons.mp there with rfl | later
  · exact absurd mark (by decide)
  · obtain ⟨d, -, escaped⟩ := List.mem_flatMap.mp later
    exact escapeByte_unmarked d c escaped mark

/-- Either nothing in the path has to be escaped, or nothing in it is a mark. -/
def Unmixed (decoded : GoString) : Prop :=
  (∀ c ∈ decoded, rawInPath c = true) ∨ ∀ c ∈ decoded, c ∉ marks

theorem resolves_unmixed {decoded canonical : GoString} (plain : percent ∉ decoded)
    (accepted : normalizeAliasPath P decoded = .ok canonical) (unmixed : Unmixed decoded) :
    normalizeAliasPath P (minimalSpelling decoded) = .ok canonical := by
  rcases unmixed with raw | unmarked
  · rw [minimalSpelling_raw raw]
    exact accepted
  · have idempotent := normalizeAliasPath_idempotent accepted
    obtain ⟨rawAccepted, d, unescaped, -, rfl, -, -⟩ := normalizeAliasPath_ok accepted
    obtain rfl : d = decoded := by
      rw [pathUnescape_self plain] at unescaped
      exact (Option.some.inj unescaped).symm
    obtain ⟨rest, rfl⟩ := decoded_slash rawAccepted unescaped
    rw [minimalSpelling_unmarked unmarked]
    exact idempotent

theorem refuses_mixed {decoded canonical : GoString} (plain : percent ∉ decoded)
    (accepted : normalizeAliasPath P decoded = .ok canonical) (mixed : ¬ Unmixed decoded) :
    ∃ e, normalizeAliasPath P (minimalSpelling decoded) = .error e := by
  obtain ⟨needs, marked⟩ := not_or.mp mixed
  push Not at needs marked
  obtain ⟨c, member, escaped⟩ := needs
  obtain ⟨m, there, mark⟩ := marked
  cases resolved : normalizeAliasPath P (minimalSpelling decoded) with
  | error e => exact ⟨e, rfl⟩
  | ok result =>
      obtain ⟨rawAccepted, d, unescaped, -, -⟩ := normalizeAliasPath_ok accepted
      obtain rfl : d = decoded := by
        rw [pathUnescape_self plain] at unescaped
        exact (Option.some.inj unescaped).symm
      obtain ⟨rest, rfl⟩ := decoded_slash rawAccepted unescaped
      have encoded := percent_mem_minimalSpelling member (by simpa using escaped)
      obtain ⟨decoded', same, spelled⟩ := normalizeAliasPath_encoded resolved encoded
      rw [unescape_minimalSpelling plain] at same
      cases same
      exact absurd spelled (minimalSpelling_ne there mark)

end ImageSilo.Delivery
