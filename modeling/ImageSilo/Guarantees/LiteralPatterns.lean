import ImageSilo.Guarantees.Searching

/-! Between two percent signs an escaped text is looked for as it is. -/
namespace ImageSilo.Listing

open Go Sqlite

/-- A byte of ASCII that is neither zero nor a capital letter. -/
def Plain (c : UInt8) : Prop := 0 < c ∧ c < 0x80 ∧ ¬ (0x41 ≤ c ∧ c ≤ 0x5a)

instance : DecidablePred Plain := fun _ => inferInstanceAs (Decidable (_ ∧ _))

/-- What `LIKE` is given for a text. -/
def literalPattern (p : GoString) : GoString := str "%" ++ ImageList.escapeLike p ++ str "%"

theorem codes_ascii {s : GoString} (ascii : ∀ c ∈ s, 0 < c ∧ c < 0x80) :
    codes 0 s = s.map UInt8.toNat := by
  induction s with
  | nil => rfl
  | cons c s ih =>
      obtain ⟨positive, small⟩ := ascii c List.mem_cons_self
      have low : c < 0xc0 := by
        rw [UInt8.lt_iff_toNat_lt] at small ⊢
        exact Nat.lt_trans small (by decide)
      have nonzero : c ≠ 0 := by
        rintro rfl
        exact absurd positive (by decide)
      rw [codes, if_neg nonzero, if_pos low,
        ih fun d member => ascii d (List.mem_cons_of_mem c member)]
      rfl

theorem literalPattern_ascii {p : GoString} (plain : ∀ c ∈ p, Plain c) :
    ∀ c ∈ literalPattern p, 0 < c ∧ c < 0x80 := by
  have sign : ∀ c ∈ str "%", 0 < c ∧ c < 0x80 := by decide +kernel
  intro c member
  unfold literalPattern at member
  rw [ImageList.escapeLike_flatMap, List.mem_append, List.mem_append] at member
  rcases member with (front | inside) | back
  · exact sign c front
  · obtain ⟨d, there, written⟩ := List.mem_flatMap.mp inside
    have here := plain d there
    split at written
    · simp only [List.mem_cons, List.not_mem_nil, or_false] at written
      rcases written with rfl | rfl
      · decide
      · exact ⟨here.1, here.2.1⟩
    · rw [List.mem_singleton.mp written]
      exact ⟨here.1, here.2.1⟩
  · exact sign c back

theorem toNat_escaped (c : UInt8) :
    (if c = 0x5c ∨ c = 0x25 ∨ c = 0x5f then [0x5c, c] else [c]).map UInt8.toNat =
      escapeCode 0x5c c.toNat := by
  have same : (c = 0x5c ∨ c = 0x25 ∨ c = 0x5f) ↔
      (c.toNat = 0x5c ∨ c.toNat = Sqlite.percent ∨ c.toNat = underscore) := by
    rw [← UInt8.toNat_inj, ← UInt8.toNat_inj, ← UInt8.toNat_inj]
    rfl
  unfold escapeCode
  by_cases special : c = 0x5c ∨ c = 0x25 ∨ c = 0x5f
  · rw [if_pos special, if_pos (same.mp special)]
    rfl
  · rw [if_neg special, if_neg (mt same.mpr special)]
    rfl

theorem codes_literalPattern {p : GoString} (plain : ∀ c ∈ p, Plain c) :
    codes 0 (literalPattern p) =
      Sqlite.percent :: (p.map UInt8.toNat).flatMap (escapeCode 0x5c) ++ [Sqlite.percent] := by
  have inside : (ImageList.escapeLike p).map UInt8.toNat =
      (p.map UInt8.toNat).flatMap (escapeCode 0x5c) := by
    rw [ImageList.escapeLike_flatMap, List.map_flatMap, List.flatMap_map]
    congr
    funext c
    exact toNat_escaped c
  rw [codes_ascii (literalPattern_ascii plain)]
  unfold literalPattern
  rw [List.map_append, List.map_append, inside]
  rfl

/-- In lower-case ASCII only a character itself is the same to the database. -/
theorem sameCode_plain {c d : UInt8} (first : Plain c) (second : Plain d) :
    sameCode c.toNat d.toNat = true ↔ c = d := by
  have still : ∀ e : UInt8, Plain e → lowerCode e.toNat = e.toNat := by
    intro e plain
    have upper := plain.2.2
    rw [UInt8.le_iff_toNat_le, UInt8.le_iff_toNat_le] at upper
    exact if_neg upper
  unfold sameCode
  rw [still c first, still d second]
  constructor
  · intro same
    rw [← UInt8.toNat_inj]
    simp only [Bool.or_eq_true, Bool.and_eq_true, beq_iff_eq] at same
    rcases same with equal | ⟨-, equal⟩
    · exact equal
    · exact equal
  · rintro rfl
    rw [beq_self_eq_true, Bool.true_or]

theorem forall₂_plain {p : GoString} {part : GoString} (first : ∀ c ∈ p, Plain c)
    (second : ∀ c ∈ part, Plain c) :
    List.Forall₂ (fun a b => sameCode a b = true) (p.map UInt8.toNat) (part.map UInt8.toNat) ↔
      p = part := by
  rw [List.forall₂_map_left_iff, List.forall₂_map_right_iff]
  constructor
  · intro related
    induction related with
    | nil => rfl
    | cons same _ ih =>
        rw [(sameCode_plain (first _ List.mem_cons_self) (second _ List.mem_cons_self)).mp same,
          ih (fun c member => first c (List.mem_cons_of_mem _ member))
            fun c member => second c (List.mem_cons_of_mem _ member)]
  · rintro rfl
    refine List.forall₂_same.mpr ?_
    intro c member
    exact (sameCode_plain (first c member) (first c member)).mpr rfl

/-- An escaped text is a pattern of single characters between two percent signs, and is found where it is
a part of the text. -/
theorem escaped_is_literal (p t : GoString) (plain : ∀ c ∈ p, Plain c) (text : ∀ c ∈ t, Plain c) :
    tokens 0x5c (codes 0 (literalPattern p)) =
        .many :: p.map (fun c => .literal c.toNat) ++ [.many] ∧
      (like 0x5c (literalPattern p) t = true ↔ p <:+: t) := by
  have ascii : ∀ c ∈ t, 0 < c ∧ c < 0x80 := fun c member => ⟨(text c member).1, (text c member).2.1⟩
  constructor
  · rw [codes_literalPattern plain, List.cons_append, tokens.eq_def]
    simp only [if_true]
    rw [tokens_escaped (by decide), List.map_map]
    rfl
  · unfold like
    rw [codes_literalPattern plain, codes_ascii ascii, matchesCodes_within (by decide)]
    constructor
    · rintro ⟨codes, ⟨front, back, whole⟩, related⟩
      obtain ⟨before, rest, rfl, first, -⟩ := List.map_eq_append_iff.mp whole.symm
      obtain ⟨start, part, rfl, -, rfl⟩ := List.map_eq_append_iff.mp first
      have inside : ∀ c ∈ part, Plain c := by
        intro c member
        exact text c (List.mem_append_left _ (List.mem_append_right _ member))
      rw [(forall₂_plain plain inside).mp related]
      exact ⟨start, rest, rfl⟩
    · intro occurs
      refine ⟨p.map UInt8.toNat, occurs.map UInt8.toNat, ?_⟩
      exact (forall₂_plain plain plain).mpr rfl

theorem escaped_sample : tokens 0x5c (codes 0 (literalPattern (str "a_%\\"))) =
      .many :: (str "a_%\\").map (fun c => .literal c.toNat) ++ [.many] ∧
    (like 0x5c (literalPattern (str "a_%\\")) (str "xa_%\\y") = true ↔
      str "a_%\\" <:+: str "xa_%\\y") :=
  escaped_is_literal (str "a_%\\") (str "xa_%\\y") (by decide +kernel) (by decide +kernel)

end ImageSilo.Listing
