import ImageSilo.Guarantees.Searching

/-! A conversion replaces the extension of the stored name and sanitizes the result. -/
namespace ImageSilo

open Go Listing

section Trimming

/-- The white space of `unicode.IsSpace` as code points. -/
def spaceRunes : List Nat :=
  [0x09, 0x0a, 0x0b, 0x0c, 0x0d, 0x20, 0x85, 0xa0, 0x1680, 0x2000, 0x2001, 0x2002, 0x2003, 0x2004,
    0x2005, 0x2006, 0x2007, 0x2008, 0x2009, 0x200a, 0x2028, 0x2029, 0x202f, 0x205f, 0x3000]

theorem spaces_encode : spaces = spaceRunes.map encodeRune := by decide

theorem spaceRunes_scalar : ∀ r ∈ spaceRunes, Scalar r := by
  unfold Scalar
  decide

variable {r : Nat} {rs : List Nat}

/-- A white space that a text begins with is its first rune. -/
theorem space_begins (scalars : ∀ s ∈ r :: rs, Scalar s) {c : Nat} (space : c ∈ spaceRunes)
    (begins : (encodeRune c).isPrefixOf (encode (r :: rs)) = true) : c = r := by
  obtain ⟨rest, same⟩ := List.isPrefixOf_iff_prefix.mp begins
  have single : encode [c] ++ rest = encode (r :: rs) := by
    rw [← same]
    exact congrArg (· ++ rest) (List.append_nil _)
  obtain ⟨ts, eq, -⟩ := encode_begins
    (by simpa using spaceRunes_scalar c space) scalars single
  exact (List.cons.inj eq).1.symm

theorem trimPrefixes_encode (scalars : ∀ s ∈ rs, Scalar s) {fuel : Nat}
    (enough : (encode rs).length ≤ fuel) : trimPrefixes spaces fuel (encode rs) =
      encode (rs.dropWhile fun r => spaceRunes.contains r) := by
  induction rs generalizing fuel with
  | nil =>
      have stop : (spaces.find? fun code => code.isPrefixOf (encode [])) = none := by decide
      cases fuel with
      | zero => rfl
      | succ fuel =>
          rw [trimPrefixes, stop]
          rfl
  | cons r rs ih =>
      have later : ∀ s ∈ rs, Scalar s := fun s member => scalars s (List.mem_cons_of_mem r member)
      have split : encode (r :: rs) = encodeRune r ++ encode rs := rfl
      obtain ⟨b, tail, shape, -⟩ := encodeRune_shape (scalars r List.mem_cons_self)
      obtain ⟨fuel, rfl⟩ : ∃ n, fuel = n + 1 := by
        refine Nat.exists_eq_add_one.mpr ?_
        rw [split, shape] at enough
        simp only [List.cons_append, List.length_cons] at enough
        omega
      rw [trimPrefixes]
      by_cases space : r ∈ spaceRunes
      · have found : (spaces.find? fun code => code.isPrefixOf (encode (r :: rs))) =
            some (encodeRune r) := by
          cases there : spaces.find? fun code => code.isPrefixOf (encode (r :: rs)) with
          | none =>
              have absent := List.find?_eq_none.mp there (encodeRune r)
                (by rw [spaces_encode]; exact List.mem_map_of_mem space)
              rw [split] at absent
              exact absurd (List.isPrefixOf_iff_prefix.mpr (List.prefix_append _ _)) absent
          | some code =>
              have member := List.mem_of_find?_eq_some there
              have begins : code.isPrefixOf (encode (r :: rs)) = true := by
                have told := List.find?_some there
                exact told
              rw [spaces_encode] at member
              obtain ⟨c, space', rfl⟩ := List.mem_map.mp member
              rw [space_begins scalars space' begins]
        rw [found, List.dropWhile_cons_of_pos (by simpa using space)]
        simp only [split, List.drop_left]
        refine ih later ?_
        rw [split, shape, List.length_append, List.length_cons] at enough
        omega
      · have stop : (spaces.find? fun code => code.isPrefixOf (encode (r :: rs))) = none := by
          rw [List.find?_eq_none]
          intro code member begins
          rw [spaces_encode] at member
          obtain ⟨c, space', rfl⟩ := List.mem_map.mp member
          rw [space_begins scalars space' begins] at space'
          exact space space'
        rw [stop, List.dropWhile_cons_of_neg (by simpa using space)]

/-- Text that ends with a plain byte loses the white space at its front only. -/
theorem trimSpace_encode {s : GoString} {b : UInt8} (scalars : ∀ s ∈ rs, Scalar s)
    (ends : encode (rs.dropWhile fun r => spaceRunes.contains r) = s ++ [b])
    (plain : spaceStart b = false) :
    trimSpace (encode rs) = encode (rs.dropWhile fun r => spaceRunes.contains r) := by
  unfold trimSpace
  rw [trimPrefixes_encode scalars le_rfl, ends]
  have reversed : (s ++ [b]).reverse = b :: s.reverse := by simp
  simp only [reversed, trimPrefixes_of_head spaces_stop plain, List.reverse_cons,
    List.reverse_reverse]

end Trimming

def webpExtension : GoString := str ".webp"

/-- The name without its extension, or the name that stands for an empty one. -/
def baseName (name : GoString) : GoString :=
  let stem := name.take (name.length - (ext name).length)
  if stem = [] then str "image" else stem

/-- A file name for the new format that keeps the base name but for what 255 runes have no room for. -/
structure NamesWebp (name result : GoString) : Prop where
  nonempty : result ≠ []
  length : (runes result).length ≤ 255
  plain : ∀ r ∈ runes result, excluded r = false
  extension : webpExtension <:+ result
  base : ∃ kept, runes result = kept ++ runes webpExtension ∧ kept <+: runes (baseName name) ∧
    (kept = runes (baseName name) ∨ (runes result).length = 255)

/-- The base name leaves room for the extension and does not begin with white space. -/
def Extensible (name : GoString) : Prop :=
  (runes (baseName name)).length ≤ 250 ∧ ∀ r ∈ (runes (baseName name)).head?, r ∉ spaceRunes

section Stems

variable {rs ss tail : List Nat}

theorem ext_dot {a b : GoString} (slashless : slash ∉ a ++ 0x2e :: b) (dotless : (0x2e : UInt8) ∉ b) :
    ext (a ++ 0x2e :: b) = 0x2e :: b := by
  have all : ∀ c ∈ (a ++ 0x2e :: b).reverse, (c != slash) = true := by
    intro c member
    rw [bne_iff_ne]
    rintro rfl
    exact slashless (List.mem_reverse.mp member)
  have last := List.takeWhile_eq_self_iff.mpr all
  have reversed : (a ++ 0x2e :: b).reverse = b.reverse ++ 0x2e :: a.reverse := by simp
  have suffix : (b.reverse ++ 0x2e :: a.reverse).takeWhile (fun c => c != 0x2e) = b.reverse := by
    rw [List.takeWhile_append_of_pos, List.takeWhile_cons_of_neg (by simp), List.append_nil]
    intro c member
    rw [bne_iff_ne]
    rintro rfl
    exact dotless (List.mem_reverse.mp member)
  rw [reversed] at last
  unfold ext
  simp only [reversed, last, suffix, List.length_append, List.length_cons]
  rw [if_pos (by omega), List.reverse_reverse]

theorem ext_none {a : GoString} (dotless : (0x2e : UInt8) ∉ a) : ext a = [] := by
  have all : ∀ c ∈ (a.reverse.takeWhile fun c => c != slash), (c != 0x2e) = true := by
    intro c member
    rw [bne_iff_ne]
    rintro rfl
    exact dotless (List.mem_reverse.mp ((List.takeWhile_prefix _).subset member))
  have whole := List.takeWhile_eq_self_iff.mpr all
  unfold ext
  simp only [whole]
  rw [if_neg (lt_irrefl _)]

/-- What a stored name looks like. -/
structure StoredName (name : GoString) (rs : List Nat) : Prop where
  text : name = encode rs
  scalars : ∀ r ∈ rs, Scalar r
  plain : ∀ r ∈ rs, excluded r = false
  short : rs.length ≤ 255

theorem stored_name {raw name : GoString} (sanitized : sanitizeOriginalName raw = name) :
    ∃ rs, StoredName name rs := by
  subst sanitized
  obtain ⟨rs, text, kept, short⟩ := sanitized_runes (show sanitizeOriginalName raw = _ from rfl)
  exact ⟨rs, text, fun r member => (kept r member).1, fun r member => (kept r member).2, short⟩

/-- The base name in runes: what stands before the last dot. -/
theorem StoredName.stem {name : GoString} (stored : StoredName name rs) :
    ∃ ss, baseName name = encode ss ∧ (∀ r ∈ ss, Scalar r) ∧ (∀ r ∈ ss, excluded r = false) ∧
      ss.length ≤ 255 ∧ (ss.length = 255 → 0x2e ∉ ss) := by
  have image : ∃ ss, str "image" = encode ss ∧ (∀ r ∈ ss, Scalar r) ∧
      (∀ r ∈ ss, excluded r = false) ∧ ss.length ≤ 255 ∧ (ss.length = 255 → 0x2e ∉ ss) := by
    refine ⟨[0x69, 0x6d, 0x61, 0x67, 0x65], rfl, ?_, by decide, by decide, by decide⟩
    unfold Scalar
    decide
  have slashless : slash ∉ name := by
    intro member
    rw [stored.text] at member
    have := stored.plain _ (ascii_of_encode stored.scalars (by decide) member)
    cases this
  by_cases dotted : 0x2e ∈ rs
  · -- cut at the last dot
    obtain ⟨back, front, reversed, dotless⟩ :=
      List.eq_append_cons_of_mem (List.mem_reverse.mpr dotted)
    have whole : rs = front.reverse ++ 0x2e :: back.reverse := by
      rw [← List.reverse_reverse rs, reversed]
      simp
    have front_scalars : ∀ r ∈ front.reverse, Scalar r :=
      fun r member => stored.scalars r (by rw [whole]; exact List.mem_append_left _ member)
    have back_scalars : ∀ r ∈ back.reverse, Scalar r := fun r member =>
      stored.scalars r (by rw [whole]; exact List.mem_append_right _ (List.mem_cons_of_mem _ member))
    have text : name = encode front.reverse ++ 0x2e :: encode back.reverse := by
      rw [stored.text, whole, encode_append]
      rfl
    have suffix : ext name = 0x2e :: encode back.reverse := by
      rw [text] at slashless ⊢
      refine ext_dot slashless ?_
      intro member
      have there := ascii_of_encode back_scalars (by decide) member
      exact dotless (List.mem_reverse.mp there)
    have stem : name.take (name.length - (ext name).length) = encode front.reverse := by
      have count : name.length - (ext name).length = (encode front.reverse).length := by
        rw [suffix, text, List.length_append]
        omega
      rw [count, text, List.take_left]
    by_cases empty : front = []
    · have none : baseName name = str "image" := by
        unfold baseName
        rw [stem, empty]
        rfl
      rw [none]
      exact image
    · have some : baseName name = encode front.reverse := by
        unfold baseName
        rw [stem, if_neg]
        intro nothing
        have count := congrArg runes nothing
        rw [runes_encode front_scalars] at count
        exact empty (List.reverse_eq_nil_iff.mp count)
      have length := stored.short
      rw [whole, List.length_append, List.length_cons] at length
      refine ⟨front.reverse, some, front_scalars, ?_, by omega, by omega⟩
      intro r member
      exact stored.plain r (by rw [whole]; exact List.mem_append_left _ member)
  · have dotless : (0x2e : UInt8) ∉ name := by
      intro member
      rw [stored.text] at member
      exact dotted (ascii_of_encode stored.scalars (by decide) member)
    by_cases empty : rs = []
    · have none : baseName name = str "image" := by
        rw [stored.text, empty]
        rfl
      rw [none]
      exact image
    · have some : baseName name = encode rs := by
        unfold baseName
        rw [ext_none dotless, List.length_nil, Nat.sub_zero, List.take_length, if_neg, stored.text]
        intro nothing
        rw [stored.text] at nothing
        have count := congrArg runes nothing
        rw [runes_encode stored.scalars] at count
        exact empty count
      exact ⟨rs, some, stored.scalars, stored.plain, stored.short, fun _ => dotted⟩

end Stems

section Conversion

variable {ss : List Nat}

def webpRunes : List Nat := [0x2e, 0x77, 0x65, 0x62, 0x70]

theorem webp_encode : webpExtension = encode webpRunes := by decide

theorem webpRunes_scalar : ∀ r ∈ webpRunes, Scalar r := by
  unfold Scalar
  decide

theorem webpRunes_plain : ∀ r ∈ webpRunes, excluded r = false := by decide

/-- The base name as it is stored: without the white space at its front. -/
def kept (ss : List Nat) : List Nat := ss.dropWhile fun r => spaceRunes.contains r

theorem kept_suffix (ss : List Nat) : kept ss <:+ ss := List.dropWhile_suffix _

theorem dropWhile_webp (ss : List Nat) :
    (ss ++ webpRunes).dropWhile (fun r => spaceRunes.contains r) = kept ss ++ webpRunes := by
  rw [List.dropWhile_append]
  split
  · rename_i empty
    rw [kept, List.isEmpty_iff.mp empty]
    rfl
  · rfl

/-- What a conversion names the image. -/
theorem replaceExtension_encode {name : GoString} (base : baseName name = encode ss)
    (scalars : ∀ r ∈ ss, Scalar r) (plain : ∀ r ∈ ss, excluded r = false) :
    replaceExtension name webpExtension = encode ((kept ss ++ webpRunes).take 255) := by
  have all : ∀ r ∈ ss ++ webpRunes, Scalar r := by
    intro r member
    rcases List.mem_append.mp member with there | there
    · exact scalars r there
    · exact webpRunes_scalar r there
  have sub : ∀ r ∈ kept ss ++ webpRunes, r ∈ ss ++ webpRunes := by
    intro r member
    rcases List.mem_append.mp member with there | there
    · exact List.mem_append_left _ ((kept_suffix ss).subset there)
    · exact List.mem_append_right _ there
  have scalars' : ∀ r ∈ kept ss ++ webpRunes, Scalar r := fun r member => all r (sub r member)
  have plain' : ∀ r ∈ kept ss ++ webpRunes, excluded r = false := by
    intro r member
    rcases List.mem_append.mp (sub r member) with there | there
    · exact plain r there
    · exact webpRunes_plain r there
  have ends : encode ((ss ++ webpRunes).dropWhile fun r => spaceRunes.contains r) =
      (encode (kept ss) ++ str ".web") ++ [0x70] := by
    rw [dropWhile_webp, encode_append, List.append_assoc]
    rfl
  have trimmed : trimSpace (baseName name ++ webpExtension) = encode (kept ss ++ webpRunes) := by
    rw [base, webp_encode, ← encode_append, trimSpace_encode all ends (by decide), dropWhile_webp]
  have nonempty : encode (kept ss ++ webpRunes) ≠ [] := by
    rw [encode_append]
    simp [encode, webpRunes, encodeRune]
  have slashless : slash ∉ encode (kept ss ++ webpRunes) := by
    intro member
    have := plain' _ (ascii_of_encode scalars' (by decide) member)
    cases this
  have filtered : (runes (encode (kept ss ++ webpRunes))).filter
      (fun r => !(isControl r || r == 0x2f || r == 0x5c)) = kept ss ++ webpRunes := by
    rw [runes_encode scalars', List.filter_eq_self]
    intro r member
    have := plain' r member
    unfold excluded at this
    rw [this]
    rfl
  have dotless : encode (kept ss ++ webpRunes) ≠ str "." := by
    intro same
    have count := congrArg List.length same
    rw [encode_append, List.length_append] at count
    have five : (encode webpRunes).length = 5 := by decide
    have one : (str ".").length = 1 := by decide
    omega
  change sanitizeOriginalName (baseName name ++ webpExtension) = _
  unfold sanitizeOriginalName
  rw [trimmed, base_of_slashless nonempty slashless]
  dsimp only
  rw [filtered]
  exact if_neg (not_or.mpr ⟨nonempty, dotless⟩)

theorem kept_self_iff : kept ss = ss ↔ ∀ r ∈ ss.head?, r ∉ spaceRunes := by
  unfold kept
  cases ss with
  | nil => simp
  | cons r ss =>
      by_cases space : r ∈ spaceRunes
      · rw [List.dropWhile_cons_of_pos (by simpa using space)]
        refine iff_of_false ?_ fun plain => plain r rfl space
        intro same
        have shorter := (List.dropWhile_suffix (l := ss) fun r => spaceRunes.contains r).length_le
        rw [same, List.length_cons] at shorter
        omega
      · rw [List.dropWhile_cons_of_neg (by simpa using space)]
        refine iff_of_true rfl ?_
        rintro s ⟨⟩
        exact space

/-- The text after a cut that takes something of the extension ends otherwise. -/
theorem cut_extension {us front : List Nat} {n : Nat} (short : n < 5)
    (same : us ++ webpRunes.take n = front ++ webpRunes) : n = 0 ∧ us = front ++ webpRunes := by
  have lasts := congrArg List.getLast? same
  rw [List.getLast?_append_of_ne_nil _ (by decide : webpRunes ≠ [])] at lasts
  cases n with
  | zero =>
      rw [List.take_zero, List.append_nil] at same
      exact ⟨rfl, same⟩
  | succ n =>
      have cut : webpRunes.take (n + 1) ≠ [] := by simp [webpRunes]
      rw [List.getLast?_append_of_ne_nil _ cut] at lasts
      have four : n = 0 ∨ n = 1 ∨ n = 2 ∨ n = 3 := by omega
      rcases four with rfl | rfl | rfl | rfl <;> cases lasts

theorem converted_iff {name result : GoString} (base : baseName name = encode ss)
    (scalars : ∀ r ∈ ss, Scalar r) (plain : ∀ r ∈ ss, excluded r = false)
    (short : ss.length ≤ 255) (dotless : ss.length = 255 → 0x2e ∉ ss)
    (converted : result = encode ((kept ss ++ webpRunes).take 255)) :
    NamesWebp name result ↔ Extensible name := by
  have scalars' : ∀ r ∈ (kept ss ++ webpRunes).take 255, Scalar r := by
    intro r member
    rcases List.mem_append.mp (List.mem_of_mem_take member) with there | there
    · exact scalars r ((kept_suffix ss).subset there)
    · exact webpRunes_scalar r there
  have stored : runes result = (kept ss ++ webpRunes).take 255 := by
    rw [converted, runes_encode scalars']
  have stem : runes (baseName name) = ss := by rw [base, runes_encode scalars]
  have extension : runes webpExtension = webpRunes := by decide
  have shorter := (kept_suffix ss).length_le
  unfold Extensible
  rw [stem, ← kept_self_iff]
  constructor
  · intro names
    obtain ⟨front, whole, begins, rest⟩ := names.base
    rw [stored, extension] at whole
    rw [stored, stem] at rest
    rw [stem] at begins
    rw [List.take_append] at whole
    by_cases fits : (kept ss).length ≤ 250
    · rw [List.take_of_length_le (by omega),
        List.take_of_length_le (show webpRunes.length ≤ 255 - (kept ss).length by
          have five : webpRunes.length = 5 := rfl
          omega)] at whole
      have same := List.append_cancel_right whole
      rw [← same] at rest begins
      rcases rest with all | full
      · exact ⟨all ▸ fits, all⟩
      · -- 250 runes are left of the base name, so nothing but white space can be missing in front
        have count : (kept ss).length = 250 := by
          rw [List.length_take, List.length_append] at full
          have five : webpRunes.length = 5 := rfl
          omega
        obtain ⟨t, split⟩ := begins
        obtain ⟨r, us, first⟩ : ∃ r us, kept ss = r :: us := by
          refine List.exists_cons_of_ne_nil ?_
          intro none
          rw [none] at count
          cases count
        have solid : r ∉ spaceRunes := by
          have told := List.head?_dropWhile_not (fun r => spaceRunes.contains r) ss
          rw [show ss.dropWhile (fun r => spaceRunes.contains r) = r :: us from first] at told
          simpa using told
        have all : kept ss = ss := by
          rw [kept_self_iff, ← split, first]
          rintro s ⟨⟩
          exact solid
        exact ⟨all ▸ fits, all⟩
    · have few : 255 - (kept ss).length < 5 := by omega
      rw [List.take_of_length_le (by omega)] at whole
      obtain ⟨zero, eq⟩ := cut_extension few whole
      -- the base name is the whole name, and has no dot
      have all : kept ss = ss := (kept_suffix ss).eq_of_length (by omega)
      refine absurd ?_ (dotless (by omega))
      rw [← all, eq]
      simp [webpRunes]
  · rintro ⟨room, whole⟩
    have taken : (kept ss ++ webpRunes).take 255 = ss ++ webpRunes := by
      rw [whole, List.take_of_length_le]
      rw [List.length_append]
      have five : webpRunes.length = 5 := rfl
      omega
    rw [taken] at stored converted
    refine ⟨?_, ?_, ?_, ?_, ?_⟩
    · intro none
      rw [none] at stored
      have count := congrArg List.length stored
      rw [List.length_append] at count
      have five : webpRunes.length = 5 := rfl
      have zero : (runes []).length = 0 := rfl
      omega
    · rw [stored, List.length_append]
      have five : webpRunes.length = 5 := rfl
      omega
    · intro r member
      rw [stored] at member
      rcases List.mem_append.mp member with there | there
      · exact plain r there
      · exact webpRunes_plain r there
    · rw [converted, encode_append, webp_encode]
      exact List.suffix_append _ _
    · exact ⟨ss, by rw [stored, extension], by rw [stem], .inl stem.symm⟩

/-- The stored name of a converted image is a name for the new format exactly when the base name is not
longer than 250 runes and does not begin with white space. -/
theorem converted_name_iff (raw name : GoString) (sanitized : sanitizeOriginalName raw = name) :
    NamesWebp name (replaceExtension name webpExtension) ↔ Extensible name := by
  obtain ⟨rs, stored⟩ := stored_name sanitized
  obtain ⟨ss, base, scalars, plain, short, dotless⟩ := stored.stem
  exact converted_iff base scalars plain short dotless
    (replaceExtension_encode base scalars plain)

theorem converted_name_sample : NamesWebp (str "a.png") (str "a.webp") := by
  have sanitized : sanitizeOriginalName (str "a.png") = str "a.png" := by decide +kernel
  have renamed : replaceExtension (str "a.png") webpExtension = str "a.webp" := by decide +kernel
  rw [← renamed]
  refine (converted_name_iff _ _ sanitized).mpr ⟨by decide +kernel, ?_⟩
  intro r first
  obtain rfl : 0x61 = r := by
    have head : (runes (baseName (str "a.png"))).head? = some 0x61 := by decide +kernel
    rw [head] at first
    exact Option.some.inj first
  decide

/-- A name of 255 runes keeps none of its new extension. -/
theorem long_name_loses_extension : ¬ ∀ raw name, sanitizeOriginalName raw = name →
    NamesWebp name (replaceExtension name webpExtension) := by
  intro claim
  have sanitized : sanitizeOriginalName (List.replicate 255 0x61) = List.replicate 255 0x61 := by
    decide +kernel
  have suffix := (claim _ _ sanitized).extension
  have kept : replaceExtension (List.replicate 255 0x61) webpExtension = List.replicate 255 0x61 := by
    decide +kernel
  rw [kept] at suffix
  exact absurd suffix (by decide +kernel)

end Conversion

end ImageSilo
