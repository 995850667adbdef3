import ImageSilo.Markdown.Inlines

/-! What is read as one inline ends in a backtick, an angle bracket or a parenthesis. -/
namespace Markdown

open Go

section Steps

variable {s rest beyond : GoString} {c d : UInt8}

theorem expect_some : expect c s = some rest ↔ s = c :: rest := by
  cases s with
  | nil => simp [expect]
  | cons d s =>
      unfold expect
      split
      · rename_i same
        simp [same]
      · rename_i differ
        simp [differ]

theorem skipWhitespace_suffix (s : GoString) : skipWhitespace s <:+ s := by
  have blank := List.dropWhile_suffix isBlank (l := s)
  unfold skipWhitespace
  split
  · rename_i rest found
    rw [expect_some] at found
    have tail : rest <:+ s.dropWhile isBlank := by
      rw [found]
      exact List.suffix_cons newline rest
    exact (List.dropWhile_suffix isBlank).trans (tail.trans blank)
  · exact blank

/-- The text before has one character `d` more than what was read so far. -/
def Ends (d : UInt8) (s beyond : GoString) : Prop := ∃ x, s = x ++ d :: beyond

theorem Ends.suffix {t : GoString} (ends : Ends d t beyond) (part : t <:+ s) : Ends d s beyond := by
  obtain ⟨x, rfl⟩ := ends
  obtain ⟨y, rfl⟩ := part
  exact ⟨y ++ x, by rw [List.append_assoc]⟩

theorem ends_expect (found : expect d s = some beyond) : Ends d s beyond := ⟨[], expect_some.mp found⟩

theorem ends_dropWhile {p : UInt8 → Bool} (found : expect d (s.dropWhile p) = some beyond) :
    Ends d s beyond :=
  (ends_expect found).suffix (List.dropWhile_suffix p)

theorem ends_whitespace (found : expect d (skipWhitespace s) = some beyond) : Ends d s beyond :=
  (ends_expect found).suffix (skipWhitespace_suffix s)

theorem ends_after {mark : GoString} (found : after (mark ++ [d]) s = some beyond) :
    Ends d s beyond := by
  induction s with
  | nil => cases found
  | cons c s ih =>
      unfold after at found
      split at found
      · rename_i front
        obtain ⟨x, same⟩ := List.isPrefixOf_iff_prefix.mp front
        rw [← same] at found ⊢
        rw [List.drop_left, Option.some.injEq] at found
        rw [← found]
        exact ⟨mark, by rw [List.append_assoc, List.singleton_append]⟩
      · exact (ih found).suffix (List.suffix_cons c s)

end Steps

section Angles

variable {s beyond : GoString}

theorem uriAutolink_ends (found : uriAutolink s = some beyond) : Ends greater s beyond := by
  unfold uriAutolink at found
  dsimp only at found
  split at found
  · obtain ⟨rest, colon, found⟩ := Option.bind_eq_some_iff.mp found
    have part := (ends_dropWhile colon)
    obtain ⟨x, same⟩ := part
    refine (ends_dropWhile found).suffix ?_
    rw [same]
    exact (List.suffix_cons _ rest).trans (List.suffix_append x _)
  · cases found

theorem emailAutolink_ends (found : emailAutolink s = some beyond) : Ends greater s beyond := by
  unfold emailAutolink at found
  split at found
  · cases found
  · obtain ⟨rest, sign, found⟩ := Option.bind_eq_some_iff.mp found
    obtain ⟨x, same⟩ := ends_dropWhile sign
    split at found
    · refine (ends_dropWhile found).suffix ?_
      rw [same]
      exact (List.suffix_cons _ rest).trans (List.suffix_append x _)
    · cases found

theorem tagName_suffix (found : tagName s = some beyond) : beyond <:+ s := by
  unfold tagName at found
  split at found
  · rw [← Option.some.inj found]
    exact List.dropWhile_suffix _
  · cases found

theorem attributeValue_suffix (found : attributeValue s = some beyond) : beyond <:+ s := by
  cases s with
  | nil => cases found
  | cons c s =>
      unfold attributeValue at found
      dsimp only at found
      split at found
      · obtain ⟨x, rfl⟩ := ends_dropWhile found
        exact (List.suffix_cons _ beyond).trans ((List.suffix_append x _).trans (List.suffix_cons c _))
      · split at found
        · rw [← Option.some.inj found]
          exact (List.dropWhile_suffix _).trans (List.suffix_cons c s)
        · cases found

theorem tagAttribute_suffix (found : tagAttribute s = some beyond) : beyond <:+ s := by
  obtain ⟨rest, named, found⟩ := Option.bind_eq_some_iff.mp found
  have part : rest <:+ s := by
    unfold attributeName at named
    split at named
    · rw [← Option.some.inj named]
      exact List.dropWhile_suffix _
    · cases named
  split at found
  · rename_i value sign
    obtain ⟨x, rfl⟩ := ends_whitespace sign
    have tail : value <:+ s :=
      (List.suffix_cons _ value).trans ((List.suffix_append x _).trans part)
    exact (attributeValue_suffix found).trans ((skipWhitespace_suffix value).trans tail)
  · rwa [← Option.some.inj found]

theorem attributes_suffix (fuel : Nat) (s : GoString) : attributes fuel s <:+ s := by
  induction fuel generalizing s with
  | zero => exact List.suffix_refl s
  | succ fuel ih =>
      unfold attributes
      split
      · exact List.suffix_refl s
      · split
        · rename_i rest found
          exact (ih rest).trans ((tagAttribute_suffix found).trans (skipWhitespace_suffix s))
        · exact List.suffix_refl s

theorem openTag_ends (found : openTag s = some beyond) : Ends greater s beyond := by
  obtain ⟨rest, named, found⟩ := Option.bind_eq_some_iff.mp found
  dsimp only at found
  have part := (skipWhitespace_suffix (attributes rest.length rest)).trans
    ((attributes_suffix rest.length rest).trans (tagName_suffix named))
  cases solidus : expect 0x2f (skipWhitespace (attributes rest.length rest)) with
  | none =>
      rw [solidus] at found
      exact (ends_expect found).suffix part
  | some tail =>
      rw [solidus] at found
      have later : tail <:+ skipWhitespace (attributes rest.length rest) := by
        rw [expect_some.mp solidus]
        exact List.suffix_cons _ tail
      exact (ends_expect found).suffix (later.trans part)

theorem closingTag_ends (found : closingTag s = some beyond) : Ends greater s beyond := by
  obtain ⟨rest, named, found⟩ := Option.bind_eq_some_iff.mp found
  exact (ends_whitespace found).suffix (tagName_suffix named)

theorem ends_front {mark : GoString} {d : UInt8} (front : hasPrefix s (mark ++ [d]) = true) :
    Ends d s (s.drop (mark.length + 1)) := by
  obtain ⟨x, rfl⟩ := List.isPrefixOf_iff_prefix.mp front
  refine ⟨mark, ?_⟩
  rw [show mark.length + 1 = (mark ++ [d]).length by simp, List.drop_left, List.append_assoc,
    List.singleton_append]

theorem comment_ends (found : comment s = some beyond) : Ends greater s beyond := by
  unfold comment at found
  split at found
  · rename_i front
    rw [← Option.some.inj found]
    exact @ends_front s [] greater front
  · split at found
    · rename_i front
      rw [← Option.some.inj found]
      exact @ends_front s (str "-") greater front
    · exact @ends_after s beyond greater (str "--") found

theorem html_ends (found : html s = some beyond) : Ends greater s beyond := by
  unfold html at found
  split at found
  · exact (comment_ends found).suffix (List.drop_suffix 3 s)
  · split at found
    · exact (@ends_after _ beyond greater (str "?") found).suffix (List.drop_suffix 1 s)
    · split at found
      · exact (@ends_after _ beyond greater (str "]]") found).suffix (List.drop_suffix 8 s)
      · split at found
        · split at found
          · exact (@ends_after _ beyond greater [] found).suffix (List.drop_suffix 1 s)
          · cases found
        · split at found
          · exact (closingTag_ends found).suffix (List.drop_suffix 1 s)
          · exact openTag_ends found

theorem angle_ends (found : angle s = some beyond) : Ends greater s beyond := by
  unfold angle at found
  cases uri : uriAutolink s with
  | some rest =>
      rw [uri] at found
      rw [← Option.some.inj found]
      exact uriAutolink_ends uri
  | none =>
      rw [uri] at found
      cases email : emailAutolink s with
      | some rest =>
          rw [email] at found
          rw [← Option.some.inj found]
          exact emailAutolink_ends email
      | none =>
          rw [email] at found
          exact html_ends found

end Angles

section Spans

theorem findRun_end {n run k : Nat} {s : GoString} (positive : 0 < n) (found : findRun n run s = some k) :
    k = 0 ∧ run = n ∨ 0 < k ∧ s[k - 1]? = some backtick := by
  induction s generalizing run k with
  | nil =>
      unfold findRun at found
      split at found
      · rename_i same
        exact .inl ⟨(Option.some.inj found).symm, same⟩
      · cases found
  | cons c s ih =>
      unfold findRun at found
      split at found
      · rename_i tick
        obtain ⟨m, later, rfl⟩ := Option.map_eq_some_iff.mp found
        right
        refine ⟨Nat.succ_pos m, ?_⟩
        rcases ih later with ⟨rfl, -⟩ | ⟨more, last⟩
        · rw [tick]
          rfl
        · obtain ⟨m, rfl⟩ := Nat.exists_eq_add_one.mpr more
          exact last
      · split at found
        · rename_i same
          exact .inl ⟨(Option.some.inj found).symm, same⟩
        · obtain ⟨m, later, rfl⟩ := Option.map_eq_some_iff.mp found
          right
          refine ⟨Nat.succ_pos m, ?_⟩
          rcases ih later with ⟨-, none⟩ | ⟨more, last⟩
          · omega
          · obtain ⟨m, rfl⟩ := Nat.exists_eq_add_one.mpr more
            exact last

theorem codeSpan_end (rest : GoString) :
    (backtick :: rest)[codeSpan (backtick :: rest) - 1]? = some backtick := by
  have run : ∃ n, ((backtick :: rest).takeWhile (· == backtick)).length = n + 1 := by
    rw [List.takeWhile_cons_of_pos (by rfl)]
    exact ⟨_, rfl⟩
  obtain ⟨n, length⟩ := run
  unfold codeSpan
  dsimp only
  rw [length]
  split
  · rename_i width found
    rcases findRun_end (Nat.succ_pos n) found with ⟨-, none⟩ | ⟨positive, last⟩
    · cases none
    · rw [List.getElem?_drop] at last
      rwa [show n + 1 + width - 1 = n + 1 + (width - 1) by omega]
  · have inside : n < ((backtick :: rest).takeWhile (· == backtick)).length := by omega
    have same : (backtick :: rest)[n]? = ((backtick :: rest).takeWhile (· == backtick))[n]? := by
      have split := List.takeWhile_append_dropWhile (p := (· == backtick)) (l := backtick :: rest)
      exact (congrArg (·[n]?) split).symm.trans (List.getElem?_append_left inside)
    have tick := List.mem_takeWhile_imp (List.getElem_mem inside)
    rw [Nat.add_sub_cancel, same, List.getElem?_eq_getElem inside, beq_iff_eq.mp tick]

/-- What is read as one does not end in a backslash, unless it is one. -/
theorem width_end {c : UInt8} {rest : GoString} (plain : c ≠ backslash) :
    ∃ d, (c :: rest)[width (c :: rest) - 1]? = some d ∧ d ≠ backslash := by
  unfold width
  dsimp only
  rw [if_neg plain]
  split
  · rename_i tick
    rw [tick]
    exact ⟨backtick, codeSpan_end rest, by decide⟩
  · split
    · split
      · rename_i beyond found
        obtain ⟨x, rfl⟩ := angle_ends found
        refine ⟨greater, ?_, by decide⟩
        rw [show (x ++ greater :: beyond).length - beyond.length + 1 - 1 = x.length + 1 by simp; omega]
        simp
      · exact ⟨c, rfl, plain⟩
    · exact ⟨c, rfl, plain⟩

end Spans

section Targets

variable {s rest raw beyond : GoString}

theorem takeDestination_suffix {escaped : Bool} {depth : Nat}
    (found : takeDestination escaped depth s = some (raw, rest)) : rest <:+ s := by
  induction s generalizing escaped depth raw with
  | nil =>
      unfold takeDestination at found
      split at found
      · cases found
        exact List.suffix_refl []
      · cases found
  | cons c s ih =>
      have onward : ∀ {escaped depth},
          (takeDestination escaped depth s).map (addFront c) = some (raw, rest) → rest <:+ c :: s := by
        intro escaped depth mapped
        obtain ⟨⟨raw', rest'⟩, later, same⟩ := Option.map_eq_some_iff.mp mapped
        cases same
        exact (ih later).trans (List.suffix_cons c s)
      cases escaped with
      | true => exact onward found
      | false =>
          unfold takeDestination at found
          dsimp only at found
          split at found
          · split at found
            · cases found
              exact List.suffix_refl _
            · cases found
          · split at found
            · exact onward found
            · split at found
              · split at found
                · cases found
                  exact List.suffix_refl _
                · exact onward found
              · exact onward found

theorem takeAngle_suffix {escaped : Bool} (found : takeAngle escaped s = some (raw, rest)) :
    rest <:+ s := by
  induction s generalizing escaped raw with
  | nil => cases found
  | cons c s ih =>
      unfold takeAngle at found
      split at found
      · cases found
      · split at found
        · cases found
          exact List.suffix_cons c _
        · split at found
          · cases found
          · obtain ⟨⟨raw', rest'⟩, later, same⟩ := Option.map_eq_some_iff.mp found
            cases same
            exact (ih later).trans (List.suffix_cons c s)

theorem takeTitle_suffix {close : UInt8} {stop : UInt8 → Bool} {escaped : Bool}
    (found : takeTitle close stop escaped s = some rest) : rest <:+ s := by
  induction s generalizing escaped with
  | nil => cases found
  | cons c s ih =>
      unfold takeTitle at found
      split at found
      · cases found
        exact List.suffix_cons c _
      · split at found
        · cases found
        · exact (ih found).trans (List.suffix_cons c s)

theorem title_suffix (found : title s = some rest) : rest <:+ s := by
  cases s with
  | nil => cases found
  | cons c s =>
      unfold title at found
      dsimp only at found
      split at found
      · exact (takeTitle_suffix found).trans (List.suffix_cons c s)
      · split at found
        · exact (takeTitle_suffix found).trans (List.suffix_cons c s)
        · cases found

/-- A destination begins and ends with a parenthesis. -/
theorem target_some (found : target s = some (raw, beyond)) :
    s.head? = some leftParen ∧ Ends rightParen s beyond := by
  obtain ⟨inner, paren, found⟩ := Option.bind_eq_some_iff.mp found
  rw [expect_some] at paren
  have inside : inner <:+ s := by
    rw [paren]
    exact List.suffix_cons leftParen inner
  refine ⟨by rw [paren]; rfl, ?_⟩
  dsimp only at found
  obtain ⟨⟨raw', rest⟩, taken, found⟩ := Option.bind_eq_some_iff.mp found
  have part : rest <:+ s := by
    have place := (skipWhitespace_suffix inner).trans inside
    split at taken
    · rename_i tail angle
      have tail : tail <:+ skipWhitespace inner := by
        rw [expect_some.mp angle]
        exact List.suffix_cons less _
      exact (takeAngle_suffix taken).trans (tail.trans place)
    · exact (takeDestination_suffix taken).trans place
  dsimp only at found
  split at found
  · rename_i beyond' close
    cases found
    exact (ends_whitespace close).suffix part
  · split at found
    · cases found
    · obtain ⟨rest', titled, found⟩ := Option.bind_eq_some_iff.mp found
      obtain ⟨beyond', close, same⟩ := Option.map_eq_some_iff.mp found
      cases same
      have later := (title_suffix titled).trans (skipWhitespace_suffix rest)
      exact (ends_whitespace close).suffix (later.trans part)

end Targets

section Bound

/-- The two characters before the place that is reached when some characters are skipped; the pair holds
those before the text. -/
def landing : Nat → UInt8 × UInt8 → GoString → UInt8 × UInt8
  | 0, before, _ => before
  | _ + 1, before, [] => before
  | skip + 1, before, c :: rest => landing skip (before.2, c) rest

/-- The closing brackets in front of a parenthesis which no single backslash precedes. -/
def closings : UInt8 × UInt8 → GoString → Nat
  | _, [] => 0
  | before, c :: rest =>
      (if c = closing ∧ rest.head? = some leftParen ∧ (before.2 = backslash → before.1 = backslash) then 1
        else 0) + closings (before.2, c) rest

/-- No bracket is reached behind a backslash that would have escaped it. -/
def Lands (skip : Nat) (before : UInt8 × UInt8) (s : GoString) : Prop :=
  (landing skip before s).2 = backslash →
    (landing skip before s).1 = backslash ∨ (s.drop skip).head? ≠ some closing

variable {skip : Nat} {before : UInt8 × UInt8} {s rest : GoString} {c d : UInt8}

theorem images_other {entity : GoString → Option GoString} {opened : List Opener}
    (notImage : ¬ (c = bang ∧ rest.head? = some opening)) (notLink : c ≠ opening) (notEnd : c ≠ closing) :
    images entity 0 opened (c :: rest) = images entity (width (c :: rest) - 1) opened rest := by
  rw [images.eq_def]
  dsimp only
  rw [if_neg notImage, if_neg notLink, if_neg notEnd]

theorem images_begin (entity : GoString → Option GoString) (opened : List Opener) (rest : GoString) :
    images entity 0 opened (bang :: opening :: rest) =
      images entity 0 (⟨true, true⟩ :: opened) rest := by
  rw [images.eq_def]
  dsimp only
  rw [if_pos ⟨rfl, rfl⟩]
  rfl

theorem images_skip (entity : GoString → Option GoString) (opened : List Opener) (x rest : GoString) :
    images entity x.length opened (x ++ rest) = images entity 0 opened rest := by
  induction x with
  | nil => rfl
  | cons c x ih => exact ih

theorem landing_snd (there : s[skip]? = some d) : (landing (skip + 1) before s).2 = d := by
  induction s generalizing skip before with
  | nil => cases there
  | cons c s ih =>
      cases skip with
      | zero => exact Option.some.inj there
      | succ skip => exact ih there

theorem Lands.plain (plain : (landing skip before s).2 ≠ backslash) : Lands skip before s :=
  fun same => absurd same plain

theorem Lands.ends {beyond : GoString} (ends : Ends d s beyond) (plain : d ≠ backslash) :
    Lands (s.length - beyond.length) before s := by
  obtain ⟨x, rfl⟩ := ends
  refine .plain ?_
  rw [show (x ++ d :: beyond).length - beyond.length = x.length + 1 by simp; omega, landing_snd]
  · exact plain
  · simp

theorem landing_width (plain : c ≠ backslash) :
    (landing (width (c :: rest) - 1) (before.2, c) rest).2 ≠ backslash := by
  obtain ⟨d, last, differ⟩ := @width_end c rest plain
  cases read : width (c :: rest) - 1 with
  | zero => exact plain
  | succ n =>
      rw [read] at last
      have later : rest[n]? = some d := last
      rw [landing_snd later]
      exact differ

theorem Lands.width : Lands (width (c :: rest) - 1) (before.2, c) rest := by
  by_cases escape : c = backslash
  · subst escape
    unfold Markdown.width
    dsimp only
    rw [if_pos rfl]
    cases rest with
    | nil => exact fun _ => .inr (by simp)
    | cons d rest =>
        by_cases punctuation : isPunctuation d = true
        · rw [if_pos (show Option.any isPunctuation (d :: rest).head? = true from punctuation)]
          exact fun _ => .inl rfl
        · rw [if_neg (show ¬ Option.any isPunctuation (d :: rest).head? = true from punctuation)]
          intro _
          right
          intro same
          rw [show d = closing from Option.some.inj same] at punctuation
          exact punctuation (by decide)
  · exact .plain (landing_width escape)

/-- Every image ends at a closing bracket that stands before a parenthesis. -/
theorem images_bounded {entity : GoString → Option GoString} {opened : List Opener}
    (lands : Lands skip before s) : (images entity skip opened s).length ≤ closings before s := by
  induction s generalizing skip opened before with
  | nil =>
      cases skip <;> exact Nat.le_refl 0
  | cons c rest ih =>
      have more : closings (before.2, c) rest ≤ closings before (c :: rest) := Nat.le_add_left _ _
      cases skip with
      | succ skip => exact (ih lands).trans more
      | zero =>
          have stays : c ≠ backslash → Lands 0 (before.2, c) rest := fun plain => .plain plain
          unfold images
          split
          · rename_i begins
            refine (ih ?_).trans more
            cases rest with
            | nil => cases begins.2
            | cons d rest =>
                refine .plain ?_
                have same : d = opening := Option.some.inj begins.2
                change d ≠ backslash
                rw [same]
                decide
          · split
            · rename_i begins
              exact (ih (stays (by rw [begins]; decide))).trans more
            · split
              · rename_i ends
                have plain := stays (by rw [ends]; decide)
                cases opened with
                | nil => exact (ih plain).trans more
                | cons opener opened =>
                    dsimp only
                    split
                    · split
                      · rename_i raw beyond found
                        obtain ⟨paren, close⟩ := target_some found
                        have on : Lands (rest.length - beyond.length) (before.2, c) rest :=
                          .ends close (by decide)
                        have counted : closings before (c :: rest) =
                            1 + closings (before.2, c) rest := by
                          rw [closings, if_pos]
                          refine ⟨ends, paren, ?_⟩
                          intro escape
                          rcases lands escape with first | differ
                          · exact first
                          · exact absurd (congrArg some ends) differ
                        split
                        · rw [counted, List.length_cons, Nat.add_comm]
                          exact Nat.add_le_add_left (ih on) 1
                        · exact (ih on).trans more
                      · exact (ih plain).trans more
                    · exact (ih plain).trans more
              · exact (ih Lands.width).trans more

end Bound

end Markdown
