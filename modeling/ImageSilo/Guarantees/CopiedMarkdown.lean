import ImageSilo.Guarantees.Searching
import ImageSilo.Markdown.Reading
import ImageSilo.Web.ImageLinks

/-! An entry of the copied text is an image with its URL exactly if nothing that opens in its name is read
on beyond it. -/
namespace ImageSilo.Web

open Go Markdown

variable {entity : GoString → Option GoString} {toURL : GoString → GoString}

section Names

/-- How many characters after a text are read together with its end; the first argument counts the
characters still to skip. -/
def overhang : Nat → GoString → GoString → Nat
  | skip, [], _ => skip
  | skip + 1, _ :: text, rest => overhang skip text rest
  | 0, c :: text, rest => overhang (width (c :: text ++ rest) - 1) text rest

variable {name rest : GoString} {opened : List Opener} {skip : Nat} {before : UInt8 × UInt8}

theorem escapeBrackets_cons (c : UInt8) (name : GoString) :
    escapeBrackets (c :: name) =
      (if (str "\\[]").contains c then [backslash, c] else [c]) ++ escapeBrackets name := rfl

theorem special_iff {c : UInt8} :
    (str "\\[]").contains c = true ↔ c = backslash ∨ c = opening ∨ c = closing := by
  change [0x5c, 0x5b, 0x5d].contains c = true ↔ _
  simp

/-- An escaped name begins with no bracket. -/
theorem escapeBrackets_head (closes : rest.head? = some closing) :
    (escapeBrackets name ++ rest).head? ≠ some opening := by
  cases name with
  | nil =>
      change rest.head? ≠ some opening
      rw [closes]
      decide
  | cons c name =>
      rw [escapeBrackets_cons]
      split
      · exact fun same => absurd (Option.some.inj same) (by decide)
      · rename_i ordinary
        intro same
        exact ordinary (special_iff.mpr (.inr (.inl (Option.some.inj same))))

/-- An escaped name is read to its end, and on from where the last construct of it ends. -/
theorem images_name (plain : backslash ∉ name) (closes : rest.head? = some closing)
    (lands : (landing skip before (escapeBrackets name ++ rest)).2 ≠ backslash) :
    images entity skip opened (escapeBrackets name ++ rest) =
        images entity (overhang skip (escapeBrackets name) rest) opened rest ∧
      (landing (overhang skip (escapeBrackets name) rest)
        (landing (escapeBrackets name).length before (escapeBrackets name)) rest).2 ≠ backslash := by
  induction name generalizing skip before with
  | nil => exact ⟨rfl, lands⟩
  | cons c name ih =>
      have here : c ≠ backslash := fun same => plain (by rw [same]; exact List.mem_cons_self)
      have later : backslash ∉ name := fun member => plain (List.mem_cons_of_mem c member)
      rw [escapeBrackets_cons] at lands ⊢
      split at lands
      · rename_i special
        rw [if_pos special]
        have punctuation : isPunctuation c = true := by
          rcases special_iff.mp special with same | same | same
          · exact absurd same here
          · rw [same]
            decide
          · rw [same]
            decide
        have pair : ∀ text, width (backslash :: c :: text) - 1 = 1 := by
          intro text
          unfold width
          dsimp only
          rw [if_pos rfl, if_pos (show Option.any isPunctuation (c :: text).head? = true from punctuation)]
        match skip, lands with
        | 0, _ =>
            have step := @ih 0 (backslash, c) later here
            have read : images entity 0 opened (backslash :: c :: (escapeBrackets name ++ rest)) =
                images entity 0 opened (escapeBrackets name ++ rest) := by
              rw [images_other (fun begins => absurd begins.1 (by decide)) (by decide) (by decide), pair]
              rfl
            have excess : overhang 0 (backslash :: c :: escapeBrackets name) rest =
                overhang 0 (escapeBrackets name) rest := by
              rw [overhang, List.cons_append, List.cons_append, pair]
              rfl
            change images entity 0 opened (backslash :: c :: (escapeBrackets name ++ rest)) =
                images entity (overhang 0 (backslash :: c :: escapeBrackets name) rest) opened rest ∧
              (landing (overhang 0 (backslash :: c :: escapeBrackets name) rest)
                (landing (escapeBrackets name).length (backslash, c) (escapeBrackets name)) rest).2 ≠
                  backslash
            rw [read, excess]
            exact step
        | 1, lands => exact absurd rfl lands
        | skip + 2, lands => exact @ih skip (backslash, c) later lands
      · rename_i ordinary
        rw [if_neg ordinary]
        rw [special_iff, not_or, not_or] at ordinary
        match skip, lands with
        | 0, _ =>
            have step := @ih (width (c :: (escapeBrackets name ++ rest)) - 1) (before.2, c) later
              (landing_width here)
            have read : images entity 0 opened (c :: (escapeBrackets name ++ rest)) =
                images entity (width (c :: (escapeBrackets name ++ rest)) - 1) opened
                  (escapeBrackets name ++ rest) := by
              rw [images_other (fun begins => escapeBrackets_head closes begins.2) ordinary.2.1
                ordinary.2.2]
            change images entity 0 opened (c :: (escapeBrackets name ++ rest)) = _ ∧ _
            rw [read]
            exact step
        | skip + 1, lands => exact @ih skip (before.2, c) later lands

/-- The brackets of an escaped name end no image. -/
theorem closings_name (plain : backslash ∉ name) (start : before.2 ≠ backslash) :
    closings before (escapeBrackets name ++ rest) =
        closings (landing (escapeBrackets name).length before (escapeBrackets name)) rest ∧
      (landing (escapeBrackets name).length before (escapeBrackets name)).2 ≠ backslash := by
  induction name generalizing before with
  | nil => exact ⟨rfl, start⟩
  | cons c name ih =>
      have here : c ≠ backslash := fun same => plain (by rw [same]; exact List.mem_cons_self)
      have later : backslash ∉ name := fun member => plain (List.mem_cons_of_mem c member)
      rw [escapeBrackets_cons]
      split
      · have step := @ih (backslash, c) later here
        refine ⟨Eq.trans ?_ step.1, step.2⟩
        simp only [List.cons_append, List.nil_append]
        rw [closings, if_neg fun counted => absurd counted.1 (by decide), Nat.zero_add, closings,
          if_neg fun counted => start (counted.2.2 rfl), Nat.zero_add]
      · rename_i ordinary
        rw [special_iff, not_or, not_or] at ordinary
        have step := @ih (before.2, c) later here
        refine ⟨Eq.trans ?_ step.1, step.2⟩
        simp only [List.cons_append, List.nil_append]
        rw [closings, if_neg fun counted => ordinary.2.2 counted.1, Nat.zero_add]

end Names

section URLs

/-- An absolute URL without white space and parentheses. -/
structure AbsoluteURL (url : GoString) : Prop where
  scheme : url.head?.any isLetter = true
  plain : ∀ c ∈ url, 0x20 < c ∧ c ≠ 0x7f ∧ c ≠ leftParen ∧ c ≠ rightParen

/-- The URL ends in a backslash that would escape a character after it; the flag tells that one stands
before the text. -/
def dangles : Bool → GoString → Bool
  | escaped, [] => escaped
  | true, _ :: rest => dangles false rest
  | false, c :: rest => dangles (c == backslash && rest.head?.all isPunctuation) rest

/-- The URL stands for itself as a destination. -/
def Literal (entity : GoString → Option GoString) (url : GoString) : Prop :=
  dangles false url = false ∧ decode entity 0 url = url

variable {url tail : GoString}

theorem takeDestination_url {escaped : Bool}
    (plain : ∀ c ∈ url, 0x20 < c ∧ c ≠ 0x7f ∧ c ≠ leftParen ∧ c ≠ rightParen)
    (next : tail = [] ∨ ∃ rest, tail = newline :: rest) :
    takeDestination escaped 0 (url ++ rightParen :: tail) =
      if dangles escaped url then some (url ++ [rightParen], tail)
      else some (url, rightParen :: tail) := by
  induction url generalizing escaped with
  | nil =>
      cases escaped with
      | false => rfl
      | true =>
          rcases next with rfl | ⟨rest, rfl⟩
          · rfl
          · rfl
  | cons c url ih =>
      have here := plain c List.mem_cons_self
      have later := fun d member => plain d (List.mem_cons_of_mem c member)
      have mapped : ∀ escaped,
          (takeDestination escaped 0 (url ++ rightParen :: tail)).map (addFront c) =
            if dangles escaped url then some (c :: url ++ [rightParen], tail)
            else some (c :: url, rightParen :: tail) := by
        intro escaped
        rw [ih later]
        split
        · rfl
        · rfl
      cases escaped with
      | true => exact mapped false
      | false =>
          have head : (url ++ rightParen :: tail).head?.any isPunctuation =
              url.head?.all isPunctuation := by
            cases url with
            | nil => rfl
            | cons d url => rfl
          have printed : ¬ (c ≤ 0x20 ∨ c = 0x7f) := by
            rintro (low | delete)
            · exact absurd here.1 (UInt8.not_lt.mpr low)
            · exact here.2.1 delete
          rw [List.cons_append, takeDestination.eq_def]
          dsimp only
          rw [if_neg printed, if_neg here.2.2.1, if_neg here.2.2.2, head]
          exact mapped _

theorem skipWhitespace_visible {c : UInt8} {rest : GoString} (visible : isBlank c = false)
    (same : c ≠ newline) : skipWhitespace (c :: rest) = c :: rest := by
  have kept : (c :: rest).dropWhile isBlank = c :: rest := by
    rw [List.dropWhile_cons_of_neg]
    rw [visible]
    exact Bool.false_ne_true
  unfold skipWhitespace
  rw [kept]
  have none : expect newline (c :: rest) = none := if_neg same
  rw [none]

/-- The destination after the name of an entry. -/
theorem target_url (absolute : AbsoluteURL url)
    (next : tail = [] ∨ ∃ rest, tail = newline :: bang :: rest) :
    target (leftParen :: (url ++ rightParen :: tail)) =
      if dangles false url then none else some (url, tail) := by
  have follows : tail = [] ∨ ∃ rest, tail = newline :: rest := by
    rcases next with rfl | ⟨rest, rfl⟩
    · exact .inl rfl
    · exact .inr ⟨_, rfl⟩
  have taken := @takeDestination_url url tail false absolute.plain follows
  cases url with
  | nil => cases absolute.scheme
  | cons c url =>
      have letter : isLetter c = true := absolute.scheme
      have visible : ∀ c : UInt8, isLetter c = true → isBlank c = false ∧ c ≠ newline ∧ c ≠ less :=
        forall_byte (by decide +kernel)
      obtain ⟨blank, line, angle⟩ := visible c letter
      have inside : expect less (c :: (url ++ rightParen :: tail)) = none := if_neg angle
      unfold target
      rw [expect_some.mpr rfl, Option.bind_some, List.cons_append]
      dsimp only
      rw [skipWhitespace_visible blank line, inside]
      rw [List.cons_append] at taken
      dsimp only
      rw [taken]
      split
      · rw [Option.bind_some]
        dsimp only
        rcases next with rfl | ⟨rest, rfl⟩
        · rfl
        · have white : skipWhitespace (newline :: bang :: rest) = bang :: rest := by
            unfold skipWhitespace
            rfl
          rw [white]
          rfl
      · rw [Option.bind_some]
        dsimp only
        rw [skipWhitespace_visible (by decide) (by decide), expect_some.mpr rfl]

/-- No bracket of a URL stands before a parenthesis. -/
theorem closings_url {before : UInt8 × UInt8}
    (plain : ∀ c ∈ url, 0x20 < c ∧ c ≠ 0x7f ∧ c ≠ leftParen ∧ c ≠ rightParen) :
    ∃ c, closings before (url ++ rightParen :: tail) = closings (c, rightParen) tail := by
  induction url generalizing before with
  | nil =>
      refine ⟨before.2, ?_⟩
      rw [List.nil_append, closings, if_neg fun counted => absurd counted.1 (by decide), Nat.zero_add]
  | cons c url ih =>
      obtain ⟨d, same⟩ := @ih (before.2, c) fun d member => plain d (List.mem_cons_of_mem c member)
      refine ⟨d, ?_⟩
      have head : (url ++ rightParen :: tail).head? ≠ some leftParen := by
        cases url with
        | nil => exact fun same => absurd (Option.some.inj same) (by decide)
        | cons e url =>
            intro same
            exact (plain e (by simp)).2.2.1 (Option.some.inj same)
      rw [List.cons_append, closings, if_neg fun counted => head counted.2.1, Nat.zero_add, same]

end URLs

section Entries

/-- The lines after an entry. -/
def linesAfter (toURL : GoString → GoString) (later : List LinkableImage) : GoString :=
  later.flatMap fun image => newline :: imageLinks toURL image .markdown

/-- What follows the name of an entry. -/
def afterName (toURL : GoString → GoString) (image : LinkableImage) (later : List LinkableImage) :
    GoString :=
  closing :: leftParen :: (toURL image.standardUrl ++ rightParen :: linesAfter toURL later)

/-- Nothing that opens in a name is read on beyond it, and the URLs stand for themselves. -/
def Contained (entity : GoString → Option GoString) (toURL : GoString → GoString) :
    List LinkableImage → Prop
  | [] => True
  | image :: later =>
      overhang 0 (escapeBrackets image.originalName) (afterName toURL image later) = 0 ∧
        Literal entity (toURL image.standardUrl) ∧ Contained entity toURL later

variable {image : LinkableImage} {later : List LinkableImage}

theorem imageLinksText_cons (image : LinkableImage) (later : List LinkableImage) :
    imageLinksText toURL (image :: later) .markdown =
      imageLinks toURL image .markdown ++ linesAfter toURL later := by
  induction later generalizing image with
  | nil => exact (List.append_nil _).symm
  | cons next later ih =>
      have front : imageLinksText toURL (image :: next :: later) .markdown =
          imageLinks toURL image .markdown ++ newline :: imageLinksText toURL (next :: later) .markdown :=
        rfl
      rw [front, ih]
      rfl

theorem entry_eq (image : LinkableImage) (later : List LinkableImage) :
    imageLinks toURL image .markdown ++ linesAfter toURL later =
      bang :: opening :: (escapeBrackets image.originalName ++ afterName toURL image later) := by
  have front : str "![" = [bang, opening] := by decide
  have middle : str "](" = [closing, leftParen] := by decide
  have back : str ")" = [rightParen] := by decide
  simp [imageLinks, front, middle, back, afterName]

/-- The names and URLs that the entries are made of. -/
structure Writable (toURL : GoString → GoString) (image : LinkableImage) : Prop where
  name : backslash ∉ image.originalName
  url : AbsoluteURL (toURL image.standardUrl)

theorem closings_after (writable : Writable toURL image) {before : UInt8 × UInt8} {n : Nat}
    (lines : ∀ before, before.2 ≠ backslash → closings before (linesAfter toURL later) = n) :
    closings before
      (leftParen :: (toURL image.standardUrl ++ rightParen :: linesAfter toURL later)) = n := by
  obtain ⟨c, same⟩ := @closings_url (toURL image.standardUrl) (linesAfter toURL later)
    (before.2, leftParen) writable.url.plain
  rw [closings, if_neg fun counted => absurd counted.1 (by decide), Nat.zero_add, same]
  exact lines _ (show rightParen ≠ backslash by decide)

/-- One bracket for each entry ends an image. -/
theorem closings_lines (writable : ∀ image ∈ later, Writable toURL image) {before : UInt8 × UInt8}
    (start : before.2 ≠ backslash) : closings before (linesAfter toURL later) = later.length := by
  induction later generalizing before with
  | nil => rfl
  | cons image later ih =>
      have others := fun other member => writable other (List.mem_cons_of_mem image member)
      have here := writable image List.mem_cons_self
      have split : linesAfter toURL (image :: later) =
          newline :: (imageLinks toURL image .markdown ++ linesAfter toURL later) := rfl
      obtain ⟨name, stop⟩ := @closings_name image.originalName (afterName toURL image later)
        (bang, opening) here.name (by decide)
      rw [split, entry_eq, closings, if_neg fun counted => absurd counted.1 (by decide), closings,
        if_neg fun counted => absurd counted.1 (by decide), closings,
        if_neg fun counted => absurd counted.1 (by decide)]
      simp only [Nat.zero_add]
      rw [name, afterName, closings, if_pos ⟨rfl, rfl, fun same => absurd same stop⟩,
        closings_after here fun before start => ih others start, List.length_cons, Nat.add_comm]

/-- The images from an entry on. -/
theorem images_entry (writable : ∀ other ∈ image :: later, Writable toURL other) {urls : List GoString}
    (short : urls.length = later.length) :
    images entity 0 [] (imageLinks toURL image .markdown ++ linesAfter toURL later) =
        toURL image.standardUrl :: urls ↔
      overhang 0 (escapeBrackets image.originalName) (afterName toURL image later) = 0 ∧
        Literal entity (toURL image.standardUrl) ∧
        images entity 0 [] (linesAfter toURL later) = urls := by
  have here := writable image List.mem_cons_self
  have others := fun other member => writable other (List.mem_cons_of_mem image member)
  have start : (landing 0 (bang, opening) (escapeBrackets image.originalName ++
      afterName toURL image later)).2 ≠ backslash := show opening ≠ backslash by decide
  obtain ⟨read, stop⟩ := @images_name entity image.originalName (afterName toURL image later)
    [⟨true, true⟩] 0 (bang, opening) here.name rfl start
  have counted : ∀ before, closings before (leftParen :: (toURL image.standardUrl ++ rightParen ::
      linesAfter toURL later)) = later.length :=
    fun before => closings_after here fun before start => closings_lines others start
  -- with the bracket lost there are too few images
  have few : ∀ {skip opened before}, Lands skip before (leftParen :: (toURL image.standardUrl ++
      rightParen :: linesAfter toURL later)) →
      images entity skip opened (leftParen :: (toURL image.standardUrl ++ rightParen ::
        linesAfter toURL later)) ≠ toURL image.standardUrl :: urls := by
    intro skip opened before lands same
    have bounded := @images_bounded skip before _ entity opened lands
    rw [same, counted, List.length_cons, short] at bounded
    omega
  rw [entry_eq, images_begin, read]
  generalize overhang 0 (escapeBrackets image.originalName) (afterName toURL image later) = excess at stop
  cases excess with
  | succ excess =>
      refine ⟨fun same => absurd same ?_, fun holds => absurd holds.1 (Nat.succ_ne_zero excess)⟩
      exact few (.plain stop)
  | zero =>
      have follows : linesAfter toURL later = [] ∨
          ∃ rest, linesAfter toURL later = newline :: bang :: rest := by
        cases later with
        | nil => exact .inl rfl
        | cons next later => exact .inr ⟨_, rfl⟩
      have found := target_url here.url follows
      rw [afterName, images.eq_def]
      dsimp only
      rw [if_neg fun begins => absurd begins.1 (by decide), if_neg (by decide), if_pos rfl, if_pos rfl,
        found]
      cases dangle : dangles false (toURL image.standardUrl) with
      | true =>
          rw [if_pos rfl]
          dsimp only
          constructor
          · intro same
            have lands : Lands 0 (bang, closing) (leftParen :: (toURL image.standardUrl ++ rightParen ::
                linesAfter toURL later)) := .plain (show closing ≠ backslash by decide)
            exact absurd same (few lands)
          · intro holds
            rw [Literal, dangle] at holds
            cases holds.2.1.1
      | false =>
          rw [if_neg Bool.false_ne_true]
          dsimp only
          have width : (leftParen :: (toURL image.standardUrl ++ rightParen ::
              linesAfter toURL later)).length - (linesAfter toURL later).length =
                (leftParen :: (toURL image.standardUrl ++ [rightParen])).length := by
            simp only [List.length_cons, List.length_append, List.length_nil]
            omega
          have split : leftParen :: (toURL image.standardUrl ++ rightParen :: linesAfter toURL later) =
              (leftParen :: (toURL image.standardUrl ++ [rightParen])) ++ linesAfter toURL later := by
            simp
          rw [if_pos rfl, width, split, images_skip, List.cons.injEq, Literal, dangle]
          simp

theorem images_lines (writable : ∀ image ∈ later, Writable toURL image) :
    images entity 0 [] (linesAfter toURL later) = later.map (fun image => toURL image.standardUrl) ↔
      Contained entity toURL later := by
  induction later with
  | nil => exact ⟨fun _ => trivial, fun _ => rfl⟩
  | cons image later ih =>
      have others := fun other member => writable other (List.mem_cons_of_mem image member)
      have split : linesAfter toURL (image :: later) =
          newline :: (imageLinks toURL image .markdown ++ linesAfter toURL later) := rfl
      have one : ∀ text, width (newline :: text) - 1 = 0 := fun _ => rfl
      rw [split, images_other (fun begins => absurd begins.1 (by decide)) (by decide) (by decide), one,
        List.map_cons, images_entry writable (List.length_map _), ih others]
      rfl

/-- A name without backticks and angle brackets keeps to itself. -/
theorem overhang_plain {name rest : GoString}
    (plain : ∀ c ∈ name, c ≠ backtick ∧ c ≠ less ∧ c ≠ backslash) :
    overhang 0 (escapeBrackets name) rest = 0 := by
  induction name with
  | nil => rfl
  | cons c name ih =>
      obtain ⟨tick, angle, slash⟩ := plain c List.mem_cons_self
      have later := ih fun d member => plain d (List.mem_cons_of_mem c member)
      rw [escapeBrackets_cons]
      split
      · rename_i special
        have punctuation : isPunctuation c = true := by
          rcases special_iff.mp special with same | same | same <;> rw [same] <;> decide
        change overhang (width (backslash :: c :: (escapeBrackets name ++ rest)) - 1)
          (c :: escapeBrackets name) rest = 0
        unfold width
        dsimp only
        rw [if_pos rfl, if_pos (show Option.any isPunctuation
          (c :: (escapeBrackets name ++ rest)).head? = true from punctuation)]
        exact later
      · change overhang (width (c :: (escapeBrackets name ++ rest)) - 1) (escapeBrackets name) rest = 0
        unfold width
        dsimp only
        rw [if_neg slash, if_neg tick, if_neg angle]
        exact later

end Entries

theorem sanitized_plain {raw name : GoString} (sanitized : sanitizeOriginalName raw = name) :
    backslash ∉ name := by
  obtain ⟨rs, rfl, kept, -⟩ := Listing.sanitized_runes sanitized
  intro member
  have rune := Listing.ascii_of_encode (fun r there => (kept r there).1) (by decide) member
  exact absurd (kept _ rune).2 (by decide)

/-- The copied text shows each entry exactly if nothing that opens in a name is read on beyond it and the
URLs stand for themselves. -/
theorem copied_images_iff (entity : GoString → Option GoString) (toURL : GoString → GoString)
    (entries : List LinkableImage)
    (names : ∀ image ∈ entries, ∃ raw, sanitizeOriginalName raw = image.originalName)
    (urls : ∀ image ∈ entries, AbsoluteURL (toURL image.standardUrl)) :
    images entity 0 [] (imageLinksText toURL entries .markdown) =
        entries.map (fun image => toURL image.standardUrl) ↔ Contained entity toURL entries := by
  have writable : ∀ image ∈ entries, Writable toURL image := by
    intro image member
    obtain ⟨raw, sanitized⟩ := names image member
    exact ⟨sanitized_plain sanitized, urls image member⟩
  cases entries with
  | nil => exact ⟨fun _ => trivial, fun _ => rfl⟩
  | cons image later =>
      have others := fun other member => writable other (List.mem_cons_of_mem image member)
      rw [imageLinksText_cons, List.map_cons, images_entry writable (List.length_map _),
        images_lines others]
      rfl

section Sample

def sampleEntries (first second : String) : List LinkableImage :=
  [⟨str first, str "http://h/image/1"⟩, ⟨str second, str "http://h/image/2"⟩]

theorem sample_urls {first second : String} :
    ∀ image ∈ sampleEntries first second, AbsoluteURL (id image.standardUrl) := by
  intro image member
  simp only [sampleEntries, List.mem_cons, List.not_mem_nil, or_false] at member
  have one : AbsoluteURL (str "http://h/image/1") := ⟨by decide +kernel, by decide +kernel⟩
  have two : AbsoluteURL (str "http://h/image/2") := ⟨by decide +kernel, by decide +kernel⟩
  rcases member with rfl | rfl
  · exact one
  · exact two

/-- Brackets, an exclamation mark, and a code span within one name. -/
theorem copied_images_sample :
    images (fun _ => none) 0 [] (imageLinksText id (sampleEntries "a![b](c).png" "`[`.png") .markdown) =
      [str "http://h/image/1", str "http://h/image/2"] := by
  refine (copied_images_iff (fun _ => none) id (sampleEntries "a![b](c).png" "`[`.png") ?_ sample_urls).mpr
    ?_
  · intro image member
    simp only [sampleEntries, List.mem_cons, List.not_mem_nil, or_false] at member
    rcases member with rfl | rfl
    · exact ⟨str "a![b](c).png", by decide +kernel⟩
    · exact ⟨str "`[`.png", by decide +kernel⟩
  · refine ⟨by decide +kernel, ⟨by decide +kernel, by decide +kernel⟩, by decide +kernel,
      ⟨by decide +kernel, by decide +kernel⟩, trivial⟩

/-- A backtick in each of two names: the text between them is a code span. -/
theorem code_span_swallows_image : ¬ ∀ (entity : GoString → Option GoString)
    (toURL : GoString → GoString) (entries : List LinkableImage), entries ≠ [] →
    (∀ image ∈ entries, ∃ raw, sanitizeOriginalName raw = image.originalName) →
    (∀ image ∈ entries, AbsoluteURL (toURL image.standardUrl)) →
    images entity 0 [] (imageLinksText toURL entries .markdown) =
      entries.map (fun image => toURL image.standardUrl) := by
  intro claim
  have names : ∀ image ∈ sampleEntries "a`.png" "b`.png",
      ∃ raw, sanitizeOriginalName raw = image.originalName := by
    intro image member
    simp only [sampleEntries, List.mem_cons, List.not_mem_nil, or_false] at member
    rcases member with rfl | rfl
    · exact ⟨str "a`.png", by decide +kernel⟩
    · exact ⟨str "b`.png", by decide +kernel⟩
  have shown := claim (fun _ => none) id (sampleEntries "a`.png" "b`.png") (by simp [sampleEntries]) names
    sample_urls
  exact absurd shown (by decide +kernel)

end Sample

end ImageSilo.Web
