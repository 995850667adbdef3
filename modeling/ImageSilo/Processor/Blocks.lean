import ImageSilo.Processor.Inspect

/-! `SubBlocks`, `Block` and `Blocks` say which byte strings the walk over a GIF file steps over. -/
namespace ImageSilo.Processor

open Go

/-- Sub-blocks: each announces its size, the empty one is the last. -/
inductive SubBlocks : Bytes → Prop
  | last : SubBlocks [0]
  | more {size : UInt8} {data rest : Bytes} (announced : size ≠ 0)
      (whole : data.length = size.toNat) (later : SubBlocks rest) :
      SubBlocks (size :: (data ++ rest))

/-- The number of bytes of the colour table that the flags announce. -/
def tableSize (flags : UInt8) : Nat :=
  if flags &&& 0x80 ≠ 0 then 3 * 2 ^ ((flags &&& 0x07).toNat + 1) else 0

/-- A block with the number of images in it. -/
inductive Block : Nat → Bytes → Prop
  | padding : Block 0 [0x00]
  | extension {label : UInt8} {data : Bytes} (blocks : SubBlocks data) :
      Block 0 (0x21 :: label :: data)
  | image {descriptor table data : Bytes} {codeSize : UInt8} (whole : descriptor.length = 9)
      (sized : table.length = tableSize (descriptor.getD 8 0)) (blocks : SubBlocks data) :
      Block 1 (0x2c :: (descriptor ++ (table ++ codeSize :: data)))

inductive Blocks : Nat → Bytes → Prop
  | done : Blocks 0 []
  | next {k n : Nat} {block rest : Bytes} (first : Block k block) (later : Blocks n rest) :
      Blocks (k + n) (block ++ rest)

/-- A header and the colour table that it announces. -/
structure Header (header table : Bytes) : Prop where
  signature : (str "GIF87a").isPrefixOf header || (str "GIF89a").isPrefixOf header
  whole : header.length = 13
  sized : table.length = tableSize (header.getD 10 0)

section Readers

variable {reader rest : Bytes} {flags : UInt8} {fuel : Nat}

theorem discard_some {count : Nat} : discardGIFBytes count reader = some rest ↔
    ∃ skipped, skipped.length = count ∧ reader = skipped ++ rest := by
  unfold discardGIFBytes
  constructor
  · intro discarded
    split at discarded
    · rename_i enough
      cases discarded
      exact ⟨reader.take count, List.length_take_of_le enough,
        (List.take_append_drop count reader).symm⟩
    · cases discarded
  · rintro ⟨skipped, rfl, rfl⟩
    rw [if_pos (by simp), List.drop_left]

theorem table_some : colourTable flags reader = some rest ↔
    ∃ table, table.length = tableSize flags ∧ reader = table ++ rest := by
  unfold colourTable tableSize
  split
  · rw [discard_some, Nat.shiftLeft_eq]
  · constructor
    · intro same
      cases same
      exact ⟨[], rfl, rfl⟩
    · rintro ⟨table, empty, rfl⟩
      rw [List.length_eq_zero_iff.mp empty, List.nil_append]

/-- The loop over sub-blocks accepts sub-blocks and nothing else. -/
theorem skip_some (enough : reader.length ≤ fuel) : skipGIFSubBlocks fuel reader = some rest ↔
    ∃ data, SubBlocks data ∧ reader = data ++ rest := by
  constructor
  · intro skipped
    induction fuel generalizing reader with
    | zero => cases skipped
    | succ fuel ih =>
        cases reader with
        | nil => cases skipped
        | cons size reader =>
            rw [skipGIFSubBlocks] at skipped
            split at skipped
            · rename_i zero
              cases skipped
              exact ⟨[0], .last, by rw [zero]; rfl⟩
            · rename_i announced
              obtain ⟨left, discarded, remaining⟩ := Option.bind_eq_some_iff.mp skipped
              obtain ⟨block, whole, rfl⟩ := discard_some.mp discarded
              have shorter : left.length ≤ fuel := by
                simp only [List.length_cons, List.length_append] at enough
                omega
              obtain ⟨data, later, rfl⟩ := ih shorter remaining
              exact ⟨size :: (block ++ data), .more announced whole later, by simp⟩
  · rintro ⟨data, blocks, rfl⟩
    induction blocks generalizing fuel with
    | last =>
        cases fuel with
        | zero => simp at enough
        | succ fuel => rfl
    | @more size block data announced whole later ih =>
        cases fuel with
        | zero => simp at enough
        | succ fuel =>
            have discarded : discardGIFBytes size.toNat (block ++ (data ++ rest)) =
                some (data ++ rest) := discard_some.mpr ⟨block, whole, rfl⟩
            have shorter : (data ++ rest).length ≤ fuel := by
              simp only [List.length_cons, List.length_append] at enough ⊢
              omega
            rw [List.cons_append, List.append_assoc, skipGIFSubBlocks, if_neg announced, discarded,
              Option.bind_some]
            exact ih shorter

/-- More fuel changes nothing. -/
theorem skip_fuel (enough : reader.length ≤ fuel) :
    skipGIFSubBlocks fuel reader = skipGIFSubBlocks reader.length reader := by
  apply Option.ext
  intro rest
  rw [skip_some enough, skip_some (Nat.le_refl _)]

/-- The bytes of an extension after its marker. -/
theorem extension_some (enough : reader.length ≤ fuel) :
    (discardGIFBytes 1 reader).bind (skipGIFSubBlocks fuel) = some rest ↔
      ∃ label data, SubBlocks data ∧ reader = label :: (data ++ rest) := by
  rw [Option.bind_eq_some_iff]
  constructor
  · rintro ⟨left, discarded, skipped⟩
    obtain ⟨labels, one, rfl⟩ := discard_some.mp discarded
    obtain ⟨label, rfl⟩ := List.length_eq_one_iff.mp one
    rw [List.cons_append, List.nil_append, List.length_cons] at enough
    obtain ⟨data, blocks, rfl⟩ := (skip_some (by omega)).mp skipped
    exact ⟨label, data, blocks, rfl⟩
  · rintro ⟨label, data, blocks, rfl⟩
    rw [List.length_cons] at enough
    exact ⟨data ++ rest, discard_some.mpr ⟨[label], rfl, rfl⟩,
      (skip_some (by omega)).mpr ⟨data, blocks, rfl⟩⟩

/-- The bytes of an image after its descriptor. -/
theorem image_some (enough : reader.length ≤ fuel) :
    ((colourTable flags reader).bind (discardGIFBytes 1)).bind (skipGIFSubBlocks fuel) = some rest ↔
      ∃ table codeSize data, table.length = tableSize flags ∧ SubBlocks data ∧
        reader = table ++ codeSize :: (data ++ rest) := by
  rw [Option.bind_assoc, Option.bind_eq_some_iff]
  constructor
  · rintro ⟨left, tabled, skipped⟩
    obtain ⟨table, sized, rfl⟩ := table_some.mp tabled
    rw [List.length_append] at enough
    obtain ⟨codeSize, data, blocks, rfl⟩ := (extension_some (by omega)).mp skipped
    exact ⟨table, codeSize, data, sized, blocks, rfl⟩
  · rintro ⟨table, codeSize, data, sized, blocks, rfl⟩
    rw [List.length_append] at enough
    exact ⟨codeSize :: (data ++ rest), table_some.mpr ⟨table, sized, rfl⟩,
      (extension_some (by omega)).mpr ⟨codeSize, data, blocks, rfl⟩⟩

theorem extension_fuel (enough : reader.length ≤ fuel) :
    (discardGIFBytes 1 reader).bind (skipGIFSubBlocks fuel) =
      (discardGIFBytes 1 reader).bind (skipGIFSubBlocks reader.length) := by
  apply Option.ext
  intro rest
  rw [extension_some enough, extension_some (Nat.le_refl _)]

theorem image_fuel (enough : reader.length ≤ fuel) :
    ((colourTable flags reader).bind (discardGIFBytes 1)).bind (skipGIFSubBlocks fuel) =
      ((colourTable flags reader).bind (discardGIFBytes 1)).bind
        (skipGIFSubBlocks reader.length) := by
  apply Option.ext
  intro rest
  rw [image_some enough, image_some (Nat.le_refl _)]

end Readers

section Rounds

/-- How one round of the loop ends. -/
inductive Iteration
  | returned (result : Except Error Int)
  | again (frames : Int) (reader : Bytes)

/-- The branch for an image of the body of the loop. -/
def gifImage (maxFrames frames : Int) (reader : Bytes) : Iteration :=
  match reader.take 9, discardGIFBytes 9 reader with
  | [_, _, _, _, _, _, _, _, flags], some rest =>
      if 0 < maxFrames ∧ maxFrames < frames + 1 then .returned (.error .tooManyPixels)
      else
        match ((colourTable flags rest).bind (discardGIFBytes 1)).bind
            (skipGIFSubBlocks rest.length) with
        | none => .returned (.error .invalidImage)
        | some rest => .again (frames + 1) rest
  | _, _ => .returned (.error .invalidImage)

/-- The body of the loop of `preflightGIFFrames`. -/
def gifIteration (maxFrames frames : Int) : Bytes → Iteration
  | [] => .returned (.error .invalidImage)
  | marker :: reader =>
      if marker = 0x00 then .again frames reader
      else if marker = 0x21 then
        match (discardGIFBytes 1 reader).bind (skipGIFSubBlocks reader.length) with
        | none => .returned (.error .invalidImage)
        | some rest => .again frames rest
      else if marker = 0x2c then gifImage maxFrames frames reader
      else if marker = 0x3b then
        .returned (if frames = 0 then .error .invalidImage else .ok frames)
      else .returned (.error .invalidImage)

variable {maxFrames frames frames' n : Int} {reader rest descriptor : Bytes} {fuel : Nat}

theorem discard_none {count : Nat} (short : reader.length < count) :
    discardGIFBytes count reader = none := if_neg (Nat.not_le.mpr short)

theorem descriptor_cases (reader : Bytes) : reader.length < 9 ∨
    ∃ descriptor left : Bytes, descriptor.length = 9 ∧ reader = descriptor ++ left := by
  by_cases short : reader.length < 9
  · exact .inl short
  · exact .inr ⟨reader.take 9, reader.drop 9, List.length_take_of_le (Nat.not_lt.mp short),
      (List.take_append_drop 9 reader).symm⟩

theorem gifImage_short (short : reader.length < 9) :
    gifImage maxFrames frames reader = .returned (.error .invalidImage) := by
  unfold gifImage
  rw [discard_none short]
  split
  · rename_i found
    cases found
  · rfl

theorem gifImage_whole (whole : descriptor.length = 9) :
    gifImage maxFrames frames (descriptor ++ rest) =
      if 0 < maxFrames ∧ maxFrames < frames + 1 then .returned (.error .tooManyPixels)
      else
        match ((colourTable (descriptor.getD 8 0) rest).bind (discardGIFBytes 1)).bind
            (skipGIFSubBlocks rest.length) with
        | none => .returned (.error .invalidImage)
        | some rest => .again (frames + 1) rest := by
  unfold gifImage
  rw [discard_some.mpr ⟨descriptor, whole, rfl⟩, List.take_left' whole]
  match descriptor, whole with
  | [_, _, _, _, _, _, _, _, _], _ => rfl

/-- A round steps over a block, unless it is an image too many. -/
theorem iteration_block {k : Nat} {block : Bytes} (shape : Block k block)
    (within : 0 < k → 0 < maxFrames → frames + k ≤ maxFrames) :
    gifIteration maxFrames frames (block ++ rest) = .again (frames + k) rest := by
  cases shape with
  | padding => simp [gifIteration]
  | @extension label data blocks =>
      have skipped := (@extension_some (label :: (data ++ rest)) rest _ (Nat.le_refl _)).mpr
        ⟨label, data, blocks, rfl⟩
      simp only [gifIteration, List.cons_append, skipped]
      simp
  | @image descriptor table data codeSize whole sized blocks =>
      have skipped := (@image_some (table ++ codeSize :: (data ++ rest)) rest
        (descriptor.getD 8 0) _ (Nat.le_refl _)).mpr ⟨table, codeSize, data, sized, blocks, rfl⟩
      have few : ¬(0 < maxFrames ∧ maxFrames < frames + 1) := by
        rintro ⟨positive, beyond⟩
        exact absurd (within Nat.one_pos positive) (Int.not_le.mpr beyond)
      have step : gifIteration maxFrames frames
          (0x2c :: (descriptor ++ (table ++ codeSize :: data)) ++ rest) =
            gifImage maxFrames frames (descriptor ++ (table ++ codeSize :: (data ++ rest))) := by
        simp [gifIteration]
      rw [step, gifImage_whole whole, if_neg few, skipped]
      rfl

theorem iteration_trailer : gifIteration maxFrames frames (0x3b :: rest) =
    .returned (if frames = 0 then .error .invalidImage else .ok frames) := rfl

theorem iteration_beyond (whole : descriptor.length = 9) (positive : 0 < maxFrames)
    (beyond : maxFrames < frames + 1) : gifIteration maxFrames frames
      (0x2c :: (descriptor ++ rest)) = .returned (.error .tooManyPixels) := by
  change gifImage maxFrames frames (descriptor ++ rest) = _
  rw [gifImage_whole whole, if_pos ⟨positive, beyond⟩]

/-- All that a round can do. -/
theorem iteration_cases (maxFrames frames : Int) (reader : Bytes) :
    (∃ k block rest, Block k block ∧ reader = block ++ rest ∧
        (0 < k → 0 < maxFrames → frames + k ≤ maxFrames) ∧
        gifIteration maxFrames frames reader = .again (frames + k) rest) ∨
      (∃ rest, reader = 0x3b :: rest ∧ frames ≠ 0 ∧
        gifIteration maxFrames frames reader = .returned (.ok frames)) ∨
      (∃ descriptor rest, descriptor.length = 9 ∧ reader = 0x2c :: (descriptor ++ rest) ∧
        0 < maxFrames ∧ maxFrames < frames + 1 ∧
        gifIteration maxFrames frames reader = .returned (.error .tooManyPixels)) ∨
      gifIteration maxFrames frames reader = .returned (.error .invalidImage) := by
  have block {k : Nat} {b rest : Bytes} (shape : Block k b) (same : reader = b ++ rest)
      (within : 0 < k → 0 < maxFrames → frames + k ≤ maxFrames) :
      ∃ k block rest, Block k block ∧ reader = block ++ rest ∧
        (0 < k → 0 < maxFrames → frames + k ≤ maxFrames) ∧
        gifIteration maxFrames frames reader = .again (frames + k) rest :=
    ⟨k, b, rest, shape, same, within, by rw [same]; exact iteration_block shape within⟩
  cases reader with
  | nil => exact .inr (.inr (.inr rfl))
  | cons marker reader =>
      by_cases padding : marker = 0x00
      · subst padding
        exact .inl (block .padding rfl (by simp))
      by_cases extension : marker = 0x21
      · subst extension
        cases skipped : (discardGIFBytes 1 reader).bind (skipGIFSubBlocks reader.length) with
        | none => exact .inr (.inr (.inr (by simp [gifIteration, skipped])))
        | some rest =>
            obtain ⟨label, data, blocks, rfl⟩ := (extension_some (Nat.le_refl _)).mp skipped
            exact .inl (block (.extension blocks) rfl (by simp))
      by_cases image : marker = 0x2c
      · subst image
        change _ ∨ _ ∨ _ ∨ gifImage maxFrames frames reader = _
        rcases descriptor_cases reader with short | ⟨descriptor, left, whole, rfl⟩
        · exact .inr (.inr (.inr (gifImage_short short)))
        by_cases beyond : 0 < maxFrames ∧ maxFrames < frames + 1
        · exact .inr (.inr (.inl ⟨descriptor, left, whole, rfl, beyond.1, beyond.2,
            iteration_beyond whole beyond.1 beyond.2⟩))
        cases skipped : ((colourTable (descriptor.getD 8 0) left).bind (discardGIFBytes 1)).bind
            (skipGIFSubBlocks left.length) with
        | none =>
            refine .inr (.inr (.inr ?_))
            rw [gifImage_whole whole, if_neg beyond, skipped]
        | some rest =>
            obtain ⟨table, codeSize, data, sized, blocks, rfl⟩ :=
              (image_some (Nat.le_refl _)).mp skipped
            have same : (0x2c :: (descriptor ++ (table ++ codeSize :: (data ++ rest))) : Bytes) =
                0x2c :: (descriptor ++ (table ++ codeSize :: data)) ++ rest := by simp
            refine .inl (block (.image whole sized blocks) same ?_)
            intro _ positive
            exact Int.not_lt.mp fun more => beyond ⟨positive, more⟩
      by_cases trailer : marker = 0x3b
      · subst trailer
        by_cases zero : frames = 0
        · exact .inr (.inr (.inr (by rw [iteration_trailer, if_pos zero])))
        · exact .inr (.inl ⟨reader, rfl, zero, by rw [iteration_trailer, if_neg zero]⟩)
      · exact .inr (.inr (.inr (by simp [gifIteration, padding, extension, image, trailer])))

theorem block_nonempty {k : Nat} {block : Bytes} (shape : Block k block) : 0 < block.length := by
  cases shape <;> simp

/-- Each round consumes at least one byte. -/
theorem iteration_shorter (again : gifIteration maxFrames frames reader = .again frames' rest) :
    rest.length < reader.length := by
  rcases iteration_cases maxFrames frames reader with
    ⟨k, block, rest', shape, rfl, -, round⟩ | ⟨_, -, -, round⟩ | ⟨_, _, -, -, -, -, round⟩ | round
  · rw [round] at again
    cases again
    have nonempty := block_nonempty shape
    rw [List.length_append]
    omega
  all_goals
    rw [round] at again
    cases again

/-- The loop of the model goes round after round, and its fuel is enough for all of them. -/
theorem gifBlocks_round (enough : reader.length ≤ fuel) :
    gifBlocks maxFrames (fuel + 1) frames reader =
      match gifIteration maxFrames frames reader with
      | .returned result => result
      | .again frames reader => gifBlocks maxFrames fuel frames reader := by
  cases reader with
  | nil => rfl
  | cons marker reader =>
      rw [List.length_cons] at enough
      rw [gifBlocks, gifIteration]
      by_cases padding : marker = 0x00
      · rw [if_pos padding, if_pos padding]
      rw [if_neg padding, if_neg padding]
      by_cases extension : marker = 0x21
      · rw [if_pos extension, if_pos extension, extension_fuel (by omega)]
        cases (discardGIFBytes 1 reader).bind (skipGIFSubBlocks reader.length) <;> rfl
      rw [if_neg extension, if_neg extension]
      by_cases image : marker = 0x2c
      · rw [if_pos image, if_pos image]
        rcases descriptor_cases reader with short | ⟨descriptor, left, whole, rfl⟩
        · rw [gifImage_short short, discard_none short]
          split
          · rename_i found
            cases found
          · rfl
        rw [List.length_append] at enough
        rw [gifImage_whole whole, discard_some.mpr ⟨descriptor, whole, rfl⟩, List.take_left' whole]
        match descriptor, whole with
        | [_, _, _, _, _, _, _, _, flags], _ =>
            simp only [List.getD_cons_succ, List.getD_cons_zero]
            rw [image_fuel (by omega)]
            split
            · rfl
            · cases ((colourTable flags left).bind (discardGIFBytes 1)).bind
                (skipGIFSubBlocks left.length) <;> rfl
      rw [if_neg image, if_neg image]
      split <;> rfl

end Rounds

section Runs

variable {maxFrames frames n : Int} {reader rest : Bytes} {fuel : Nat}

theorem gifBlocks_block {k : Nat} {block : Bytes} (shape : Block k block)
    (within : 0 < k → 0 < maxFrames → frames + k ≤ maxFrames)
    (enough : (block ++ rest).length ≤ fuel) :
    gifBlocks maxFrames (fuel + 1) frames (block ++ rest) =
      gifBlocks maxFrames fuel (frames + k) rest := by
  rw [gifBlocks_round enough, iteration_block shape within]

/-- More fuel than bytes changes nothing. -/
theorem gifBlocks_fuel {fuel' : Nat} (enough : reader.length < fuel)
    (enough' : reader.length < fuel') :
    gifBlocks maxFrames fuel frames reader = gifBlocks maxFrames fuel' frames reader := by
  induction fuel generalizing fuel' frames reader with
  | zero => exact absurd enough (Nat.not_lt_zero _)
  | succ fuel ih =>
      cases fuel' with
      | zero => exact absurd enough' (Nat.not_lt_zero _)
      | succ fuel' =>
          rw [gifBlocks_round (Nat.le_of_lt_succ enough), gifBlocks_round (Nat.le_of_lt_succ enough')]
          split
          · rfl
          · rename_i again
            have shorter := iteration_shorter again
            exact ih (by omega) (by omega)

/-- What the loop accepts. -/
theorem gifBlocks_ok (enough : reader.length < fuel) (within : 0 < maxFrames → frames ≤ maxFrames) :
    gifBlocks maxFrames fuel frames reader = .ok n ↔
      ∃ k blocks rest, Blocks k blocks ∧ reader = blocks ++ 0x3b :: rest ∧ n = frames + k ∧ n ≠ 0 ∧
        (0 < maxFrames → n ≤ maxFrames) := by
  constructor
  · intro accepted
    induction fuel generalizing frames reader with
    | zero => cases accepted
    | succ fuel ih =>
        rw [gifBlocks_round (Nat.le_of_lt_succ enough)] at accepted
        rcases iteration_cases maxFrames frames reader with
          ⟨k, block, left, shape, rfl, few, round⟩ | ⟨left, rfl, some, round⟩ |
            ⟨_, _, -, -, -, -, round⟩ | round
        · rw [round] at accepted
          have nonempty := block_nonempty shape
          rw [List.length_append] at enough
          obtain ⟨k', blocks, rest, later, rfl, total, nonzero, bounded⟩ := ih (by omega) (by
            intro positive
            rcases Nat.eq_zero_or_pos k with zero | image
            · rw [zero, Int.natCast_zero, Int.add_zero]
              exact within positive
            · exact few image positive) accepted
          refine ⟨k + k', block ++ blocks, rest, .next shape later, ?_, ?_, nonzero, bounded⟩
          · rw [List.append_assoc]
          · rw [total, Int.natCast_add, Int.add_assoc]
        · rw [round] at accepted
          cases accepted
          exact ⟨0, [], left, .done, rfl, by simp, some, within⟩
        · rw [round] at accepted
          cases accepted
        · rw [round] at accepted
          cases accepted
  · rintro ⟨k, blocks, rest, shape, rfl, rfl, nonzero, bounded⟩
    induction shape generalizing frames fuel with
    | done =>
        rw [List.nil_append] at enough ⊢
        obtain ⟨fuel, rfl⟩ := Nat.exists_eq_succ_of_ne_zero (Nat.ne_zero_of_lt enough)
        rw [gifBlocks_round (Nat.le_of_lt_succ enough), iteration_trailer]
        rw [Int.natCast_zero, Int.add_zero] at nonzero ⊢
        rw [if_neg nonzero]
    | @next k n block blocks first later ih =>
        obtain ⟨fuel, rfl⟩ := Nat.exists_eq_succ_of_ne_zero (Nat.ne_zero_of_lt enough)
        rw [List.append_assoc] at enough ⊢
        have nonempty := block_nonempty first
        have sum : frames + ((k + n : Nat) : Int) = frames + k + n := by
          rw [Int.natCast_add, Int.add_assoc]
        rw [sum] at nonzero bounded ⊢
        have few : 0 < maxFrames → frames + k ≤ maxFrames := fun positive =>
          Int.le_trans (Int.le_add_of_nonneg_right (Int.natCast_nonneg n)) (bounded positive)
        rw [gifBlocks_block first (fun _ => few) (Nat.le_of_lt_succ enough)]
        rw [List.length_append] at enough
        exact ih few (by omega) nonzero bounded

/-- When the loop stops at the frame limit. -/
theorem gifBlocks_tooManyPixels (enough : reader.length < fuel)
    (within : 0 < maxFrames → frames ≤ maxFrames) :
    gifBlocks maxFrames fuel frames reader = .error .tooManyPixels ↔
      0 < maxFrames ∧ ∃ k blocks descriptor rest, Blocks k blocks ∧ descriptor.length = 9 ∧
        reader = blocks ++ 0x2c :: (descriptor ++ rest) ∧ frames + k = maxFrames := by
  constructor
  · intro refused
    induction fuel generalizing frames reader with
    | zero => cases refused
    | succ fuel ih =>
        rw [gifBlocks_round (Nat.le_of_lt_succ enough)] at refused
        rcases iteration_cases maxFrames frames reader with
          ⟨k, block, left, shape, rfl, few, round⟩ | ⟨left, rfl, some, round⟩ |
            ⟨descriptor, left, whole, rfl, positive, beyond, round⟩ | round
        · rw [round] at refused
          have nonempty := block_nonempty shape
          rw [List.length_append] at enough
          obtain ⟨positive, k', blocks, descriptor, rest, later, whole, rfl, total⟩ :=
            ih (by omega) (by
              intro positive
              rcases Nat.eq_zero_or_pos k with zero | image
              · rw [zero, Int.natCast_zero, Int.add_zero]
                exact within positive
              · exact few image positive) refused
          refine ⟨positive, k + k', block ++ blocks, descriptor, rest, .next shape later, whole, ?_, ?_⟩
          · rw [List.append_assoc]
          · rw [← total, Int.natCast_add, Int.add_assoc]
        · rw [round] at refused
          cases refused
        · have full := within positive
          exact ⟨positive, 0, [], descriptor, left, .done, whole, rfl, by omega⟩
        · rw [round] at refused
          cases refused
  · rintro ⟨positive, k, blocks, descriptor, rest, shape, whole, rfl, total⟩
    induction shape generalizing frames fuel with
    | done =>
        rw [List.nil_append] at enough ⊢
        obtain ⟨fuel, rfl⟩ := Nat.exists_eq_succ_of_ne_zero (Nat.ne_zero_of_lt enough)
        rw [gifBlocks_round (Nat.le_of_lt_succ enough), iteration_beyond whole positive (by omega)]
    | @next k n block blocks first later ih =>
        obtain ⟨fuel, rfl⟩ := Nat.exists_eq_succ_of_ne_zero (Nat.ne_zero_of_lt enough)
        rw [List.append_assoc] at enough ⊢
        have nonempty := block_nonempty first
        rw [Int.natCast_add, ← Int.add_assoc] at total
        have few : 0 < maxFrames → frames + k ≤ maxFrames := fun _ => by omega
        rw [gifBlocks_block first (fun _ => few) (Nat.le_of_lt_succ enough)]
        rw [List.length_append] at enough
        exact ih few total (by omega)

theorem gifBlocks_error {e : Error} (refused : gifBlocks maxFrames fuel frames reader = .error e)
    (enough : reader.length < fuel) : e = .tooManyPixels ∨ e = .invalidImage := by
  induction fuel generalizing frames reader with
  | zero => exact absurd enough (Nat.not_lt_zero _)
  | succ fuel ih =>
      rw [gifBlocks_round (Nat.le_of_lt_succ enough)] at refused
      rcases iteration_cases maxFrames frames reader with
        ⟨k, block, left, shape, rfl, few, round⟩ | ⟨_, -, -, round⟩ |
          ⟨_, _, -, -, -, -, round⟩ | round
      · rw [round] at refused
        have nonempty := block_nonempty shape
        rw [List.length_append] at enough
        exact ih refused (by omega)
      all_goals
        rw [round] at refused
        cases refused
      · exact .inl rfl
      · exact .inr rfl

end Runs

end ImageSilo.Processor
