import ImageSilo.Processor.Blocks

/-! `preflightGIFFrames` is equal to the grammar of blocks with its frame limit. -/
namespace ImageSilo.Processor

open Go

variable {content header table rest : Bytes} {maxFrames : Int}

theorem preflight_header (headed : Header header table) :
    preflightGIFFrames (header ++ (table ++ rest)) maxFrames =
      gifBlocks maxFrames (rest.length + 1) 0 rest := by
  obtain ⟨signature, whole, sized⟩ := headed
  unfold preflightGIFFrames
  simp only
  rw [List.take_left' whole, List.drop_left' whole, if_neg (by omega), if_neg (by simp [signature]),
    table_some.mpr ⟨table, sized, rfl⟩]
  apply gifBlocks_fuel
  · simp only [List.length_append]
    omega
  · exact Nat.lt_succ_self _

theorem preflight_headless (headless : ∀ header table rest, Header header table →
      content ≠ header ++ (table ++ rest)) :
    preflightGIFFrames content maxFrames = .error .invalidImage := by
  unfold preflightGIFFrames
  simp only
  split
  · rfl
  split
  · rfl
  rename_i long signed
  split
  · rfl
  rename_i reader opened
  obtain ⟨table, sized, same⟩ := table_some.mp opened
  have whole : (content.take 13).length = 13 := by
    rw [List.length_take] at long ⊢
    omega
  rw [Bool.not_eq_true', Bool.not_eq_false] at signed
  refine absurd ?_ (headless (content.take 13) table reader ⟨signed, whole, sized⟩)
  rw [← same, List.take_append_drop]

/-- A content has a header or none. -/
theorem header_or_not (content : Bytes) :
    (∃ header table rest, Header header table ∧ content = header ++ (table ++ rest)) ∨
      ∀ header table rest, Header header table → content ≠ header ++ (table ++ rest) := by
  by_cases headed : ∃ header table rest, Header header table ∧ content = header ++ (table ++ rest)
  · exact .inl headed
  · exact .inr fun header table rest shape same => headed ⟨header, table, rest, shape, same⟩

theorem preflight_ok {n : Int} : preflightGIFFrames content maxFrames = .ok n ↔
    ∃ k header table blocks rest, Header header table ∧ Blocks k blocks ∧
      content = header ++ (table ++ (blocks ++ 0x3b :: rest)) ∧ n = k ∧ 1 ≤ k ∧
      (0 < maxFrames → (k : Int) ≤ maxFrames) := by
  constructor
  · intro accepted
    rcases header_or_not content with ⟨header, table, reader, headed, rfl⟩ | headless
    · rw [preflight_header headed, gifBlocks_ok (Nat.lt_succ_self _) Int.le_of_lt] at accepted
      obtain ⟨k, blocks, rest, shape, rfl, rfl, nonzero, bounded⟩ := accepted
      rw [Int.zero_add] at nonzero bounded ⊢
      exact ⟨k, header, table, blocks, rest, headed, shape, rfl, rfl, by omega, bounded⟩
    · rw [preflight_headless headless] at accepted
      cases accepted
  · rintro ⟨k, header, table, blocks, rest, headed, shape, rfl, rfl, positive, bounded⟩
    rw [preflight_header headed, gifBlocks_ok (Nat.lt_succ_self _) Int.le_of_lt]
    exact ⟨k, blocks, rest, shape, rfl, (Int.zero_add _).symm, by omega, bounded⟩

theorem preflight_tooManyPixels :
    preflightGIFFrames content maxFrames = .error .tooManyPixels ↔
      0 < maxFrames ∧ ∃ k header table blocks descriptor rest, Header header table ∧ Blocks k blocks ∧
        (k : Int) = maxFrames ∧ descriptor.length = 9 ∧
        content = header ++ (table ++ (blocks ++ 0x2c :: (descriptor ++ rest))) := by
  constructor
  · intro refused
    rcases header_or_not content with ⟨header, table, reader, headed, rfl⟩ | headless
    · rw [preflight_header headed,
        gifBlocks_tooManyPixels (Nat.lt_succ_self _) Int.le_of_lt] at refused
      obtain ⟨positive, k, blocks, descriptor, rest, shape, whole, rfl, full⟩ := refused
      rw [Int.zero_add] at full
      exact ⟨positive, k, header, table, blocks, descriptor, rest, headed, shape, full, whole, rfl⟩
    · rw [preflight_headless headless] at refused
      cases refused
  · rintro ⟨positive, k, header, table, blocks, descriptor, rest, headed, shape, full, whole, rfl⟩
    rw [preflight_header headed, gifBlocks_tooManyPixels (Nat.lt_succ_self _) Int.le_of_lt]
    exact ⟨positive, k, blocks, descriptor, rest, shape, whole, rfl, by rw [Int.zero_add, full]⟩

theorem preflight_error {e : Error} (refused : preflightGIFFrames content maxFrames = .error e) :
    e = .tooManyPixels ∨ e = .invalidImage := by
  rcases header_or_not content with ⟨header, table, reader, headed, rfl⟩ | headless
  · rw [preflight_header headed] at refused
    exact gifBlocks_error refused (Nat.lt_succ_self _)
  · rw [preflight_headless headless] at refused
    cases refused
    exact .inr rfl

/-- `preflightGIFFrames` accepts its grammar, stops at the frame limit, refuses all else, and both its
loops consume a byte each round. -/
theorem preflight_grammar (content : Bytes) (maxFrames : Int) :
    (∀ n, preflightGIFFrames content maxFrames = .ok n ↔
      ∃ k header table blocks rest, Header header table ∧ Blocks k blocks ∧
        content = header ++ (table ++ (blocks ++ 0x3b :: rest)) ∧ n = k ∧ 1 ≤ k ∧
        (0 < maxFrames → (k : Int) ≤ maxFrames)) ∧
    (preflightGIFFrames content maxFrames = .error .tooManyPixels ↔
      0 < maxFrames ∧ ∃ k header table blocks descriptor rest, Header header table ∧ Blocks k blocks ∧
        (k : Int) = maxFrames ∧ descriptor.length = 9 ∧
        content = header ++ (table ++ (blocks ++ 0x2c :: (descriptor ++ rest)))) ∧
    (∀ e, preflightGIFFrames content maxFrames = .error e →
      e = .tooManyPixels ∨ e = .invalidImage) ∧
    (∀ frames reader fuel, reader.length ≤ fuel →
      gifBlocks maxFrames (fuel + 1) frames reader =
        match gifIteration maxFrames frames reader with
        | .returned result => result
        | .again frames reader => gifBlocks maxFrames fuel frames reader) ∧
    (∀ frames reader frames' rest, gifIteration maxFrames frames reader = .again frames' rest →
      rest.length < reader.length) ∧
    (∀ reader fuel, reader.length ≤ fuel →
      skipGIFSubBlocks fuel reader = skipGIFSubBlocks reader.length reader) ∧
    ∀ (size : UInt8) reader rest, discardGIFBytes size.toNat reader = some rest →
      rest.length < (size :: reader).length := by
  refine ⟨fun n => preflight_ok, preflight_tooManyPixels, fun e => preflight_error, ?_, ?_, ?_, ?_⟩
  · exact fun frames reader fuel enough => gifBlocks_round enough
  · exact fun frames reader frames' rest again => iteration_shorter again
  · exact fun reader fuel enough => skip_fuel enough
  · intro size reader rest discarded
    obtain ⟨skipped, -, rfl⟩ := discard_some.mp discarded
    rw [List.length_cons, List.length_append]
    omega

end ImageSilo.Processor
