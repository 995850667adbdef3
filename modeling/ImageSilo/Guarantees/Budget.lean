import ImageSilo.Guarantees.Preflight
import ImageSilo.System.Boot
import Mathlib.Algebra.Order.Ring.Int

/-! `inspectFile` in stages: `configure` up to the check of the dimensions, `countFrames` with the frame
budget, then the full decoder. -/
namespace ImageSilo.Processor

open Go

structure Configured where
  format : Format
  width : Int
  height : Int
  pixels : Int

variable (P : Platform) (content : Bytes) (limits : Limits)

/-- `InspectFile` up to the check of the dimensions. -/
def configure : Except Error Configured := do
  if content = [] then throw .invalidImage
  if 0 < limits.maxBytes ∧ limits.maxBytes < content.length then throw .fileTooLarge
  let format ← detectFormat (content.take 16)
  let configuration ← (P.decodeConfig content).elim (throw .invalidImage) pure
  if configuration.width ≤ 0 ∨ configuration.height ≤ 0 ∨ configuration.format ≠ format.name then
    throw .invalidImage
  let pixels := int64 (configuration.width * configuration.height)
  if pixels ≤ 0 ∨ (0 < limits.maxTotalPixels ∧ limits.maxTotalPixels < pixels) then
    throw .tooManyPixels
  return ⟨format, configuration.width, configuration.height, pixels⟩

/-- `maxFrames`; zero sets no limit. -/
def frameBudget (c : Configured) : Int :=
  if 0 < limits.maxTotalPixels then limits.maxTotalPixels / c.pixels else 0

/-- `preflightFrames`. -/
def countFrames (c : Configured) : Except Error Int :=
  if c.format = .gif then preflightGIFFrames content (frameBudget limits c) else pure 0

/-- `InspectFile` after the full decoder. -/
def conclude (c : Configured) (counted frames : Int) : Except Error Metadata := do
  if 0 < counted ∧ frames ≠ counted then throw .invalidImage
  if 0 < limits.maxTotalPixels ∧ limits.maxTotalPixels < int64 (c.pixels * frames) then
    throw .tooManyPixels
  let (mimeType, extension) := formatMetadata c.format
  return ⟨c.format, mimeType, extension, c.width, c.height, frames⟩

theorem inspectFile_stages : inspectFile P content limits =
    (configure P content limits).bind fun c =>
      (countFrames content limits c).bind fun counted =>
        (validateDecode P content c.format c.width c.height).bind fun frames =>
          conclude limits c counted frames := by
  unfold inspectFile configure
  by_cases empty : content = []
  · rw [if_pos empty, if_pos empty]
    rfl
  rw [if_neg empty, if_neg empty]
  by_cases large : 0 < limits.maxBytes ∧ limits.maxBytes < content.length
  · rw [if_pos large, if_pos large]
    rfl
  rw [if_neg large, if_neg large]
  cases detectFormat (content.take 16) with
  | error e => rfl
  | ok format =>
      cases P.decodeConfig content with
      | none => rfl
      | some configuration =>
          simp only [bind, Except.bind, pure, Except.pure, throw, throwThe, MonadExceptOf.throw,
            Option.elim_some]
          by_cases wrong : configuration.width ≤ 0 ∨ configuration.height ≤ 0 ∨
              configuration.format ≠ format.name
          · rw [if_pos wrong, if_pos wrong]
          rw [if_neg wrong, if_neg wrong]
          by_cases many : int64 (configuration.width * configuration.height) ≤ 0 ∨
              (0 < limits.maxTotalPixels ∧
                limits.maxTotalPixels < int64 (configuration.width * configuration.height))
          · rw [if_pos many, if_pos many]
          rw [if_neg many, if_neg many]
          unfold countFrames frameBudget conclude
          simp only
          by_cases animated : format = .gif
          · rw [if_pos animated, if_pos animated]
            split
            · rfl
            · split
              · rfl
              · split
                · rfl
                · split <;> rfl
          · rw [if_neg animated, if_neg animated]
            simp only [pure, Except.pure]
            split
            · rfl
            · split <;> rfl

section Stages

variable {P content limits} {c : Configured} {counted frames : Int}

theorem int64_of_lt {x : Int} (low : 0 ≤ x) (high : x < 2 ^ 63) : int64 x = x := by
  unfold int64
  exact Int.bmod_eq_of_le (by omega) (by omega)

/-- Dimensions below 2³¹ have a product that does not wrap. -/
theorem product_fits {width height : Int} (wide : 0 < width) (high : 0 < height)
    (small : width < 2 ^ 31 ∧ height < 2 ^ 31) : int64 (width * height) = width * height := by
  have positive := Int.mul_pos wide high
  have bounded : width * height ≤ 2 ^ 31 * 2 ^ 31 :=
    Int.mul_le_mul small.1.le small.2.le high.le (by decide)
  exact int64_of_lt positive.le (by omega)

theorem configure_ok (configured : configure P content limits = .ok c) :
    ∃ configuration, P.decodeConfig content = some configuration ∧
      c.width = configuration.width ∧ c.height = configuration.height ∧
      0 < c.width ∧ 0 < c.height ∧ c.pixels = int64 (c.width * c.height) ∧ 0 < c.pixels ∧
      (0 < limits.maxTotalPixels → c.pixels ≤ limits.maxTotalPixels) := by
  unfold configure at configured
  simp only [bind, Except.bind, pure, Except.pure, throw, throwThe, MonadExceptOf.throw] at configured
  split at configured
  · cases configured
  split at configured
  · cases configured
  split at configured
  · cases configured
  rename_i format detected
  cases decoded : P.decodeConfig content with
  | none =>
      rw [decoded] at configured
      cases configured
  | some configuration =>
      simp only [decoded, Option.elim_some, Except.pure] at configured
      by_cases wrong : configuration.width ≤ 0 ∨ configuration.height ≤ 0 ∨
          configuration.format ≠ format.name
      · rw [if_pos wrong] at configured
        cases configured
      rw [if_neg wrong] at configured
      split at configured
      · cases configured
      rename_i few
      cases configured
      refine ⟨configuration, rfl, rfl, rfl, ?_, ?_, rfl, ?_, ?_⟩
      · exact Int.not_le.mp fun bad => wrong (.inl bad)
      · exact Int.not_le.mp fun bad => wrong (.inr (.inl bad))
      · exact Int.not_le.mp fun bad => few (.inl bad)
      · exact fun limited => Int.not_lt.mp fun many => few (.inr ⟨limited, many⟩)

theorem validateDecode_ok {format : Format} {width height : Int}
    (decoded : validateDecode P content format width height = .ok frames) :
    0 < frames ∧ (format ≠ .gif → frames = 1) := by
  unfold validateDecode at decoded
  split at decoded
  · rename_i animated
    split at decoded
    · cases decoded
    · split at decoded
      · cases decoded
      · rename_i proper
        cases decoded
        have some := fun none => proper (.inl none)
        exact ⟨by omega, fun still => absurd animated still⟩
  · split at decoded
    · cases decoded
    · split at decoded
      · cases decoded
      · cases decoded
        exact ⟨by decide, fun _ => rfl⟩

/-- The images that the preflight has counted fit into the budget. -/
theorem counted_fits (positive : 0 < c.pixels) (within : c.pixels ≤ limits.maxTotalPixels)
    (animated : c.format = .gif) (found : countFrames content limits c = .ok counted) :
    0 < counted ∧ c.pixels * counted ≤ limits.maxTotalPixels := by
  unfold countFrames frameBudget at found
  rw [if_pos animated, if_pos (by omega)] at found
  obtain ⟨k, -, -, -, -, -, -, -, rfl, some, bounded⟩ := preflight_ok.mp found
  have room : 0 < limits.maxTotalPixels / c.pixels :=
    (Int.le_ediv_iff_mul_le positive).mpr (by omega)
  refine ⟨by omega, ?_⟩
  calc c.pixels * k ≤ c.pixels * (limits.maxTotalPixels / c.pixels) :=
        Int.mul_le_mul_of_nonneg_left (bounded room) positive.le
    _ ≤ limits.maxTotalPixels := Int.mul_ediv_self_le (by omega)

/-- A success has passed all stages. -/
theorem inspectFile_ok {metadata : Metadata} (inspected : inspectFile P content limits = .ok metadata) :
    ∃ c counted frames, configure P content limits = .ok c ∧
      countFrames content limits c = .ok counted ∧
      validateDecode P content c.format c.width c.height = .ok frames ∧
      conclude limits c counted frames = .ok metadata := by
  rw [inspectFile_stages] at inspected
  cases configured : configure P content limits with
  | error e =>
      rw [configured] at inspected
      cases inspected
  | ok c =>
      rw [configured] at inspected
      cases found : countFrames content limits c with
      | error e =>
          simp only [Except.bind, found] at inspected
          cases inspected
      | ok counted =>
          cases decoded : validateDecode P content c.format c.width c.height with
          | error e =>
              simp only [Except.bind, found, decoded] at inspected
              cases inspected
          | ok frames =>
              simp only [Except.bind, found, decoded] at inspected
              exact ⟨c, counted, frames, rfl, found, decoded, inspected⟩

theorem conclude_ok {metadata : Metadata}
    (concluded : conclude limits c counted frames = .ok metadata) :
    metadata.width = c.width ∧ metadata.height = c.height ∧ metadata.frames = frames ∧
      (0 < counted → frames = counted) ∧
      (0 < limits.maxTotalPixels → int64 (c.pixels * frames) ≤ limits.maxTotalPixels) := by
  unfold conclude at concluded
  simp only [bind, Except.bind, pure, Except.pure, throw, throwThe, MonadExceptOf.throw] at concluded
  split at concluded
  · cases concluded
  rename_i agreed
  split at concluded
  · cases concluded
  rename_i few
  cases concluded
  refine ⟨rfl, rfl, rfl, fun some => ?_, fun limited => Int.not_lt.mp fun many => few ⟨limited, many⟩⟩
  by_contra differ
  exact agreed ⟨some, differ⟩

/-- The last product does not wrap when it is computed. -/
theorem total_fits (positive : 0 < c.pixels) (small : c.pixels < 2 ^ 63)
    (limited : 0 < limits.maxTotalPixels) (typed : limits.maxTotalPixels < 2 ^ 63)
    (within : c.pixels ≤ limits.maxTotalPixels) (found : countFrames content limits c = .ok counted)
    (decoded : validateDecode P content c.format c.width c.height = .ok frames)
    (agreed : ¬(0 < counted ∧ frames ≠ counted)) : int64 (c.pixels * frames) = c.pixels * frames := by
  obtain ⟨some, still⟩ := validateDecode_ok decoded
  by_cases animated : c.format = .gif
  · obtain ⟨counts, fits⟩ := counted_fits positive within animated found
    have same : frames = counted := by
      by_contra differ
      exact agreed ⟨counts, differ⟩
    subst same
    exact int64_of_lt (Int.mul_pos positive some).le (by omega)
  · rw [still animated, Int.mul_one]
    exact int64_of_lt positive.le small

end Stages

/-- The budget holds of what is accepted and before anything is decoded, and nothing wraps. -/
theorem pixel_budget (P : Platform) (content : Bytes) (limits : Limits)
    (small : ∀ configuration, P.decodeConfig content = some configuration →
      configuration.width < 2 ^ 31 ∧ configuration.height < 2 ^ 31)
    (typed : limits.maxTotalPixels < 2 ^ 63) :
    (∀ metadata, inspectFile P content limits = .ok metadata → 0 < limits.maxTotalPixels →
      metadata.width * metadata.height * metadata.frames ≤ limits.maxTotalPixels) ∧
    (inspectFile P content limits =
      (configure P content limits).bind fun c =>
        (countFrames content limits c).bind fun counted =>
          (validateDecode P content c.format c.width c.height).bind fun frames =>
            conclude limits c counted frames) ∧
    (∀ configuration, P.decodeConfig content = some configuration → 0 < configuration.width →
      0 < configuration.height → int64 (configuration.width * configuration.height) =
        configuration.width * configuration.height) ∧
    ∀ c, configure P content limits = .ok c → 0 < c.pixels ∧ c.pixels = c.width * c.height ∧
      ∀ counted, countFrames content limits c = .ok counted →
        (0 < limits.maxTotalPixels → c.width * c.height ≤ limits.maxTotalPixels ∧
          (c.format = .gif → c.width * c.height * counted ≤ limits.maxTotalPixels)) ∧
        ∀ frames, validateDecode P content c.format c.width c.height = .ok frames →
          (c.format = .gif → frames ≠ counted →
            inspectFile P content limits = .error .invalidImage) ∧
          (¬(0 < counted ∧ frames ≠ counted) → 0 < limits.maxTotalPixels →
            int64 (c.pixels * frames) = c.pixels * frames) := by
  have product (c : Configured) (configured : configure P content limits = .ok c) :
      0 < c.pixels ∧ c.pixels = c.width * c.height ∧ c.pixels < 2 ^ 63 ∧
        (0 < limits.maxTotalPixels → c.pixels ≤ limits.maxTotalPixels) := by
    obtain ⟨configuration, known, sameWidth, sameHeight, wide, high, same, positive, within⟩ :=
      configure_ok configured
    have bounds := small configuration known
    rw [← sameWidth, ← sameHeight] at bounds
    rw [product_fits wide high bounds] at same
    have bounded : c.width * c.height ≤ 2 ^ 31 * 2 ^ 31 :=
      Int.mul_le_mul bounds.1.le bounds.2.le high.le (by decide)
    exact ⟨positive, same, by omega, within⟩
  refine ⟨?_, inspectFile_stages P content limits, ?_, ?_⟩
  · intro metadata inspected limited
    obtain ⟨c, counted, frames, configured, found, decoded, concluded⟩ := inspectFile_ok inspected
    obtain ⟨positive, same, fits, within⟩ := product c configured
    obtain ⟨width, height, shown, agreed, few⟩ := conclude_ok concluded
    rw [width, height, shown, ← same,
      ← total_fits positive fits limited typed (within limited) found decoded fun differ =>
        differ.2 (agreed differ.1)]
    exact few limited
  · intro configuration known wide high
    exact product_fits wide high (small configuration known)
  · intro c configured
    obtain ⟨positive, same, fits, within⟩ := product c configured
    refine ⟨positive, same, ?_⟩
    intro counted found
    refine ⟨fun limited => ?_, ?_⟩
    · rw [← same]
      exact ⟨within limited, fun animated => (counted_fits positive (within limited) animated found).2⟩
    · intro frames decoded
      refine ⟨fun animated differ => ?_, fun agreed limited =>
        total_fits positive fits limited typed (within limited) found decoded agreed⟩
      have counts : 0 < counted := by
        unfold countFrames at found
        rw [if_pos animated] at found
        obtain ⟨k, -, -, -, -, -, -, -, rfl, some, -⟩ := preflight_ok.mp found
        omega
      rw [inspectFile_stages, configured]
      simp only [Except.bind, found, decoded, conclude, bind]
      rw [if_pos ⟨counts, differ⟩]
      rfl

/-- A picture of one pixel. -/
def pixelGIF : Bytes :=
  str "GIF89a" ++ [1, 0, 1, 0, 0x80, 0, 0] ++ [0, 0, 0, 0xff, 0xff, 0xff] ++
    [0x2c, 0, 0, 0, 0, 1, 0, 1, 0, 0, 2, 2, 0x44, 1, 0, 0x3b]

def gifPlatform : Platform :=
  { samplePlatform with
    decodeConfig := fun content => if content = pixelGIF then some ⟨1, 1, str "gif"⟩ else none
    decodeAllGIF := fun content => if content = pixelGIF then some ⟨1, 1, 1⟩ else none }

theorem pixel_inspected : ∃ metadata,
    inspectFile gifPlatform pixelGIF ⟨100, 1⟩ = .ok metadata ∧
      metadata.width * metadata.height * metadata.frames ≤ 1 := by
  have bounded := (pixel_budget gifPlatform pixelGIF ⟨100, 1⟩ (by
    intro configuration known
    have same : gifPlatform.decodeConfig pixelGIF = some ⟨1, 1, str "gif"⟩ := by
      simp [gifPlatform]
    rw [same] at known
    cases known
    decide) (by decide)).1
  have inspected : inspectFile gifPlatform pixelGIF ⟨100, 1⟩ =
      .ok ⟨.gif, str "image/gif", str ".gif", 1, 1, 1⟩ := by decide +kernel
  exact ⟨_, inspected, bounded _ inspected (by decide)⟩

end ImageSilo.Processor
