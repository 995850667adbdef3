import ImageSilo.HttpApi.LoginLimiter

/-! The wait that a client is told is the time left of its window, rounded to seconds. -/
namespace ImageSilo

open Go Tables

namespace LoginLimiter

variable {l : LoginLimiter} {key key' : GoString} {now later : Time} {entry : LoginLimitEntry}

/-- The windows that are open. -/
def running (l : LoginLimiter) (now : Time) : LoginLimitEntries :=
  keep (fun _ entry => now < entry.resetAt) l.entries

theorem lookup_running (l : LoginLimiter) (now : Time) (key : GoString) :
    (l.running now).lookup key = (l.entries.lookup key).filter fun entry => now < entry.resetAt :=
  lookup_keep _ _ _

theorem running_some : (l.running now).lookup key = some entry ↔
    l.entries.lookup key = some entry ∧ now < entry.resetAt := by
  rw [lookup_running, Option.filter_eq_some_iff, decide_eq_true_eq]

/-- A window that a full table has dropped was not open. -/
theorem lookup_swept (l : LoginLimiter) (now : Time) (key : GoString) :
    ((l.swept now).lookup key).filter (fun entry => now < entry.resetAt) =
      (l.running now).lookup key := by
  rw [lookup_running]
  unfold swept
  split
  · rw [lookup_keep, Option.filter_filter]
    simp
  · rfl

theorem entryAt_running (there : (l.running now).lookup key = some entry) :
    l.entryAt key now = entry := by
  rw [entryAt, lookup_swept, there]
  rfl

theorem entryAt_fresh (absent : (l.running now).lookup key = none) :
    l.entryAt key now = ⟨0, now + l.window⟩ := by
  rw [entryAt, lookup_swept, absent]
  rfl

/-- The table has no room for a new key exactly when it is full of open windows of other keys. -/
theorem crowded_iff : ((l.swept now).lookup key = none ∧
    maxLoginLimiterEntries ≤ (l.swept now).keys.card) ↔
    (l.running now).lookup key = none ∧ maxLoginLimiterEntries ≤ (l.running now).keys.card := by
  unfold swept running
  split
  · exact Iff.rfl
  · rename_i room
    constructor
    · intro crowded
      exact absurd crowded.2 room
    · intro crowded
      have fewer := Finset.card_le_card (keys_keep_subset
        (fun _ (entry : LoginLimitEntry) => now < entry.resetAt) l.entries)
      exact absurd (crowded.2.trans fewer) room

/-- A call is denied because of the attempts of its own key, or because the table is full. -/
theorem denied_iff (positive : 1 ≤ l.limit) : (l.allow key now).1.1 = false ↔
    (∃ entry, (l.running now).lookup key = some entry ∧ l.limit ≤ entry.attempts) ∨
      ((l.running now).lookup key = none ∧
        maxLoginLimiterEntries ≤ (l.running now).keys.card) := by
  unfold allow
  split
  · rename_i crowded
    exact iff_of_true rfl (.inr (crowded_iff.mp crowded))
  · rename_i room
    have room' := fun crowded => room (crowded_iff.mpr crowded)
    cases there : (l.running now).lookup key with
    | none =>
        have few : ¬ l.limit ≤ (l.entryAt key now).attempts := by
          rw [entryAt_fresh there]
          exact not_le.mpr positive
        rw [if_neg few]
        refine iff_of_false (by simp) ?_
        rintro (⟨entry, eq, -⟩ | ⟨-, many⟩)
        · cases eq
        · exact room' ⟨there, many⟩
    | some entry =>
        have same := entryAt_running there
        by_cases used : l.limit ≤ (l.entryAt key now).attempts
        · rw [if_pos used]
          rw [same] at used
          exact iff_of_true rfl (.inl ⟨entry, rfl, used⟩)
        · rw [if_neg used]
          rw [same] at used
          refine iff_of_false (by simp) ?_
          rintro (⟨entry', eq, used'⟩ | ⟨absent, -⟩)
          · cases eq
            exact used used'
          · cases absent

/-- A denied call changes no window that is open. -/
theorem denied_entries (denied : (l.allow key now).1.1 = false) :
    (l.allow key now).2.entries = l.swept now ∧ (l.allow key now).2.limit = l.limit := by
  unfold allow at denied ⊢
  split
  · exact ⟨rfl, rfl⟩
  · rename_i room
    rw [dif_neg room] at denied
    split
    · exact ⟨rfl, rfl⟩
    · rename_i few
      rw [if_neg few] at denied
      cases denied

theorem denied_wait (there : (l.running now).lookup key = some entry)
    (used : l.limit ≤ entry.attempts) : (l.allow key now).1 = (false, timeSub entry.resetAt now) := by
  have room : ¬ ((l.swept now).lookup key = none ∧
      maxLoginLimiterEntries ≤ (l.swept now).keys.card) := by
    rw [crowded_iff, there]
    simp
  have same := entryAt_running there
  have used' : l.limit ≤ (l.entryAt key now).attempts := by
    rw [same]
    exact used
  unfold allow
  rw [dif_neg room, if_pos used']
  exact congrArg (fun e : LoginLimitEntry => (false, timeSub e.resetAt now)) same

/-- With no other call in between, a key whose attempts are used up is permitted again exactly when its
window has ended. -/
theorem again_iff (positive : 1 ≤ l.limit) (there : (l.running now).lookup key = some entry)
    (used : l.limit ≤ entry.attempts) :
    ((l.allow key now).2.allow key later).1.1 = true ↔ entry.resetAt ≤ later := by
  have denied : (l.allow key now).1.1 = false := by rw [denied_wait there used]
  obtain ⟨entries, limit⟩ := denied_entries denied
  have kept : (l.allow key now).2.entries.lookup key = some entry := by
    obtain ⟨found, before⟩ := running_some.mp there
    rw [entries, swept]
    split
    · exact there
    · exact found
  rw [← Bool.not_eq_false, denied_iff (limit.symm ▸ positive), limit]
  constructor
  · intro permitted
    by_contra early
    exact permitted (.inl ⟨entry, running_some.mpr ⟨kept, not_le.mp early⟩, used⟩)
  · rintro ended (⟨entry', eq, -⟩ | ⟨absent, many⟩)
    · obtain ⟨found, before⟩ := running_some.mp eq
      rw [kept] at found
      cases found
      exact absurd ended (not_le.mpr before)
    · -- the key itself is in the table but not among the open windows
      have mine : key ∈ (l.allow key now).2.entries.keys := by
        rw [Finmap.mem_keys]
        exact Finmap.mem_of_lookup_eq_some kept
      have gone : key ∉ ((l.allow key now).2.running later).keys := by
        rw [Finmap.mem_keys]
        exact Finmap.lookup_eq_none.mp absent
      have fewer : ((l.allow key now).2.running later).keys ⊂ (l.allow key now).2.entries.keys :=
        (Finset.ssubset_iff_of_subset (keys_keep_subset _ _)).mpr ⟨key, mine, gone⟩
      exact absurd ((Finset.card_lt_card fewer).trans_le (l.allow key now).2.bounded)
        (not_lt.mpr many)

end LoginLimiter

/-- The rounding does not shorten a wait. -/
def RoundsUp (remaining : Int) : Prop :=
  remaining < second ∨
    ((remaining % second = 0 ∨ second ≤ 2 * (remaining % second)) ∧ remaining ≤ ofUnix 9223372036)

instance (remaining : Int) : Decidable (RoundsUp remaining) :=
  inferInstanceAs (Decidable (_ ∨ (_ ∨ _) ∧ _))

/-- What is told of a wait of `d` nanoseconds is at least that long. -/
theorem advertised_suffices {d : Int} (positive : 0 < d) :
    d ≤ retryAfterSeconds (max minDuration (min maxDuration d)) * second ↔ RoundsUp d := by
  unfold RoundsUp retryAfterSeconds roundToSecond
  rw [show ofUnix 9223372036 = (9223372036000000000 : Int) from rfl]
  rw [show minDuration = (-9223372036854775808 : Int) from rfl,
    show maxDuration = (9223372036854775807 : Int) from rfl, show second = (1000000000 : Int) from rfl]
  by_cases fits : d ≤ 9223372036854775807
  · have same : max (-9223372036854775808) (min 9223372036854775807 d) = d := by omega
    have quotient := Int.tmod_eq_emod_of_nonneg (b := 1000000000) positive.le
    rw [same, quotient, if_neg (not_lt.mpr positive.le)]
    split
    · rw [Int.tdiv_eq_ediv_of_nonneg (by omega)]
      omega
    · split
      · rw [Int.tdiv_eq_ediv_of_nonneg (by omega)]
        omega
      · rw [Int.tdiv_eq_ediv_of_nonneg (by omega)]
        omega
  · -- a difference beyond the range of durations is cut off, and so is its fraction
    have same : max (-9223372036854775808) (min 9223372036854775807 d) = 9223372036854775807 := by
      omega
    have cut : (9223372036854775807 : Int).tmod 1000000000 = 854775807 := by decide
    have seconds : (9223372036854775807 : Int).tdiv 1000000000 = 9223372036 := by decide
    rw [same, cut, if_neg (by decide), if_neg (by decide), if_neg (by decide), seconds]
    omega

theorem advertised_iff {now resetAt : Time} (before : now < resetAt) :
    resetAt ≤ now + ofUnix (retryAfterSeconds (timeSub resetAt now)) ↔ RoundsUp (resetAt - now) := by
  have positive : (0 : Int) < resetAt - now := Int.sub_pos_of_lt before
  rw [← advertised_suffices positive]
  exact ⟨Int.sub_left_le_of_le_add, Int.le_add_of_sub_left_le⟩

/-- With no other call in between, a key whose attempts are used up is permitted from the advertised
second on exactly when the rounding has not shortened its wait. -/
theorem retry_after_suffices_iff (l : LoginLimiter) (positive : 1 ≤ l.limit) (key : GoString)
    (now : Time) (entry : LoginLimitEntry) (there : l.entries.lookup key = some entry)
    (before : now < entry.resetAt) (used : l.limit ≤ entry.attempts) :
    (l.allow key now).1.1 = false ∧
      ((∀ later, now + ofUnix (retryAfterSeconds (l.allow key now).1.2) ≤ later →
        ((l.allow key now).2.allow key later).1.1 = true) ↔ RoundsUp (entry.resetAt - now)) := by
  have running := LoginLimiter.running_some.mpr ⟨there, before⟩
  have wait := LoginLimiter.denied_wait running used
  rw [← advertised_iff before, wait]
  constructor
  · rfl
  constructor
  · intro permitted
    exact (LoginLimiter.again_iff positive running used).mp (permitted _ le_rfl)
  · intro ended later after
    exact (LoginLimiter.again_iff positive running used).mpr (ended.trans after)

/-- One attempt in a window of the given length. -/
def usedUp (window : Int) : LoginLimiter := ((newLoginLimiter 1 window).allow [] 0).2

theorem usedUp_lookup (window : Int) : (usedUp window).entries.lookup [] = some ⟨1, 0 + window⟩ :=
  Finmap.lookup_insert ∅

/-- With 1.5 seconds left two are advertised. -/
theorem retry_after_sample : RoundsUp 1500000000 ∧
    ∀ later, ofUnix 2 ≤ later → (((usedUp 1500000000).allow [] 0).2.allow [] later).1.1 = true := by
  have rounds : RoundsUp (0 + 1500000000 - 0) := by decide
  have told := retry_after_suffices_iff (usedUp 1500000000) (by decide) [] 0 ⟨1, 0 + 1500000000⟩
    (usedUp_lookup 1500000000) (by decide) (by decide)
  exact ⟨by decide, told.2.mpr rounds⟩

/-- With 1.4 seconds left one is advertised, and the attempt after it is denied again. -/
theorem retry_after_too_short : ¬ ∀ (l : LoginLimiter) (key : GoString) (now : Time)
    (entry : LoginLimitEntry), 1 ≤ l.limit → l.entries.lookup key = some entry →
    now < entry.resetAt → l.limit ≤ entry.attempts → ∀ later,
    now + ofUnix (retryAfterSeconds (l.allow key now).1.2) ≤ later →
    ((l.allow key now).2.allow key later).1.1 = true := by
  intro claim
  have there := usedUp_lookup 1400000000
  have running : ((usedUp 1400000000).running 0).lookup [] = some ⟨1, 0 + 1400000000⟩ :=
    LoginLimiter.running_some.mpr ⟨there, by decide⟩
  have permitted := claim (usedUp 1400000000) [] 0 _ (by decide) there (by decide) (by decide)
    (ofUnix 1) (by rw [LoginLimiter.denied_wait running (by decide)]; decide)
  have ended := (LoginLimiter.again_iff (by decide) running (by decide)).mp permitted
  exact absurd ended (by decide)

end ImageSilo
