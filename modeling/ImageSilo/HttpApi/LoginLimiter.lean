import ImageSilo.Platform
import ImageSilo.Tables.Unique

/-! The limiter of logins: fixed windows per key. -/
namespace ImageSilo

open Go Tables

def maxLoginLimiterEntries : Nat := 4096

/-- The range of `time.Duration`. -/
def maxDuration : Int := 2 ^ 63 - 1

def minDuration : Int := -2 ^ 63

structure LoginLimitEntry where
  attempts : Int
  resetAt : Time

abbrev LoginLimitEntries := Finmap fun _ : GoString => LoginLimitEntry

structure LoginLimiter where
  entries : LoginLimitEntries
  limit : Int
  window : Int
  bounded : entries.keys.card ≤ maxLoginLimiterEntries

def newLoginLimiter (limit window : Int) : LoginLimiter where
  entries := ∅
  limit := limit
  window := window
  bounded := by simp

/-- `time.Time.Sub`: a difference outside the range of durations is the nearest end of it. -/
def timeSub (t u : Time) : Int := max minDuration (min maxDuration (t - u))

/-- The entries that a call looks at: a full table has lost the windows that have ended. -/
def LoginLimiter.swept (l : LoginLimiter) (now : Time) : LoginLimitEntries :=
  if maxLoginLimiterEntries ≤ l.entries.keys.card then
    keep (fun _ entry => now < entry.resetAt) l.entries
  else l.entries

theorem keys_keep_subset {β : Type} (p : GoString → β → Bool) (m : Finmap fun _ : GoString => β) :
    (keep p m).keys ⊆ m.keys := by
  intro key member
  rw [Finmap.mem_keys, ← Finmap.lookup_isSome, lookup_keep] at member
  rw [Finmap.mem_keys, ← Finmap.lookup_isSome]
  cases there : m.lookup key with
  | none => simp [there] at member
  | some v => rfl

theorem keys_insert {β : Type} (m : Finmap fun _ : GoString => β) (key : GoString) (v : β) :
    (m.insert key v).keys = insert key m.keys := by
  ext key'
  rw [Finmap.mem_keys, Finmap.mem_insert, Finset.mem_insert, Finmap.mem_keys]

theorem LoginLimiter.swept_bounded (l : LoginLimiter) (now : Time) :
    (l.swept now).keys.card ≤ maxLoginLimiterEntries := by
  unfold LoginLimiter.swept
  split
  · exact (Finset.card_le_card (keys_keep_subset _ _)).trans l.bounded
  · exact l.bounded

/-- The window a call counts in: a new one when the key has none that is still open. -/
def LoginLimiter.entryAt (l : LoginLimiter) (key : GoString) (now : Time) : LoginLimitEntry :=
  (((l.swept now).lookup key).filter fun entry => now < entry.resetAt).getD ⟨0, now + l.window⟩

/-- `loginLimiter.Allow`: whether the attempt is permitted, and how long to wait if it is not. -/
def LoginLimiter.allow (l : LoginLimiter) (key : GoString) (now : Time) :
    (Bool × Int) × LoginLimiter :=
  if full : (l.swept now).lookup key = none ∧
      maxLoginLimiterEntries ≤ (l.swept now).keys.card then
    ((false, l.window), { l with entries := l.swept now, bounded := l.swept_bounded now })
  else if l.limit ≤ (l.entryAt key now).attempts then
    ((false, timeSub (l.entryAt key now).resetAt now),
      { l with entries := l.swept now, bounded := l.swept_bounded now })
  else
    ((true, 0),
      { l with
        entries := (l.swept now).insert key
          { l.entryAt key now with attempts := (l.entryAt key now).attempts + 1 }
        bounded := by
          rw [keys_insert]
          by_cases there : key ∈ (l.swept now).keys
          · rw [Finset.insert_eq_of_mem there]
            exact l.swept_bounded now
          · have absent : (l.swept now).lookup key = none := by
              rw [Finmap.mem_keys] at there
              exact Finmap.lookup_eq_none.mpr there
            have room : (l.swept now).keys.card < maxLoginLimiterEntries := by
              by_contra crowded
              exact full ⟨absent, not_lt.mp crowded⟩
            rw [Finset.card_insert_of_notMem there]
            exact room })

def LoginLimiter.reset (l : LoginLimiter) (key : GoString) : LoginLimiter :=
  { l with
    entries := l.entries.erase key
    bounded := by
      rw [Finmap.keys_erase]
      exact (Finset.card_le_card (Finset.erase_subset _ _)).trans l.bounded }

/-- `Duration.Round(time.Second)`: half a second rounds away from zero; what does not fit becomes the
end of the range. -/
def roundToSecond (d : Int) : Int :=
  let r := d.tmod second
  if d < 0 then
    if 2 * -r < second then d - r
    else if minDuration ≤ d - second - r then d - second - r else minDuration
  else
    if 2 * r < second then d - r
    else if d + second - r ≤ maxDuration then d + second - r else maxDuration

/-- The header that `writeRateLimited` sends. The quotient of a rounded duration is exact, and the
fraction of the longest one is cut off. -/
def retryAfterSeconds (retry : Int) : Int := max 1 ((roundToSecond retry).tdiv second)

end ImageSilo
