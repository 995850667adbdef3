import ImageSilo.Guarantees.RetryAfter

/-! The decisions of the limiter are those of windows that are read off the history of calls alone. -/
namespace ImageSilo

open Go Tables

inductive LimiterCall
  | attempt (key : GoString) (now : Time)
  | reset (key : GoString)

/-- What a call came to. -/
inductive LimiterRecord
  | permitted (key : GoString) (now : Time)
  | denied (key : GoString) (now : Time)
  | reset (key : GoString)

namespace LoginLimiter

def step (l : LoginLimiter) : LimiterCall → LimiterRecord × LoginLimiter
  | .attempt key now =>
      (if (l.allow key now).1.1 then .permitted key now else .denied key now, (l.allow key now).2)
  | .reset key => (.reset key, l.reset key)

/-- The calls in their order, with the history they leave. -/
def run (l : LoginLimiter) : List LimiterCall → List LimiterRecord × LoginLimiter
  | [] => ([], l)
  | call :: calls => ((l.step call).1 :: ((l.step call).2.run calls).1, ((l.step call).2.run calls).2)

end LoginLimiter

def LimiterCall.time? : LimiterCall → Option Time
  | attempt _ now => some now
  | reset _ => none

def LimiterRecord.time? : LimiterRecord → Option Time
  | permitted _ now | denied _ now => some now
  | reset _ => none

def LimiterRecord.key : LimiterRecord → GoString
  | permitted key _ | denied key _ | reset key => key

/-- A window of a key: its first attempt, and how many attempts it has permitted. -/
structure Window where
  start : Time
  permitted : Nat

section Windows

variable (length : Int) (key : GoString)

/-- The window in which a permitted attempt counts. -/
def Window.count (w : Option Window) (now : Time) : Window :=
  match w.filter fun w => now < w.start + length with
  | some w => { w with permitted := w.permitted + 1 }
  | none => ⟨now, 1⟩

def windowAfter (w : Option Window) : LimiterRecord → Option Window
  | .permitted key' now => if key' = key then some (Window.count length w now) else w
  | .denied _ _ => w
  | .reset key' => if key' = key then none else w

/-- The last window of the key in a history, also when it has ended. -/
def windowIn (history : List LimiterRecord) : Option Window :=
  history.foldl (windowAfter length key) none

/-- The window of the key that is open. -/
def windowAt (history : List LimiterRecord) (now : Time) : Option Window :=
  (windowIn length key history).filter fun w => now < w.start + length

/-- The other keys with an open window. -/
def othersAt (history : List LimiterRecord) (now : Time) : Finset GoString :=
  (history.map LimiterRecord.key).toFinset.filter fun key' =>
    key' ≠ key ∧ (windowAt length key' history now).isSome

/-- When attempts of the key were permitted. -/
def permittedTimes (history : List LimiterRecord) : List Time :=
  history.filterMap fun
    | .permitted key' now => if key' = key then some now else none
    | _ => none

end Windows

/-- The entry that stands for a window. -/
def Window.entry (length : Int) (w : Window) : LoginLimitEntry := ⟨w.permitted, w.start + length⟩

variable {limit length : Int} {l : LoginLimiter} {key key' : GoString} {now later : Time}
  {history rest : List LimiterRecord} {r : LimiterRecord} {w : Option Window} {v : Window}

section Records

theorem windowIn_append (history rest : List LimiterRecord) :
    windowIn length key (history ++ rest) =
      rest.foldl (windowAfter length key) (windowIn length key history) :=
  List.foldl_append

theorem windowIn_snoc : windowIn length key (history ++ [r]) =
    windowAfter length key (windowIn length key history) r := by
  rw [windowIn_append]
  rfl

theorem windowAfter_other (other : r.key ≠ key) : windowAfter length key w r = w := by
  cases r with
  | permitted key' now => exact if_neg other
  | denied key' now => rfl
  | reset key' => exact if_neg other

/-- A key that does not occur has no window. -/
theorem windowIn_absent (absent : key ∉ history.map LimiterRecord.key) :
    windowIn length key history = none := by
  induction history using List.reverseRecOn with
  | nil => rfl
  | append_singleton history r ih =>
      rw [List.map_append, List.mem_append, not_or] at absent
      rw [windowIn_snoc, ih absent.1]
      refine windowAfter_other ?_
      intro same
      exact absent.2 (by simp [same])

end Records

/-- The limiter knows the windows of its history. -/
structure Tracks (limit length : Int) (l : LoginLimiter) (history : List LimiterRecord) : Prop where
  limit : l.limit = limit
  window : l.window = length
  windows : ∀ now, (∀ t ∈ history.filterMap LimiterRecord.time?, t ≤ now) → ∀ key,
    (l.running now).lookup key = (windowAt length key history now).map (Window.entry length)

section Steps

theorem tracks_new (limit length : Int) : Tracks limit length (newLoginLimiter limit length) [] where
  limit := rfl
  window := rfl
  windows now _ key := by
    rw [LoginLimiter.lookup_running]
    rfl

/-- What a call has swept away is not open later either. -/
theorem lookup_swept_later (after : now ≤ later) : ((l.swept now).lookup key).filter
    (fun entry => later < entry.resetAt) = (l.running later).lookup key := by
  rw [LoginLimiter.lookup_running]
  unfold LoginLimiter.swept
  split
  · rw [lookup_keep, Option.filter_filter]
    congr 1
    funext entry
    by_cases open' : later < entry.resetAt
    · simp [open', after.trans_lt open']
    · simp [open']
  · rfl

/-- A permitted attempt counts in the window of the history. -/
theorem Tracks.entry (h : Tracks limit length l history)
    (ordered : ∀ t ∈ history.filterMap LimiterRecord.time?, t ≤ now) :
    ({ l.entryAt key now with attempts := (l.entryAt key now).attempts + 1 } : LoginLimitEntry) =
      (Window.count length (windowIn length key history) now).entry length := by
  have same := h.windows now ordered key
  unfold Window.count
  change _ = Window.entry length (match windowAt length key history now with
    | some w => _
    | none => _)
  cases there : windowAt length key history now with
  | none =>
      rw [there] at same
      rw [LoginLimiter.entryAt_fresh same, h.window]
      rfl
  | some w =>
      rw [there] at same
      rw [LoginLimiter.entryAt_running same]
      simp [Window.entry]

theorem allow_permitted (permitted : (l.allow key now).1.1 = true) :
    (l.allow key now).2.entries = (l.swept now).insert key
        { l.entryAt key now with attempts := (l.entryAt key now).attempts + 1 } ∧
      (l.allow key now).2.limit = l.limit ∧ (l.allow key now).2.window = l.window ∧
      (l.entryAt key now).attempts < l.limit := by
  unfold LoginLimiter.allow at permitted ⊢
  split
  · rename_i crowded
    rw [dif_pos crowded] at permitted
    cases permitted
  · rename_i room
    rw [dif_neg room] at permitted
    split
    · rename_i used
      rw [if_pos used] at permitted
      cases permitted
    · rename_i few
      exact ⟨rfl, rfl, rfl, not_le.mp few⟩

theorem allow_window : (l.allow key now).2.window = l.window := by
  unfold LoginLimiter.allow
  split
  · rfl
  · split <;> rfl

theorem times_before (times : ∀ t ∈ (history ++ [r]).filterMap LimiterRecord.time?, t ≤ now) :
    ∀ t ∈ history.filterMap LimiterRecord.time?, t ≤ now := by
  intro t member
  refine times t ?_
  rw [List.filterMap_append]
  exact List.mem_append_left _ member

theorem Tracks.step {call : LimiterCall} (h : Tracks limit length l history)
    (ordered : ∀ now ∈ call.time?, ∀ t ∈ history.filterMap LimiterRecord.time?, t ≤ now) :
    Tracks limit length (l.step call).2 (history ++ [(l.step call).1]) := by
  cases call with
  | reset key =>
      refine ⟨h.limit, h.window, ?_⟩
      intro now times key'
      rw [windowAt, windowIn_snoc]
      change ((l.reset key).running now).lookup key' = _
      rw [LoginLimiter.lookup_running, LoginLimiter.reset, lookup_erase_ite]
      by_cases same : key' = key
      · subst same
        simp [windowAfter, LoginLimiter.step]
      · rw [if_neg same, ← LoginLimiter.lookup_running, h.windows now (times_before times) key',
          windowAfter_other (Ne.symm same)]
        rfl
  | attempt key now =>
      have before := ordered now rfl
      cases decided : (l.allow key now).1.1 with
      | false =>
          obtain ⟨entries, limit'⟩ := LoginLimiter.denied_entries decided
          have record : (l.step (.attempt key now)).1 = .denied key now := by
            simp [LoginLimiter.step, decided]
          refine ⟨limit'.trans h.limit, allow_window.trans h.window, ?_⟩
          rw [record]
          intro later times key'
          have after : now ≤ later := times now (by simp [LimiterRecord.time?])
          rw [windowAt, windowIn_snoc]
          change ((l.allow key now).2.running later).lookup key' = _
          rw [LoginLimiter.lookup_running, entries, lookup_swept_later after]
          exact h.windows later (times_before times) key'
      | true =>
          obtain ⟨entries, limit', window', -⟩ := allow_permitted decided
          have record : (l.step (.attempt key now)).1 = .permitted key now := by
            simp [LoginLimiter.step, decided]
          refine ⟨limit'.trans h.limit, window'.trans h.window, ?_⟩
          rw [record]
          intro later times key'
          have after : now ≤ later := times now (by simp [LimiterRecord.time?])
          rw [windowAt, windowIn_snoc]
          change ((l.allow key now).2.running later).lookup key' = _
          rw [LoginLimiter.lookup_running, entries, lookup_insert_ite]
          by_cases same : key' = key
          · subst same
            rw [if_pos rfl, h.entry before, windowAfter, if_pos rfl]
            by_cases running : later <
                (Window.count length (windowIn length key' history) now).start + length
            · simp [Option.filter, Window.entry, running]
            · simp [Option.filter, Window.entry, running]
          · rw [if_neg same, lookup_swept_later after,
              h.windows later (times_before times) key',
              windowAfter_other (Ne.symm same)]
            rfl

end Steps

/-- Every permitted attempt of the key starts a window or finds room in the one that is open. -/
def Fair (limit length : Int) (key : GoString) : Option Window → List LimiterRecord → Prop
  | _, [] => True
  | w, r :: rest =>
      (∀ now, r = .permitted key now → ∀ v ∈ w, now < v.start + length → v.permitted < limit) ∧
        Fair limit length key (windowAfter length key w r) rest

theorem fair_append : Fair limit length key w (history ++ rest) ↔
    Fair limit length key w history ∧
      Fair limit length key (history.foldl (windowAfter length key) w) rest := by
  induction history generalizing w with
  | nil => simp [Fair]
  | cons r history ih =>
      rw [List.cons_append, Fair, Fair, ih, List.foldl_cons, and_assoc]

section Runs

theorem Tracks.fair {call : LimiterCall} (h : Tracks limit length l history)
    (ordered : ∀ now ∈ call.time?, ∀ t ∈ history.filterMap LimiterRecord.time?, t ≤ now) :
    ∀ now, (l.step call).1 = .permitted key now → ∀ v ∈ windowIn length key history,
      now < v.start + length → v.permitted < limit := by
  intro now permitted v there before
  cases call with
  | reset key' => cases permitted
  | attempt key' now' =>
      cases decided : (l.allow key' now').1.1 with
      | false => simp [LoginLimiter.step, decided] at permitted
      | true =>
          have same : key' = key ∧ now' = now := by
            simpa [LoginLimiter.step, decided] using permitted
          obtain ⟨rfl, rfl⟩ := same
          obtain ⟨-, -, -, few⟩ := allow_permitted decided
          have open' : windowAt length key' history now' = some v :=
            Option.filter_eq_some_iff.mpr ⟨there, decide_eq_true before⟩
          have running := h.windows now' (ordered now' rfl) key'
          rw [open'] at running
          rw [LoginLimiter.entryAt_running running, h.limit] at few
          exact few

theorem step_time (l : LoginLimiter) (call : LimiterCall) : (l.step call).1.time? = call.time? := by
  cases call with
  | reset key => rfl
  | attempt key now =>
      change (if (l.allow key now).1.1 = true then LimiterRecord.permitted key now
        else .denied key now).time? = some now
      split <;> rfl

theorem run_times (l : LoginLimiter) (calls : List LimiterCall) :
    (l.run calls).1.filterMap LimiterRecord.time? = calls.filterMap LimiterCall.time? := by
  induction calls generalizing l with
  | nil => rfl
  | cons call calls ih =>
      rw [LoginLimiter.run, List.filterMap_cons, List.filterMap_cons, step_time, ih]

/-- A run leaves a limiter that knows the windows of its history, and a history that is fair. -/
theorem Tracks.run (calls : List LimiterCall) (h : Tracks limit length l history)
    (ordered : (history.filterMap LimiterRecord.time? ++
      calls.filterMap LimiterCall.time?).Pairwise (· ≤ ·)) :
    Tracks limit length (l.run calls).2 (history ++ (l.run calls).1) ∧
      ∀ key, Fair limit length key (windowIn length key history) (l.run calls).1 := by
  induction calls generalizing l history with
  | nil => exact ⟨by simpa [LoginLimiter.run] using h, fun key => trivial⟩
  | cons call calls ih =>
      have before : ∀ now ∈ call.time?, ∀ t ∈ history.filterMap LimiterRecord.time?, t ≤ now := by
        intro now timed t member
        refine (List.pairwise_append.mp ordered).2.2 t member now ?_
        exact List.mem_filterMap.mpr ⟨call, List.mem_cons_self, timed⟩
      have times : (history ++ [(l.step call).1]).filterMap LimiterRecord.time? ++
          calls.filterMap LimiterCall.time? = history.filterMap LimiterRecord.time? ++
            (call :: calls).filterMap LimiterCall.time? := by
        rw [List.filterMap_append, List.append_assoc]
        congr 1
        rw [List.filterMap_cons, List.filterMap_cons, step_time]
        cases call.time? <;> rfl
      obtain ⟨tracks, fair⟩ := ih (h.step before) (by rw [times]; exact ordered)
      refine ⟨by simpa [LoginLimiter.run] using tracks, fun key => ⟨h.fair before, ?_⟩⟩
      rw [← windowIn_snoc]
      exact fair key

end Runs

/-- The times of permitted attempts of one key with no reset in between. -/
def Paced (limit length : Int) : Option Window → List Time → Prop
  | _, [] => True
  | w, t :: ts =>
      (∀ v ∈ w, t < v.start + length → v.permitted < limit) ∧
        Paced limit length (some (Window.count length w t)) ts

section Spans

variable {ts : List Time} {t first last : Time}

theorem permittedTimes_sublist (history : List LimiterRecord) :
    (permittedTimes key history).Sublist (history.filterMap LimiterRecord.time?) := by
  induction history with
  | nil => exact List.Sublist.refl _
  | cons r history ih =>
      cases r with
      | permitted key' now =>
          by_cases own : key' = key
          · rw [permittedTimes, List.filterMap_cons_some (b := now) (by simpa using own)]
            exact ih.cons_cons now
          · rw [permittedTimes, List.filterMap_cons_none (by simpa using own)]
            exact ih.cons now
      | denied key' now => exact ih.cons now
      | reset key' => exact ih

theorem Fair.paced (fair : Fair limit length key w history) (untouched : .reset key ∉ history) :
    Paced limit length w (permittedTimes key history) := by
  induction history generalizing w with
  | nil => trivial
  | cons r history ih =>
      obtain ⟨here, later⟩ := fair
      have rest := ih later fun member => untouched (List.mem_cons_of_mem r member)
      by_cases own : r.key = key
      · cases r with
        | permitted key' now =>
            obtain rfl : key' = key := own
            rw [permittedTimes, List.filterMap_cons_some (b := now) (by simp)]
            rw [windowAfter, if_pos rfl] at rest
            exact ⟨fun v there => here now rfl v there, rest⟩
        | denied key' now => exact rest
        | reset key' =>
            obtain rfl : key' = key := own
            exact absurd List.mem_cons_self untouched
      · rw [windowAfter_other own] at rest
        cases r with
        | permitted key' now =>
            have other : ¬ key' = key := own
            rw [permittedTimes, List.filterMap_cons_none (by simpa using other)]
            exact rest
        | denied key' now => exact rest
        | reset key' => exact rest

theorem count_fresh (ended : ∀ v ∈ w, v.start + length ≤ t) :
    Window.count length w t = ⟨t, 1⟩ := by
  unfold Window.count
  have none : w.filter (fun v => t < v.start + length) = none := by
    rw [Option.filter_eq_none_iff]
    intro v there
    simpa using ended v there
  rw [none]

theorem count_open (before : t < v.start + length) :
    Window.count length (some v) t = { v with permitted := v.permitted + 1 } := by
  unfold Window.count
  rw [show (some v).filter (fun v => t < v.start + length) = some v from
    Option.filter_eq_some_iff.mpr ⟨rfl, decide_eq_true before⟩]

/-- More attempts than a window has room for reach beyond its end. -/
theorem Paced.leaves (paced : Paced limit length (some v) ts) (many : limit - v.permitted < ts.length)
    (within : v.permitted ≤ limit) : ∃ a t b, ts = a ++ t :: b ∧ v.start + length ≤ t ∧
      a.length ≤ limit - v.permitted ∧ Paced limit length (some ⟨t, 1⟩) b := by
  induction ts generalizing v with
  | nil =>
      rw [List.length_nil] at many
      omega
  | cons t ts ih =>
      obtain ⟨room, later⟩ := paced
      by_cases before : t < v.start + length
      · have few := room v rfl before
        rw [count_open before] at later
        have shorter : limit - ((v.permitted + 1 : Nat) : Int) < ts.length := by
          rw [List.length_cons] at many
          omega
        have within' : ((v.permitted + 1 : Nat) : Int) ≤ limit := by omega
        obtain ⟨a, t', b, rfl, ended, short, rest⟩ := ih later shorter within'
        refine ⟨t :: a, t', b, rfl, ended, ?_, rest⟩
        change (a.length : Int) ≤ limit - ((v.permitted + 1 : Nat) : Int) at short
        rw [List.length_cons]
        omega
      · rw [count_fresh (by simpa using before)] at later
        refine ⟨[], t, ts, rfl, not_lt.mp before, ?_, later⟩
        rw [List.length_nil]
        omega

theorem Window.count_permitted (positive : 1 ≤ limit)
    (room : ∀ v ∈ w, t < v.start + length → v.permitted < limit) :
    1 ≤ (Window.count length w t).permitted ∧ (Window.count length w t).permitted ≤ limit := by
  by_cases running : ∃ v ∈ w, t < v.start + length
  · obtain ⟨v, rfl, before⟩ := running
    have few := room v rfl before
    rw [count_open before]
    constructor
    · exact Nat.le_add_left 1 v.permitted
    · change ((v.permitted + 1 : Nat) : Int) ≤ limit
      omega
  · rw [count_fresh (by simpa using running)]
    exact ⟨le_rfl, positive⟩

theorem Window.count_start (positive : 0 < length) :
    t < (Window.count length w t).start + length := by
  by_cases running : ∃ v ∈ w, t < v.start + length
  · obtain ⟨v, rfl, before⟩ := running
    rw [count_open before]
    exact before
  · rw [count_fresh (by simpa using running)]
    exact Int.lt_add_of_pos_right t positive

theorem last_after {before b : List Time} (ordered : (before ++ t :: b).Pairwise (· ≤ ·))
    (ends : (before ++ t :: b).getLast? = some last) : t ≤ last := by
  rw [List.getLast?_append_of_ne_nil _ (List.cons_ne_nil t b)] at ends
  have tail := (List.pairwise_append.mp ordered).2.1
  rcases List.mem_cons.mp (List.mem_of_getLast? ends) with rfl | member
  · exact le_rfl
  · exact (List.pairwise_cons.mp tail).1 last member

/-- Twice the limit and one more attempts touch three windows, so the middle one lies between the first
and the last of them. -/
theorem Paced.spans (paced : Paced limit length w ts) (positive : 1 ≤ limit) (lasts : 0 < length)
    (ordered : ts.Pairwise (· ≤ ·)) (many : 2 * limit + 1 ≤ ts.length) (begins : ts.head? = some first)
    (ends : ts.getLast? = some last) : first + length < last := by
  cases ts with
  | nil => cases begins
  | cons t ts =>
      obtain rfl : t = first := Option.some.inj begins
      obtain ⟨room, later⟩ := paced
      obtain ⟨some', most⟩ := Window.count_permitted positive room
      have start := Window.count_start (w := w) (t := t) lasts
      rw [List.length_cons] at many
      obtain ⟨a, t₂, b, rfl, second, short, rest⟩ := later.leaves (by omega) most
      rw [List.length_append, List.length_cons] at many
      have enough : limit - ((1 : Nat) : Int) < b.length := by omega
      obtain ⟨a', t₃, b', rfl, third, -, -⟩ := rest.leaves enough positive
      -- the last attempt is not before the one that starts the third window
      have ordered' : ((t :: (a ++ t₂ :: a')) ++ t₃ :: b').Pairwise (· ≤ ·) := by
        simpa using ordered
      have ends' : ((t :: (a ++ t₂ :: a')) ++ t₃ :: b').getLast? = some last := by simpa using ends
      have after : t₃ ≤ last := last_after ordered' ends'
      calc t + length < (Window.count length w t).start + length + length := by
            exact Int.add_lt_add_right start length
        _ ≤ t₂ + length := Int.add_le_add_right second length
        _ ≤ t₃ := third
        _ ≤ last := after

end Spans

section Decisions

/-- The keys with an open window are those that the limiter has. -/
theorem Tracks.others (h : Tracks limit length l history)
    (ordered : ∀ t ∈ history.filterMap LimiterRecord.time?, t ≤ now)
    (absent : (l.running now).lookup key = none) :
    othersAt length key history now = (l.running now).keys := by
  ext key'
  have same := h.windows now ordered key'
  rw [Finmap.mem_keys, ← Finmap.lookup_isSome, same, Option.isSome_map, othersAt,
    Finset.mem_filter, List.mem_toFinset]
  constructor
  · intro other
    exact other.2.2
  · intro there
    refine ⟨?_, ?_, there⟩
    · by_contra unknown
      rw [windowAt, windowIn_absent unknown] at there
      cases there
    · rintro rfl
      rw [absent] at same
      rw [← Option.isSome_map, ← same] at there
      cases there

theorem fair_within (fair : Fair limit length key w history) (positive : 1 ≤ limit)
    (within : ∀ v ∈ w, v.permitted ≤ limit) :
    ∀ v ∈ history.foldl (windowAfter length key) w, v.permitted ≤ limit := by
  induction history generalizing w with
  | nil => exact within
  | cons r history ih =>
      obtain ⟨here, later⟩ := fair
      refine ih later ?_
      cases r with
      | permitted key' now =>
          rw [windowAfter]
          split
          · rename_i own
            subst own
            rintro v ⟨⟩
            exact (Window.count_permitted positive (here now rfl)).2
          · exact within
      | denied key' now => exact within
      | reset key' =>
          rw [windowAfter]
          split
          · simp
          · exact within

theorem Tracks.denied_iff (h : Tracks limit length l history) (positive : 1 ≤ limit)
    (ordered : ∀ t ∈ history.filterMap LimiterRecord.time?, t ≤ now)
    (within : ∀ v ∈ windowIn length key history, v.permitted ≤ limit) :
    (l.allow key now).1.1 = false ↔
      (∃ v, windowAt length key history now = some v ∧ (v.permitted : Int) = limit) ∨
        (windowAt length key history now = none ∧
          (othersAt length key history now).card = maxLoginLimiterEntries) := by
  have same := h.windows now ordered key
  rw [LoginLimiter.denied_iff (h.limit.symm ▸ positive), same, h.limit, Option.map_eq_none_iff]
  refine or_congr ?_ (and_congr_right fun none => ?_)
  · constructor
    · rintro ⟨entry, there, used⟩
      obtain ⟨v, open', rfl⟩ := Option.map_eq_some_iff.mp there
      have most := within v (Option.filter_eq_some_iff.mp open').1
      exact ⟨v, open', le_antisymm most used⟩
    · rintro ⟨v, open', full⟩
      exact ⟨v.entry length, by rw [open']; rfl, full.ge⟩
  · have absent : (l.running now).lookup key = .none := by
      rw [same, none]
      rfl
    have most : (l.running now).keys.card ≤ maxLoginLimiterEntries :=
      (Finset.card_le_card (keys_keep_subset _ _)).trans l.bounded
    rw [h.others ordered absent]
    exact ⟨fun many => le_antisymm most many, fun full => full.ge⟩

/-- The limiter keeps its table within its bound; it denies a call exactly when the attempts of the key
are used up in its window or when all places are taken by open windows of other keys; and no more than
twice the limit of attempts fall into one window. -/
theorem login_limiter (limit length : Int) (positive : 1 ≤ limit) (lasts : 0 < length) (calls : List LimiterCall)
    (ordered : (calls.filterMap LimiterCall.time?).Pairwise (· ≤ ·)) :
    ((newLoginLimiter limit length).run calls).2.entries.keys.card ≤ 4096 ∧
    (∀ key now, (∀ t ∈ calls.filterMap LimiterCall.time?, t ≤ now) →
      ((((newLoginLimiter limit length).run calls).2.allow key now).1.1 = false ↔
        (∃ v, windowAt length key ((newLoginLimiter limit length).run calls).1 now = some v ∧
          (v.permitted : Int) = limit) ∨
        (windowAt length key ((newLoginLimiter limit length).run calls).1 now = none ∧
          (othersAt length key ((newLoginLimiter limit length).run calls).1 now).card = 4096))) ∧
    ∀ key before between after,
      ((newLoginLimiter limit length).run calls).1 = before ++ between ++ after →
      .reset key ∉ between → 2 * limit + 1 ≤ (permittedTimes key between).length →
      ∀ first ∈ (permittedTimes key between).head?, ∀ last ∈ (permittedTimes key between).getLast?,
        first + length < last := by
  obtain ⟨tracks, fair⟩ := (tracks_new limit length).run calls (by simpa using ordered)
  have times := run_times (newLoginLimiter limit length) calls
  refine ⟨LoginLimiter.bounded _, ?_, ?_⟩
  · intro key now late
    exact tracks.denied_iff positive (by rw [List.nil_append, times]; exact late)
      (fair_within (fair key) positive (by simp))
  · intro key before between after whole untouched many first begins last ends
    have parts := fair key
    rw [whole, fair_append, fair_append] at parts
    refine (parts.1.2.paced untouched).spans positive lasts ?_ many begins ends
    rw [← times, whole, List.filterMap_append, List.filterMap_append] at ordered
    have middle := (List.pairwise_append.mp (List.pairwise_append.mp ordered).1).2.1
    exact middle.sublist (permittedTimes_sublist between)

/-- One attempt in a window of one second is denied to a second one until the second is over. -/
theorem login_limiter_sample : (newLoginLimiter 1 second).limit = 1 ∧
    ((((newLoginLimiter 1 second).run [.attempt [] 0]).2.allow [] 1).1.1 = false ↔
      (∃ v, windowAt second [] ((newLoginLimiter 1 second).run [.attempt [] 0]).1 1 = some v ∧
        (v.permitted : Int) = 1) ∨
      (windowAt second [] ((newLoginLimiter 1 second).run [.attempt [] 0]).1 1 = none ∧
        (othersAt second [] ((newLoginLimiter 1 second).run [.attempt [] 0]).1 1).card = 4096)) := by
  refine ⟨rfl, ?_⟩
  have limiter := login_limiter 1 second le_rfl (by decide) [.attempt [] 0]
    (by simp [LimiterCall.time?])
  exact limiter.2.1 [] 1 (by simp [LimiterCall.time?])

end Decisions

end ImageSilo
