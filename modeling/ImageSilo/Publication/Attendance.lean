import ImageSilo.Publication.Soundness
import ImageSilo.Publication.Viewing

/-! An image request that has not begun yet opens only files of targets that the index shows it after
that. -/
namespace ImageSilo.Publication

open Go Concurrent Storage Delivery

variable {P : Platform} {requests : Nat → Request} {σ σ' : State} {i : Nat} {a : Action} {c : Choice}
  {r : Response a} {w w' : World (machine P) Result}

def viewOf : Request → Option View
  | .serve r => some ⟨r, []⟩
  | _ => none

/-- The views of all image requests. -/
abbrev views (P : Platform) (requests : Nat → Request) : Watch (machine P) Result where
  discipline := (viewDiscipline P).optional
  begin i := viewOf (requests i)
  Final _ result v := ∀ v' ∈ v, ∀ reply, result = .replied reply → v'.explains reply

theorem request_watches (request : Request) : (request.program P).Obeys (viewDiscipline P).optional
    (fun result v => ∀ v' ∈ v, ∀ reply, result = .replied reply → v'.explains reply)
    (viewOf request) := by
  cases request with
  | serve r =>
      refine Program.Obeys.bind (serve_watches r).followed ?_
      rintro reply _ ⟨v, rfl, explains⟩ v' ⟨⟩ _ ⟨⟩
      exact explains
  | _ => exact (Program.obeys_unfollowed _).mono fun _ _ none _ some => by cases none; cases some

/-- The views after an action of caller `i`. -/
abbrev viewed (vs : Nat → Option View) (i : Nat) (a : Action) (r : Response a) :
    Nat → Option View :=
  Function.update vs i ((vs i).map fun v => ⟨v.request, ⟨a, r⟩ :: v.history⟩)

theorem viewed_some {vs : Nat → Option View} {j : Nat} {v' : View}
    (viewing : viewed vs i a r j = some v') : ∃ v, vs j = some v ∧ v'.request = v.request ∧
      (v'.history = v.history ∨ j = i ∧ v'.history = ⟨a, r⟩ :: v.history) := by
  by_cases self : j = i
  · subst self
    rw [viewed, Function.update_self] at viewing
    obtain ⟨v, some, rfl⟩ := Option.map_eq_some_iff.mp viewing
    exact ⟨v, some, rfl, .inr ⟨rfl, rfl⟩⟩
  · rw [viewed, Function.update_of_ne self] at viewing
    exact ⟨v', viewing, rfl, .inl rfl⟩

/-- In any world the calls that have not begun can be followed. -/
theorem late_watched (requests : Nat → Request) (w : World (machine P) Result) :
    ∃ vs, (views P requests).Obeyed w vs ∧
      ∀ j, vs j = viewOf (requests j) ∨ ¬ w.calls j = (requests j).program P ∧ vs j = none := by
  have each : ∀ j, ∃ v, (w.calls j).Obeys (viewDiscipline P).optional
      ((views P requests).Final j) v ∧
        (v = viewOf (requests j) ∨ ¬ w.calls j = (requests j).program P ∧ v = none) := by
    intro j
    by_cases late : w.calls j = (requests j).program P
    · refine ⟨_, ?_, .inl rfl⟩
      rw [late]
      exact request_watches (requests j)
    · refine ⟨none, ?_, .inr ⟨late, rfl⟩⟩
      exact (Program.obeys_unfollowed _).mono fun _ _ none _ some => by cases none; cases some
  choose vs watched fresh using each
  exact ⟨vs, watched, fresh⟩

/-- One more answer shows a target that was shown before, or shows it itself. -/
theorem Found.cons {h : History} {t : Target} {answer : Answer Response}
    (found : Found (answer :: h) t) : Found h t ∨ Found [answer] t := by
  rcases found with ⟨other, member⟩ | ⟨path, member⟩
  · rcases List.mem_cons.mp member with new | old
    · exact .inr (.inl ⟨other, List.mem_singleton.mpr new⟩)
    · exact .inl (.inl ⟨other, old⟩)
  · rcases List.mem_cons.mp member with new | old
    · exact .inr (.inr ⟨path, List.mem_singleton.mpr new⟩)
    · exact .inl (.inr ⟨path, old⟩)

/-- What an answer shows is a target of the index. -/
theorem Found.indexed (performed : σ.perform P i a c = some (r, σ')) {t : Target}
    (found : Found [⟨a, r⟩] t) : ∃ id, σ.index.byID.lookup id = some t := by
  rcases found with ⟨id, known⟩ | ⟨path, known⟩
  · cases List.mem_singleton.mp known
    exact ⟨id, (Prod.mk.inj (Option.some.inj performed)).1⟩
  · cases List.mem_singleton.mp known
    obtain ⟨answer, -⟩ := Prod.mk.inj (Option.some.inj performed)
    obtain ⟨id, -, there⟩ := Option.bind_eq_some_iff.mp answer
    exact ⟨id, there⟩

/-- What the requests that begin late have been shown, and what they have opened. -/
structure Attended (P : Platform) (requests : Nat → Request) (late : Nat → Prop)
    (Shown : Target → Prop) (τ : List (Event (machine P))) (vs : Nat → Option View) : Prop where
  follows : ∀ j r, late j → requests j = .serve r → ∃ v, vs j = some v
  made : ∀ j v, vs j = some v → requests j = .serve v.request
  heard : ∀ j v, vs j = some v → v.history ⊆ answersOf j τ
  found : ∀ j v t, vs j = some v → Found v.history t → Shown t
  opened : ∀ e ∈ τ, ∀ r k, late e.call → requests e.call = .serve r →
    e.action = .file (.openImage k) → ∃ t, t.storageKey = k ∧ Shown t ∧
      (t.visibility = .isPrivate → Admitted P r (answersOf e.call τ))

variable {late : Nat → Prop} {Shown Shown' : Target → Prop} {τ τ' : List (Event (machine P))}
  {vs : Nat → Option View}

theorem Attended.step (h : Attended P requests late Shown τ vs)
    (grown : ∀ t, Shown t → Shown' t) (shows : ∀ t, Found [⟨a, r⟩] t → Shown' t)
    (allowed : ∀ v ∈ vs i, v.permits P a) :
    Attended P requests late Shown' (τ ++ [⟨i, a, c, r⟩]) (viewed vs i a r) := by
  have longer : ∀ j, answersOf j τ ⊆ answersOf j (τ ++ [(⟨i, a, c, r⟩ : Event (machine P))]) := by
    intro j
    rw [answersOf_append]
    exact List.subset_append_left _ _
  constructor
  · intro j r' isLate asked
    obtain ⟨v, viewing⟩ := h.follows j r' isLate asked
    by_cases self : j = i
    · subst self
      exact ⟨_, by rw [viewed, Function.update_self, viewing]; rfl⟩
    · exact ⟨v, by rw [viewed, Function.update_of_ne self, viewing]⟩
  · intro j v' viewing
    obtain ⟨v, before, request, -⟩ := viewed_some viewing
    rw [request]
    exact h.made j v before
  · intro j v' viewing
    obtain ⟨v, before, -, same | ⟨rfl, same⟩⟩ := viewed_some viewing
    · rw [same]
      exact List.Subset.trans (h.heard j v before) (longer j)
    · rw [same]
      refine List.cons_subset.mpr ⟨?_, List.Subset.trans (h.heard j v before) (longer j)⟩
      simp [answersOf]
  · intro j v' t viewing found
    obtain ⟨v, before, -, same | ⟨rfl, same⟩⟩ := viewed_some viewing
    · rw [same] at found
      exact grown t (h.found j v t before found)
    · rw [same] at found
      rcases found.cons with old | new
      · exact grown t (h.found j v t before old)
      · exact shows t new
  · intro e member r' k isLate asked opens
    rcases List.mem_append.mp member with old | new
    · obtain ⟨t, key, shown, admits⟩ := h.opened e old r' k isLate asked opens
      exact ⟨t, key, grown t shown, fun hidden => (admits hidden).later (longer e.call)⟩
    · -- the file is that of a target looked up before
      obtain rfl := List.mem_singleton.mp new
      dsimp only at isLate asked opens ⊢
      subst opens
      obtain ⟨v, viewing⟩ := h.follows i r' isLate asked
      obtain rfl : v.request = r' := by
        have made := h.made i v viewing
        rw [asked] at made
        cases made
        rfl
      obtain ⟨t, found, rfl, access⟩ := allowed v viewing
      refine ⟨t, rfl, grown t (h.found i v t viewing found), fun hidden => ?_⟩
      exact (access hidden).later (List.Subset.trans (h.heard i v viewing) (longer i))

/-- The calls that have not begun are followed from their beginning. -/
theorem Attended.anew (fresh : ∀ j, vs j = viewOf (requests j) ∨ ¬ late j ∧ vs j = none)
    (opened : ∀ e ∈ τ, ∀ r k, late e.call → requests e.call = .serve r →
      e.action = .file (.openImage k) → ∃ t, t.storageKey = k ∧ Shown t ∧
        (t.visibility = .isPrivate → Admitted P r (answersOf e.call τ))) :
    Attended P requests late Shown τ vs := by
  have blank : ∀ j v, vs j = some v → requests j = .serve v.request ∧ v.history = [] := by
    intro j v viewing
    rcases fresh j with same | ⟨-, none⟩
    · rw [same] at viewing
      unfold viewOf at viewing
      split at viewing
      · cases viewing
        exact ⟨by assumption, rfl⟩
      · cases viewing
    · rw [none] at viewing
      cases viewing
  refine ⟨?_, fun j v viewing => (blank j v viewing).1, ?_, ?_, opened⟩
  · intro j r' isLate asked
    rcases fresh j with same | ⟨early, -⟩
    · exact ⟨⟨r', []⟩, by rw [same, asked]; rfl⟩
    · exact absurd isLate early
  · intro j v viewing
    rw [(blank j v viewing).2]
    exact List.nil_subset _
  · rintro j v t viewing (⟨other, member⟩ | ⟨path, member⟩)
    · rw [(blank j v viewing).2] at member
      cases member
    · rw [(blank j v viewing).2] at member
      cases member

/-- The rule for what late requests open: if all that the index ever shows has a property, so has the
target of every file that such a request opens, and of a private one it has shown a credential. What it
sends it has opened. -/
theorem late_opens {S : Setting (machine P) Result} (serves : Serves P requests S)
    {Inv : (watch P requests).Invariant} (keeps : (watch P requests).Keeps S Inv)
    {Shown : List (Event (machine P)) → Target → Prop}
    (grown : ∀ τ e t, Shown τ t → Shown (τ ++ [e]) t)
    (shows : ∀ τ σ ls id t, Inv τ σ ls → σ.index.byID.lookup id = some t → Shown τ t)
    (held : (watch P requests).Held Inv [] w) (run : Run S w τ w') :
    (watch P requests).Held Inv τ w' ∧
      ∀ j r, requests j = .serve r → w.calls j = (requests j).program P →
        (∀ k c r', (⟨j, .file (.openImage k), c, r'⟩ : Event (machine P)) ∈ τ →
          ∃ t, t.storageKey = k ∧ Shown τ t ∧
            (t.visibility = .isPrivate → Admitted P r (answersOf j τ))) ∧
        ∀ t bytes, w'.calls j = .done (.replied (.content t bytes)) →
          ⟨.file (.openImage t.storageKey), .ok bytes⟩ ∈ answersOf j τ := by
  have beside : (watch P requests).KeepsBeside (views P requests) S Inv fun τ _ _ vs =>
      Attended P requests (fun k => w.calls k = (requests k).program P) (Shown τ) τ vs := by
    constructor
    · rintro τ w ls vs i a next c r σ - - inv attended - - allowed performed -
      refine ⟨fun _ _ => trivial, attended.step (grown τ _) (fun t found => ?_) allowed⟩
      obtain ⟨id, there⟩ := found.indexed performed
      exact grown τ _ t (shows τ _ ls id t inv there)
    · exact fun _ attended _ => attended
    · rintro - τ σ ls vs σ' - attended -
      refine ⟨.anew (fun _ => .inl rfl) attended.opened, ?_, ?_⟩
      · rw [serves.aborted]
        exact fun _ _ _ _ aborted => by cases aborted
      · rw [serves.start]
        exact fun i => request_watches (requests i)
  obtain ⟨ls, obeyed, inv⟩ := held
  obtain ⟨vs, watched, fresh⟩ := late_watched requests w
  obtain ⟨ls', vs', obeyed', watched', inv', attended⟩ := run.held_beside keeps beside
    ⟨ls, vs, obeyed, watched, inv, .anew fresh fun _ none => absurd none List.not_mem_nil⟩
  refine ⟨⟨ls', obeyed', inv'⟩, fun j r asked unbegun => ⟨fun k c r' opens => ?_, ?_⟩⟩
  · exact attended.opened _ opens r k unbegun asked rfl
  · intro t bytes replied
    obtain ⟨v, viewing⟩ := attended.follows j r unbegun asked
    have ended := watched' j
    rw [replied, viewing] at ended
    exact attended.heard j v viewing (ended v rfl _ rfl)

end ImageSilo.Publication
