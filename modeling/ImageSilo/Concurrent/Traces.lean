import ImageSilo.Concurrent.Interleaving

/-! A run can be cut at any event, and a caller is always where its answers have led its program. -/
namespace Concurrent

variable {Action : Type} {Response : Action → Type} {α β Result : Type}

/-- An action with the answer it has met. -/
abbrev Answer (Response : Action → Type) := (a : Action) × Response a

namespace Program

/-- The answers that lead from one program to another. -/
inductive Follows : Program Action Response α → List (Answer Response) →
    Program Action Response α → Prop
  | refl (p : Program Action Response α) : Follows p [] p
  | act {a : Action} {next : Response a → Program Action Response α} {r : Response a}
      {answers : List (Answer Response)} {q : Program Action Response α} :
      Follows (next r) answers q → Follows (.act a next) (⟨a, r⟩ :: answers) q

theorem Follows.snoc {p : Program Action Response α} {answers : List (Answer Response)} {a : Action}
    {next : Response a → Program Action Response α} (h : p.Follows answers (.act a next))
    (r : Response a) : p.Follows (answers ++ [⟨a, r⟩]) (next r) := by
  generalize same : Program.act a next = q at h
  induction h with
  | refl p =>
      subst same
      exact .act (.refl _)
  | act _ ih => exact .act (ih same)

theorem Follows.trans {p q s : Program Action Response α} {first second : List (Answer Response)}
    (h : p.Follows first q) (k : q.Follows second s) : p.Follows (first ++ second) s := by
  induction h with
  | refl p => exact k
  | act _ ih => exact .act (ih k)

theorem follows_done {v : α} {answers : List (Answer Response)} {q : Program Action Response α} :
    (Program.done v : Program Action Response α).Follows answers q ↔
      answers = [] ∧ q = .done v := by
  constructor
  · intro h
    cases h
    exact ⟨rfl, rfl⟩
  · rintro ⟨rfl, rfl⟩
    exact .refl _

/-- The answers with which a program ends in a value. -/
def Yields (p : Program Action Response α) (answers : List (Answer Response)) (v : α) : Prop :=
  p.Follows answers (.done v)

theorem yields_done {u v : α} {answers : List (Answer Response)} :
    (Program.done u : Program Action Response α).Yields answers v ↔ answers = [] ∧ v = u := by
  rw [Yields, follows_done, Program.done.injEq]

@[simp] theorem yields_pure {u v : α} {answers : List (Answer Response)} :
    (pure u : Program Action Response α).Yields answers v ↔ answers = [] ∧ v = u := yields_done

theorem yields_act {a : Action} {next : Response a → Program Action Response α}
    {answers : List (Answer Response)} {v : α} :
    (Program.act a next).Yields answers v ↔
      ∃ r rest, answers = ⟨a, r⟩ :: rest ∧ (next r).Yields rest v := by
  constructor
  · intro h
    cases h with
    | act later => exact ⟨_, _, rfl, later⟩
  · rintro ⟨r, rest, rfl, later⟩
    exact .act later

@[simp] theorem yields_perform {a : Action} {answers : List (Answer Response)} {r : Response a} :
    (perform a : Program Action Response (Response a)).Yields answers r ↔ answers = [⟨a, r⟩] := by
  rw [perform, yields_act]
  simp only [yields_done]
  constructor
  · rintro ⟨s, rest, rfl, rfl, rfl⟩
    rfl
  · rintro rfl
    exact ⟨r, [], rfl, rfl, rfl⟩

/-- A sequence ends when both of its parts have. -/
@[simp] theorem yields_bind {p : Program Action Response α} {f : α → Program Action Response β}
    {answers : List (Answer Response)} {v : β} :
    (p >>= f).Yields answers v ↔ ∃ u first second, answers = first ++ second ∧
      p.Yields first u ∧ (f u).Yields second v := by
  change (p.bind f).Yields answers v ↔ _
  induction p generalizing answers with
  | done u =>
      constructor
      · intro h
        exact ⟨u, [], answers, rfl, .refl _, h⟩
      · rintro ⟨u', first, second, rfl, here, later⟩
        obtain ⟨rfl, rfl⟩ := yields_done.mp here
        exact later
  | act a next ih =>
      rw [Program.bind, yields_act]
      constructor
      · rintro ⟨r, rest, rfl, later⟩
        obtain ⟨u, first, second, rfl, here, there⟩ := (ih r).mp later
        exact ⟨u, ⟨a, r⟩ :: first, second, rfl, .act here, there⟩
      · rintro ⟨u, first, second, rfl, here, there⟩
        obtain ⟨r, rest, rfl, later⟩ := yields_act.mp here
        exact ⟨r, rest ++ second, rfl, (ih r).mpr ⟨u, rest, second, rfl, later, there⟩⟩

theorem map_act {f : α → β} {p : Program Action Response α} {a : Action}
    {next : Response a → Program Action Response β} (same : p.map f = .act a next) :
    ∃ inner, p = .act a inner ∧ next = fun r => (inner r).map f := by
  cases p with
  | done v => cases same
  | act b inner =>
      cases same
      exact ⟨inner, rfl, rfl⟩

theorem map_done {f : α → β} {p : Program Action Response α} {v : β} (same : p.map f = .done v) :
    ∃ u, p = .done u ∧ f u = v := by
  cases p with
  | done u =>
      cases same
      exact ⟨u, rfl, rfl⟩
  | act b inner => cases same

theorem yields_map {f : α → β} {p : Program Action Response α} {answers : List (Answer Response)}
    {v : β} : (p.map f).Yields answers v ↔ ∃ u, p.Yields answers u ∧ f u = v := by
  induction p generalizing answers with
  | done u =>
      constructor
      · intro h
        obtain ⟨rfl, rfl⟩ := yields_done.mp h
        exact ⟨u, .refl _, rfl⟩
      · rintro ⟨u', h, rfl⟩
        obtain ⟨rfl, rfl⟩ := yields_done.mp h
        exact .refl _
  | act a next ih =>
      rw [map, yields_act]
      constructor
      · rintro ⟨r, rest, rfl, later⟩
        obtain ⟨u, inner, rfl⟩ := (ih r).mp later
        exact ⟨u, .act inner, rfl⟩
      · rintro ⟨u, inner, rfl⟩
        obtain ⟨r, rest, rfl, later⟩ := yields_act.mp inner
        exact ⟨r, rest, rfl, (ih r).mpr ⟨u, later, rfl⟩⟩

end Program

variable {M : Machine Action Response} {S : Setting M Result} {w w' : World M Result}
  {τ : List (Event M)}

/-- What one caller has been answered. -/
def answersOf (i : Nat) (τ : List (Event M)) : List (Answer Response) :=
  (τ.filter fun e => e.call == i).map fun e => ⟨e.action, e.response⟩

@[simp] theorem answersOf_nil (i : Nat) : answersOf i ([] : List (Event M)) = [] := rfl

theorem answersOf_append (i : Nat) (τ τ' : List (Event M)) :
    answersOf i (τ ++ τ') = answersOf i τ ++ answersOf i τ' := by
  simp [answersOf]

/-- What a caller has been answered is in the trace. -/
theorem event_of_answer {i : Nat} {a : Action} {r : Response a}
    (answered : (⟨a, r⟩ : Answer Response) ∈ answersOf i τ) :
    ∃ c, (⟨i, a, c, r⟩ : Event M) ∈ τ := by
  obtain ⟨e, member, eq⟩ := List.mem_map.mp answered
  obtain ⟨known, own⟩ := List.mem_filter.mp member
  obtain ⟨j, a', c, r'⟩ := e
  obtain rfl : j = i := by simpa using own
  cases eq
  exact ⟨c, known⟩

/-- Where in a trace a caller got its next answer. -/
theorem answersOf_cons {i : Nat} {answer : Answer Response} {rest : List (Answer Response)}
    (answers : answersOf i τ = answer :: rest) : ∃ before c after,
      τ = before ++ (⟨i, answer.1, c, answer.2⟩ : Event M) :: after ∧ answersOf i after = rest := by
  obtain ⟨e, events, own, rfl, rfl⟩ := List.map_eq_cons_iff.mp answers
  obtain ⟨before, after, rfl, -, mine, rfl⟩ := List.filter_eq_cons_iff.mp own
  obtain ⟨j, a, c, r⟩ := e
  obtain rfl : j = i := by simpa using mine
  exact ⟨before, c, after, rfl, rfl⟩

theorem Run.follows (calm : ¬ S.Crashes) (run : Run S w τ w') (i : Nat) :
    (w.calls i).Follows (answersOf i τ) (w'.calls i) := by
  induction run with
  | refl => exact .refl _
  | @call w₁ τ j a next c r σ _ same _ _ ih =>
      rw [answersOf_append]
      by_cases mine : j = i
      · subst mine
        rw [World.proceed_self]
        have single : answersOf j [(⟨j, a, c, r⟩ : Event M)] = [⟨a, r⟩] := by simp [answersOf]
        rw [single]
        rw [same] at ih
        exact ih.snoc r
      · rw [World.proceed_other _ _ _ (Ne.symm mine)]
        have none : answersOf i [(⟨j, a, c, r⟩ : Event M)] = [] := by simp [answersOf, mine]
        rw [none, List.append_nil]
        exact ih
  | environment _ _ ih => exact ih
  | crash _ crashed => exact absurd crashed calm

/-- A call that no crash has dropped is where its answers have led it. -/
theorem Run.follows_or_aborted (run : Run S w τ w') (i : Nat) :
    w'.calls i = .done S.aborted ∨ (w.calls i).Follows (answersOf i τ) (w'.calls i) := by
  induction run with
  | refl => exact .inr (.refl _)
  | @call w₁ τ j a next c r σ _ same _ _ ih =>
      rw [answersOf_append]
      by_cases mine : j = i
      · subst mine
        rw [World.proceed_self]
        rw [same] at ih
        have single : answersOf j [(⟨j, a, c, r⟩ : Event M)] = [⟨a, r⟩] := by simp [answersOf]
        rw [single]
        rcases ih with dropped | followed
        · cases dropped
        · exact .inr (followed.snoc r)
      · rw [World.proceed_other _ _ _ (Ne.symm mine)]
        have none : answersOf i [(⟨j, a, c, r⟩ : Event M)] = [] := by simp [answersOf, mine]
        rw [none, List.append_nil]
        exact ih
  | environment _ _ ih => exact ih
  | @crash w₁ τ σ calls _ _ _ dropped ih =>
      change calls i = _ ∨ (w.calls i).Follows _ (calls i)
      rcases dropped i with gone | ⟨kept, -⟩
      · exact .inl gone
      · rwa [kept]

/-- A call that has ended stays as it is. -/
theorem Run.finished (calm : ¬ S.Crashes) (run : Run S w τ w') {i : Nat} {v : Result}
    (ended : w.calls i = .done v) : w'.calls i = .done v := by
  have followed := run.follows calm i
  rw [ended] at followed
  exact (Program.follows_done.mp followed).2

/-- The first event of a run, and the run after it. -/
theorem Run.cons_inv (calm : ¬ S.Crashes) {e : Event M} (run : Run S w (e :: τ) w') :
    ∃ w₁ next σ, Run S w [] w₁ ∧ w₁.calls e.call = .act e.action next ∧
      M.perform e.call e.action e.choice w₁.shared = some (e.response, σ) ∧ S.Admits w₁ e ∧
      Run S (w₁.proceed e.call σ (next e.response)) τ w' := by
  generalize whole : e :: τ = τ' at run
  induction run generalizing τ with
  | refl => cases whole
  | @call w₁ τ₁ i a next c r σ before same step admitted ih =>
      cases τ₁ with
      | nil =>
          obtain ⟨rfl, rfl⟩ := List.cons.inj whole
          exact ⟨w₁, next, σ, before, same, step, admitted, .refl⟩
      | cons e' τ₂ =>
          obtain ⟨rfl, rfl⟩ := List.cons.inj whole
          obtain ⟨w₂, next', σ', first, same', step', admitted', later⟩ := ih rfl
          exact ⟨w₂, next', σ', first, same', step', admitted', .call later same step admitted⟩
  | environment _ moved ih =>
      obtain ⟨w₂, next', σ', first, same', step', admitted', later⟩ := ih whole
      exact ⟨w₂, next', σ', first, same', step', admitted', .environment later moved⟩
  | crash _ crashed => exact absurd crashed calm

theorem Run.split (calm : ¬ S.Crashes) {τ₁ τ₂ : List (Event M)} (run : Run S w (τ₁ ++ τ₂) w') :
    ∃ w₁, Run S w τ₁ w₁ ∧ Run S w₁ τ₂ w' := by
  induction τ₁ generalizing w with
  | nil => exact ⟨w, .refl, run⟩
  | cons e τ₁ ih =>
      obtain ⟨w₁, next, σ, before, same, step, admitted, later⟩ := Run.cons_inv calm run
      obtain ⟨w₂, first, second⟩ := ih later
      have single : Run S w [e] (w₁.proceed e.call σ (next e.response)) :=
        .call before same step admitted
      exact ⟨w₂, single.trans first, second⟩

/-- Programs whose values are only wrapped have the runs of what they wrap. -/
theorem Run.unwrap {f : Result → β} {S' : Setting M β} (calm : ¬ S'.Crashes)
    (admits : ∀ w w' e, w.shared = w'.shared → S'.Admits w' e → S.Admits w e) {σ : M.Shared}
    {calls : Nat → Program Action Response Result} {w' : World M β}
    (run : Run S' ⟨σ, fun k => (calls k).map f⟩ τ w') : ∃ inner : Nat → Program Action Response Result,
      (w'.calls = fun k => (inner k).map f) ∧ Run S ⟨σ, calls⟩ τ ⟨w'.shared, inner⟩ := by
  induction run with
  | refl => exact ⟨calls, rfl, .refl⟩
  | @call w₁ τ i a next c r σ' _ same performed admitted ih =>
      obtain ⟨inner, wrapped, inside⟩ := ih
      rw [wrapped] at same
      obtain ⟨rest, here, rfl⟩ := Program.map_act same
      refine ⟨Function.update inner i (rest r), ?_, ?_⟩
      · funext k
        by_cases mine : k = i
        · subst mine
          rw [World.proceed_self, Function.update_self]
        · rw [World.proceed_other _ _ _ mine, Function.update_of_ne mine, wrapped]
      · exact .call inside here performed (admits _ _ _ rfl admitted)
  | environment _ moved ih =>
      obtain ⟨inner, wrapped, inside⟩ := ih
      exact ⟨inner, wrapped, .environment inside moved⟩
  | crash _ crashed => exact absurd crashed calm

end Concurrent
