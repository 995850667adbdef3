import ImageSilo.Concurrent.Traces

/-! `Solo` is what a run comes to for a caller that acts while nobody else does. -/
namespace Concurrent

variable {Action : Type} {Response : Action → Type} {α β Result : Type} {M : Machine Action Response}

/-- A program that runs alone to its end; only the environment moves meanwhile, and the choices are
allowed ones. -/
inductive Machine.Solo (M : Machine Action Response) (i : Nat) (Allowed : Action → M.Choice → Prop) :
    Program Action Response α → M.Shared → List (Answer Response) → α → M.Shared → Prop
  | done (v : α) (σ : M.Shared) : Solo M i Allowed (.done v) σ [] v σ
  | act {a : Action} {next : Response a → Program Action Response α} {c : M.Choice} {r : Response a}
      {σ σ' σ'' : M.Shared} {answers : List (Answer Response)} {v : α} :
      Allowed a c → M.perform i a c σ = some (r, σ') → Solo M i Allowed (next r) σ' answers v σ'' →
      Solo M i Allowed (.act a next) σ (⟨a, r⟩ :: answers) v σ''
  | environment {p : Program Action Response α} {σ σ' σ'' : M.Shared}
      {answers : List (Answer Response)} {v : α} :
      M.environment σ σ' → Solo M i Allowed p σ' answers v σ'' → Solo M i Allowed p σ answers v σ''

variable {i : Nat} {Allowed : Action → M.Choice → Prop} {σ σ' : M.Shared}
  {answers : List (Answer Response)}

/-- A sequence is one program and then the other. -/
theorem Machine.Solo.bind {p : Program Action Response α} {f : α → Program Action Response β} {v : β}
    (h : M.Solo i Allowed (p >>= f) σ answers v σ') : ∃ u σ₁ first second,
      answers = first ++ second ∧ M.Solo i Allowed p σ first u σ₁ ∧
        M.Solo i Allowed (f u) σ₁ second v σ' := by
  generalize whole : p >>= f = q at h
  induction h generalizing p with
  | done v σ =>
      cases p with
      | done u =>
          change f u = _ at whole
          refine ⟨u, σ, [], [], rfl, .done u σ, ?_⟩
          rw [whole]
          exact .done v σ
      | act a next => cases whole
  | @act a next c r σ σ₁ σ₂ answers v allowed performed later ih =>
      cases p with
      | done u =>
          change f u = _ at whole
          refine ⟨u, σ, [], _, rfl, .done u σ, ?_⟩
          rw [whole]
          exact .act allowed performed later
      | act b rest =>
          cases whole
          obtain ⟨u, σ₃, first, second, rfl, here, there⟩ := ih rfl
          exact ⟨u, σ₃, _, second, rfl, .act allowed performed here, there⟩
  | environment moved later ih =>
      obtain ⟨u, σ₁, first, second, rfl, here, there⟩ := ih whole
      exact ⟨u, σ₁, first, second, rfl, .environment moved here, there⟩

/-- What the environment leaves alone is the same when a finished program has nothing left to do. -/
theorem Machine.Solo.pure {V : Type} (view : M.Shared → V)
    (unmoved : ∀ {σ σ'}, M.environment σ σ' → view σ' = view σ) {u v : α}
    (h : M.Solo i Allowed (pure u) σ answers v σ') : answers = [] ∧ v = u ∧ view σ' = view σ := by
  generalize whole : (Pure.pure u : Program Action Response α) = q at h
  induction h with
  | done v σ =>
      cases whole
      exact ⟨rfl, rfl, rfl⟩
  | act => cases whole
  | environment moved _ ih =>
      obtain ⟨none, same, kept⟩ := ih whole
      exact ⟨none, same, kept.trans (unmoved moved)⟩

/-- One action, with what the environment leaves alone before and after it. -/
theorem Machine.Solo.perform {V : Type} (view : M.Shared → V)
    (unmoved : ∀ {σ σ'}, M.environment σ σ' → view σ' = view σ) {a : Action} {r : Response a}
    (h : M.Solo i Allowed (Program.perform a) σ answers r σ') : answers = [⟨a, r⟩] ∧
      ∃ c σ₁ σ₂, Allowed a c ∧ view σ₁ = view σ ∧ M.perform i a c σ₁ = some (r, σ₂) ∧
        view σ' = view σ₂ := by
  generalize whole : (Program.perform a : Program Action Response (Response a)) = q at h
  induction h with
  | done => cases whole
  | @act b next c s σ σ₁ σ₂ answers v allowed performed later =>
      cases whole
      obtain ⟨rfl, rfl, kept⟩ := Machine.Solo.pure view unmoved later
      exact ⟨rfl, c, σ, σ₁, allowed, rfl, performed, kept⟩
  | environment moved _ ih =>
      obtain ⟨one, c, σ₁, σ₂, allowed, before, performed, after⟩ := ih whole
      exact ⟨one, c, σ₁, σ₂, allowed, before.trans (unmoved moved), performed, after⟩

/-- The answers are to actions that the program can ask for. -/
theorem Machine.Solo.only {p : Program Action Response α} {v : α} {asked : Action → Prop}
    (h : M.Solo i Allowed p σ answers v σ') (only : p.Only asked) : ∀ a ∈ answers, asked a.1 := by
  induction h with
  | done => simp
  | act _ _ _ ih =>
      intro b member
      rcases List.mem_cons.mp member with rfl | later
      · exact only.1
      · exact ih (only.2 _) b later
  | environment _ _ ih => exact ih only

/-- In a run in which one caller acts, its program runs solo. -/
theorem Run.solo {S : Setting M Result} (i : Nat) (Allowed : Action → M.Choice → Prop) (calm : ¬ S.Crashes) {w w' : World M Result}
    {τ : List (Event M)} (run : Run S w τ w')
    (single : ∀ w e, S.Admits w e → e.call = i ∧ Allowed e.action e.choice) {v : Result}
    (ended : w'.calls i = .done v) :
    M.Solo i Allowed (w.calls i) w.shared (answersOf i τ) v w'.shared := by
  have from_end : ∀ (rest : List (Answer Response)) (σ : M.Shared),
      M.Solo i Allowed (w'.calls i) w'.shared rest v σ →
        M.Solo i Allowed (w.calls i) w.shared (answersOf i τ ++ rest) v σ := by
    clear ended
    induction run with
    | refl => exact fun rest σ h => h
    | @call w₁ τ j a next c r σ₁ _ same performed admitted ih =>
        obtain ⟨rfl, allowed⟩ := single _ _ admitted
        intro rest σ later
        rw [World.proceed_self] at later
        have one : answersOf j [(⟨j, a, c, r⟩ : Event M)] = [⟨a, r⟩] := by simp [answersOf]
        rw [answersOf_append, one, List.append_assoc]
        refine ih _ _ ?_
        rw [same]
        exact .act allowed performed later
    | environment _ moved ih => exact fun rest σ later => ih rest σ (.environment moved later)
    | crash _ crashed => exact absurd crashed calm
  rw [← List.append_nil (answersOf i τ)]
  refine from_end [] _ ?_
  rw [ended]
  exact .done v _

section Alone

variable {choose : Action → M.Choice}

@[simp] theorem Machine.alone_bind (p : Program Action Response α) (f : α → Program Action Response β)
    (σ : M.Shared) : M.alone i choose (p >>= f) σ =
      (M.alone i choose p σ).bind fun (v, σ') => M.alone i choose (f v) σ' := by
  change M.alone i choose (p.bind f) σ = _
  induction p generalizing σ with
  | done v => rfl
  | act a next ih =>
      rw [Program.bind, Machine.alone, Machine.alone, Option.bind_assoc]
      refine Option.bind_congr fun answer _ => ?_
      exact ih answer.1 answer.2

@[simp] theorem Machine.alone_perform (a : Action) (σ : M.Shared) :
    M.alone i choose (Program.perform a) σ = M.perform i a (choose a) σ := by
  rw [Program.perform, Machine.alone]
  cases M.perform i a (choose a) σ <;> rfl

@[simp] theorem Machine.alone_pure (v : α) (σ : M.Shared) :
    M.alone i choose (pure v) σ = some (v, σ) := rfl

/-- What a program does alone is a run. -/
theorem Run.of_alone {S : Setting M Result} {w : World M Result} {v : Result}
    (choose : Action → M.Choice) (lax : ∀ w e, e.call = i → e.choice = choose e.action → S.Admits w e)
    (ended : M.alone i choose (w.calls i) w.shared = some (v, σ)) :
    ∃ τ, Run S w τ (w.proceed i σ (.done v)) ∧ ∀ e ∈ τ, e.call = i := by
  generalize program : w.calls i = p at ended
  induction p generalizing w with
  | done u =>
      obtain ⟨rfl, rfl⟩ : u = v ∧ w.shared = σ := by simpa [Machine.alone] using ended
      have same : w.proceed i w.shared (.done u) = w := by
        unfold World.proceed
        rw [← program, Function.update_eq_self]
      rw [same]
      exact ⟨[], .refl, fun _ none => by cases none⟩
  | act a next ih =>
      obtain ⟨⟨r, σ₁⟩, performed, rest⟩ := Option.bind_eq_some_iff.mp ended
      obtain ⟨τ, run, own⟩ := @ih r (w.proceed i σ₁ (next r)) (World.proceed_self ..) rest
      have step : Run S w [⟨i, a, choose a, r⟩] (w.proceed i σ₁ (next r)) :=
        .call .refl program performed (lax _ _ rfl rfl)
      have twice : (w.proceed i σ₁ (next r)).proceed i σ (.done v) = w.proceed i σ (.done v) := by
        unfold World.proceed
        rw [Function.update_idem]
      rw [twice] at run
      refine ⟨_, step.trans run, ?_⟩
      intro e member
      rcases List.mem_cons.mp member with rfl | later
      · rfl
      · exact own e later

end Alone

end Concurrent
