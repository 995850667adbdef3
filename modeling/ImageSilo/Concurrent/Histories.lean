import ImageSilo.Concurrent.Clients

/-! Every call that a client has been answered has gone through its whole program in the trace. -/
namespace Concurrent

variable {Action : Type} {Response : Action → Type} {α β : Type}

/-- The ledger is the history itself, and an action needs a warrant from it. -/
abbrev Discipline.history (Warrants : List (Answer Response) → Action → Prop) :
    Discipline Action Response where
  Ledger := List (Answer Response)
  Permits := Warrants
  Reports _ _ _ := True
  record h a r := h ++ [⟨a, r⟩]

namespace Program

variable {Warrants : List (Answer Response) → Action → Prop} {Q : α → List (Answer Response) → Prop}
  {p q : Program Action Response α} {h answers : List (Answer Response)}

/-- Where answers have led a program, it still obeys from the history that they make. -/
theorem Obeys.led (obeys : p.Obeys (.history Warrants) Q h) (followed : p.Follows answers q) :
    q.Obeys (.history Warrants) Q (h ++ answers) := by
  induction followed generalizing h with
  | refl p => simpa using obeys
  | act _ ih =>
      rw [List.append_cons]
      exact ih (obeys.2 _ trivial)

/-- A program that is led somewhere asks there for what is allowed. -/
theorem Only.led {allowed : Action → Prop} {a : Action} {next : Response a → Program Action Response α}
    (only : p.Only allowed) (followed : p.Follows answers (.act a next)) : allowed a := by
  generalize same : Program.act a next = q at followed
  induction followed with
  | refl p =>
      subst same
      exact only.1
  | act _ ih => exact ih (only.2 _) same

/-- What one action is asked for after is enough for it. -/
theorem obeys_once {a : Action} (warranted : Warrants h a) :
    (perform a : Program Action Response (Response a)).Obeys (.history Warrants)
      (fun r h' => h' = h ++ [⟨a, r⟩]) h :=
  ⟨warranted, fun _ _ => rfl⟩

end Program

variable {M : Machine Action Response} {Request Result Step Out : Type} {Reply : Step → Type}
  {C : Service M Request Result Step Reply}

/-- A client has got from a script to its stage by its answers and by those of the call it is in. -/
def Stage.Reached (C : Service M Request Result Step Reply) (answers : List (Answer Response)) :
    Stage C Out → Script Request Result Step Reply Out → Prop
  | .ready s, left => s = left ∧ answers = []
  | .calling q p next, left => left = .act (.call q) next ∧ (C.program q).Follows answers p
  | .gone _, _ => True

/-- What the trace has to say about a client. -/
structure Client.Coherent (script : Script Request Result Step Reply Out) (τ : List (Event M)) (i : Nat)
    (cl : Client C Out) : Prop where
  led : ∃ left, script.Follows cl.answered left ∧
    cl.stage.Reached C (answersOf (cl.caller i) τ) left
  past : ∀ n q v, cl.answered[n]? = some ⟨.call q, v⟩ →
    (C.program q).Yields (answersOf (Nat.pair i n) τ) v
  future : ∀ n, cl.answered.length < n → answersOf (Nat.pair i n) τ = []

section Answers

variable {τ : List (Event M)} {k : Nat} {e : Event M}

theorem answersOf_other (other : e.call ≠ k) : answersOf k (τ ++ [e]) = answersOf k τ := by
  rw [answersOf_append]
  simp [answersOf, other]

theorem answersOf_own (own : e.call = k) :
    answersOf k (τ ++ [e]) = answersOf k τ ++ [⟨e.action, e.response⟩] := by
  rw [answersOf_append]
  simp [answersOf, own]

end Answers

section Runs

variable {scripts : Nat → Script Request Result Step Reply Out} {W W' : Clients C Out}
  {τ : List (Event M)} {i : Nat}

/-- The event of another call changes nothing. -/
theorem Client.Coherent.other {script : Script Request Result Step Reply Out} {cl : Client C Out}
    {e : Event M} (h : cl.Coherent script τ i) (other : e.call.unpair.1 ≠ i) :
    cl.Coherent script (τ ++ [e]) i := by
  have apart : ∀ n, answersOf (Nat.pair i n) (τ ++ [e]) = answersOf (Nat.pair i n) τ := by
    intro n
    refine answersOf_other fun same => other ?_
    rw [same, Nat.unpair_pair]
  obtain ⟨led, past, future⟩ := h
  constructor
  · rwa [Client.caller, apart]
  · intro n q v answered
    rw [apart]
    exact past n q v answered
  · intro n later
    rw [apart]
    exact future n later

theorem Session.coherent {σ : M.Shared} {front : C.Front}
    (session : Session scripts (Clients.start C scripts σ front) τ W) (i : Nat) :
    (W.clients i).Coherent (scripts i) τ i := by
  induction session with
  | refl =>
      exact ⟨⟨_, .refl _, rfl, rfl⟩, fun n q v answered => by simp [Clients.start] at answered,
        fun _ _ => rfl⟩
  | @ask W₁ τ j answered q next _ same ih =>
      by_cases self : i = j
      · subst self
        rw [move_self]
        rw [same] at ih
        obtain ⟨⟨left, followed, rfl, none⟩, past, future⟩ := ih
        exact ⟨⟨_, followed, rfl, by rw [Client.caller, none]; exact .refl _⟩, past, future⟩
      · rwa [move_other _ _ _ _ self]
  | @front W₁ τ j answered b next c r f _ same _ ih =>
      by_cases self : i = j
      · subst self
        rw [move_self]
        rw [same] at ih
        obtain ⟨⟨left, followed, rfl, none⟩, past, future⟩ := ih
        refine ⟨⟨_, followed.snoc r, rfl, ?_⟩, ?_, ?_⟩
        · exact future _ (by simp)
        · intro n q v told
          rw [told_snoc] at told
          split at told
          · cases told
          · exact past n q v told
        · intro n later
          exact future n (by simp at later ⊢; omega)
      · rwa [move_other _ _ _ _ self]
  | @call W₁ τ j answered q a rest next c r σ' _ same _ _ ih =>
      by_cases self : i = j
      · subst self
        rw [move_self]
        rw [same] at ih
        obtain ⟨⟨left, followed, rfl, inside⟩, past, future⟩ := ih
        have apart : ∀ n, n ≠ answered.length →
            answersOf (Nat.pair i n) (τ ++ [(⟨Nat.pair i answered.length, a, c, r⟩ : Event M)]) =
              answersOf (Nat.pair i n) τ := by
          intro n other
          refine answersOf_other fun eq => other ?_
          exact (Nat.pair_eq_pair.mp eq).2.symm
        refine ⟨⟨_, followed, rfl, ?_⟩, ?_, ?_⟩
        · have own : answersOf (Nat.pair i answered.length)
              (τ ++ [(⟨Nat.pair i answered.length, a, c, r⟩ : Event M)]) =
                answersOf (Nat.pair i answered.length) τ ++ [⟨a, r⟩] := answersOf_own rfl
          change (C.program q).Follows (answersOf (Nat.pair i answered.length) (τ ++ [_])) _
          rw [own]
          exact inside.snoc r
        · intro n q' v told
          have early : n < answered.length := (List.getElem?_eq_some_iff.mp told).1
          rw [apart n early.ne]
          exact past n q' v told
        · intro n later
          rw [apart n later.ne']
          exact future n later
      · rw [move_other _ _ _ _ self]
        refine ih.other ?_
        rw [Nat.unpair_pair]
        exact Ne.symm self
  | @answer W₁ τ j answered q v next _ same ih =>
      by_cases self : i = j
      · subst self
        rw [move_self]
        rw [same] at ih
        obtain ⟨⟨left, followed, rfl, inside⟩, past, future⟩ := ih
        refine ⟨⟨_, followed.snoc (a := Ask.call q) v, rfl, ?_⟩, ?_, ?_⟩
        · exact future _ (by simp)
        · intro n q' v' told
          rw [told_snoc] at told
          split at told
          · rename_i last
            cases told
            rw [last]
            exact inside
          · exact past n q' v' told
        · intro n later
          exact future n (by simp at later ⊢; omega)
      · rwa [move_other _ _ _ _ self]
  | environment _ _ ih => exact ih
  | @crash W₁ τ σ' clients _ _ _ dropped ih =>
      change (clients i).Coherent _ _ _
      rcases dropped i with gone | ⟨kept, -⟩
      · rw [gone]
        obtain ⟨⟨left, followed, -⟩, past, future⟩ := ih
        exact ⟨⟨left, followed, trivial⟩, past, future⟩
      · rwa [kept]

/-- Where a client that goes on with its script stands in it. -/
theorem Session.followed {σ : M.Shared} {front : C.Front}
    (session : Session scripts (Clients.start C scripts σ front) τ W) {answered : List C.Told}
    {s : Script Request Result Step Reply Out} (ready : W.clients i = ⟨answered, .ready s⟩) :
    (scripts i).Follows answered s := by
  have coherent := session.coherent i
  rw [ready] at coherent
  obtain ⟨⟨left, followed, rfl, -⟩, -, -⟩ := coherent
  exact followed

/-- What a client has asked at a position is never taken back. -/
theorem Session.asked_kept (session : Session scripts W τ W') {n : Nat} {q : Request}
    (asked : q ∈ (W.clients i).asked n) : q ∈ (W'.clients i).asked n := by
  induction session with
  | refl => exact asked
  | @ask W₁ τ j answered q' next _ same ih =>
      by_cases self : i = j
      · subst self
        rw [same] at ih
        rw [move_self]
        exact asked_begun ih
      · rwa [move_other _ _ _ _ self]
  | @front W₁ τ j answered b next c r f _ same _ ih =>
      by_cases self : i = j
      · subst self
        rw [same] at ih
        rw [move_self, asked_front (s := .act (.front b) next)]
        exact ih
      · rwa [move_other _ _ _ _ self]
  | @call W₁ τ j answered q' a rest next c r σ _ same _ _ ih =>
      by_cases self : i = j
      · subst self
        rw [same, asked_calling (s := .act (.call q') next)] at ih
        rw [move_self, asked_calling (s := .act (.call q') next)]
        exact ih
      · rwa [move_other _ _ _ _ self]
  | @answer W₁ τ j answered q' v next _ same ih =>
      by_cases self : i = j
      · subst self
        rw [same] at ih
        rw [move_self]
        exact asked_answer.symm ▸ ih
      · rwa [move_other _ _ _ _ self]
  | environment _ _ ih => exact ih
  | @crash W₁ τ σ clients _ _ _ dropped ih =>
      change q ∈ (clients i).asked n
      rcases dropped i with gone | ⟨kept, -⟩
      · rw [gone]
        exact ih
      · rwa [kept]

/-- Scripts that ask for allowed calls only have asked for allowed calls only. -/
theorem Session.asked_only {σ : M.Shared} {front : C.Front} {allowed : Ask Request Step → Prop}
    (only : ∀ i, (scripts i).Only allowed)
    (session : Session scripts (Clients.start C scripts σ front) τ W) {n : Nat} {q : Request}
    (asked : q ∈ (W.clients i).asked n) : allowed (.call q) := by
  induction session with
  | refl =>
      unfold Client.asked at asked
      change (if n = 0 then none else none) = some q at asked
      rw [ite_self] at asked
      cases asked
  | @ask W₁ τ j answered q' next before same ih =>
      by_cases self : i = j
      · subst self
        rw [move_self, asked_calling (s := .act (.call q') next)] at asked
        rw [same] at ih
        split at asked
        · cases asked
          exact (only i).led (before.followed same)
        · exact ih asked
      · rw [move_other _ _ _ _ self] at asked
        exact ih asked
  | @front W₁ τ j answered b next c r f _ same _ ih =>
      by_cases self : i = j
      · subst self
        rw [move_self, asked_front (s := .act (.front b) next)] at asked
        rw [same] at ih
        exact ih asked
      · rw [move_other _ _ _ _ self] at asked
        exact ih asked
  | @call W₁ τ j answered q' a rest next c r σ _ same _ _ ih =>
      by_cases self : i = j
      · subst self
        rw [move_self, asked_calling (s := .act (.call q') next)] at asked
        rw [same, asked_calling (s := .act (.call q') next)] at ih
        exact ih asked
      · rw [move_other _ _ _ _ self] at asked
        exact ih asked
  | @answer W₁ τ j answered q' v next _ same ih =>
      by_cases self : i = j
      · subst self
        rw [move_self] at asked
        rw [same] at ih
        exact ih (asked_answer ▸ asked)
      · rw [move_other _ _ _ _ self] at asked
        exact ih asked
  | environment _ _ ih => exact ih asked
  | @crash W₁ τ σ clients _ _ _ dropped ih =>
      change q ∈ (clients i).asked n at asked
      rcases dropped i with gone | ⟨kept, -⟩
      · rw [gone] at asked
        exact ih asked
      · rw [kept] at asked
        exact ih asked

/-- Without crashes nobody is cut off. -/
theorem Session.present {σ : M.Shared} {front : C.Front} (calm : ¬ C.Crashes)
    (session : Session scripts (Clients.start C scripts σ front) τ W) {last : Option Request} :
    (W.clients i).stage ≠ .gone last := by
  have moved {W₁ : Clients C Out} {σ' : M.Shared} {front' : C.Front} {j : Nat} {cl : Client C Out}
      (ih : (W₁.clients i).stage ≠ .gone last) (stays : cl.stage ≠ .gone last) :
      ((W₁.move σ' front' j cl).clients i).stage ≠ .gone last := by
    by_cases self : i = j
    · subst self
      rwa [move_self]
    · rwa [move_other _ _ _ _ self]
  induction session with
  | refl => exact fun gone => by cases gone
  | ask _ _ ih => exact moved ih (by simp)
  | front _ _ _ ih => exact moved ih (by simp)
  | call _ _ _ _ ih => exact moved ih (by simp)
  | answer _ _ ih => exact moved ih (by simp)
  | environment _ _ ih => exact ih
  | crash _ crashes => exact absurd crashes calm

/-- A client that is done stays as it is. -/
theorem Session.rests (calm : ¬ C.Crashes) (session : Session scripts W τ W') {answered : List C.Told}
    {v : Out} (ended : W.clients i = ⟨answered, .ready (.done v)⟩) :
    W'.clients i = ⟨answered, .ready (.done v)⟩ := by
  have other {W₁ : Clients C Out} {σ' : M.Shared} {front' : C.Front} {j : Nat} {cl cl' : Client C Out}
      (ih : W₁.clients i = ⟨answered, .ready (.done v)⟩) (there : W₁.clients j = cl')
      (goes : cl' ≠ ⟨answered, .ready (.done v)⟩) :
      (W₁.move σ' front' j cl).clients i = ⟨answered, .ready (.done v)⟩ := by
    have apart : i ≠ j := by
      rintro rfl
      exact goes (there.symm.trans ih)
    rwa [move_other _ _ _ _ apart]
  induction session with
  | refl => exact ended
  | ask _ same ih => exact other ih same (by simp)
  | front _ same _ ih => exact other ih same (by simp)
  | call _ same _ _ ih => exact other ih same (by simp)
  | answer _ same ih => exact other ih same (by simp)
  | environment _ _ ih => exact ih
  | crash _ crashes => exact absurd crashes calm

/-- A client that has not begun has no events. -/
theorem Session.silent {σ : M.Shared} {front : C.Front}
    (session : Session scripts (Clients.start C scripts σ front) τ W)
    {s : Script Request Result Step Reply Out} (fresh : W.clients i = ⟨[], .ready s⟩) (n : Nat) :
    answersOf (Nat.pair i n) τ = [] := by
  have coherent := session.coherent i
  rw [fresh] at coherent
  obtain ⟨⟨left, -, -, none⟩, -, future⟩ := coherent
  rcases Nat.eq_zero_or_pos n with rfl | later
  · exact none
  · exact future n later

/-- The state of a run in which an event of its trace happened. -/
theorem Session.cut {before after : List (Event M)} {e : Event M}
    (session : Session scripts W (before ++ e :: after) W') :
    ∃ W₁ i answered q rest next σ, Session scripts W before W₁ ∧
      e.call = Nat.pair i answered.length ∧ W₁.clients i = ⟨answered, .calling q (.act e.action rest) next⟩ ∧
      M.perform e.call e.action e.choice W₁.shared = some (e.response, σ) ∧
      Session scripts W₁ (e :: after) W' := by
  generalize whole : before ++ e :: after = τ at session
  induction session generalizing after with
  | refl => simp at whole
  | ask _ same ih =>
      obtain ⟨W₁, i, answered, q, rest, next, σ, first, own, inside, performed, later⟩ := ih whole
      exact ⟨W₁, i, answered, q, rest, next, σ, first, own, inside, performed, .ask later same⟩
  | front _ same stepped ih =>
      obtain ⟨W₁, i, answered, q, rest, next, σ, first, own, inside, performed, later⟩ := ih whole
      exact ⟨W₁, i, answered, q, rest, next, σ, first, own, inside, performed, .front later same stepped⟩
  | @call W₁ τ i answered q a rest next c r σ first same performed admitted ih =>
      rcases List.eq_nil_or_concat after with rfl | ⟨shorter, last, rfl⟩
      · obtain ⟨rfl, eq⟩ := List.append_inj' whole rfl
        cases eq
        exact ⟨W₁, i, answered, q, rest, next, σ, first, rfl, same, performed,
          .call .refl same performed admitted⟩
      · rw [List.concat_eq_append, ← List.cons_append, ← List.append_assoc] at whole
        rw [List.concat_eq_append]
        obtain ⟨eq, single⟩ := List.append_inj' whole rfl
        cases single
        obtain ⟨W₂, j, told, q', rest', next', σ', first', own, inside, performed', later⟩ := ih eq
        exact ⟨W₂, j, told, q', rest', next', σ', first', own, inside, performed',
          .call later same performed admitted⟩
  | answer _ same ih =>
      obtain ⟨W₁, i, answered, q, rest, next, σ, first, own, inside, performed, later⟩ := ih whole
      exact ⟨W₁, i, answered, q, rest, next, σ, first, own, inside, performed, .answer later same⟩
  | environment _ moved ih =>
      obtain ⟨W₁, i, answered, q, rest, next, σ, first, own, inside, performed, later⟩ := ih whole
      exact ⟨W₁, i, answered, q, rest, next, σ, first, own, inside, performed,
        .environment later moved⟩
  | crash _ crashes crashed dropped ih =>
      obtain ⟨W₁, i, answered, q, rest, next, σ, first, own, inside, performed, later⟩ := ih whole
      exact ⟨W₁, i, answered, q, rest, next, σ, first, own, inside, performed,
        .crash later crashes crashed dropped⟩

/-- A script asks for a call only when its history warrants it. -/
theorem Session.warranted {σ : M.Shared} {front : C.Front}
    {Warrants : List C.Told → Ask Request Step → Prop}
    {Q : Out → List C.Told → Prop} (obeys : (scripts i).Obeys (.history Warrants) Q [])
    (session : Session scripts (Clients.start C scripts σ front) τ W) {answered : List C.Told}
    {q : Request} {p : Program Action Response Result}
    {next : Result → Script Request Result Step Reply Out}
    (inside : W.clients i = ⟨answered, .calling q p next⟩) : Warrants answered (.call q) := by
  have coherent := session.coherent i
  rw [inside] at coherent
  obtain ⟨⟨left, followed, rfl, -⟩, -, -⟩ := coherent
  exact (obeys.led followed).1

/-- The events of a call that has been answered. -/
theorem Session.told {σ : M.Shared} {front : C.Front}
    (session : Session scripts (Clients.start C scripts σ front) τ W) {q : Request} {v : Result}
    (told : (⟨.call q, v⟩ : C.Told) ∈ (W.clients i).answered) :
    ∃ n < (W.clients i).answered.length, (C.program q).Yields (answersOf (Nat.pair i n) τ) v := by
  obtain ⟨n, there⟩ := List.mem_iff_getElem?.mp told
  exact ⟨n, (List.getElem?_eq_some_iff.mp there).1, (session.coherent i).past n q v there⟩

end Runs

end Concurrent
