import ImageSilo.Guarantees.Quiescence
import ImageSilo.Publication.Tidying
import ImageSilo.Publication.Timeliness

/-! A call that runs alone from a state that agrees with `Build` ends in such a state, but for the
conversions of damaged images. -/
namespace ImageSilo.Publication

open Go Concurrent Storage Tables Delivery

variable {P : Platform} {requests : Nat → Request} {σ σ' σ₀ : State} {ls : Nat → Ledger} {i : Nat}
  {a : Action} {c : Choice} {r : Response a} {l : Ledger} {d : Desk} {L : Loading}
  {τ : List (Event (machine P))}

/-- The update of the row of a conversion takes effect. -/
def Renews (e : Event (machine P)) (v : Image) : Prop :=
  ∃ j c, e = ⟨j, .statement (.updateContent v), c, .ok true⟩

/-- What the update of a row has to find: the file of the image is whole or no alias leads to it, and the
new time is one that `Build` takes over. -/
structure Harmless (σ : State) (v : Image) : Prop where
  mends : Loads σ v.id ∨ ∀ m ∈ σ.database.aliases, m.imageID = v.id → m.path = str "/"
  epochal : ∀ row ∈ σ.database.images, row.id = v.id →
    0 < unix v.updatedAt ∨ unix v.updatedAt = unix row.createdAt

/-- The row of the image has the content of `v`, whose file is whole, and the aliases are the same. -/
def Rewritten (σ₀ σ : State) (v : Image) : Prop :=
  ∃ row ∈ σ₀.database.images, row.id = v.id ∧ σ.database.aliases = σ₀.database.aliases ∧
    Database.withContent row v ∈ σ.database.images ∧ σ.whole (Database.withContent row v)

/-- What a call has changed, as far as its desk has come. -/
structure Course (σ₀ : State) (τ : List (Event (machine P))) (σ : State) (converts : Prop)
    (desk : Option Desk) : Prop where
  followed : converts → ∃ d, desk = some d ∧ d.stage ≠ .unfollowed
  reading : ∀ d, desk = some d → d.stage = .reading →
    σ.database.images = σ₀.database.images ∧ σ.database.aliases = σ₀.database.aliases ∧
      σ.index = σ₀.index ∧ ∀ v ∈ σ₀.database.images, (σ.whole v ↔ σ₀.whole v)
  owing : ∀ d v, desk = some d → d.stage = .owing v → Rewritten σ₀ σ v ∧ σ.index = σ₀.index
  published : ∀ d v, desk = some d → d.stage = .published v → Rewritten σ₀ σ v ∧
    σ.index = (IndexStep.add v.id (targetOf v)).apply σ₀.index
  committed : ∀ e ∈ τ, ∀ v, Renews e v → converts ∧ ∃ d, desk = some d ∧
    (d.stage = .owing v ∨ d.stage = .published v)

section Steps

/-- The stage of a desk changes with statements and index steps alone. -/
theorem record_stage (d : Desk) (other : ∀ q, a ≠ .statement q) (other' : ∀ s, a ≠ .index s) :
    (d.record a r).stage = d.stage := by
  unfold Desk.record
  split <;> first | rfl | exact absurd rfl (other _) | exact absurd rfl (other' _)

theorem Rewritten.kept {v : Image} (h : Rewritten σ₀ σ v) (sound : Sound P requests σ ls)
    (permitted : (ls i).permits P a) (performed : σ.perform P i a c = some (r, σ'))
    (spares : Spares σ ls i a) (database : σ'.database = σ.database) : Rewritten σ₀ σ' v := by
  obtain ⟨row, member, own, aliases, new, whole⟩ := h
  refine ⟨row, member, own, ?_, ?_, (row_whole sound permitted performed spares new).mpr whole⟩
  · rw [database, aliases]
  · rwa [database]

/-- The update of a row, as the conversion that asks for it sees it. -/
theorem updateContent_cases {v : Image} {r : Except DatabaseError Bool}
    (performed : σ.statement (.updateContent v) c = some (r, σ')) :
    (r ≠ .ok true ∧ σ' = σ) ∨ (r = .ok true ∧ ∃ row ∈ σ.database.images, row.id = v.id ∧
      ∃ db', σ.database.replaceImage (Database.withContent row v) = some db' ∧
        σ' = { σ with database := db' }) := by
  unfold State.statement at performed
  cases c with
  | normal =>
      simp only [Option.some.injEq, Prod.mk.injEq] at performed
      obtain ⟨rfl, rfl⟩ := performed
      rcases updateImage_cases σ.database v.id fun row => Database.withContent row v with
        ⟨row, db', found, replaced, eq⟩ | ⟨eq, -⟩ | eq
      · obtain ⟨known, own⟩ := image?_some found
        refine .inr ⟨congrArg Prod.fst eq, row, known, own, db', replaced, ?_⟩
        rw [show (σ.database.execute (.updateContent v)).2 = db' from congrArg Prod.snd eq]
      · refine .inl ⟨?_, ?_⟩
        · rw [show (σ.database.execute (.updateContent v)).1 = _ from congrArg Prod.fst eq]
          simp
        · rw [show (σ.database.execute (.updateContent v)).2 = _ from congrArg Prod.snd eq]
      · refine .inl ⟨?_, ?_⟩
        · rw [show (σ.database.execute (.updateContent v)).1 = _ from congrArg Prod.fst eq]
          simp
        · rw [show (σ.database.execute (.updateContent v)).2 = _ from congrArg Prod.snd eq]
  | fault =>
      simp only [Option.some.injEq, Prod.mk.injEq] at performed
      obtain ⟨rfl, rfl⟩ := performed
      exact .inl ⟨by simp, rfl⟩
  | _ => simp [Statement.isReturning] at performed

theorem not_renews {v : Image} (other : ∀ v, a ≠ .statement (.updateContent v)) :
    ¬ Renews (⟨i, a, c, r⟩ : Event (machine P)) v := by
  rintro ⟨j, c', same⟩
  cases same
  exact other v rfl

/-- Where the row stands does not change with a step that is neither a statement nor an index step. -/
theorem Course.aside {converts : Prop} (h : Course σ₀ τ σ converts (some d))
    (sound : Sound P requests σ ls) (permitted : (ls i).permits P a)
    (performed : σ.perform P i a c = some (r, σ')) (spares : Spares σ ls i a)
    (other : ∀ q, a ≠ .statement q) (other' : ∀ s, a ≠ .index s) :
    Course σ₀ (τ ++ [⟨i, a, c, r⟩]) σ' converts (some (d.record a r)) := by
  have database := (perform_frame performed).database other
  have index := (perform_frame performed).index other'
  have stage := record_stage (r := r) d other other'
  refine ⟨?_, ?_, ?_, ?_, ?_⟩
  · intro asked
    obtain ⟨d', same, followed⟩ := h.followed asked
    cases same
    exact ⟨_, rfl, by rwa [stage]⟩
  · rintro d' ⟨⟩ reading
    rw [stage] at reading
    obtain ⟨images, aliases, index', whole⟩ := h.reading d rfl reading
    rw [database, index]
    refine ⟨images, aliases, index', fun v member => ?_⟩
    rw [← images] at member
    rw [row_whole sound permitted performed spares member]
    exact whole v (by rwa [← images])
  · rintro d' v ⟨⟩ owing
    rw [stage] at owing
    obtain ⟨rewritten, index'⟩ := h.owing d v rfl owing
    exact ⟨rewritten.kept sound permitted performed spares database, index.trans index'⟩
  · rintro d' v ⟨⟩ published
    rw [stage] at published
    obtain ⟨rewritten, index'⟩ := h.published d v rfl published
    exact ⟨rewritten.kept sound permitted performed spares database, index.trans index'⟩
  · intro e member v renews
    rcases List.mem_append.mp member with old | new
    · obtain ⟨asked, d', same, stage'⟩ := h.committed e old v renews
      cases same
      exact ⟨asked, _, rfl, by rwa [stage]⟩
    · obtain rfl := List.mem_singleton.mp new
      exact absurd renews (not_renews fun v => other _)

/-- A statement of a conversion that has not got its row yet. -/
theorem Course.statement {converts : Prop} (h : Course σ₀ τ σ converts (some d))
    (sound : Sound P requests σ ls) (placed : Placed σ ls) {q : Statement}
    {r : Except DatabaseError q.Value} (permitted : (ls i).permits P (.statement q))
    (performed : σ.statement q c = some (r, σ')) (reading : d.stage = .reading)
    (allowed : d.stage.allows q)
    (asked : ∀ id options, (ls i).request = .convertToWebP id options → converts) :
    Course σ₀ (τ ++ [⟨i, .statement q, c, r⟩]) σ' converts (some (d.record (.statement q) r)) := by
  obtain ⟨images, aliases, index, whole⟩ := h.reading d rfl reading
  obtain ⟨own, live, seen, stage, owned⟩ := d
  obtain rfl : stage = .reading := reading
  have none : ∀ e ∈ τ, ∀ v, ¬ Renews e v := by
    intro e member v renews
    obtain ⟨-, d', same, stage⟩ := h.committed e member v renews
    cases same
    rcases stage with ⟨⟨⟩⟩ | ⟨⟨⟩⟩
  -- nothing has happened, or the row has its new content
  have unchanged : σ'.database = σ.database → σ'.index = σ.index → σ'.files = σ.files →
      (∀ v, ¬ Renews (⟨i, .statement q, c, r⟩ : Event (machine P)) v) →
      Course σ₀ (τ ++ [⟨i, .statement q, c, r⟩]) σ' converts
        (some ⟨own, live, seen, .reading, owned⟩) := by
    intro database same files quiet
    refine ⟨fun _ => ⟨_, rfl, by simp⟩, ?_, ?_, ?_, ?_⟩
    · rintro d' ⟨⟩ -
      rw [database, same]
      exact ⟨images, aliases, index, fun v member => (whole_of_files files v).trans (whole v member)⟩
    · rintro d' v ⟨⟩ ⟨⟩
    · rintro d' v ⟨⟩ ⟨⟩
    · intro e member v renews
      rcases List.mem_append.mp member with old | new
      · exact absurd renews (none e old v)
      · obtain rfl := List.mem_singleton.mp new
        exact absurd renews (quiet v)
  cases q with
  | getImage id =>
      refine unchanged ?_ (statement_files performed).2 (statement_files performed).1
        fun v => not_renews (by simp)
      unfold State.statement at performed
      cases c with
      | interrupted => simp [Statement.isReturning] at performed
      | normal =>
          cases performed
          rfl
      | fault =>
          cases performed
          rfl
      | _ => cases performed
  | updateContent v =>
      rcases updateContent_cases performed with ⟨failed, rfl⟩ | ⟨rfl, row, known, same, db', replaced, rfl⟩
      · have unmoved : Desk.record ⟨own, live, seen, .reading, owned⟩
            (.statement (.updateContent v)) r = ⟨own, live, seen, .reading, owned⟩ := by
          match r with
          | .error e => rfl
          | .ok false => rfl
          | .ok true => exact absurd rfl failed
        rw [unmoved]
        refine unchanged rfl rfl rfl fun v' => ?_
        rintro ⟨j, c', same⟩
        cases same
        exact failed rfl
      · obtain ⟨-, -, -, -, ⟨old, -, -, -, options, converts⟩, f, mine, describes⟩ := permitted
        refine ⟨fun _ => ⟨_, rfl, by simp [Desk.record, Stage.afterStatement]⟩, ?_, ?_, ?_, ?_⟩
        · rintro d' ⟨⟩ ⟨⟩
        · rintro d' v' ⟨⟩ ⟨⟩
          refine ⟨⟨row, by rwa [← images], same, (replaceImage_some replaced).2.trans aliases,
            replaced_self replaced known rfl, ?_⟩, index⟩
          exact (whole_congr rfl rfl).mpr (placed.whole sound mine describes)
        · rintro d' v' ⟨⟩ ⟨⟩
        · intro e member v' renews
          rcases List.mem_append.mp member with old | new
          · exact absurd renews (none e old v')
          · obtain rfl := List.mem_singleton.mp new
            obtain ⟨j, c', same⟩ := renews
            cases same
            exact ⟨asked _ _ converts, _, rfl, .inl rfl⟩
  | _ => exact allowed.elim

/-- Only a conversion gives a row new content. -/
theorem renews_converts {e : Event (machine P)} {v : Image} (renews : Renews e v)
    (permitted : l.permits P e.action) : ∃ options, l.request = .convertToWebP v.id options := by
  obtain ⟨j, c, rfl⟩ := renews
  obtain ⟨-, -, -, -, ⟨old, -, -, -, options, asked⟩, -⟩ := permitted
  exact ⟨options, asked⟩

/-- A call that is no conversion gives no row new content. -/
theorem Course.unfollowed {converts : Prop} {desk desk' : Option Desk}
    (h : Course σ₀ τ σ converts desk) (free : ∀ d ∈ desk, d.stage = .unfollowed)
    (free' : ∀ d ∈ desk', d.stage = .unfollowed) (permitted : (ls i).permits P a)
    (asked : ∀ id options, (ls i).request = .convertToWebP id options → converts) :
    Course σ₀ (τ ++ [⟨i, a, c, r⟩]) σ' converts desk' := by
  have apart : ¬ converts := by
    intro converts
    obtain ⟨d, same, followed⟩ := h.followed converts
    exact followed (free d same)
  refine ⟨fun converts => absurd converts apart, ?_, ?_, ?_, ?_⟩
  · intro d same reading
    rw [free' d same] at reading
    cases reading
  · intro d v same owing
    rw [free' d same] at owing
    cases owing
  · intro d v same published
    rw [free' d same] at published
    cases published
  · intro e member v renews
    rcases List.mem_append.mp member with old | new
    · exact absurd (h.committed e old v renews).1 apart
    · obtain rfl := List.mem_singleton.mp new
      obtain ⟨options, converts⟩ := renews_converts renews permitted
      exact absurd (asked _ _ converts) apart

/-- The index step of a conversion. -/
theorem Course.index {converts : Prop} (h : Course σ₀ τ σ converts (some d)) {s : IndexStep}
    {v : Image} (owing : d.stage = .owing v) (allowed : d.stage.allowsIndex s) :
    Course σ₀ (τ ++ [(⟨i, .index s, c, ()⟩ : Event (machine P))])
      { σ with index := s.apply σ.index } converts (some (d.record (.index s) ())) := by
  obtain ⟨rewritten, index⟩ := h.owing d v rfl owing
  have committed := h.committed
  obtain ⟨own, live, seen, stage, owned⟩ := d
  obtain rfl : stage = .owing v := owing
  obtain rfl : s = .add v.id (targetOf v) := allowed
  refine ⟨fun _ => ⟨_, rfl, by simp [Desk.record, Stage.afterIndex]⟩, ?_, ?_, ?_, ?_⟩
  · rintro d' ⟨⟩ ⟨⟩
  · rintro d' v' ⟨⟩ ⟨⟩
  · rintro d' v' ⟨⟩ ⟨⟩
    refine ⟨rewritten, ?_⟩
    dsimp only
    rw [index]
  · intro e member v' renews
    rcases List.mem_append.mp member with old | new
    · obtain ⟨asked, d', same, stage⟩ := committed e old v' renews
      cases same
      rcases stage with ⟨⟨⟩⟩ | ⟨⟨⟩⟩
      exact ⟨asked, _, rfl, .inr rfl⟩
    · obtain rfl := List.mem_singleton.mp new
      exact absurd renews (not_renews (by simp))

/-- No call has done anything yet. -/
theorem Course.begin (request : Request) :
    Course σ ([] : List (Event (machine P))) σ (∃ id options, request = .convertToWebP id options)
      ((stageOf request).map Desk.begin) where
  followed := by
    rintro ⟨id, options, rfl⟩
    exact ⟨_, rfl, by simp [Desk.begin]⟩
  reading _ _ _ := ⟨rfl, rfl, rfl, fun _ _ => Iff.rfl⟩
  owing := by
    intro d v same owing
    cases request <;> cases same <;> cases owing
  published := by
    intro d v same published
    cases request <;> cases same <;> cases published
  committed := by
    rintro e ⟨⟩

theorem Course.step {converts : Prop} {desk : Option Desk} (h : Course σ₀ τ σ converts desk)
    (sound : Sound P requests σ ls) (placed : Placed σ ls) (permitted : (ls i).permits P a)
    (allowed : ∀ d ∈ desk, d.permits a) (performed : σ.perform P i a c = some (r, σ'))
    (spares : Spares σ ls i a)
    (asked : ∀ id options, (ls i).request = .convertToWebP id options → converts) :
    Course σ₀ (τ ++ [⟨i, a, c, r⟩]) σ' converts (desk.map fun d => d.record a r) := by
  cases desk with
  | none => exact h.unfollowed (by simp) (by simp) permitted asked
  | some d =>
      have allowed := allowed d rfl
      by_cases about : (∃ q, a = .statement q) ∨ ∃ s, a = .index s
      · cases stage : d.stage with
        | unfollowed =>
            refine h.unfollowed ?_ ?_ permitted asked
            · rintro d' ⟨⟩
              exact stage
            · rintro d' ⟨⟩
              rcases about with ⟨q, rfl⟩ | ⟨s, rfl⟩
              · change d.stage.afterStatement q r = _
                rw [stage]
                rfl
              · change d.stage.afterIndex = _
                rw [stage]
                rfl
        | reading =>
            rcases about with ⟨q, rfl⟩ | ⟨s, rfl⟩
            · exact h.statement sound placed permitted performed stage allowed asked
            · change d.stage.allowsIndex s at allowed
              rw [stage] at allowed
              exact allowed.elim
        | owing v =>
            rcases about with ⟨q, rfl⟩ | ⟨s, rfl⟩
            · change d.stage.allows q at allowed
              rw [stage] at allowed
              exact allowed.elim
            · cases performed
              exact h.index stage allowed
        | published v =>
            rcases about with ⟨q, rfl⟩ | ⟨s, rfl⟩
            · change d.stage.allows q at allowed
              rw [stage] at allowed
              exact allowed.elim
            · change d.stage.allowsIndex s at allowed
              rw [stage] at allowed
              exact allowed.elim
      · exact h.aside sound permitted performed spares (fun q same => about (.inl ⟨q, same⟩))
          fun s same => about (.inr ⟨s, same⟩)

end Steps

section Runs

/-- Every update of a row that has taken effect was a harmless one. -/
def Calm (σ₀ : State) (τ : List (Event (machine P))) : Prop :=
  ∀ e ∈ τ, ∀ v, Renews e v → Harmless σ₀ v

theorem placed_keeps (noDaily : ∀ age, requests i ≠ .daily age) :
    (watch P requests).Keeps (alone P requests i Plain) fun _ σ ls =>
      Sound P requests σ ls ∧ Placed σ ls ∧ ∀ j, j ≠ i → (ls j).owes = [] := by
  refine keeps serving_serves (fun _ σ ls => Placed σ ls ∧ ∀ j, j ≠ i → (ls j).owes = [])
    ?_ ?_ ?_
  · rintro τ w ls j a c r σ' sound ⟨placed, idle⟩ permitted performed ⟨rfl, -⟩ -
    refine ⟨placed.step sound permitted performed (.of_request sound noDaily), ?_⟩
    intro k other
    rw [Function.update_of_ne other]
    exact idle k other
  · rintro τ σ ls σ' - ⟨placed, idle⟩ ⟨t, -, rfl⟩
    exact ⟨⟨placed.there, placed.valid⟩, idle⟩
  · exact fun crashed => crashed.elim

/-- A harmless update is one that mends nothing and writes no lost time. -/
theorem Course.harmless {converts : Prop} {desk : Option Desk} (h : Course σ₀ τ σ converts desk)
    (permitted : (ls i).permits P a) (allowed : ∀ d ∈ desk, d.permits a)
    (asked : ∀ id options, (ls i).request = .convertToWebP id options → converts)
    (calm : ∀ v, Renews (⟨i, a, c, r⟩ : Event (machine P)) v → Harmless σ₀ v) :
    Mends σ a r ∧ Epochal σ a r := by
  by_cases renews : ∃ v, Renews (⟨i, a, c, r⟩ : Event (machine P)) v
  · obtain ⟨v, renews⟩ := renews
    obtain ⟨options, converts⟩ := renews_converts renews permitted
    obtain ⟨mends, epochal⟩ := calm v renews
    obtain ⟨j, c', same⟩ := renews
    cases same
    obtain ⟨d, rfl, followed⟩ := h.followed (asked _ _ converts)
    have allowed : d.stage.allows (.updateContent v) := allowed d rfl
    cases stage : d.stage with
    | unfollowed => exact absurd stage followed
    | reading =>
        obtain ⟨images, aliases, -, whole⟩ := h.reading d rfl stage
        refine ⟨mends.imp ?_ ?_, ?_⟩
        · rintro ⟨u, member, own, there⟩
          exact ⟨u, by rwa [images], own, (whole u member).mpr there⟩
        · rw [aliases]
          exact id
        · change ∀ row ∈ σ.database.images, _
          rw [images]
          exact epochal
    | owing u =>
        rw [stage] at allowed
        exact allowed.elim
    | published u =>
        rw [stage] at allowed
        exact allowed.elim
  · constructor
    · unfold Mends
      split
      · exact absurd ⟨_, _, _, rfl⟩ renews
      · trivial
    · unfold Epochal
      split
      · exact absurd ⟨_, _, _, rfl⟩ renews
      · trivial

theorem course_keeps (σ₀ : State) (noDaily : ∀ age, requests i ≠ .daily age) :
    (watch P requests).KeepsBeside (desks P requests) (alone P requests i Plain)
      (fun _ σ ls => Sound P requests σ ls ∧ Placed σ ls ∧ ∀ j, j ≠ i → (ls j).owes = [])
      fun τ σ ls ks => (∀ d ∈ ks i, d.own ⊆ σ.files.handedOut) ∧
        Course σ₀ τ σ (∃ id options, requests i = .convertToWebP id options) (ks i) ∧
        (Calm σ₀ τ → Agreement P σ ls ∧ Timely σ ls) where
  call := by
    rintro τ w ls ks j a next c r σ' - - ⟨sound, placed, -⟩ ⟨own, course, agrees⟩ - permitted allowed
      performed ⟨rfl, plain⟩
    have spares : Spares w.shared ls j a := .of_request sound noDaily
    have asked : ∀ id options, (ls j).request = .convertToWebP id options →
        ∃ id options, requests j = .convertToWebP id options := by
      intro id options asked
      rw [sound.made] at asked
      exact ⟨id, options, asked⟩
    refine ⟨fun d same => (own_step (own d same) performed).1, ?_, ?_, ?_⟩
    · rw [Function.update_self]
      intro d' same
      obtain ⟨d, before, rfl⟩ := Option.map_eq_some_iff.mp same
      exact (own_step (own d before) performed).2
    · rw [Function.update_self]
      exact course.step sound placed permitted allowed performed spares asked
    · intro calm
      obtain ⟨agreement, timely⟩ := agrees fun e member => calm e (List.mem_append_left _ member)
      obtain ⟨mends, epochal⟩ := course.harmless permitted allowed asked
        (calm _ (List.mem_append_right _ (List.mem_singleton_self _)))
      exact ⟨agreement.step sound permitted performed spares plain mends,
        timely.step agreement sound permitted performed epochal⟩
  environment := by
    rintro τ σ ls ks σ' - ⟨own, course, agrees⟩ moved
    have agrees' : Calm σ₀ τ → Agreement P σ' ls ∧ Timely σ' ls := by
      intro calm
      obtain ⟨agreement, timely⟩ := agrees calm
      refine ⟨agreement.environment moved, ?_⟩
      obtain ⟨t, -, rfl⟩ := moved
      exact ⟨timely.kept, timely.owed⟩
    obtain ⟨t, -, rfl⟩ := moved
    exact ⟨own, ⟨course.followed, course.reading, course.owing, course.published, course.committed⟩,
      agrees'⟩
  crash := fun crashed => crashed.elim

/-- A target that a timely index shows has the time that `Build` reads from the row. -/
theorem Timely.mirrors (h : Timely σ ls) (idle : ∀ j, (ls j).owes = []) (built : σ.built P = .ok L)
    {timed : GoString → Prop} (mirrors : Mirrors σ L timed) : Mirrors σ L fun _ => True := by
  refine ⟨mirrors.targets, ?_, mirrors.aliases⟩
  intro id t u _ there loaded
  obtain ⟨v, member, rfl, -, rfl⟩ := ((built_describes built).target id u).mp loaded
  rw [h.kept t v member there (by simp [idle])]
  exact (unix_ofUnix _).symm

/-- A state in which a conversion has mended an image with an alias does not mirror what `Build`
computes. -/
theorem Rewritten.harmless {v : Image} (h : Rewritten σ₀ σ v) (indexed : σ₀.Indexed P)
    (index : σ.index = (IndexStep.add v.id (targetOf v)).apply σ₀.index) (built : σ.built P = .ok L)
    (mirrors : Mirrors σ L fun _ => True) : Harmless σ₀ v := by
  obtain ⟨row, known, own, aliases, new, whole⟩ := h
  obtain ⟨L₀, built₀, index₀⟩ := indexed
  have before := built_describes built₀
  have after := built_describes built
  have loads : ∃ u ∈ σ.database.images, u.id = v.id ∧ σ.whole u := ⟨_, new, own, whole⟩
  constructor
  · by_contra damaged
    push Not at damaged
    obtain ⟨broken, m, member, same, root⟩ := damaged
    have led : L.snapshot.aliases.lookup m.path = some v.id :=
      (after.mapping m.path v.id).mpr ⟨m, by rwa [aliases], rfl, same, root, loads⟩
    rw [← mirrors.aliases, index, index₀] at led
    obtain ⟨-, -, -, -, -, u, image, own', whole'⟩ := (before.mapping m.path v.id).mp led
    exact broken ⟨u, image, own', whole'⟩
  · intro row' known' own'
    obtain rfl := σ₀.database.imageIDs.eq known' known (own'.trans own.symm)
    have loaded : L.snapshot.targets.lookup v.id =
        some (targetOfRow (deliveryRow (Database.withContent row' v))) :=
      (after.target v.id _).mpr ⟨_, new, own, whole, rfl⟩
    have there : σ.index.byID.lookup v.id = some (targetOf v) := by
      rw [index, add_target, if_pos rfl]
    have times : unix v.updatedAt = shownAt (Database.withContent row' v) := by
      rw [show unix v.updatedAt = unix (targetOf v).lastModified from rfl,
        mirrors.times v.id _ _ trivial there loaded]
      exact unix_ofUnix _
    have updated : unix (Database.withContent row' v).updatedAt = unix v.updatedAt := unix_ofUnix _
    by_cases late : 0 < unix v.updatedAt
    · exact .inl late
    · refine .inr (times.trans ?_)
      change (if 0 < unix (Database.withContent row' v).updatedAt then _ else _) = _
      rw [updated, if_neg late]
      rfl

/-- A call that runs alone ends in a state whose index is the one that `Build` computes if and only if
every update of a row by a conversion was harmless. -/
theorem alone_mirrors {w : World (machine P) Result} {result : Result} (begins : Begins P σ)
    (noDaily : ∀ age, requests i ≠ .daily age)
    (run : Run (alone P requests i Plain) (start P requests σ) τ w)
    (ended : w.calls i = .done result) :
    (∃ L, w.shared.built P = .ok L ∧ Mirrors w.shared L fun _ => True) ↔
      ∀ e ∈ τ, ∀ v, Renews e v → Harmless σ v := by
  have begun : ∃ ls ks, (watch P requests).Obeyed (start P requests σ) ls ∧
      (desks P requests).Obeyed (start P requests σ) ks ∧
      (Sound P requests σ ls ∧ Placed σ ls ∧ ∀ j, j ≠ i → (ls j).owes = []) ∧
      (∀ d ∈ ks i, d.own ⊆ σ.files.handedOut) ∧
      Course σ ([] : List (Event (machine P))) σ
        (∃ id options, requests i = .convertToWebP id options) (ks i) ∧
      (Calm σ ([] : List (Event (machine P))) → Agreement P σ ls ∧ Timely σ ls) := by
    refine ⟨_, _, fun j => request_obeys (requests j), fun j => desk_obeys (requests j),
      ⟨.begin begins.registered begins.free, .begin, fun _ _ => rfl⟩, ?_, ?_,
      fun _ => ⟨.begin begins.indexed, .begin begins.indexed⟩⟩
    · intro d desk
      obtain ⟨stage, -, rfl⟩ := Option.map_eq_some_iff.mp desk
      exact Finset.empty_subset _
    · exact .begin (requests i)
  obtain ⟨ls, ks, obeyed, obeyed', ⟨-, -, idle⟩, -, course, agrees⟩ :=
    run.held_beside (placed_keeps noDaily) (course_keeps σ noDaily) begun
  constructor
  · rintro ⟨L, built, mirrors⟩ e member v renews
    obtain ⟨⟨id, options, asked⟩, d, desk, stage⟩ := course.committed e member v renews
    rcases stage with owing | published
    · have ending := obeyed' i
      rw [ended] at ending
      have ending : Ending (requests i) d := ending d desk
      rw [asked] at ending
      exact absurd owing (ending.2 v)
    · obtain ⟨rewritten, index⟩ := course.published d v desk published
      exact rewritten.harmless begins.indexed index built mirrors
  · intro calm
    obtain ⟨agreement, timely⟩ := agrees calm
    have idle' : ∀ j, (ls j).owes = [] := by
      intro j
      by_cases self : j = i
      · have finished := obeyed j
        rw [self, ended] at finished
        rw [self]
        exact (Finished.settled finished).owes
      · exact idle j self
    obtain ⟨L, built, mirrors⟩ := agreement.mirrors idle'
    exact ⟨L, built, timely.mirrors idle' built mirrors⟩

end Runs

section Sample

/-- The sample image, with one byte more recorded than its file has. -/
def misSized : Image :=
  { sampleImage Processor.pngSignature (str "image/png") .isPublic with storedSize := 9 }

/-- A damaged image with an alias. -/
def shortened : State :=
  (State.booted
    (Database.single misSized [⟨str "m", str "/x", str "a", str "admin", 0⟩] (by decide)
      (List.nodup_singleton _) (List.nodup_singleton _) (by decide))
    (Files.single (str "a") Processor.pngSignature) 1).loaded convertingPlatform

theorem shortened_begins : Begins convertingPlatform shortened := loaded_begins ⟨_, rfl⟩

/-- The sample conversion until it returns. -/
def returned : List (Nat × Choice) := converted ++ List.replicate 3 (1, .normal)

theorem repair_runs : ∃ τ w result, Run (alone convertingPlatform (fun _ => sampleConversion) 1 Plain)
      (start convertingPlatform (fun _ => sampleConversion) shortened) τ w ∧
    w.calls 1 = .done result ∧ w.shared.index.aliases.lookup (str "/x") = none ∧
    ∃ L, w.shared.built convertingPlatform = .ok L ∧
      L.snapshot.aliases.lookup (str "/x") = some (str "a") := by
  refine ⟨_, _, _, .of_execute returned ?_ rfl, rfl, rfl, _, rfl, rfl⟩
  intro w w' e member _
  refine ⟨?_, plain_scheduled (by simp [returned, converted, converting]) member⟩
  simp only [returned, converted, converting] at member
  simp at member
  tauto

/-- The conversion of a damaged image leaves its alias out of the index. -/
theorem repair_drifts : ¬ ∀ (P : Platform) (requests : Nat → Request) (σ : State) (i : Nat)
    (τ : List (Event (machine P))) (w : World (machine P) Result) (result : Result), Begins P σ →
    (∀ age, requests i ≠ .daily age) → Run (alone P requests i Plain) (start P requests σ) τ w →
    w.calls i = .done result →
    ∃ L, w.shared.built P = .ok L ∧ Mirrors w.shared L fun _ => True := by
  intro claim
  obtain ⟨τ, w, result, run, ended, missing, L, built, leads⟩ := repair_runs
  obtain ⟨L', built', mirrors⟩ :=
    claim _ _ _ _ _ _ _ shortened_begins (by simp [sampleConversion]) run ended
  obtain rfl : L = L' := Except.ok.inj (built.symm.trans built')
  rw [← mirrors.aliases, missing] at leads
  cases leads

theorem repair_renews : ∃ τ w, Run (alone convertingPlatform (fun _ => sampleConversion) 1 Plain)
      (start convertingPlatform (fun _ => sampleConversion) shortened) τ w ∧
    ∃ e ∈ τ, ∃ v, Renews e v ∧ ¬ Harmless shortened v := by
  obtain ⟨τ, w, result, run, ended, missing, L, built, leads⟩ := repair_runs
  refine ⟨τ, w, run, ?_⟩
  by_contra calm
  push Not at calm
  obtain ⟨L', built', mirrors⟩ :=
    (alone_mirrors shortened_begins (by simp [sampleConversion]) run ended).mpr calm
  obtain rfl : L = L' := Except.ok.inj (built.symm.trans built')
  rw [← mirrors.aliases, missing] at leads
  cases leads

end Sample

end ImageSilo.Publication
