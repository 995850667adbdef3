import ImageSilo.Concurrent.Waiting
import ImageSilo.MigrationImage.Alone
import ImageSilo.MigrationImage.Mirror

/-! A search that begins after a deletion does not list its path, in any interleaving of the calls of the
migration service. -/
namespace ImageSilo.Migrations.Serving

open Go Storage Delivery Concurrent

section Waiting

variable {P} {requests : Nat → Request} {w : World (machine P) Outcome} {ls : Nat → Ledger} {i j : Nat}

/-- Call `j` holds what the action needs. -/
def Holds (σ : State) (a : Action) (j : Nat) : Prop :=
  match a with
  | .lock m => σ.owner m = some j
  | .readLock | .announce => ∃ entered, σ.writer = some ⟨j, entered⟩
  | .enter => j ∈ σ.readers
  | _ => False

def Waits (w : World (machine P) Outcome) (i j : Nat) : Prop :=
  ∃ a next, w.calls i = .act a next ∧ Holds w.shared a j

/-- The order in which the mutexes are taken. -/
def need : Action → Nat
  | .lock .scan => 0
  | .lock .mutation => 1
  | .readLock | .announce => 2
  | .enter => 3
  | _ => 4

def rank (w : World (machine P) Outcome) (i : Nat) : Nat :=
  match w.calls i with
  | .act a _ => need a
  | .done _ => 4

theorem rank_le (i : Nat) : rank w i ≤ 4 := by
  unfold rank
  split
  · unfold need
    split <;> decide
  · exact le_refl 4

theorem rank_of_ledger (obeyed : (watch P requests).Obeyed w ls) {n : Nat} (short : n ≤ 4)
    (high : ∀ a, (ls j).permits P a → n ≤ need a) : n ≤ rank w j := by
  have here := obeyed j
  unfold rank
  cases program : w.calls j with
  | done v => exact short
  | act a next =>
      rw [program] at here
      exact high a here.1

/-- Who holds a mutex does not take one that comes before it. -/
theorem need_of_mutex {l : Ledger} {m : Mutex} {b : Action} (permitted : l.permits P b)
    (held : l.holds m = true) : need (.lock m) < need b := by
  cases b with
  | lock m' =>
      cases m' with
      | scan =>
          cases m with
          | scan => exact absurd held (by rw [permitted.1]; decide)
          | mutation => exact absurd held (by rw [permitted.2.1]; decide)
      | mutation =>
          cases m with
          | scan => decide
          | mutation => exact absurd held (by rw [permitted.1]; decide)
  | _ => cases m <;> simp [need]

theorem need_of_access {l : Ledger} {b : Action} (permitted : l.permits P b)
    (inside : l.access ≠ .free) : 2 < need b := by
  cases b with
  | lock m =>
      cases m with
      | scan => exact absurd permitted.2.2 inside
      | mutation => exact absurd permitted.2 inside
  | readLock => exact absurd permitted inside
  | announce => exact absurd permitted inside
  | _ => simp [need]

theorem need_of_reading {l : Ledger} {b : Action} (permitted : l.permits P b)
    (reading : l.access = .reading) : 3 < need b := by
  have inside : l.access ≠ .free := by
    rw [reading]
    decide
  cases b with
  | lock m => exact absurd (need_of_access permitted inside) (by cases m <;> decide)
  | readLock => exact absurd permitted inside
  | announce => exact absurd permitted inside
  | enter => exact absurd (reading.symm.trans permitted) (by decide)
  | _ => simp [need]

theorem waits_rise (obeyed : (watch P requests).Obeyed w ls) (locked : Locked w.shared ls)
    (waits : Waits w i j) : rank w i < rank w j := by
  obtain ⟨a, next, program, holds⟩ := waits
  have own : rank w i = need a := by
    unfold rank
    rw [program]
  rw [own]
  have here := locked j
  have writer : (∃ entered, w.shared.writer = some ⟨j, entered⟩) → (ls j).access ≠ .free := by
    rintro ⟨entered, writes⟩
    cases entered with
    | false =>
        rw [here.announced.mp writes]
        decide
    | true =>
        rw [here.writing.mp writes]
        decide
  cases a with
  | lock m =>
      refine rank_of_ledger obeyed (by cases m <;> decide) fun b permitted => ?_
      exact need_of_mutex permitted ((here.owner m).mp holds)
  | readLock =>
      exact rank_of_ledger obeyed (by decide) fun b permitted => need_of_access permitted (writer holds)
  | announce =>
      exact rank_of_ledger obeyed (by decide) fun b permitted => need_of_access permitted (writer holds)
  | enter =>
      refine rank_of_ledger obeyed (by decide) fun b permitted => ?_
      exact need_of_reading permitted (here.reading.mp holds)
  | _ => exact holds.elim

theorem unfinished_of_mutex (obeyed : (watch P requests).Obeyed w ls) {m : Mutex}
    (held : (ls j).holds m = true) : w.Unfinished j := by
  have here := obeyed j
  cases program : w.calls j with
  | done v =>
      rw [program] at here
      rw [here.1.unlocked m] at held
      cases held
  | act a next => exact ⟨a, next, program⟩

theorem unfinished_of_access (obeyed : (watch P requests).Obeyed w ls)
    (inside : (ls j).access ≠ .free) : w.Unfinished j := by
  have here := obeyed j
  cases program : w.calls j with
  | done v =>
      rw [program] at here
      exact absurd here.1.free inside
  | act a next => exact ⟨a, next, program⟩

theorem unfinished_of_writer (obeyed : (watch P requests).Obeyed w ls) (locked : Locked w.shared ls)
    {writer : Writer} (writes : w.shared.writer = some writer) : w.Unfinished writer.call := by
  obtain ⟨call, entered⟩ := writer
  refine unfinished_of_access obeyed ?_
  cases entered with
  | false =>
      rw [(locked call).announced.mp writes]
      decide
  | true =>
      rw [(locked call).writing.mp writes]
      decide

/-- A call that cannot go on waits for another one. -/
theorem blocked_waits (obeyed : (watch P requests).Obeyed w ls) (locked : Locked w.shared ls)
    (blocked : w.Blocked i) : ∃ j, Waits w i j ∧ w.Unfinished j := by
  obtain ⟨⟨a, next, program⟩, stuck⟩ := blocked
  have here := obeyed i
  rw [program] at here
  have permitted : (ls i).permits P a := here.1
  have stands := locked i
  have possible : ∀ (c : Choice) {answer : Response a × State},
      ¬ State.perform P w.shared i a c = some answer :=
    fun c answer performed => stuck (World.able_of_perform program c performed)
  have able : ∀ {p : Prop} [Decidable p] {answer : Response a × State}, (∀ c : Choice,
      State.perform P w.shared i a c = if p then some answer else none) → ¬ p := by
    intro p _ answer same holds
    exact possible .normal ((same .normal).trans (if_pos holds))
  cases a with
  | now => exact absurd rfl (possible .normal)
  | contextErr => exact absurd rfl (possible .normal)
  | lock m =>
      have taken := able fun c => rfl
      obtain ⟨j, owner⟩ := Option.ne_none_iff_exists'.mp taken
      refine ⟨j, ⟨_, next, program, owner⟩, ?_⟩
      exact unfinished_of_mutex obeyed (((locked j).owner m).mp owner)
  | unlock m => exact absurd ((stands.owner m).mpr permitted.1) (able fun c => rfl)
  | readLock =>
      obtain ⟨writer, writes⟩ := Option.ne_none_iff_exists'.mp (able fun c => rfl)
      exact ⟨writer.call, ⟨_, next, program, writer.entered, writes⟩,
        unfinished_of_writer obeyed locked writes⟩
  | readUnlock => exact absurd (stands.reading.mpr permitted) (able fun c => rfl)
  | announce =>
      obtain ⟨writer, writes⟩ := Option.ne_none_iff_exists'.mp (able fun c => rfl)
      exact ⟨writer.call, ⟨_, next, program, writer.entered, writes⟩,
        unfinished_of_writer obeyed locked writes⟩
  | enter =>
      have read : w.shared.readers ≠ ∅ :=
        fun none => able (fun c => rfl) ⟨stands.announced.mpr permitted, none⟩
      obtain ⟨j, reads⟩ := Finset.nonempty_iff_ne_empty.mpr read
      refine ⟨j, ⟨_, next, program, reads⟩, unfinished_of_access obeyed ?_⟩
      rw [(locked j).reading.mp reads]
      decide
  | leave => exact absurd (stands.writing.mpr permitted) (able fun c => rfl)
  | load => exact absurd rfl (possible .normal)
  | store snapshot => exact absurd rfl (possible .normal)
  | listMigrationImages => exact absurd rfl (possible .normal)
  | removeMigrationImage relativePath =>
      have ends : ∃ answer, Faults.none.removeMigrationImage (split slash relativePath).length P
          w.shared.tree relativePath = some answer := by
        rcases removeMigrationImage_cases P Faults.none w.shared.tree relativePath with ⟨-, e, run⟩ |
          ⟨-, result, current, kept, -, run⟩
        · exact ⟨_, run _⟩
        · exact ⟨_, run _ le_rfl⟩
      obtain ⟨answer, ran⟩ := ends
      have performed : State.perform P w.shared i (.removeMigrationImage relativePath)
          (.faults Faults.none) = some (answer.1, { w.shared with tree := answer.2 }) := by
        change Option.map _ _ = _
        rw [ran]
        rfl
      exact absurd performed (possible _)

end Waiting

section Runs

variable {P} {enabled : Bool} {requests : Nat → Request} {tree : Tree} {clock : Time}
  {w w' : World (machine P) Outcome} {τ τ' : List (Event (machine P))} {σ : State} {ls : Nat → Ledger}

/-- What holds in every state of a run. -/
structure Coherent (P : Platform) (requests : Nat → Request) (τ : List (Event (machine P)))
    (σ : State) (ls : Nat → Ledger) : Prop where
  locked : Locked σ ls
  mirrored : Mirrored P σ ls
  unbegun : ∀ i, (∀ e ∈ τ, e.call ≠ i) → ls i = .begin P (requests i)

theorem coherent_keeps :
    (watch P requests).Keeps (serving P enabled requests) (Coherent P requests) where
  call := by
    rintro τ w ls i a next c r σ - ⟨locked, mirrored, unbegun⟩ - permitted performed -
    refine ⟨trivial, locked.step permitted performed, mirrored.step locked permitted performed, ?_⟩
    intro j quiet
    have other : j ≠ i := by
      rintro rfl
      exact quiet _ (List.mem_append_right _ (List.mem_singleton_self _)) rfl
    rw [Function.update_of_ne other]
    exact unbegun j fun e member => quiet e (List.mem_append_left _ member)
  environment := by
    rintro τ σ ls _ ⟨locked, mirrored, unbegun⟩ ⟨t, rfl⟩
    refine ⟨?_, ?_, unbegun⟩
    · exact fun i => ⟨(locked i).owner, (locked i).reading, (locked i).announced, (locked i).writing⟩
    · exact ⟨mirrored.guarded, mirrored.listed, mirrored.current, mirrored.fresh, mirrored.pending,
        mirrored.settled⟩
  crash := fun crashed => crashed.elim

theorem begin_spec (request : Request) : (Ledger.begin P request).Idle ∧
    (Ledger.begin P request).removal = Removal.none ∧ (Ledger.begin P request).known = none := by
  cases request <;> exact ⟨⟨fun _ => rfl, rfl, rfl, fun _ same => by cases same⟩, rfl, rfl⟩

theorem start_held : (watch P requests).Held (Coherent P requests) []
    (start P enabled requests tree clock) := by
  refine ⟨fun i => .begin P (requests i), fun i => program_obeys enabled (requests i), ?_, ?_,
    fun i _ => rfl⟩
  · intro i
    obtain ⟨idle, -, -⟩ := @begin_spec P (requests i)
    refine ⟨fun m => ?_, ?_, ?_, ?_⟩
    · rw [idle.unlocked]
      simp [start]
    · rw [idle.free]
      simp [start]
    · rw [idle.free]
      simp [start]
    · rw [idle.free]
      simp [start]
  · refine ⟨?_, ?_, ?_, fun _ _ same => (by cases same), ?_, ?_⟩
    · rintro i (listed | ⟨path, owed⟩)
      · exact absurd (begin_spec (requests i)).1.unlisted listed
      · exact absurd owed ((begin_spec (requests i)).1.told path)
    · intro i list listed
      rw [(begin_spec (requests i)).1.unlisted] at listed
      cases listed
    · intro i snapshot writing
      rw [(begin_spec (requests i)).1.free] at writing
      cases writing
    · intro i path owed
      exact absurd owed ((begin_spec (requests i)).1.told path)
    · intro i path owed
      rw [(begin_spec (requests i)).2.1] at owed
      cases owed

theorem coherent (run : Run (serving P enabled requests) (start P enabled requests tree clock) τ w) :
    (watch P requests).Held (Coherent P requests) τ w := run.held coherent_keeps start_held

/-- A path that a deletion has settled stays so. -/
theorem settled_record {l : Ledger} {a : Action} {r : Response a} {path : GoString}
    (permitted : l.permits P a) (settled : l.removal = .settled path) :
    (l.record a r).removal = .settled path := by
  cases a with
  | load =>
      change (if _ then _ else _) = _
      rw [settled]
      exact ite_self _
  | store snapshot =>
      change l.removal.settle = _
      rw [settled]
      rfl
  | removeMigrationImage relativePath =>
      rw [permitted.2.2.1] at settled
      cases settled
  | _ => exact settled

/-- From where a deletion is over, what a search gets to know does not hold its path. -/
theorem hidden_keeps {d s : Nat} {path : GoString} :
    (watch P requests).Keeps (serving P enabled requests) fun _ σ ls =>
      Locked σ ls ∧ Mirrored P σ ls ∧ (ls d).removal = .settled path ∧
        ∀ snapshot, (ls s).known = some snapshot → Unlisted path snapshot.items where
  call := by
    rintro τ w ls i a next c r σ obeyed ⟨locked, mirrored, settled, hidden⟩ program permitted
      performed -
    have locked' := locked.step permitted performed
    have mirrored' := mirrored.step locked permitted performed
    have settled' : (Function.update ls i ((ls i).record a r) d).removal = .settled path := by
      by_cases self : d = i
      · subst self
        rw [Function.update_self]
        exact settled_record permitted settled
      · rw [Function.update_of_ne self]
        exact settled
    refine ⟨trivial, locked', mirrored', settled', ?_⟩
    intro snapshot known
    by_cases self : s = i
    · subst self
      rw [Function.update_self] at known
      cases a with
      | load =>
          cases performed
          exact (mirrored.settled d path settled).2 snapshot known
      | store stored =>
          cases performed
          exact (mirrored'.settled d path settled').2 snapshot known
      | enter => cases known
      | _ => exact hidden snapshot known
    · rw [Function.update_of_ne self] at known
      exact hidden snapshot known
  environment := by
    rintro τ σ ls _ ⟨locked, mirrored, settled, hidden⟩ ⟨t, rfl⟩
    refine ⟨?_, ?_, settled, hidden⟩
    · exact fun i => ⟨(locked i).owner, (locked i).reading, (locked i).announced, (locked i).writing⟩
    · exact ⟨mirrored.guarded, mirrored.listed, mirrored.current, mirrored.fresh, mirrored.pending,
        mirrored.settled⟩
  crash := fun crashed => crashed.elim

/-- A search that begins after a deletion has answered does not list the path. -/
theorem search_after_delete {d s : Nat} {rawPath canonical relativePath : GoString}
    {filter : ListFilter} {page : Page}
    (first : Run (serving P enabled requests) (start P enabled requests tree clock) τ w)
    (second : Run (serving P enabled requests) w τ' w') (deletes : requests d = .delete rawPath)
    (normal : normalizeImagePath P rawPath = some (canonical, relativePath))
    (answered : w.calls d = .done (.refused .imageNotFound) ∨
      ∃ result, w.calls d = .done (.deleted result))
    (searches : requests s = .search filter) (later : ∀ e ∈ τ, e.call ≠ s)
    (shown : w'.calls s = .done (.page page)) : ∀ item ∈ page.items, item.path ≠ canonical := by
  obtain ⟨ls, obeyed, coherent⟩ := coherent first
  have settled : (ls d).removal = .settled canonical := by
    have here := obeyed d
    have told : ∃ canonical' relativePath', normalizeImagePath P rawPath =
        some (canonical', relativePath') ∧ (ls d).removal = .settled canonical' := by
      rcases answered with missed | ⟨result, deleted⟩
      · rw [missed] at here
        have told := here.2
        rw [deletes] at told
        exact told
      · rw [deleted] at here
        have told := here.2
        rw [deletes] at told
        exact told
    obtain ⟨canonical', relativePath', normal', settled⟩ := told
    rw [normal] at normal'
    cases normal'
    exact settled
  have unknown : ∀ snapshot, (ls s).known = some snapshot → Unlisted canonical snapshot.items := by
    intro snapshot known
    rw [coherent.unbegun s later, (begin_spec (requests s)).2.2] at known
    cases known
  obtain ⟨ls', obeyed', -, -, -, hidden⟩ := second.held hidden_keeps
    ⟨ls, obeyed, coherent.locked, coherent.mirrored, settled, unknown⟩
  have there := obeyed' s
  rw [shown] at there
  have told := there.2
  rw [searches] at told
  obtain ⟨snapshot, known, part⟩ := told
  exact fun item member => hidden snapshot known item (part item member)

/-- No call is under way: each one is over or has not begun. -/
def AtRest (τ : List (Event (machine P))) (w : World (machine P) Outcome) : Prop :=
  ∀ i, (∃ v, w.calls i = .done v) ∨ ∀ e ∈ τ, e.call ≠ i

theorem fresh_at_rest
    (run : Run (serving P enabled requests) (start P enabled requests tree clock) τ w)
    (rest : AtRest τ w) : ∀ snapshot ∈ w.shared.snapshot, Fresh P w.shared.tree snapshot := by
  obtain ⟨ls, obeyed, coherent⟩ := coherent run
  refine coherent.mirrored.fresh fun i path => ?_
  rcases rest i with ⟨v, ended⟩ | unbegun
  · have here := obeyed i
    rw [ended] at here
    exact here.1.told path
  · rw [coherent.unbegun i unbegun]
    exact (begin_spec (requests i)).1.told path

/-- In every interleaving a search that begins after a deletion has succeeded or found nothing does not
list the path; while no call is under way a cached snapshot holds exactly the listable images and counts
the files that a walk reaches; and calls do not wait for each other in a circle: behind a blocked call
there is one that can go on. -/
theorem migration_snapshots (P : Platform) (enabled : Bool) (requests : Nat → Request) (tree : Tree)
    (clock : Time) {τ : List (Event (machine P))} {w : World (machine P) Outcome}
    (run : Run (serving P enabled requests) (start P enabled requests tree clock) τ w) :
    (∀ {τ' w' d s rawPath canonical relativePath filter page},
      Run (serving P enabled requests) w τ' w' → requests d = .delete rawPath →
      normalizeImagePath P rawPath = some (canonical, relativePath) →
      (w.calls d = .done (.refused .imageNotFound) ∨ ∃ result, w.calls d = .done (.deleted result)) →
      requests s = .search filter → (∀ e ∈ τ, e.call ≠ s) → w'.calls s = .done (.page page) →
      ∀ item ∈ page.items, item.path ≠ canonical) ∧
    (AtRest τ w → ∀ snapshot ∈ w.shared.snapshot,
      (∀ item, item ∈ snapshot.items ↔ Listable P w.shared.tree item) ∧ snapshot.items.Nodup ∧
        snapshot.storedBytes = reachedBytes w.shared.tree) ∧
    (∀ group, ¬ w.Deadlock (Waits w) group) ∧
    ∀ {i}, w.Blocked i → ∃ j, Relation.TransGen (Waits w) i j ∧ w.Able j := by
  obtain ⟨ls, obeyed, coherent⟩ := coherent run
  have rises : ∀ i j, Waits w i j → rank w i < rank w j :=
    fun i j => waits_rise obeyed coherent.locked
  refine ⟨?_, ?_, fun group => World.no_deadlock rises rank_le group, ?_⟩
  · intro τ' w' d s rawPath canonical relativePath filter page second deletes normal answered searches
      later shown
    exact search_after_delete run second deletes normal answered searches later shown
  · intro rest snapshot there
    obtain ⟨items, storedBytes⟩ := fresh_at_rest run rest snapshot there
    refine ⟨fun item => ?_, ?_, storedBytes⟩
    · rw [items]
      exact mem_scan_iff
    · rw [items]
      exact List.Nodup.of_map _ scan_distinct
  · exact World.leads_to_able rises rank_le fun i => blocked_waits obeyed coherent.locked

end Runs

section Sample

variable {P : Platform} {enabled : Bool} {requests : Nat → Request} {w : World (machine P) Outcome}

/-- A call has its turn while no other is under way. -/
theorem one_turn (free : w.shared.Free) {i : Nat}
    (program : w.calls i = Serving.program P enabled (requests i))
    {answer : Outcome × Tree × Service} (sequential : (requests i).sequential P w.shared.tree
      w.shared.clock ⟨enabled, w.shared.snapshot⟩ = answer) :
    ∃ τ w', Run (serving P enabled requests) w τ w' ∧ (∀ e ∈ τ, e.call = i) ∧
      w'.calls i = .done answer.1 ∧ (∀ j, j ≠ i → w'.calls j = w.calls j) ∧
      w'.shared = { w.shared with tree := answer.2.1, snapshot := answer.2.2.snapshot } := by
  have alone := @program_alone P w.shared i enabled free (requests i)
  rw [sequential, ← program] at alone
  obtain ⟨τ, run, own⟩ := @Run.of_alone _ _ _ _ _ _ (serving P enabled requests) _ _ plain
    (fun _ _ _ _ => trivial) alone
  exact ⟨τ, _, run, own, World.proceed_self .., fun j other => World.proceed_other _ _ _ other, rfl⟩

def sampleRequests : Nat → Request
  | 0 => .refresh
  | 1 => .delete (str "/x.png")
  | 2 => .search ⟨0, .empty, [], [], 0, 0⟩
  | _ => .delete (str "/x.png")

/-- The first two steps of a deletion. -/
theorem delete_begins {rawPath canonical relativePath : GoString}
    (normal : normalizeImagePath P rawPath = some (canonical, relativePath)) :
    ∃ checked locked, program P true (.delete rawPath) = .act .contextErr checked ∧
      checked false = .act (.lock .mutation) locked := by
  simp only [program, delete, normal, Bool.not_true, Bool.false_eq_true, if_false]
  exact ⟨_, _, rfl, rfl⟩

theorem locked_out {σ : State} {m : Mutex} (taken : σ.owner m ≠ none) (call : Nat) (c : Choice) :
    σ.perform P call (.lock m) c = none := by
  simp only [State.perform, if_neg taken]

/-- Of two deletions the second one waits for the first. -/
theorem queue_blocks (free : w.shared.owner .mutation = none) {i j : Nat} (other : j ≠ i)
    {checked : Bool → Process Outcome} {locked : Unit → Process Outcome}
    (begins : w.calls i = .act .contextErr checked) (begins' : w.calls j = .act .contextErr checked)
    (locks : checked false = .act (.lock .mutation) locked) :
    ∃ τ w', Run (serving P enabled requests) w τ w' ∧ w'.Blocked j := by
  have first : Run (serving P enabled requests) w _ (w.proceed i w.shared (checked false)) :=
    @Run.call _ _ _ _ _ w w _ i .contextErr checked .normal false w.shared .refl begins rfl trivial
  have waits : (w.proceed i w.shared (checked false)).calls i = .act (.lock .mutation) locked := by
    rw [World.proceed_self, locks]
  have takes : (machine P).perform i (.lock .mutation) .normal w.shared = some ((),
      { w.shared with owner := Function.update w.shared.owner .mutation (some i) }) := if_pos free
  have second := Run.call first waits takes trivial
  have begins₂ : ((w.proceed i w.shared (checked false)).proceed i
      { w.shared with owner := Function.update w.shared.owner .mutation (some i) } (locked ())).calls
        j = .act .contextErr checked := by
    rw [World.proceed_other _ _ _ other, World.proceed_other _ _ _ other, begins']
  have third := @Run.call _ _ _ (machine P) _ _ _ _ j .contextErr checked Choice.normal false _ second
    begins₂ rfl trivial
  have taken : Function.update w.shared.owner .mutation (some i) .mutation ≠ none := by
    rw [Function.update_self]
    exact Option.some_ne_none i
  have stuck := @locked_out P { w.shared with
    owner := Function.update w.shared.owner .mutation (some i) } .mutation taken j
  exact ⟨_, _, third, World.blocked_of_perform ((World.proceed_self ..).trans locks) stuck⟩

/-- A search without a cursor and a filter shows a page. -/
theorem search_shows (tree : Tree) (now : Time) (s : Service) : ∃ page s',
    (Request.search ⟨0, .empty, [], [], 0, 0⟩).sequential P tree now s = (.page page, tree, s') := by
  have valid : validListFilter ⟨0, .empty, [], [], 0, 0⟩ = true := rfl
  simp only [Request.sequential, Migrations.search, valid, Bool.not_true, Bool.false_eq_true, if_false]
  exact ⟨_, _, rfl⟩

theorem sample_normal :
    normalizeImagePath sniffingPlatform (str "/x.png") = some (str "/x.png", str "x.png") := by
  decide +kernel

/-- One image at the top of the tree. -/
def singleTree : Tree where
  node := [(⟨[str "x.png"], .regular Processor.pngSignature 0⟩ : (_ : TreePath) × TreeNode)].toFinmap
  named := by decide
  rooted := by decide

/-- A deletion between a refresh and a search, and two deletions of which one has the mutex. -/
theorem migration_snapshots_sample :
    (∃ τ w τ' w' page,
      Run (serving sniffingPlatform true sampleRequests)
        (start sniffingPlatform true sampleRequests singleTree 0) τ w ∧
      Run (serving sniffingPlatform true sampleRequests) w τ' w' ∧
      (∃ result, w.calls 1 = .done (.deleted result)) ∧ w'.calls 2 = .done (.page page) ∧
      (∀ item ∈ page.items, item.path ≠ str "/x.png") ∧
      ∃ snapshot ∈ w.shared.snapshot, snapshot.storedBytes = reachedBytes w.shared.tree) ∧
    ∃ τ w j,
      Run (serving sniffingPlatform true sampleRequests)
        (start sniffingPlatform true sampleRequests singleTree 0) τ w ∧
      Relation.TransGen (Waits w) 3 j ∧ w.Able j := by
  constructor
  · obtain ⟨removed, tree', gone, -⟩ := @removeMigrationImage_entry sniffingPlatform singleTree
      [str "x.png"] Processor.pngSignature 0 rfl
      (@png_deliverable "x.png" (by decide) (by decide) (by decide) (by decide))
    have free : (start sniffingPlatform true sampleRequests singleTree 0).shared.Free :=
      ⟨rfl, rfl, rfl⟩
    have begun : ∀ i, (start sniffingPlatform true sampleRequests singleTree 0).calls i =
        program sniffingPlatform true (sampleRequests i) := fun i => rfl
    obtain ⟨τ₁, w₁, run₁, own₁, ended₁, others₁, shared₁⟩ :=
      @one_turn sniffingPlatform true sampleRequests _ free 0 rfl _ rfl
    have begun₁ := (others₁ 1 (by decide)).trans (begun 1)
    have begun₂ := (others₁ 2 (by decide)).trans (begun 2)
    have deletes : (sampleRequests 1).sequential sniffingPlatform w₁.shared.tree w₁.shared.clock
        ⟨true, w₁.shared.snapshot⟩ = (.deleted ⟨str "/x.png", removed.removedDirectories,
          removed.cleanupPending⟩, tree',
          Migrations.removeCachedPath ⟨true, w₁.shared.snapshot⟩ (str "/x.png")) := by
      have tree : w₁.shared.tree = singleTree := by
        rw [shared₁]
        rfl
      have gone' : removeMigrationImage sniffingPlatform singleTree (str "x.png") =
          (.ok removed, tree') := gone
      rw [tree]
      simp [sampleRequests, Request.sequential, Migrations.delete, sample_normal, gone']
    obtain ⟨τ₂, w₂, run₂, own₂, ended₂, others₂, shared₂⟩ :=
      @one_turn sniffingPlatform true sampleRequests w₁ (by rw [shared₁]; exact ⟨rfl, rfl, rfl⟩) 1
        begun₁ _ deletes
    obtain ⟨page, s₃, searches⟩ := @search_shows sniffingPlatform w₂.shared.tree w₂.shared.clock
      ⟨true, w₂.shared.snapshot⟩
    obtain ⟨τ₃, w₃, run₃, -, ended₃, -, -⟩ :=
      @one_turn sniffingPlatform true sampleRequests w₂ (by rw [shared₂, shared₁]; exact ⟨rfl, rfl, rfl⟩) 2
        ((others₂ 2 (by decide)).trans begun₂) _ searches
    have later : ∀ e ∈ τ₁ ++ τ₂, e.call ≠ 2 := by
      intro e member
      rcases List.mem_append.mp member with before | after
      · rw [own₁ e before]
        decide
      · rw [own₂ e after]
        decide
    have rest : AtRest (τ₁ ++ τ₂) w₂ := by
      intro i
      by_cases second : i = 1
      · rw [second]
        exact .inl ⟨_, ended₂⟩
      · by_cases first : i = 0
        · rw [first]
          exact .inl ⟨_, (others₂ 0 (by decide)).trans ended₁⟩
        · right
          intro e member same
          rcases List.mem_append.mp member with before | after
          · exact first (same.symm.trans (own₁ e before))
          · exact second (same.symm.trans (own₂ e after))
    have cached : w₂.shared.snapshot = some (withoutPath
        (Migrations.scanSnapshot sniffingPlatform singleTree 0) (str "/x.png")) := by
      rw [shared₂, shared₁]
      rfl
    have main := migration_snapshots sniffingPlatform true sampleRequests singleTree 0
      (run₁.trans run₂)
    exact ⟨τ₁ ++ τ₂, w₂, τ₃, w₃, _, run₁.trans run₂, run₃, ⟨_, ended₂⟩, ended₃,
      main.1 run₃ rfl sample_normal (.inr ⟨_, ended₂⟩) rfl later ended₃,
      _, cached, (main.2.1 rest _ cached).2.2⟩
  · obtain ⟨checked, locked, begins, locks⟩ := @delete_begins sniffingPlatform _ _ _ sample_normal
    have begun : ∀ i, (start sniffingPlatform true sampleRequests singleTree 0).calls i =
        program sniffingPlatform true (sampleRequests i) := fun i => rfl
    obtain ⟨τ, w, run, blocked⟩ := @queue_blocks sniffingPlatform true sampleRequests
      (start sniffingPlatform true sampleRequests singleTree 0) rfl 1 3 (by decide) checked locked
      ((begun 1).trans begins) ((begun 3).trans begins) locks
    have main := migration_snapshots sniffingPlatform true sampleRequests singleTree 0 run
    obtain ⟨j, path, able⟩ := main.2.2.2 blocked
    exact ⟨τ, w, j, run, path, able⟩

/-- A file below a directory whose name is not valid UTF-8. -/
def garbledTree : Tree where
  node :=
    [(⟨[[0xff]], .directory⟩ : (_ : TreePath) × TreeNode), ⟨[[0xff], str "a"], .regular [0] 0⟩].toFinmap
  named := by decide
  rooted := by decide

/-- A walk does not enter the directory, so the count leaves the file out. -/
theorem file_not_counted : ¬ ∀ (P : Platform) (enabled : Bool) (requests : Nat → Request) (tree : Tree)
    (clock : Time) (τ : List (Event (machine P))) (w : World (machine P) Outcome),
    Run (serving P enabled requests) (start P enabled requests tree clock) τ w → AtRest τ w →
      ∀ snapshot ∈ w.shared.snapshot, snapshot.storedBytes =
        ∑ path ∈ w.shared.tree.node.keys, fileSize (w.shared.tree.node.lookup path) := by
  intro claim
  have free : (start samplePlatform true sampleRequests garbledTree 0).shared.Free := ⟨rfl, rfl, rfl⟩
  obtain ⟨τ, w, run, own, ended, others, shared⟩ :=
    @one_turn samplePlatform true sampleRequests _ free 0 rfl _ rfl
  have rest : AtRest τ w := by
    intro i
    by_cases self : i = 0
    · rw [self]
      exact .inl ⟨_, ended⟩
    · right
      intro e member same
      exact self (same.symm.trans (own e member))
  have cached : w.shared.snapshot = some (Migrations.scanSnapshot samplePlatform garbledTree 0) := by
    rw [shared]
    rfl
  have tree : w.shared.tree = garbledTree := by
    rw [shared]
    rfl
  have total := claim samplePlatform true sampleRequests garbledTree 0 τ w run rest _ cached
  have counted := (fresh_at_rest run rest _ cached).storedBytes
  rw [counted, tree] at total
  have none : reachedBytes garbledTree = 0 := by decide +kernel
  have one : ∑ path ∈ garbledTree.node.keys, fileSize (garbledTree.node.lookup path) = 1 := by
    decide +kernel
  exact absurd (none.symm.trans (total.trans one)) (by decide)

end Sample

end ImageSilo.Migrations.Serving
