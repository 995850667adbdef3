import ImageSilo.Publication.Contents
import ImageSilo.System.Boot

/-! `Sound` collects what holds in every state of every run, whatever fails, is interrupted or crashes. -/
namespace ImageSilo.Publication

open Go Concurrent Storage Tables

section Coherent

/-- The lock that an index step is owed under. -/
def Ledger.backs (l : Ledger) : Delivery.IndexStep → Prop
  | .add id _ => l.image = some id
  | .updateVisibility id _ => l.image = some id
  | .removeImage id => l.image = some id
  | .addAlias path id => l.path = some path ∧ l.image = some id
  | .removeAlias path => l.path = some path
  | .replaceAll _ => False

/-- Debts are owed inside a change and under locks, and only a rebuild has rows in hand. -/
structure Coherent (l : Ledger) : Prop where
  shared : l.owes ≠ [] → l.hold = .shared
  backed : ∀ s ∈ l.owes, l.backs s
  rebuilding : l.progress = .idle ∨ l.hold = .exclusive

variable {P : Platform} {l l' : Ledger}

theorem Coherent.same (h : Coherent l) (image : l'.image = l.image) (path : l'.path = l.path)
    (hold : l'.hold = l.hold) (owes : ∀ s ∈ l'.owes, s ∈ l.owes)
    (progress : l'.progress = .idle ∨ l'.progress = l.progress ∨ l.hold = .exclusive) :
    Coherent l' := by
  constructor
  · intro owing
    obtain ⟨s, member⟩ := List.exists_mem_of_ne_nil _ owing
    rw [hold]
    exact h.shared (List.ne_nil_of_mem (owes s member))
  · intro s member
    have backed := h.backed s (owes s member)
    unfold Ledger.backs at backed ⊢
    rw [image, path]
    exact backed
  · rw [hold]
    rcases progress with idle | same | exclusive
    · exact .inl idle
    · rw [same]
      exact h.rebuilding
    · exact .inr exclusive

/-- A statement of a change puts a debt on a ledger that owed nothing. -/
theorem Coherent.owe (h : Coherent l) {steps : List Delivery.IndexStep} (owes : l'.owes = steps)
    (hold : l'.hold = .shared) (backed : ∀ s ∈ steps, l'.backs s)
    (progress : l'.progress = l.progress) (same : l'.hold = l.hold) : Coherent l' := by
  refine ⟨fun _ => hold, ?_, ?_⟩
  · rw [owes]
    exact backed
  · rw [progress, same]
    exact h.rebuilding

theorem Coherent.begin (request : Request) : Coherent (Ledger.begin request) :=
  ⟨fun owing => absurd rfl owing, by simp [Ledger.begin], .inl rfl⟩

theorem Coherent.statement (h : Coherent l) {q : Statement} {r : Except DatabaseError q.Value}
    (permitted : l.allows P q) (reported : l.reports (.statement q) r) :
    Coherent (l.recordStatement P q r) := by
  by_cases reading : Reading q r
  · obtain ⟨row, mapping, erased, unaliased, progress, records, eq⟩ :=
      reading_frame (P := P) l reading
    have moved : progress = .idle ∨ progress = l.progress ∨ l.hold = .exclusive := by
      have made : (l.recordStatement P q r).progress = progress := by rw [eq]
      rw [← made]
      unfold Ledger.recordStatement
      split
      case h_13 => exact .inr (.inr permitted)
      case h_14 => exact .inr (.inr permitted)
      case h_10 => split <;> exact .inr (.inl rfl)
      all_goals exact .inr (.inl rfl)
    rw [eq]
    exact h.same rfl rfl rfl (fun _ member => member) moved
  · unfold Reading at reading
    split at reading
    case h_1 v u =>
      obtain ⟨shared, locked, -⟩ := permitted
      refine h.owe rfl shared ?_ rfl rfl
      intro s member
      obtain rfl := List.mem_singleton.mp member
      exact locked
    case h_2 v m u =>
      obtain ⟨shared, locked, -, -, -, path, target, -⟩ := permitted
      refine h.owe rfl shared ?_ rfl rfl
      intro s member
      rcases List.mem_cons.mp member with rfl | rest
      · exact locked
      · obtain rfl := List.mem_singleton.mp rest
        exact ⟨path, locked⟩
    case h_3 id v =>
      obtain ⟨shared, locked, -⟩ := permitted
      refine h.owe rfl shared ?_ rfl rfl
      intro s member
      obtain rfl := List.mem_singleton.mp member
      exact locked
    case h_4 id visibility =>
      obtain ⟨shared, locked, -⟩ := permitted
      refine h.owe rfl shared ?_ rfl rfl
      intro s member
      obtain rfl := List.mem_singleton.mp member
      exact locked
    case h_5 v =>
      obtain ⟨shared, locked, -⟩ := permitted
      refine h.owe rfl shared ?_ rfl rfl
      intro s member
      obtain rfl := List.mem_singleton.mp member
      exact locked
    case h_6 m =>
      obtain ⟨shared, locked, path, -⟩ := permitted
      refine h.owe rfl shared ?_ rfl rfl
      intro s member
      obtain rfl := List.mem_singleton.mp member
      exact ⟨path, locked⟩
    case h_7 id path =>
      obtain ⟨shared, -⟩ := permitted
      refine h.owe rfl shared ?_ rfl rfl
      intro s member
      obtain rfl := List.mem_singleton.mp member
      exact reported
    case h_8 => exact absurd trivial reading

theorem Coherent.sync (h : Coherent l) {s : Sync} (idle : l.owes = []) (permitted : l.allowsSync s) :
    Coherent (l.recordSync s) := by
  obtain ⟨image, path, hold, row, progress, eq⟩ := recordSync_frame l s
  have owes : (l.recordSync s).owes = [] := by
    rw [eq]
    exact idle
  have free : l.hold ≠ .exclusive → l.progress = .idle := fun other =>
    h.rebuilding.resolve_right other
  refine ⟨fun owing => absurd owes owing, by simp [owes], ?_⟩
  cases s with
  | beginChange =>
      have : l.hold = .free := permitted
      exact .inl (free (by simp [this]))
  | endChange =>
      have : l.hold = .shared := permitted
      exact .inl (free (by simp [this]))
  | announceRebuild =>
      have : l.hold = .free := permitted.2.2
      exact .inl (free (by simp [this]))
  | beginRebuild => exact .inr rfl
  | endRebuild => exact .inl rfl
  | _ => exact h.rebuilding

theorem Coherent.step (h : Coherent l) {a : Action} {r : Response a} (permitted : l.permits P a)
    (reported : l.reports a r) : Coherent (l.record P a r) := by
  cases a with
  | sync s => exact h.sync permitted.1 permitted.2
  | statement q => exact h.statement permitted.2 reported
  | index s =>
      rcases permitted with ⟨rest, owed⟩ | ⟨idle, L, ready, rfl⟩
      · have owes : (l.recordIndex s).owes = rest ∧ (l.recordIndex s).progress = l.progress := by
          unfold Ledger.recordIndex
          rw [owed]
          split <;> first | exact ⟨by simp_all, rfl⟩ | simp_all
        obtain ⟨_, _, _, _, eq⟩ := recordIndex_frame l s
        refine h.same (by rw [Ledger.record, eq]) (by rw [Ledger.record, eq])
          (by rw [Ledger.record, eq]) ?_ (.inr (.inl owes.2))
        rw [Ledger.record, owes.1, owed]
        exact fun s' member => List.mem_cons_of_mem s member
      · have same : l.recordIndex (.replaceAll L.snapshot) = { l with progress := .idle } := by
          simp only [Ledger.recordIndex, idle]
        rw [Ledger.record, same]
        exact h.same rfl rfl rfl (fun _ member => member) (.inl rfl)
  | file b =>
      obtain ⟨temps, placed, thumb, pending, progress, opened, entries, eq⟩ :=
        recordFile_frame (P := P) l b r
      have moved : progress = .idle ∨ progress = l.progress ∨ l.hold = .exclusive := by
        have made : (l.recordFile P b r).progress = progress := by rw [eq]
        rw [← made]
        rcases h.rebuilding with idle | exclusive
        · refine .inl ?_
          unfold Ledger.recordFile
          split
          all_goals first
            | exact idle
            | (split <;> exact idle)
            | simp only [idle]
        · exact .inr (.inr exclusive)
      rw [Ledger.record, eq]
      exact h.same rfl rfl rfl (fun _ member => member) moved
  | newUUID =>
      cases r with
      | error e => exact h
      | ok id => exact h.same rfl rfl rfl (fun _ member => member) (.inr (.inl rfl))
  | _ => exact h.same rfl rfl rfl (fun _ member => member) (.inr (.inl rfl))

end Coherent

section Loading

/-- A row that a rebuild has read is a row of the table. -/
def Listed (db : Database) (row : DeliveryRow) : Prop := ∃ v ∈ db.images, row = deliveryRow v

/-- The targets loaded so far are those of rows of the table. -/
def Loaded (db : Database) (L : Delivery.Loading) : Prop :=
  ∀ id t, L.snapshot.targets.lookup id = some t →
    ∃ v ∈ db.images, v.id = id ∧ t = Delivery.targetOfRow (deliveryRow v)

def Progress.reads (db : Database) : Progress → Prop
  | .idle => True
  | .rows remaining L => (∀ row ∈ remaining, Listed db row) ∧ Loaded db L
  | .ready L => Loaded db L

theorem loaded_start (db : Database) : Loaded db Delivery.Loading.start := by
  intro id t there
  simp [Delivery.Loading.start] at there

theorem Loaded.addRow {db : Database} {L : Delivery.Loading} {row : DeliveryRow}
    (h : Loaded db L) (listed : Listed db row) (size : Option Int) : Loaded db (L.addRow row size) := by
  intro id t there
  unfold Delivery.Loading.addRow at there
  split at there
  · exact h id t there
  split at there
  · exact h id t there
  dsimp only at there
  rw [lookup_insert_ite] at there
  split at there
  · rename_i same
    obtain ⟨v, member, rfl⟩ := listed
    cases there
    exact ⟨v, member, same.symm, rfl⟩
  · exact h id t there

variable {P : Platform}

theorem addAlias_targets {L L' : Delivery.Loading} {path imageID : GoString}
    (added : L.addAlias P path imageID = .ok L') : L'.snapshot.targets = L.snapshot.targets := by
  unfold Delivery.Loading.addAlias at added
  split at added
  · cases added
    rfl
  split at added
  · cases added
  split at added
  · cases added
  split at added
  · cases added
    rfl
  split at added
  · cases added
  split at added
  · cases added
  cases added
  rfl

theorem addAliases_targets {rows : List (GoString × GoString)} {L L' : Delivery.Loading}
    (added : L.addAliases P rows = .ok L') : L'.snapshot.targets = L.snapshot.targets := by
  induction rows generalizing L with
  | nil =>
      cases added
      rfl
  | cons row rest ih =>
      unfold Delivery.Loading.addAliases at added
      split at added
      · cases added
      · rename_i L₁ first
        rw [ih added, addAlias_targets first]

variable {σ σ' : State} {ls : Nat → Ledger} {i : Nat} {a : Action} {c : Choice} {r : Response a}

theorem Progress.reads.congr {db db' : Database} {p : Progress} (h : p.reads db)
    (images : db'.images = db.images) : p.reads db' := by
  unfold Progress.reads Loaded Listed at h ⊢
  rwa [images]

theorem orderBy_mem {α : Type} {column : α → GoString} {rows : List α} {v : α} :
    v ∈ Database.orderBy column rows ↔ v ∈ rows :=
  (List.perm_insertionSort _ rows).mem_iff

theorem deliveryRows_reads {rows : List DeliveryRow}
    (performed : σ.statement .deliveryRows c = some (.ok rows, σ')) :
    rows = (Database.orderBy Image.id σ.database.images).map deliveryRow := by
  have answer := (statement_answer performed (by simp)).1
  cases answer
  rfl

theorem aliasRows_reads {rows : List (GoString × GoString)}
    (performed : σ.statement .aliasRows c = some (.ok rows, σ')) :
    rows = (Database.orderBy Alias.path σ.database.aliases).map fun a => (a.path, a.imageID) := by
  have answer := (statement_answer performed (by simp)).1
  cases answer
  rfl

/-- A statement leaves the rows in hand as they are, drops them, or fetches the present ones. -/
theorem statement_progress {l : Ledger} {q : Statement} {r : Except DatabaseError q.Value}
    (performed : σ.statement q c = some (r, σ')) (reads : l.progress.reads σ.database) :
    (l.recordStatement P q r).progress = l.progress ∨
      (l.recordStatement P q r).progress.reads σ.database := by
  unfold Ledger.recordStatement
  split
  case h_10 => split <;> exact .inl rfl
  case h_13 rows =>
    refine .inr ⟨?_, loaded_start _⟩
    rw [deliveryRows_reads performed]
    intro row member
    obtain ⟨v, sorted, rfl⟩ := List.mem_map.mp member
    exact ⟨v, orderBy_mem.mp sorted, rfl⟩
  case h_14 =>
    split
    · rename_i L inHand
      rw [inHand] at reads
      split
      · rename_i L' added
        refine .inr ?_
        change Loaded σ.database L'
        unfold Loaded
        rw [addAliases_targets added]
        exact reads.2
      · exact .inr trivial
    · exact .inl rfl
  all_goals exact .inl rfl

theorem file_progress {l : Ledger} {b : FileAction} {db : Database} (r : b.Response)
    (reads : l.progress.reads db) : (l.recordFile P b r).progress.reads db := by
  unfold Ledger.recordFile
  split
  case h_12 =>
    split
    · rename_i row rest L content inHand
      rw [inHand] at reads
      exact ⟨fun other member => reads.1 other (List.mem_cons_of_mem row member),
        reads.2.addRow (reads.1 row List.mem_cons_self) _⟩
    · rename_i row rest L inHand
      rw [inHand] at reads
      exact ⟨fun other member => reads.1 other (List.mem_cons_of_mem row member),
        reads.2.addRow (reads.1 row List.mem_cons_self) _⟩
    · trivial
    · exact reads
  all_goals first
    | exact reads
    | (split <;> exact reads)

/-- Only inside a change do the tables change, and then nothing is read. -/
theorem Change.shared {l : Ledger} {q : Statement} {r : Except DatabaseError q.Value}
    {db db' : Database} (change : Change db q r db') (permitted : l.allows P q) :
    (db'.images = db.images ∧ db'.aliases = db.aliases) ∨
      (l.hold = .shared ∧ (l.recordStatement P q r).progress = l.progress) := by
  cases change with
  | created => exact .inr ⟨permitted.1, rfl⟩
  | imported => exact .inr ⟨permitted.1, rfl⟩
  | erased => exact .inr ⟨permitted.1, rfl⟩
  | erasedUnseen => exact .inr ⟨permitted.1, rfl⟩
  | shown => exact .inr ⟨permitted.1, rfl⟩
  | replaced => exact .inr ⟨permitted.1, rfl⟩
  | aliased => exact .inr ⟨permitted.1, rfl⟩
  | unaliased => exact .inr ⟨permitted.1, rfl⟩
  | unaliasedUnseen => exact .inr ⟨permitted.1, rfl⟩
  | none q r db' reading images aliases => exact .inl ⟨images, aliases⟩

theorem Coherent.idle {l : Ledger} (h : Coherent l) (changing : l.hold = .shared) :
    l.progress = .idle := by
  rcases h.rebuilding with idle | exclusive
  · exact idle
  · rw [changing] at exclusive
    cases exclusive

/-- While a call has rows in hand no row changes. -/
theorem reads_step (h : ∀ j, (ls j).progress.reads σ.database) (held : Held σ.locks ls)
    (coherent : ∀ j, Coherent (ls j)) (permitted : (ls i).permits P a)
    (performed : σ.perform P i a c = some (r, σ')) (j : Nat) :
    (Function.update ls i ((ls i).record P a r) j).progress.reads σ'.database := by
  have frame := perform_frame performed
  by_cases self : j = i
  · rw [self, Function.update_self]
    cases a with
    | statement q =>
        rcases (statement_change performed).shared permitted.2 with ⟨images, -⟩ | ⟨changing, same⟩
        · refine Progress.reads.congr ?_ images
          rcases statement_progress (P := P) performed (h i) with same | reads
          · rw [Ledger.record, same]
            exact h i
          · exact reads
        · rw [Ledger.record, same, (coherent i).idle changing]
          trivial
    | file b =>
        rw [frame.database (by simp)]
        exact file_progress r (h i)
    | sync s =>
        rw [frame.database (by simp)]
        cases s with
        | endRebuild => trivial
        | _ => exact h i
    | index s =>
        rw [frame.database (by simp)]
        change ((ls i).recordIndex s).progress.reads σ.database
        unfold Ledger.recordIndex
        split <;> first | exact h i | trivial
    | newUUID =>
        rw [frame.database (by simp)]
        cases r <;> exact h i
    | _ =>
        rw [frame.database (by simp)]
        exact h i
  · rw [Function.update_of_ne self]
    cases a with
    | statement q =>
        rcases (statement_change performed).shared permitted.2 with ⟨images, -⟩ | ⟨changing, -⟩
        · exact (h j).congr images
        · rcases (coherent j).rebuilding with idle | exclusive
          · rw [idle]
            trivial
          · exact absurd changing (held.alone exclusive)
    | _ =>
        rw [frame.database (by simp)]
        exact h j

end Loading

/-- What holds in every state of every run. -/
structure Sound (P : Platform) (requests : Nat → Request) (σ : State) (ls : Nat → Ledger) :
    Prop where
  locks : Held σ.locks ls
  keyed : Keyed σ ls
  recalled : Recalled σ.database σ.issued ls
  stored : Stored P σ.files ls
  coherent : ∀ j, Coherent (ls j)
  reads : ∀ j, (ls j).progress.reads σ.database
  made : ∀ j, (ls j).request = requests j

section Sound

variable {P : Platform} {requests : Nat → Request} {σ σ' : State} {ls : Nat → Ledger} {i : Nat}
  {a : Action} {c : Choice} {r : Response a}

/-- The answers that the ledgers rely on are the ones the system gives. -/
theorem Sound.reports (h : Sound P requests σ ls) (permitted : (ls i).permits P a)
    (performed : σ.perform P i a c = some (r, σ')) : (ls i).reports a r := by
  unfold Ledger.reports
  split
  · exact (getImage_reads performed).2
  · -- the alias still has the path that was read before its lock was taken
    obtain ⟨-, -, path, locked, mapped, -⟩ := permitted
    have answer := (statement_answer performed (by simp)).1
    dsimp only [Database.execute] at answer
    split at answer
    · cases answer
    · rename_i row found
      cases answer
      obtain ⟨member, same⟩ := row?_some found
      rw [(h.recalled.mapping i _ _ mapped).2 row member same]
      exact locked
  · intro held
    rcases fresh_state performed with ⟨⟨e, made⟩, -⟩ | ⟨text, made, new, -⟩
    · cases made
    · cases made
      exact new (h.keyed.pending.issued i _ held)
  · obtain ⟨files, done, -⟩ := file_state performed
    have effect := file_effect done
    cases effect with
    | created path unused absent =>
        by_contra own
        exact unused (h.stored.named i _ own)
    | none b r kept => exact absurd kept id
  · trivial

theorem record_request (l : Ledger) (a : Action) (r : Response a) :
    (l.record P a r).request = l.request := by
  cases a with
  | sync s =>
      obtain ⟨_, _, _, _, _, eq⟩ := recordSync_frame l s
      rw [Ledger.record, eq]
  | statement q =>
      obtain ⟨_, _, _, _, _, _, _, _, _, _, _, _, _, _, eq⟩ := recordStatement_frame (P := P) l q r
      rw [Ledger.record, eq]
  | index s =>
      obtain ⟨_, _, _, _, eq⟩ := recordIndex_frame l s
      rw [Ledger.record, eq]
  | file b =>
      obtain ⟨_, _, _, _, _, _, _, eq⟩ := recordFile_frame (P := P) l b r
      rw [Ledger.record, eq]
  | newUUID => cases r <;> rfl
  | _ => rfl

theorem Sound.step (h : Sound P requests σ ls) (permitted : (ls i).permits P a)
    (performed : σ.perform P i a c = some (r, σ')) :
    Sound P requests σ' (Function.update ls i ((ls i).record P a r)) where
  locks := h.locks.step permitted performed
  keyed := h.keyed.step h.recalled permitted performed
  recalled := h.recalled.step h.locks h.keyed permitted performed
  stored := h.stored.step h.keyed permitted performed
  coherent := by
    intro j
    by_cases self : j = i
    · rw [self, Function.update_self]
      exact (h.coherent i).step permitted (h.reports permitted performed)
    · rw [Function.update_of_ne self]
      exact h.coherent j
  reads := reads_step h.reads h.locks h.coherent permitted performed
  made := by
    intro j
    by_cases self : j = i
    · rw [self, Function.update_self, record_request]
      exact h.made i
    · rw [Function.update_of_ne self]
      exact h.made j

theorem Sound.begin (registered : Registered σ) (free : σ.locks = .free) :
    Sound P requests σ fun j => Ledger.begin (requests j) := by
  have spent : ∀ k ∈ σ.issued, Spent σ.issued (fun j => Ledger.begin (requests j)) k :=
    fun k issued => ⟨issued, by simp [Ledger.begin]⟩
  refine ⟨?_, ⟨⟨?_, ?_⟩, ?_, ?_, ?_, ?_, ?_, ?_, ?_, ?_, ?_, ?_⟩, ⟨?_, ?_, ?_⟩, ⟨?_, ?_, ?_, ?_⟩, ?_, ?_,
    fun _ => rfl⟩
  · rw [free]
    exact Held.begin requests
  · simp [Ledger.begin]
  · simp [Ledger.begin]
  · exact fun v member => spent _ (registered.ids v member)
  · exact fun v member => spent _ (registered.keys v member)
  · exact fun m member => spent _ (registered.aliases m member)
  · exact fun k entry there => spent _ (registered.files k entry there)
  all_goals try simp [Ledger.begin]
  · exact fun j => Coherent.begin (requests j)
  · trivial

theorem Sound.registered (h : Sound P requests σ ls) : Registered σ where
  ids v member := (h.keyed.ids v member).1
  keys v member := (h.keyed.keys v member).1
  aliases m member := (h.keyed.aliases m member).1
  files k entry there := (h.keyed.files k entry there).1

theorem Sound.environment (h : Sound P requests σ ls) (moved : σ.environment σ') :
    Sound P requests σ' ls := by
  obtain ⟨t, -, rfl⟩ := moved
  obtain ⟨locks, keyed, recalled, stored, coherent, reads, made⟩ := h
  exact ⟨locks, ⟨keyed.pending, keyed.ids, keyed.keys, keyed.aliases, keyed.files, keyed.placed,
    keyed.unlisted, keyed.apart, keyed.dead, keyed.removed, keyed.unplaced⟩, recalled, stored,
    coherent, reads, made⟩

theorem Sound.restart (h : Sound P requests σ ls) (moved : σ.restart σ') :
    Sound P requests σ' fun j => Ledger.begin (requests j) := by
  obtain ⟨t, -, rfl⟩ := moved
  have registered := h.registered
  exact .begin ⟨registered.ids, registered.keys, registered.aliases, registered.files⟩ rfl

end Sound

section Runs

variable (P : Platform) (requests : Nat → Request)

/-- The ledgers of all calls, from the first action to the last. -/
abbrev watch : Watch (machine P) Result where
  discipline := discipline P
  begin i := Ledger.begin (requests i)
  Final i r l := Finished P (requests i) r l

/-- A run in which every call makes its request. -/
structure Serves (S : Setting (machine P) Result) : Prop where
  start : S.start = fun i => (requests i).program P
  aborted : S.aborted = .aborted

/-- The calls make their requests; crashes and events are as given. -/
def serving (crashes : Prop) (admits : World (machine P) Result → Event (machine P) → Prop) :
    Setting (machine P) Result where
  start i := (requests i).program P
  aborted := .aborted
  Crashes := crashes
  Admits := admits

variable {P requests} in
theorem serving_serves {crashes : Prop}
    {admits : World (machine P) Result → Event (machine P) → Prop} :
    Serves P requests (serving P requests crashes admits) :=
  ⟨rfl, rfl⟩

/-- Anything may fail at any time, and the process may crash. -/
def anything : Setting (machine P) Result := serving P requests True fun _ _ => True

/-- One call alone, with events as given. -/
def alone (i : Nat) (admits : Event (machine P) → Prop) : Setting (machine P) Result :=
  serving P requests False fun _ e => e.call = i ∧ admits e

/-- A run that a schedule determines. -/
theorem scheduled (σ : State) (schedule : List (Nat × Choice)) {τ : List (Event (machine P))}
    {w : World (machine P) Result}
    (executed : (start P requests σ).execute schedule = some (τ, w)) :
    Run (anything P requests) (start P requests σ) τ w :=
  .of_execute schedule (fun _ _ _ _ _ => trivial) executed

variable {P requests} {S : Setting (machine P) Result}

/-- The rule for an invariant of operations, on top of what always holds. -/
theorem keeps (serves : Serves P requests S) (Inv : (watch P requests).Invariant)
    (call : ∀ {τ w ls i a c r σ'}, Sound P requests w.shared ls → Inv τ w.shared ls →
      (ls i).permits P a → State.perform P w.shared i a c = some (r, σ') →
      S.Admits w ⟨i, a, c, r⟩ → Sound P requests σ' (Function.update ls i ((ls i).record P a r)) →
      Inv (τ ++ [⟨i, a, c, r⟩]) σ' (Function.update ls i ((ls i).record P a r)))
    (environment : ∀ {τ σ ls σ'}, Sound P requests σ ls → Inv τ σ ls → σ.environment σ' →
      Inv τ σ' ls)
    (crash : S.Crashes → ∀ {τ σ ls σ'}, Sound P requests σ ls → Inv τ σ ls → σ.restart σ' →
      Inv τ σ' fun j => Ledger.begin (requests j)) :
    (watch P requests).Keeps S fun τ σ ls => Sound P requests σ ls ∧ Inv τ σ ls where
  call := by
    rintro τ w ls i a next c r σ' - ⟨sound, inv⟩ - permitted performed admitted
    have sound' := sound.step permitted performed
    exact ⟨sound.reports permitted performed, sound',
      call sound inv permitted performed admitted sound'⟩
  environment := by
    rintro τ σ ls σ' ⟨sound, inv⟩ moved
    exact ⟨sound.environment moved, environment sound inv moved⟩
  crash := by
    rintro crashes τ σ ls σ' ⟨sound, inv⟩ moved
    refine ⟨⟨sound.restart moved, crash crashes sound inv moved⟩, ?_, ?_⟩
    · intro i
      rw [serves.aborted]
      exact ⟨Ledger.begin_settled _, by cases requests i <;> trivial⟩
    · intro i
      rw [serves.start]
      exact request_obeys (requests i)

/-- A run from idle calls is followed by ledgers that satisfy the invariant. -/
theorem followed {Inv : (watch P requests).Invariant}
    (kept : (watch P requests).Keeps S fun τ σ ls => Sound P requests σ ls ∧ Inv τ σ ls)
    {σ : State} {w : World (machine P) Result} {τ : List (Event (machine P))}
    (registered : Registered σ) (free : σ.locks = .free)
    (inv : Inv [] σ fun j => Ledger.begin (requests j))
    (run : Run S (start P requests σ) τ w) :
    (watch P requests).Held (fun τ σ ls => Sound P requests σ ls ∧ Inv τ σ ls) τ w :=
  run.held kept ⟨_, fun i => request_obeys (requests i), .begin registered free, inv⟩

/-- What the reply to an image request says about the ledger of its call. -/
theorem served {w : World (machine P) Result} {ls : Nat → Ledger} {i : Nat} {r : ImageRequest}
    {reply : Reply} (obeyed : (watch P requests).Obeyed w ls) (serves : requests i = .serve r)
    (replied : w.calls i = .done (.replied reply)) : (ls i).explains P r reply := by
  have finished := obeyed i
  rw [replied] at finished
  have told := Finished.told finished
  rw [serves] at told
  exact told

end Runs

end ImageSilo.Publication
