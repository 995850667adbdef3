import ImageSilo.Publication.Presence

/-! Where no step is owed, the index shows the row that `Build` would load; where one is, the step leads
there. -/
namespace ImageSilo.Publication

open Go Concurrent Storage Tables Delivery

/-- The target of a row. A row that was written at the epoch or before records no time that `Build`
would use. -/
structure Names (t : Target) (v : Image) : Prop where
  storageKey : t.storageKey = v.storageKey
  mimeType : t.mimeType = v.mimeType
  etag : t.etag = etag v.storedSHA256
  size : t.size = v.storedSize
  visibility : t.visibility = v.visibility
  originalName : t.originalName = v.originalName
  lastModified : unix t.lastModified = (deliveryRow v).createdAt ∨
    unix t.lastModified = unix v.updatedAt

/-- The entry that the rows and the files call for under an identifier. -/
def Shows (σ : State) (id : GoString) : Option Target → Prop
  | some t => ∃ v ∈ σ.database.images, v.id = id ∧ σ.whole v ∧ Names t v
  | none => ∀ v ∈ σ.database.images, v.id = id → ¬ σ.whole v

/-- `Build` would load the image. -/
def Loads (σ : State) (id : GoString) : Prop := ∃ v ∈ σ.database.images, v.id = id ∧ σ.whole v

/-- The entry that the rows and the files call for under a path. -/
def Leads (σ : State) (path : GoString) : Option GoString → Prop
  | some id => ∃ m ∈ σ.database.aliases, m.path = path ∧ m.imageID = id ∧ Loads σ id
  | none => ∀ m ∈ σ.database.aliases, m.path = path → ¬ Loads σ m.imageID

/-- The step is about the target of this image. -/
def Concerns (id : GoString) : IndexStep → Prop
  | .add other _ => other = id
  | .updateVisibility other _ => other = id
  | .removeImage other => other = id
  | _ => False

/-- The step is about this path. -/
def Maps (path : GoString) : IndexStep → Prop
  | .addAlias other _ => other = path
  | .removeAlias other => other = path
  | _ => False

/-- A call owes one step, or the target and the alias of an import. -/
def Orderly (l : Ledger) : Prop :=
  l.owes.tail = [] ∨ ∃ id t path other, l.owes = [.add id t, .addAlias path other]

/-- Nothing about the image with this identifier has changed for `Build`. -/
def Unmoved (σ σ' : State) (id : GoString) : Prop :=
  ∀ v, v.id = id → (v ∈ σ'.database.images ↔ v ∈ σ.database.images) ∧
    (v ∈ σ.database.images → (σ'.whole v ↔ σ.whole v))

/-- The targets of the index, debts taken into account. -/
structure Targets (σ : State) (ls : Nat → Ledger) : Prop where
  settled : ∀ id, (∀ j, ∀ s ∈ (ls j).owes, ¬ Concerns id s) → Shows σ id (σ.index.byID.lookup id)
  owed : ∀ j id, ∀ s ∈ (ls j).owes, Concerns id s → Shows σ id ((s.apply σ.index).byID.lookup id)

/-- A call still has to remove the image that the path leads to. -/
def Lingers (σ : State) (ls : Nat → Ledger) (path : GoString) : Prop :=
  ∃ id j, σ.index.aliases.lookup path = some id ∧ IndexStep.removeImage id ∈ (ls j).owes

/-- The entry of a path that nobody owes a step for. -/
def Rests (σ : State) (ls : Nat → Ledger) (path : GoString) : Prop :=
  Leads σ path (σ.index.aliases.lookup path) ∨ (Leads σ path none ∧ Lingers σ ls path)

/-- The aliases of the index, debts taken into account. -/
structure Mappings (σ : State) (ls : Nat → Ledger) : Prop where
  root : σ.index.aliases.lookup (str "/") = none
  settled : ∀ path, path ≠ str "/" → (∀ j, ∀ s ∈ (ls j).owes, ¬ Maps path s) → Rests σ ls path
  added : ∀ j path id, IndexStep.addAlias path id ∈ (ls j).owes → path ≠ str "/" ∧
    (∃ m ∈ σ.database.aliases, m.path = path ∧ m.imageID = id) ∧
      (σ.index.aliases.lookup path = none ∨ Lingers σ ls path)
  removed : ∀ j path, IndexStep.removeAlias path ∈ (ls j).owes →
    ∀ m ∈ σ.database.aliases, m.path ≠ path

variable {P : Platform} {requests : Nat → Request} {σ σ' : State} {ls : Nat → Ledger} {i : Nat}
  {a : Action} {c : Choice} {r : Response a} {l : Ledger} {id path : GoString}

section Unmoved

theorem Unmoved.refl (same : σ'.database.images = σ.database.images)
    (whole : ∀ v ∈ σ.database.images, σ'.whole v ↔ σ.whole v) (id : GoString) : Unmoved σ σ' id := by
  intro v _
  rw [same]
  exact ⟨Iff.rfl, whole v⟩

theorem Unmoved.shows (h : Unmoved σ σ' id) {x : Option Target} (shows' : Shows σ id x) :
    Shows σ' id x := by
  cases x with
  | none =>
      intro v member own
      obtain ⟨known, whole⟩ := h v own
      rw [whole (known.mp member)]
      exact shows' v (known.mp member) own
  | some t =>
      obtain ⟨v, member, own, present, names⟩ := shows'
      obtain ⟨known, whole⟩ := h v own
      exact ⟨v, known.mpr member, own, (whole member).mpr present, names⟩

end Unmoved

section Rows

theorem whole_of_files (files : σ'.files = σ.files) (v : Image) : σ'.whole v ↔ σ.whole v := by
  unfold State.whole
  rw [files]

/-- Whether a row is whole depends on its key and its size alone. -/
theorem whole_congr {v w : Image} (key : w.storageKey = v.storageKey)
    (size : w.storedSize = v.storedSize) : σ.whole w ↔ σ.whole v := by
  unfold State.whole Whole deliveryRow
  rw [key, size]

theorem replaced_self {db db' : Database} {v u : Image} (replaced : db.replaceImage v = some db')
    (member : u ∈ db.images) (same : u.id = v.id) : v ∈ db'.images := by
  rw [(replaceImage_some replaced).1]
  exact List.mem_map.mpr ⟨u, member, if_pos same⟩

theorem replaced_other {db db' : Database} {v w : Image} (replaced : db.replaceImage v = some db')
    (other : w.id ≠ v.id) : w ∈ db'.images ↔ w ∈ db.images := by
  constructor
  · intro member
    rcases mem_replaced replaced member with rfl | ⟨old, -⟩
    · exact absurd rfl other
    · exact old
  · exact fun member => replaced_mem replaced member other

theorem names_inserted {v : Image} (fresh : v.createdAt = v.updatedAt) :
    Names (targetOf v) (Database.storedImage v) := by
  refine ⟨rfl, rfl, rfl, rfl, rfl, rfl, .inr ?_⟩
  change unix v.updatedAt = unix (Database.storedImage v).updatedAt
  unfold Database.storedImage
  dsimp only
  rw [unix_ofUnix, fresh]
  split <;> rfl

theorem names_rewritten {v row : Image} (visibility : v.visibility = row.visibility) :
    Names (targetOf v) (Database.withContent row v) := by
  refine ⟨rfl, rfl, rfl, rfl, visibility, rfl, .inr ?_⟩
  change unix v.updatedAt = unix (ofUnix (unix v.updatedAt))
  rw [unix_ofUnix]

theorem names_loaded (v : Image) : Names (targetOfRow (deliveryRow v)) v :=
  ⟨rfl, rfl, rfl, rfl, rfl, rfl, .inl (unix_ofUnix _)⟩

theorem Names.shown {t : Target} {v : Image} (h : Names t v) (visibility : Visibility) :
    Names { t with visibility := visibility } { v with visibility := visibility } :=
  ⟨h.storageKey, h.mimeType, h.etag, h.size, rfl, h.originalName, h.lastModified⟩

end Rows

section Lookups

theorem apply_target {s : IndexStep} (other : ¬ Concerns id s) (plain : ∀ x, s ≠ .replaceAll x)
    (x : Index) : (s.apply x).byID.lookup id = x.byID.lookup id := by
  cases s with
  | replaceAll snapshot => exact absurd rfl (plain snapshot)
  | add id' t => rw [add_target, if_neg fun same => other same.symm]
  | updateVisibility id' visibility =>
      rw [updateVisibility_target, if_neg fun same => other same.symm]
  | addAlias path id' => rw [addAlias_byID]
  | removeAlias path => rfl
  | removeImage id' => rw [removeImage_target, if_neg fun same => other same.symm]

/-- What a step about an image does to its entry depends on this entry alone. -/
theorem apply_concerned {s : IndexStep} (concerned : Concerns id s) {x y : Index}
    (same : x.byID.lookup id = y.byID.lookup id) :
    (s.apply x).byID.lookup id = (s.apply y).byID.lookup id := by
  cases s with
  | add id' t => simp only [add_target, same]
  | updateVisibility id' visibility =>
      obtain rfl : id' = id := concerned
      simp only [updateVisibility_target, same]
  | removeImage id' => simp only [removeImage_target, same]
  | replaceAll snapshot => exact concerned.elim
  | addAlias path id' => exact concerned.elim
  | removeAlias path => exact concerned.elim

end Lookups

section Targets

/-- After the first step a call owes at most aliases. -/
theorem Orderly.rest (h : Orderly l) {s : IndexStep} {rest : List IndexStep}
    (owed : l.owes = s :: rest) : ∀ s' ∈ rest, ∃ path id, s' = .addAlias path id := by
  intro s' member
  unfold Orderly at h
  rw [owed] at h
  rcases h with single | ⟨id, t, path, other, pair⟩
  · obtain rfl : rest = [] := single
    cases member
  · cases pair
    exact ⟨path, other, List.mem_singleton.mp member⟩

theorem Orderly.last (h : Orderly l) {s : IndexStep} {rest : List IndexStep}
    (owed : l.owes = s :: rest) (other : ∀ id t, s ≠ .add id t) : rest = [] := by
  unfold Orderly at h
  rw [owed] at h
  rcases h with single | ⟨id, t, path, other', pair⟩
  · exact single
  · cases pair
    exact absurd rfl (other id t)

/-- Whoever owes a step about an image holds its lock. -/
theorem Coherent.concerned (h : Coherent l) {s : IndexStep} (member : s ∈ l.owes)
    (concerned : Concerns id s) : l.image = some id := by
  have backed := h.backed s member
  cases s with
  | add id' t =>
      obtain rfl : id' = id := concerned
      exact backed
  | updateVisibility id' visibility =>
      obtain rfl : id' = id := concerned
      exact backed
  | removeImage id' =>
      obtain rfl : id' = id := concerned
      exact backed
  | replaceAll snapshot => exact concerned.elim
  | addAlias path id' => exact concerned.elim
  | removeAlias path => exact concerned.elim

/-- While a call holds the lock of an image and owes nothing, nobody owes a step about it. -/
theorem Sound.unconcerned (sound : Sound P requests σ ls) (locked : (ls i).image = some id)
    (idle : (ls i).owes = []) (j : Nat) : ∀ s ∈ (ls j).owes, ¬ Concerns id s := by
  intro s member concerned
  obtain rfl := sound.locks.image_holder locked ((sound.coherent j).concerned member concerned)
  rw [idle] at member
  cases member

/-- A step that moves no image keeps the agreement, if the debts about images stay. -/
theorem Targets.same (h : Targets σ ls) (unmoved : ∀ id, Unmoved σ σ' id)
    (index : ∀ id, σ'.index.byID.lookup id = σ.index.byID.lookup id)
    (owes : ∀ id s, Concerns id s → (s ∈ l.owes ↔ s ∈ (ls i).owes)) :
    Targets σ' (Function.update ls i l) := by
  have before : ∀ j id s, Concerns id s → s ∈ (Function.update ls i l j).owes → s ∈ (ls j).owes := by
    intro j id s concerned member
    by_cases self : j = i
    · rw [self, Function.update_self] at member
      rw [self]
      exact (owes id s concerned).mp member
    · rwa [Function.update_of_ne self] at member
  constructor
  · intro id quiet
    rw [index]
    refine (unmoved id).shows (h.settled id ?_)
    intro j s member concerned
    by_cases self : j = i
    · rw [self] at member
      refine quiet i s ?_ concerned
      rw [Function.update_self]
      exact (owes id s concerned).mpr member
    · refine quiet j s ?_ concerned
      rwa [Function.update_of_ne self]
  · intro j id s member concerned
    rw [apply_concerned concerned (index id)]
    exact (unmoved id).shows (h.owed j id s (before j id s concerned member) concerned)

/-- A statement about one image leaves the call with the step that follows it. -/
theorem Targets.owe (h : Targets σ ls) (sound : Sound P requests σ ls) (idle : (ls i).owes = [])
    (locked : (ls i).image = some id) (index : σ'.index = σ.index)
    (unmoved : ∀ other, other ≠ id → Unmoved σ σ' other) {s : IndexStep} {rest : List IndexStep}
    (owes : l.owes = s :: rest) (concerned : Concerns id s)
    (aliases : ∀ s' ∈ rest, ∃ path other, s' = .addAlias path other)
    (shows' : Shows σ' id ((s.apply σ.index).byID.lookup id)) :
    Targets σ' (Function.update ls i l) := by
  have sole : ∀ other, Concerns other s → other = id := by
    intro other about
    cases s with
    | add _ _ => exact about.symm.trans concerned
    | updateVisibility _ _ => exact about.symm.trans concerned
    | removeImage _ => exact about.symm.trans concerned
    | _ => exact concerned.elim
  have mine : ∀ other s', s' ∈ l.owes → Concerns other s' → s' = s ∧ other = id := by
    intro other s' member about
    rw [owes] at member
    rcases List.mem_cons.mp member with rfl | later
    · exact ⟨rfl, sole other about⟩
    · obtain ⟨path, other', rfl⟩ := aliases s' later
      exact about.elim
  constructor
  · intro other quiet
    rw [index]
    have apart : other ≠ id := by
      rintro rfl
      refine quiet i s ?_ concerned
      rw [Function.update_self, owes]
      exact List.mem_cons_self
    refine (unmoved other apart).shows (h.settled other ?_)
    intro j s' member about
    by_cases self : j = i
    · rw [self, idle] at member
      cases member
    · refine quiet j s' ?_ about
      rwa [Function.update_of_ne self]
  · intro j other s' member about
    rw [index]
    by_cases self : j = i
    · rw [self, Function.update_self] at member
      obtain ⟨rfl, rfl⟩ := mine other s' member about
      exact shows'
    · rw [Function.update_of_ne self] at member
      have apart : other ≠ id := by
        rintro rfl
        exact sound.unconcerned locked idle j s' member about
      exact (unmoved other apart).shows (h.owed j other s' member about)

/-- The step that a call owes first is paid. -/
theorem Targets.pay (h : Targets σ ls) (orderly : Orderly (ls i)) (sound : Sound P requests σ ls)
    {s : IndexStep} {rest : List IndexStep} (owed : (ls i).owes = s :: rest) (owes : l.owes = rest)
    (unmoved : ∀ id, Unmoved σ σ' id) (index : σ'.index = s.apply σ.index) :
    Targets σ' (Function.update ls i l) := by
  have head : s ∈ (ls i).owes := by simp [owed]
  have plain : ∀ x, s ≠ .replaceAll x := by
    rintro x rfl
    exact ((sound.coherent i).backed _ head).elim
  have aliases : ∀ s' ∈ rest, ∀ id, ¬ Concerns id s' := by
    intro s' member id about
    obtain ⟨path, other, rfl⟩ := orderly.rest owed s' member
    exact about
  constructor
  · intro id quiet
    rw [index]
    by_cases concerned : Concerns id s
    · exact (unmoved id).shows (h.owed i id s head concerned)
    · rw [apply_target concerned plain]
      refine (unmoved id).shows (h.settled id ?_)
      intro j s' member about
      by_cases self : j = i
      · rw [self, owed] at member
        rcases List.mem_cons.mp member with rfl | later
        · exact concerned about
        · exact aliases s' later id about
      · refine quiet j s' ?_ about
        rwa [Function.update_of_ne self]
  · intro j id s' member about
    by_cases self : j = i
    · rw [self, Function.update_self, owes] at member
      exact absurd about (aliases s' member id)
    · rw [Function.update_of_ne self] at member
      have apart : ¬ Concerns id s := by
        intro concerned
        exact self (sound.locks.image_holder ((sound.coherent j).concerned member about)
          ((sound.coherent i).concerned head concerned))
      rw [index, apply_concerned about (apply_target apart plain σ.index)]
      exact (unmoved id).shows (h.owed j id s' member about)

end Targets

section Statements

/-- A statement that reports an error and was not interrupted has changed nothing. -/
theorem failed_unchanged {q : Statement} {e : DatabaseError}
    (performed : σ.statement q c = some (.error e, σ')) (plain : c ≠ .interrupted) :
    σ'.database = σ.database := by
  unfold State.statement at performed
  split at performed
  · simp only [Option.some.injEq, Prod.mk.injEq] at performed
    obtain ⟨failed, rfl⟩ := performed
    exact execute_error failed
  · cases performed
    rfl
  · exact absurd rfl plain
  · cases performed

theorem statement_files {q : Statement} {r : Except DatabaseError q.Value}
    (performed : σ.statement q c = some (r, σ')) : σ'.files = σ.files ∧ σ'.index = σ.index := by
  obtain ⟨db, rfl⟩ := statement_state performed
  exact ⟨rfl, rfl⟩

theorem unmoved_inserted {v : Image} {db' : Database} (inserted : σ.database.insertImage v = some db')
    (images : σ'.database.images = db'.images) (files : σ'.files = σ.files) (other : id ≠ v.id) :
    Unmoved σ σ' id := by
  intro w own
  refine ⟨?_, fun _ => whole_of_files files w⟩
  rw [images, (insertImage_some inserted).1, List.mem_append, List.mem_singleton, or_iff_left]
  rintro rfl
  exact other own.symm

theorem unmoved_erased {gone : GoString} (images : σ'.database.images = (σ.database.removeImage gone).images)
    (files : σ'.files = σ.files) (other : id ≠ gone) : Unmoved σ σ' id := by
  intro w own
  refine ⟨?_, fun _ => whole_of_files files w⟩
  rw [images, mem_removeImage, and_iff_left]
  rw [own]
  exact other

theorem unmoved_replaced {v : Image} {db' : Database} (replaced : σ.database.replaceImage v = some db')
    (images : σ'.database.images = db'.images) (files : σ'.files = σ.files) (other : id ≠ v.id) :
    Unmoved σ σ' id := by
  intro w own
  refine ⟨?_, fun _ => whole_of_files files w⟩
  rw [images]
  refine replaced_other replaced ?_
  rw [own]
  exact other

theorem Targets.statement (h : Targets σ ls) (sound : Sound P requests σ ls) (placed : Placed σ ls)
    {q : Statement} {r : Except DatabaseError q.Value} (permitted : (ls i).permits P (.statement q))
    (performed : σ.statement q c = some (r, σ')) (plain : c ≠ .interrupted) :
    Targets σ' (Function.update ls i ((ls i).recordStatement P q r)) := by
  obtain ⟨idle, permitted⟩ := permitted
  have change := statement_change performed
  obtain ⟨files, index⟩ := statement_files performed
  have whole := whole_of_files files
  have same : ∀ {l : Ledger}, σ'.database.images = σ.database.images →
      (∀ id s, Concerns id s → s ∉ l.owes) → Targets σ' (Function.update ls i l) := by
    intro l images quiet
    refine h.same (.refl images fun v _ => whole v) (fun id => by rw [index]) ?_
    intro id s about
    rw [idle]
    exact iff_of_false (quiet id s about) (List.not_mem_nil)
  generalize database : σ'.database = db' at change
  cases change with
  | created v db' stored =>
      obtain ⟨-, locked, -, fresh, f, mine, describes⟩ := permitted
      refine h.owe sound idle locked index
        (fun other apart => unmoved_inserted stored (by rw [database]) files apart) rfl rfl (by simp) ?_
      rw [add_target, if_pos rfl]
      refine ⟨Database.storedImage v, ?_, rfl, ?_, names_inserted fresh⟩
      · rw [database, (insertImage_some stored).1]
        exact List.mem_append_right _ (List.mem_singleton_self _)
      · rw [whole]
        exact (whole_congr rfl rfl).mpr (placed.whole sound mine describes)
  | imported v m db₁ db₂ stored mapped =>
      obtain ⟨-, locked, -, fresh, ⟨f, mine, describes⟩, -⟩ := permitted
      have images : σ'.database.images = db₁.images := by rw [database, (insertAlias_some mapped).1]
      refine h.owe sound idle locked index (fun other apart => unmoved_inserted stored images
        files apart) rfl rfl (by simp) ?_
      rw [add_target, if_pos rfl]
      refine ⟨Database.storedImage { v with uploadedVia := str "import" }, ?_, rfl, ?_,
        (names_inserted (v := { v with uploadedVia := str "import" }) fresh)⟩
      · rw [images, (insertImage_some stored).1]
        exact List.mem_append_right _ (List.mem_singleton_self _)
      · rw [whole]
        exact (whole_congr rfl rfl).mpr (placed.whole sound mine describes)
  | erased id row found =>
      obtain ⟨-, locked, -⟩ := permitted
      refine h.owe sound idle locked index (fun other => unmoved_erased (by rw [database]) files) rfl
        rfl (by simp) ?_
      rw [removeImage_target, if_pos rfl]
      intro v member own
      rw [database] at member
      exact absurd own (mem_removeImage.mp member).2
  | erasedUnseen id row found =>
      have kept := failed_unchanged performed plain
      refine same (by rw [kept]) ?_
      intro id s _ member
      have owes : (ls i).owes = _ := idle
      change s ∈ (ls i).owes at member
      simp [owes] at member
  | shown id visibility row db' found replaced =>
      obtain ⟨-, locked, -⟩ := permitted
      obtain ⟨known, own⟩ := image?_some found
      have settled := h.settled id (sound.unconcerned locked idle)
      refine h.owe sound idle locked index (fun other apart =>
        unmoved_replaced replaced (by rw [database]) files (by rw [← own] at apart; exact apart))
        rfl rfl (by simp) ?_
      rw [updateVisibility_target, if_pos rfl]
      cases there : σ.index.byID.lookup id with
      | none =>
          rw [there] at settled
          intro v member same
          rw [database] at member
          rcases mem_replaced replaced member with rfl | ⟨-, other⟩
          · rw [whole]
            exact (whole_congr rfl rfl).not.mpr (settled row known own)
          · exact absurd (same.trans own.symm) other
      | some t =>
          rw [there] at settled
          obtain ⟨v, member, same, present, names⟩ := settled
          obtain rfl := σ.database.imageIDs.eq member known (same.trans own.symm)
          refine ⟨{ v with visibility := visibility }, ?_, own, ?_, names.shown visibility⟩
          · rw [database]
            exact replaced_self replaced known rfl
          · rw [whole]
            exact (whole_congr rfl rfl).mpr present
  | replaced v row db' found replaced =>
      obtain ⟨-, locked, -, ⟨old, recalled, same, visible, -⟩, f, mine, describes⟩ := permitted
      obtain ⟨known, own⟩ := image?_some found
      obtain rfl := σ.database.imageIDs.eq (sound.recalled.row i old recalled) known
        (same.trans own.symm)
      refine h.owe sound idle locked index (fun other apart =>
        unmoved_replaced replaced (by rw [database]) files (by rw [withContent_id, own]; exact apart))
        rfl rfl (by simp) ?_
      rw [add_target, if_pos rfl]
      refine ⟨Database.withContent old v, ?_, own, ?_, names_rewritten visible⟩
      · rw [database]
        exact replaced_self replaced known rfl
      · rw [whole]
        exact (whole_congr rfl rfl).mpr (placed.whole sound mine describes)
  | aliased m db' present mapped =>
      refine same (by rw [database, (insertAlias_some mapped).1]) ?_
      rintro id s about member
      obtain rfl := List.mem_singleton.mp member
      exact about
  | unaliased id row found =>
      refine same (by rw [database]; rfl) ?_
      rintro id s about member
      obtain rfl := List.mem_singleton.mp member
      exact about
  | unaliasedUnseen id row found =>
      refine same (by rw [database]; rfl) ?_
      intro id s _ member
      have owes : (ls i).owes = _ := idle
      change s ∈ (ls i).owes at member
      simp [owes] at member
  | none q r db' reading images aliases =>
      refine same (by rw [database, images]) ?_
      intro id s _ member
      obtain ⟨_, _, _, _, _, _, eq⟩ := reading_frame (P := P) (ls i) reading
      rw [eq] at member
      have owes : (ls i).owes = _ := idle
      simp [owes] at member

end Statements

section Mappings

/-- Whoever owes a step about a path holds its lock. -/
theorem Coherent.mapped (h : Coherent l) {s : IndexStep} (member : s ∈ l.owes)
    (about : Maps path s) : l.path = some path := by
  have backed := h.backed s member
  cases s with
  | addAlias other id =>
      obtain rfl : other = path := about
      exact backed.1
  | removeAlias other =>
      obtain rfl : other = path := about
      exact backed
  | _ => exact about.elim

theorem Sound.unmapped (sound : Sound P requests σ ls) (locked : (ls i).path = some path)
    (idle : (ls i).owes = []) (j : Nat) : ∀ s ∈ (ls j).owes, ¬ Maps path s := by
  intro s member about
  obtain rfl := sound.locks.path_holder locked ((sound.coherent j).mapped member about)
  rw [idle] at member
  cases member

theorem Leads.congr {x : Option GoString} (h : Leads σ path x)
    (rows : ∀ m, m.path = path → (m ∈ σ'.database.aliases ↔ m ∈ σ.database.aliases))
    (loads : ∀ m ∈ σ.database.aliases, m.path = path → (Loads σ' m.imageID ↔ Loads σ m.imageID)) :
    Leads σ' path x := by
  cases x with
  | none =>
      intro m member same
      have known := (rows m same).mp member
      rw [loads m known same]
      exact h m known same
  | some id =>
      obtain ⟨m, member, same, rfl, there⟩ := h
      exact ⟨m, (rows m same).mpr member, same, rfl, (loads m member same).mpr there⟩

theorem Unmoved.loads (h : Unmoved σ σ' id) : Loads σ' id ↔ Loads σ id := by
  constructor
  · rintro ⟨v, member, own, whole⟩
    obtain ⟨known, same⟩ := h v own
    exact ⟨v, known.mp member, own, (same (known.mp member)).mp whole⟩
  · rintro ⟨v, member, own, whole⟩
    obtain ⟨known, same⟩ := h v own
    exact ⟨v, known.mpr member, own, (same member).mpr whole⟩

/-- A step that neither touches an entry nor a row of aliases nor pays a removal. -/
structure Steady (σ σ' : State) (ls : Nat → Ledger) (i : Nat) (l : Ledger) : Prop where
  aliases : ∀ path, σ'.index.aliases.lookup path = σ.index.aliases.lookup path
  removals : ∀ id, IndexStep.removeImage id ∈ (ls i).owes → IndexStep.removeImage id ∈ l.owes

theorem Steady.lingers (h : Steady σ σ' ls i l) (lingers : Lingers σ ls path) :
    Lingers σ' (Function.update ls i l) path := by
  obtain ⟨id, j, there, owed⟩ := lingers
  refine ⟨id, j, (h.aliases path).trans there, ?_⟩
  by_cases self : j = i
  · rw [self, Function.update_self]
    rw [self] at owed
    exact h.removals id owed
  · rwa [Function.update_of_ne self]

theorem Steady.rests (h : Steady σ σ' ls i l)
    (rows : ∀ m, m.path = path → (m ∈ σ'.database.aliases ↔ m ∈ σ.database.aliases))
    (loads : ∀ m ∈ σ.database.aliases, m.path = path → (Loads σ' m.imageID ↔ Loads σ m.imageID))
    (rests : Rests σ ls path) : Rests σ' (Function.update ls i l) path := by
  rcases rests with leads | ⟨nowhere, lingers⟩
  · rw [Rests, h.aliases]
    exact .inl (leads.congr rows loads)
  · exact .inr ⟨nowhere.congr rows loads, h.lingers lingers⟩

/-- The index stays, and at most the rows of one path change, whose lock the call holds. -/
theorem Mappings.steady (h : Mappings σ ls) (steady : Steady σ σ' ls i l)
    (rows : ∀ m, (∀ s ∈ l.owes, ¬ Maps m.path s) →
      (m ∈ σ'.database.aliases ↔ m ∈ σ.database.aliases))
    (apart : ∀ j, j ≠ i → ∀ s ∈ (ls j).owes, ∀ path, Maps path s → ∀ s' ∈ l.owes, ¬ Maps path s')
    (loads : ∀ m ∈ σ.database.aliases, m.path ≠ str "/" →
      (Loads σ' m.imageID ↔ Loads σ m.imageID))
    (idle : ∀ s ∈ (ls i).owes, ∀ path, Maps path s → s ∈ l.owes)
    (added : ∀ path id, IndexStep.addAlias path id ∈ l.owes → path ≠ str "/" ∧
      (∃ m ∈ σ'.database.aliases, m.path = path ∧ m.imageID = id) ∧
        (σ.index.aliases.lookup path = none ∨ Lingers σ ls path))
    (removed : ∀ path, IndexStep.removeAlias path ∈ l.owes →
      ∀ m ∈ σ'.database.aliases, m.path ≠ path) :
    Mappings σ' (Function.update ls i l) := by
  constructor
  · rw [steady.aliases]
    exact h.root
  · intro path root quiet
    have mine : ∀ s ∈ l.owes, ¬ Maps path s := by
      intro s member
      exact quiet i s (by rwa [Function.update_self])
    refine steady.rests (fun m same => rows m (by rwa [same])) (fun m member same =>
      loads m member (by rwa [same])) (h.settled path root ?_)
    intro j s member about
    by_cases self : j = i
    · rw [self] at member
      exact mine s (idle s member path about) about
    · exact quiet j s (by rwa [Function.update_of_ne self]) about
  · intro j path id member
    by_cases self : j = i
    · rw [self, Function.update_self] at member
      obtain ⟨root, row, entry⟩ := added path id member
      refine ⟨root, row, entry.imp ?_ steady.lingers⟩
      rw [steady.aliases]
      exact fun absent => absent
    · rw [Function.update_of_ne self] at member
      obtain ⟨root, ⟨m, known, same, target⟩, entry⟩ := h.added j path id member
      have other := apart j self _ member path rfl
      refine ⟨root, ⟨m, (rows m (by rwa [same])).mpr known, same, target⟩,
        entry.imp ?_ steady.lingers⟩
      rw [steady.aliases]
      exact fun absent => absent
  · intro j path member
    by_cases self : j = i
    · rw [self, Function.update_self] at member
      exact removed path member
    · rw [Function.update_of_ne self] at member
      intro m known same
      have other := apart j self _ member path rfl
      exact h.removed j path member m ((rows m (by rwa [same])).mp known) same

/-- No damaged image with an alias is given new content. -/
def Mends (σ : State) : (a : Action) → Response a → Prop
  | .statement (.updateContent v), .ok true =>
      Loads σ v.id ∨ ∀ m ∈ σ.database.aliases, m.imageID = v.id → m.path = str "/"
  | _, _ => True

/-- Before its row is inserted no entry leads anywhere under a path, unless it lingers. -/
theorem Mappings.vacant (h : Mappings σ ls) (sound : Sound P requests σ ls)
    (locked : (ls i).path = some path) (idle : (ls i).owes = []) (root : path ≠ str "/")
    (free : ∀ m ∈ σ.database.aliases, m.path ≠ path) :
    σ.index.aliases.lookup path = none ∨ Lingers σ ls path := by
  rcases h.settled path root (sound.unmapped locked idle) with leads | ⟨-, lingers⟩
  · cases there : σ.index.aliases.lookup path with
    | none => exact .inl rfl
    | some id =>
        rw [there] at leads
        obtain ⟨m, member, same, -⟩ := leads
        exact absurd same (free m member)
  · exact .inr lingers

theorem statement_steady {q : Statement} {r : Except DatabaseError q.Value}
    (idle : (ls i).owes = []) (performed : σ.statement q c = some (r, σ')) :
    Steady σ σ' ls i l := by
  constructor
  · intro path
    rw [(statement_files performed).2]
  · intro id member
    rw [idle] at member
    cases member

theorem loads_unmoved (unmoved : ∀ other, other ≠ id → Unmoved σ σ' other)
    (here : ∀ m ∈ σ.database.aliases, m.path ≠ str "/" → m.imageID = id →
      (Loads σ' id ↔ Loads σ id)) :
    ∀ m ∈ σ.database.aliases, m.path ≠ str "/" → (Loads σ' m.imageID ↔ Loads σ m.imageID) := by
  intro m member root
  by_cases same : m.imageID = id
  · rw [same]
    exact here m member root same
  · exact (unmoved m.imageID same).loads

/-- An alias row is inserted, and the call owes its entry. -/
theorem Mappings.insert (h : Mappings σ ls) (sound : Sound P requests σ ls)
    (steady : Steady σ σ' ls i l) (idle : (ls i).owes = []) {m : Alias}
    (locked : (ls i).path = some m.path) (root : m.path ≠ str "/")
    (free : ∀ m' ∈ σ.database.aliases, m'.path ≠ m.path)
    (rows : ∀ m', m' ∈ σ'.database.aliases ↔ m' ∈ σ.database.aliases ∨
      m' = { m with createdAt := ofUnix (unix m.createdAt) })
    (loads : ∀ m ∈ σ.database.aliases, m.path ≠ str "/" →
      (Loads σ' m.imageID ↔ Loads σ m.imageID))
    (owes : ∀ s ∈ l.owes, (∃ path, Maps path s) → s = .addAlias m.path m.imageID)
    (mine : IndexStep.addAlias m.path m.imageID ∈ l.owes) :
    Mappings σ' (Function.update ls i l) := by
  refine h.steady steady ?_ ?_ loads ?_ ?_ ?_
  · intro m' quiet
    rw [rows, or_iff_left]
    rintro rfl
    exact quiet _ mine rfl
  · intro j self s member path about s' member' about'
    obtain rfl := owes s' member' ⟨path, about'⟩
    obtain rfl : m.path = path := about'
    exact sound.unmapped locked idle j s member about
  · simp [idle]
  · intro path id member
    cases owes _ member ⟨path, rfl⟩
    exact ⟨root, ⟨_, (rows _).mpr (.inr rfl), rfl, rfl⟩, h.vacant sound locked idle root free⟩
  · intro path member
    cases owes _ member ⟨path, rfl⟩

/-- The alias table stays, and so do the images that its rows need. -/
theorem Mappings.untouched (h : Mappings σ ls) (steady : Steady σ σ' ls i l)
    (idle : (ls i).owes = []) (rows : σ'.database.aliases = σ.database.aliases)
    (loads : ∀ m ∈ σ.database.aliases, m.path ≠ str "/" →
      (Loads σ' m.imageID ↔ Loads σ m.imageID))
    (owes : ∀ s ∈ l.owes, ∀ path, ¬ Maps path s) : Mappings σ' (Function.update ls i l) := by
  refine h.steady steady ?_ ?_ loads ?_ ?_ ?_
  · intro m _
    rw [rows]
  · exact fun _ _ _ _ path _ s' member' => owes s' member' path
  · simp [idle]
  · exact fun path id member => absurd rfl (owes _ member path)
  · exact fun path member => absurd rfl (owes _ member path)

theorem loads_row {v : Image} (member : v ∈ σ.database.images) : Loads σ v.id ↔ σ.whole v := by
  constructor
  · rintro ⟨w, known, own, whole⟩
    rwa [σ.database.imageIDs.eq known member own] at whole
  · exact fun whole => ⟨v, member, rfl, whole⟩

theorem loads_replaced {v row : Image} {db' : Database}
    (replaced : σ.database.replaceImage v = some db') (images : σ'.database.images = db'.images)
    (files : σ'.files = σ.files) (known : row ∈ σ.database.images) (own : row.id = v.id) :
    Loads σ' v.id ↔ σ.whole v := by
  have member : v ∈ σ'.database.images := by
    rw [images]
    exact replaced_self replaced known own
  rw [loads_row member, whole_of_files files]

theorem mem_removeAlias {db : Database} {m : Alias} :
    m ∈ (db.removeAlias id).aliases ↔ m ∈ db.aliases ∧ m.id ≠ id := by
  simp [Database.removeAlias]

theorem mem_removeImage_aliases {db : Database} {m : Alias} :
    m ∈ (db.removeImage id).aliases ↔ m ∈ db.aliases ∧ m.imageID ≠ id := by
  simp [Database.removeImage]

/-- An image is deleted with its aliases; their entries linger until the call has removed them. -/
theorem Mappings.erase (h : Mappings σ ls) (sound : Sound P requests σ ls)
    (steady : Steady σ σ' ls i l) (idle : (ls i).owes = []) (locked : (ls i).image = some id)
    (database : σ'.database = σ.database.removeImage id) (files : σ'.files = σ.files)
    (owes : l.owes = [.removeImage id]) : Mappings σ' (Function.update ls i l) := by
  have rows : ∀ m, m ∈ σ'.database.aliases ↔ m ∈ σ.database.aliases ∧ m.imageID ≠ id := by
    intro m
    rw [database, mem_removeImage_aliases]
  have loads : ∀ other, other ≠ id → (Loads σ' other ↔ Loads σ other) := fun other apart =>
    (unmoved_erased (by rw [database]) files apart).loads
  have nowhere : ∀ {path}, Leads σ path none → Leads σ' path none := by
    intro path none m member same
    obtain ⟨known, apart⟩ := (rows m).mp member
    rw [loads m.imageID apart]
    exact none m known same
  have others : ∀ j, j ≠ i → ∀ s, s ∈ (Function.update ls i l j).owes → s ∈ (ls j).owes := by
    intro j self s member
    rwa [Function.update_of_ne self] at member
  constructor
  · rw [steady.aliases]
    exact h.root
  · intro path root quiet
    have before : Rests σ ls path := by
      refine h.settled path root ?_
      intro j s member
      by_cases self : j = i
      · rw [self, idle] at member
        cases member
      · exact quiet j s (by rwa [Function.update_of_ne self])
    rcases before with leads | ⟨none, lingers⟩
    · unfold Rests
      rw [steady.aliases]
      cases there : σ.index.aliases.lookup path with
      | none =>
          rw [there] at leads
          exact .inl (nowhere leads)
      | some x =>
          rw [there] at leads
          obtain ⟨m, member, same, target, present⟩ := leads
          by_cases gone : x = id
          · refine .inr ⟨?_, x, i, (steady.aliases path).trans there, ?_⟩
            · intro m' member' same'
              obtain ⟨known, apart⟩ := (rows m').mp member'
              rw [σ.database.aliasPaths.eq known member (same'.trans same.symm)] at apart
              exact absurd (target.trans gone) apart
            · rw [Function.update_self, owes, gone]
              exact List.mem_singleton_self _
          · refine .inl ⟨m, (rows m).mpr ⟨member, ?_⟩, same, target, (loads x gone).mpr present⟩
            rw [target]
            exact gone
    · exact .inr ⟨nowhere none, steady.lingers lingers⟩
  · intro j path x member
    by_cases self : j = i
    · rw [self, Function.update_self, owes] at member
      cases List.mem_singleton.mp member
    · obtain ⟨root, ⟨m, known, same, target⟩, entry⟩ := h.added j path x (others j self _ member)
      have apart : x ≠ id := by
        rintro rfl
        exact self (sound.locks.image_holder
          ((sound.coherent j).backed _ (others j self _ member)).2 locked)
      refine ⟨root, ⟨m, (rows m).mpr ⟨known, ?_⟩, same, target⟩, entry.imp ?_ steady.lingers⟩
      · rw [target]
        exact apart
      · rw [steady.aliases]
        exact fun absent => absent
  · intro j path member m known
    by_cases self : j = i
    · rw [self, Function.update_self, owes] at member
      cases List.mem_singleton.mp member
    · exact h.removed j path (others j self _ member) m ((rows m).mp known).1

theorem Mappings.statement (h : Mappings σ ls) (sound : Sound P requests σ ls)
    (placed : Placed σ ls) {q : Statement} {r : Except DatabaseError q.Value}
    (permitted : (ls i).permits P (.statement q)) (performed : σ.statement q c = some (r, σ'))
    (plain : c ≠ .interrupted) (mends : Mends σ (.statement q) r) :
    Mappings σ' (Function.update ls i ((ls i).recordStatement P q r)) := by
  obtain ⟨idle, permitted⟩ := permitted
  have change := statement_change performed
  have files := (statement_files performed).1
  have index := (statement_files performed).2
  have whole := whole_of_files files
  generalize database : σ'.database = db' at change
  cases change with
  | created v db' stored =>
      obtain ⟨images, aliases, fresh, -⟩ := insertImage_some stored
      refine h.untouched (statement_steady idle performed) idle (by rw [database, aliases]) ?_ ?_
      · refine @loads_unmoved _ _ v.id
          (fun other apart => unmoved_inserted stored (by rw [database]) files apart) ?_
        intro m member _ same
        obtain ⟨w, known, own⟩ := σ.database.aliasImages m member
        exact absurd (own.trans same) (fresh w known)
      · rintro s member path about
        obtain rfl := List.mem_singleton.mp member
        exact about
  | imported v m db₁ db₂ stored mapped =>
      obtain ⟨-, locked, -, -, -, path, target, -, canonical⟩ := permitted
      obtain ⟨images, aliases, fresh, -⟩ := insertImage_some stored
      obtain ⟨images', aliases', -, free, -⟩ := insertAlias_some mapped
      rw [aliases] at free
      refine h.insert sound (statement_steady idle performed) idle (m := m) path
        (normalizeAliasPath_ne_root canonical) free ?_ ?_ ?_ ?_
      · intro m'
        rw [database, aliases', aliases, List.mem_append, List.mem_singleton]
      · refine @loads_unmoved _ _ v.id (fun other apart =>
          unmoved_inserted stored (by rw [database, images']) files apart) ?_
        intro m' member _ same
        obtain ⟨w, known, own⟩ := σ.database.aliasImages m' member
        exact absurd (own.trans same) (fresh w known)
      · rintro s member ⟨p, about⟩
        rcases List.mem_cons.mp member with rfl | later
        · exact about.elim
        · rw [List.mem_singleton.mp later, target]
      · rw [target]
        exact List.mem_cons_of_mem _ (List.mem_singleton_self _)
  | aliased m db' present mapped =>
      obtain ⟨-, locked, path, -, canonical⟩ := permitted
      obtain ⟨images', aliases', -, free, -⟩ := insertAlias_some mapped
      refine h.insert sound (statement_steady idle performed) idle (m := m) path
        (normalizeAliasPath_ne_root canonical) free ?_ ?_ ?_ ?_
      · intro m'
        rw [database, aliases', List.mem_append, List.mem_singleton]
      · intro m' _ _
        exact (Unmoved.refl (by rw [database, images']) (fun v _ => whole v) _).loads
      · rintro s member -
        exact List.mem_singleton.mp member
      · exact List.mem_singleton_self _
  | shown id visibility row db' found replaced =>
      obtain ⟨known, own⟩ := image?_some found
      refine h.untouched (statement_steady idle performed) idle
        (by rw [database, (replaceImage_some replaced).2]) ?_ ?_
      · refine @loads_unmoved _ _ id (fun other apart =>
          unmoved_replaced replaced (by rw [database]) files (by rw [← own] at apart; exact apart)) ?_
        intro _ _ _ _
        rw [← own, loads_row known]
        exact (loads_replaced replaced (by rw [database]) files known rfl).trans (whole_congr rfl rfl)
      · rintro s member path about
        obtain rfl := List.mem_singleton.mp member
        exact about
  | replaced v row db' found replaced =>
      obtain ⟨-, -, -, -, f, mine, describes⟩ := permitted
      obtain ⟨known, own⟩ := image?_some found
      have loads : Loads σ' v.id := by
        rw [← own]
        refine (loads_replaced replaced (by rw [database]) files known rfl).mpr ?_
        exact (whole_congr rfl rfl).mpr (placed.whole sound mine describes)
      refine h.untouched (statement_steady idle performed) idle
        (by rw [database, (replaceImage_some replaced).2]) ?_ ?_
      · refine @loads_unmoved _ _ v.id (fun other apart => unmoved_replaced replaced
          (by rw [database]) files (by rw [withContent_id, own]; exact apart)) ?_
        intro m member root same
        rcases mends with before | bare
        · exact iff_of_true loads before
        · exact absurd (bare m member same) root
      · rintro s member path about
        obtain rfl := List.mem_singleton.mp member
        exact about
  | erased id row found =>
      exact h.erase sound (statement_steady idle performed) idle permitted.2.1 database files rfl
  | unaliased id row found =>
      obtain ⟨-, path, locked, mapped, -⟩ := permitted
      obtain ⟨member, own⟩ := row?_some found
      obtain rfl : row.path = path := (sound.recalled.mapping i id path mapped).2 row member own
      refine h.steady (statement_steady idle performed) ?_ ?_ ?_ ?_ ?_ ?_
      · intro m quiet
        rw [database, mem_removeAlias, and_iff_left_iff_imp]
        intro known same
        rw [σ.database.aliasIDs.eq known member (same.trans own.symm)] at quiet
        exact quiet _ (List.mem_singleton_self _) rfl
      · intro j self s member' path about s' mine about'
        obtain rfl := List.mem_singleton.mp mine
        obtain rfl : row.path = path := about'
        exact sound.unmapped locked idle j s member' about
      · intro m _ _
        exact (Unmoved.refl (by rw [database]; rfl) (fun v _ => whole v) _).loads
      · simp [idle]
      · intro path x mine
        cases List.mem_singleton.mp mine
      · intro path mine m known same
        cases List.mem_singleton.mp mine
        rw [database, mem_removeAlias] at known
        rw [σ.database.aliasPaths.eq known.1 member same] at known
        exact known.2 own
  | erasedUnseen id row found =>
      have kept := failed_unchanged performed plain
      refine h.untouched (statement_steady idle performed) idle (by rw [kept]) ?_ ?_
      · intro m _ _
        exact (Unmoved.refl (by rw [kept]) (fun v _ => whole v) _).loads
      · intro s member
        have owes : (ls i).owes = _ := idle
        change s ∈ (ls i).owes at member
        simp [owes] at member
  | unaliasedUnseen id row found =>
      have kept := failed_unchanged performed plain
      refine h.untouched (statement_steady idle performed) idle (by rw [kept]) ?_ ?_
      · intro m _ _
        exact (Unmoved.refl (by rw [kept]) (fun v _ => whole v) _).loads
      · intro s member
        have owes : (ls i).owes = _ := idle
        change s ∈ (ls i).owes at member
        simp [owes] at member
  | none q r db' reading images aliases =>
      refine h.untouched (statement_steady idle performed) idle (by rw [database, aliases]) ?_ ?_
      · intro m _ _
        exact (Unmoved.refl (by rw [database, images]) (fun v _ => whole v) _).loads
      · intro s member
        obtain ⟨_, _, _, _, _, _, eq⟩ := reading_frame (P := P) (ls i) reading
        rw [eq] at member
        have owes : (ls i).owes = _ := idle
        simp [owes] at member

end Mappings

section Payments

/-- A step that is no alias step and removes no image leaves the aliases alone. -/
theorem Mappings.pay_target (h : Mappings σ ls) (sound : Sound P requests σ ls) {s : IndexStep}
    {rest : List IndexStep} (owed : (ls i).owes = s :: rest) (owes : l.owes = rest)
    (aliases : σ'.index.aliases = σ.index.aliases) (database : σ'.database = σ.database)
    (loads : ∀ m ∈ σ.database.aliases, m.path ≠ str "/" →
      (Loads σ' m.imageID ↔ Loads σ m.imageID))
    (other : ∀ path, ¬ Maps path s) (keeps : ∀ id, s ≠ .removeImage id) :
    Mappings σ' (Function.update ls i l) := by
  have within : ∀ s' ∈ l.owes, s' ∈ (ls i).owes := by
    intro s' member
    rw [owes] at member
    rw [owed]
    exact List.mem_cons_of_mem s member
  refine h.steady ⟨fun path => by rw [aliases], ?_⟩ ?_ ?_ loads ?_ ?_ ?_
  · intro id member
    rw [owed] at member
    rw [owes]
    exact (List.mem_cons.mp member).resolve_left fun same => keeps id same.symm
  · intro m _
    rw [database]
  · intro j self s₁ member path about s₂ mine about'
    exact self (sound.locks.path_holder ((sound.coherent j).mapped member about)
      ((sound.coherent i).mapped (within s₂ mine) about'))
  · intro s' member path about
    rw [owed] at member
    rw [owes]
    refine (List.mem_cons.mp member).resolve_left ?_
    rintro rfl
    exact other path about
  · intro path id member
    rw [database]
    exact h.added i path id (within _ member)
  · intro path member
    rw [database]
    exact h.removed i path (within _ member)

/-- An entry lingers on while another call owes the removal of its image. -/
theorem Lingers.kept (lingers : Lingers σ ls path)
    (entry : ∀ id, σ.index.aliases.lookup path = some id → IndexStep.removeImage id ∉ (ls i).owes →
      σ'.index.aliases.lookup path = some id)
    (free : ∀ id, σ.index.aliases.lookup path = some id → IndexStep.removeImage id ∉ (ls i).owes) :
    Lingers σ' (Function.update ls i l) path := by
  obtain ⟨id, j, there, owed⟩ := lingers
  refine ⟨id, j, entry id there (free id there), ?_⟩
  rw [Function.update_of_ne]
  · exact owed
  · rintro rfl
    exact free id there owed

/-- After its last payment a call is out of the way. -/
theorem Mappings.paid (h : Mappings σ ls) (owes : l.owes = []) (database : σ'.database = σ.database)
    (root : σ'.index.aliases.lookup (str "/") = none)
    (rests : ∀ path, path ≠ str "/" → (∀ j, j ≠ i → ∀ s ∈ (ls j).owes, ¬ Maps path s) →
      Rests σ' (Function.update ls i l) path)
    (entries : ∀ j, j ≠ i → ∀ path id, IndexStep.addAlias path id ∈ (ls j).owes →
      (σ.index.aliases.lookup path = none ∨ Lingers σ ls path) →
        σ'.index.aliases.lookup path = none ∨ Lingers σ' (Function.update ls i l) path) :
    Mappings σ' (Function.update ls i l) := by
  have others : ∀ j s, s ∈ (Function.update ls i l j).owes → j ≠ i ∧ s ∈ (ls j).owes := by
    intro j s member
    by_cases self : j = i
    · rw [self, Function.update_self, owes] at member
      cases member
    · rw [Function.update_of_ne self] at member
      exact ⟨self, member⟩
  constructor
  · exact root
  · intro path nonroot quiet
    refine rests path nonroot ?_
    intro j self s member
    exact quiet j s (by rwa [Function.update_of_ne self])
  · intro j path id member
    obtain ⟨self, before⟩ := others j _ member
    obtain ⟨nonroot, row, entry⟩ := h.added j path id before
    rw [database]
    exact ⟨nonroot, row, entries j self path id before entry⟩
  · intro j path member
    rw [database]
    exact h.removed j path (others j _ member).2

theorem Mappings.pay (h : Mappings σ ls) (targets : Targets σ ls) (orderly : Orderly (ls i))
    (sound : Sound P requests σ ls) {s : IndexStep} {rest : List IndexStep}
    (owed : (ls i).owes = s :: rest) (owes : l.owes = rest) (database : σ'.database = σ.database)
    (loads : ∀ id, Loads σ' id ↔ Loads σ id) (index : σ'.index = s.apply σ.index) :
    Mappings σ' (Function.update ls i l) := by
  have head : s ∈ (ls i).owes := by simp [owed]
  have leads : ∀ {path x}, Leads σ path x → Leads σ' path x := fun was =>
    was.congr (fun m _ => by rw [database]) fun m _ _ => loads m.imageID
  cases s with
  | replaceAll snapshot => exact ((sound.coherent i).backed _ head).elim
  | add id t =>
      exact h.pay_target sound owed owes (by rw [index, add_aliases]) database
        (fun m _ _ => loads m.imageID) (fun _ about => about) (by simp)
  | updateVisibility id visibility =>
      exact h.pay_target sound owed owes (by rw [index, updateVisibility_aliases]) database
        (fun m _ _ => loads m.imageID) (fun _ about => about) (by simp)
  | addAlias path id =>
      obtain rfl := orderly.last owed (by simp)
      obtain ⟨root, ⟨m, member, same, target⟩, entry⟩ := h.added i path id head
      obtain ⟨mapped, locked⟩ : (ls i).path = some path ∧ (ls i).image = some id :=
        (sound.coherent i).backed _ head
      have settled : Shows σ id (σ.index.byID.lookup id) := by
        refine targets.settled id ?_
        intro j s' member' concerned
        obtain rfl := sound.locks.image_holder locked
          ((sound.coherent j).concerned member' concerned)
        rw [owed, List.mem_singleton] at member'
        subst member'
        exact concerned
      have free : ∀ id', IndexStep.removeImage id' ∉ (ls i).owes := by simp [owed]
      have kept : ∀ other, (other = path → (σ.index.byID.lookup id).isSome = false) →
          σ'.index.aliases.lookup other = σ.index.aliases.lookup other := by
        intro other unknown
        rw [index, addAlias_alias, if_neg]
        rintro ⟨eq, known⟩
        rw [unknown eq] at known
        cases known
      have lingers : ∀ other, σ'.index.aliases.lookup other = σ.index.aliases.lookup other →
          Lingers σ ls other → Lingers σ' (Function.update ls i l) other := fun other same was =>
        was.kept (fun id' there _ => same.trans there) fun id' _ => free id'
      refine h.paid owes database ?_ ?_ ?_
      · rw [kept _ fun eq => absurd eq.symm root]
        exact h.root
      · intro other nonroot quiet
        by_cases here : other = path
        · subst here
          cases known : σ.index.byID.lookup id with
          | some t =>
              rw [known] at settled
              obtain ⟨v, there, own, whole, -⟩ := settled
              refine .inl ?_
              rw [index, addAlias_alias, if_pos ⟨rfl, by simp [known]⟩]
              exact leads ⟨m, member, same, target, v, there, own, whole⟩
          | none =>
              rw [known] at settled
              have nowhere : Leads σ other none := by
                rintro m' member' same' ⟨v, there, own, whole⟩
                rw [σ.database.aliasPaths.eq member' member (same'.trans same.symm), target] at own
                exact settled v there own whole
              have stays := kept other fun _ => by simp [known]
              rcases entry with absent | was
              · refine .inl ?_
                rw [stays, absent]
                exact leads nowhere
              · exact .inr ⟨leads nowhere, lingers other stays was⟩
        · have stays := kept other fun eq => absurd eq here
          have before := h.settled other nonroot (by
            intro j s' member' about
            by_cases self : j = i
            · rw [self, owed, List.mem_singleton] at member'
              subst member'
              exact here about.symm
            · exact quiet j self s' member' about)
          rcases before with was | ⟨nowhere, was⟩
          · refine .inl ?_
            rw [stays]
            exact leads was
          · exact .inr ⟨leads nowhere, lingers other stays was⟩
      · intro j self other id' member' was
        have stays := kept other fun eq => by
          subst eq
          exact absurd (sound.locks.path_holder ((sound.coherent j).mapped member' rfl) mapped) self
        rw [stays]
        exact was.imp_right (lingers other stays)
  | removeAlias path =>
      obtain rfl := orderly.last owed (by simp)
      have gone := h.removed i path head
      have mapped : (ls i).path = some path := (sound.coherent i).backed _ head
      have entry : ∀ other, σ'.index.aliases.lookup other =
          if other = path then none else σ.index.aliases.lookup other := by
        intro other
        rw [index, removeAlias_alias]
      have lingers : ∀ other, other ≠ path → Lingers σ ls other →
          Lingers σ' (Function.update ls i l) other := fun other apart was =>
        was.kept (fun id' there _ => by rw [entry, if_neg apart, there])
          fun id' _ => by simp [owed]
      refine h.paid owes database ?_ ?_ ?_
      · rw [entry]
        split
        · rfl
        · exact h.root
      · intro other nonroot quiet
        by_cases here : other = path
        · refine .inl ?_
          rw [entry, if_pos here]
          intro m member same
          rw [database] at member
          exact absurd (same.trans here) (gone m member)
        · have before := h.settled other nonroot (by
            intro j s' member' about
            by_cases self : j = i
            · rw [self, owed, List.mem_singleton] at member'
              subst member'
              exact here about.symm
            · exact quiet j self s' member' about)
          rcases before with was | ⟨nowhere, was⟩
          · refine .inl ?_
            rw [entry, if_neg here]
            exact leads was
          · exact .inr ⟨leads nowhere, lingers other here was⟩
      · intro j self other id' member' was
        have apart : other ≠ path := by
          rintro rfl
          exact self (sound.locks.path_holder ((sound.coherent j).mapped member' rfl) mapped)
        rw [entry, if_neg apart]
        exact was.imp_right (lingers other apart)
  | removeImage id =>
      obtain rfl := orderly.last owed (by simp)
      have erased : ¬ Loads σ id := by
        have shows' := targets.owed i id _ head rfl
        rw [removeImage_target, if_pos rfl] at shows'
        rintro ⟨v, member, own, whole⟩
        exact shows' v member own whole
      have entry : ∀ other, σ'.index.aliases.lookup other =
          (σ.index.aliases.lookup other).filter fun imageID => imageID != id := by
        intro other
        rw [index, removeImage_alias]
      have lingers : ∀ other, Lingers σ ls other → σ'.index.aliases.lookup other = none ∨
          Lingers σ' (Function.update ls i l) other := by
        intro other was
        by_cases mine : σ.index.aliases.lookup other = some id
        · refine .inl ?_
          rw [entry, mine]
          simp
        · refine .inr (was.kept ?_ ?_)
          · intro id' there free
            have apart : id' ≠ id := by
              rintro rfl
              exact mine there
            rw [entry, there]
            simp [apart]
          · intro id' there member
            rw [owed, List.mem_singleton] at member
            cases member
            exact mine there
      refine h.paid owes database ?_ ?_ ?_
      · rw [entry, h.root]
        rfl
      · intro other nonroot quiet
        have before := h.settled other nonroot (by
          intro j s' member' about
          by_cases self : j = i
          · rw [self, owed, List.mem_singleton] at member'
            subst member'
            exact about
          · exact quiet j self s' member' about)
        rcases before with was | ⟨nowhere, was⟩
        · refine .inl ?_
          rw [entry]
          cases there : σ.index.aliases.lookup other with
          | none =>
              rw [there] at was
              exact leads was
          | some x =>
              rw [there] at was
              obtain ⟨m, member, same, target, present⟩ := was
              have apart : x ≠ id := by
                rintro rfl
                exact erased present
              rw [show Option.filter (fun imageID => imageID != id) (some x) = some x by simp [apart]]
              exact leads ⟨m, member, same, target, present⟩
        · rcases lingers other was with absent | still
          · refine .inl ?_
            rw [absent]
            exact leads nowhere
          · exact .inr ⟨leads nowhere, still⟩
      · intro j self other id' member' was
        rcases was with absent | was
        · refine .inl ?_
          rw [entry, absent]
          rfl
        · exact lingers other was

end Payments

end ImageSilo.Publication
