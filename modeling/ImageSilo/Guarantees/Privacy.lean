import ImageSilo.Publication.Agreement
import ImageSilo.Publication.Attendance
import ImageSilo.Publication.Origins

/-! Once an image has become private, requests that begin then open its files for valid credentials only.
-/
namespace ImageSilo.Publication

open Go Concurrent Storage Tables Delivery

variable {P : Platform} {requests : Nat → Request} {σ σ' : State} {ls : Nat → Ledger} {i : Nat}
  {a : Action} {c : Choice} {r : Response a} {id k : GoString}

/-- The statement that makes the image public. -/
def Publishes (id : GoString) (a : Action) : Prop :=
  a = .statement (.updateVisibility id .isPublic)

section Sealed

/-- Whatever tells the visibility of the image says that it is private. If `debtor` is a call, the index
may still wait for that call to tell it. -/
structure Sealed (B : GoString → GoString → Prop) (id : GoString) (debtor : Option Nat) (σ : State)
    (ls : Nat → Ledger) : Prop where
  known : ∃ k, B id k
  rows : ∀ v ∈ σ.database.images, v.id = id → v.visibility = .isPrivate
  index : ∀ t, σ.index.byID.lookup id = some t → t.visibility = .isPrivate ∨
    ∃ i ∈ debtor, IndexStep.updateVisibility id .isPrivate ∈ (ls i).owes
  owed : ∀ j t, IndexStep.add id t ∈ (ls j).owes → t.visibility = .isPrivate
  shown : ∀ j visibility, IndexStep.updateVisibility id visibility ∈ (ls j).owes →
    visibility = .isPrivate

variable {B : GoString → GoString → Prop} {debtor : Option Nat}

/-- A new image does not take over the identifier. -/
theorem Sealed.unused (h : Sealed B id debtor σ ls) (titles : Titles B σ ls)
    (permitted : (ls i).permits P a) (performed : σ.perform P i a c = some (r, σ')) {v : Image}
    (stores : v ∈ storedBy a r) (new : v.id = v.storageKey) : v.id ≠ id := by
  rintro rfl
  obtain ⟨k, title⟩ := h.known
  obtain ⟨⟨f, placed⟩, -⟩ := storedBy_placed permitted performed stores
  exact (titles.placed i _ f placed k).2 (new ▸ title)

/-- The database takes no other visibility than the two. -/
theorem shown_private {db db' : Database} {row : Image} {visibility : Visibility}
    (replaced : db.replaceImage { row with visibility := visibility } = some db')
    (shown : visibility ≠ .isPublic) : visibility = .isPrivate := by
  unfold Database.replaceImage at replaced
  split at replaced
  · rename_i valid
    have admissible := valid.1
    simp only [Image.admissible, Bool.and_eq_true, Bool.or_eq_true, beq_iff_eq] at admissible
    exact admissible.1.2.resolve_left shown
  · cases replaced

theorem Sealed.row_step (h : Sealed B id debtor σ ls) (titles : Titles B σ ls)
    (permitted : (ls i).permits P a) (performed : σ.perform P i a c = some (r, σ'))
    (unpublished : ¬ Publishes id a) :
    ∀ v ∈ σ'.database.images, v.id = id → v.visibility = .isPrivate := by
  have unused {v : Image} := h.unused (v := v) titles permitted performed
  cases a with
  | statement q =>
      have change := statement_change performed
      obtain ⟨-, permitted⟩ := permitted
      generalize σ'.database = db' at change
      cases change with
      | created v db' stored =>
          rw [(insertImage_some stored).1]
          intro w member own
          rcases List.mem_append.mp member with old | new
          · exact h.rows w old own
          · obtain rfl := List.mem_singleton.mp new
            exact absurd own (unused (v := v) rfl permitted.2.2.1)
      | imported v m db₁ db₂ stored mapped =>
          rw [(insertAlias_some mapped).1, (insertImage_some stored).1]
          intro w member own
          rcases List.mem_append.mp member with old | new
          · exact h.rows w old own
          · obtain rfl := List.mem_singleton.mp new
            exact absurd own (unused (v := v) rfl permitted.2.2.1)
      | erased other row found => exact fun w member => h.rows w (mem_removeImage.mp member).1
      | erasedUnseen other row found => exact fun w member => h.rows w (mem_removeImage.mp member).1
      | shown other visibility row db' found replaced =>
          intro w member own
          rcases mem_replaced replaced member with rfl | ⟨old, -⟩
          · refine shown_private replaced ?_
            rintro rfl
            refine unpublished ?_
            rw [Publishes, ← own, ← (image?_some found).2]
          · exact h.rows w old own
      | replaced v row db' found replaced =>
          intro w member own
          rcases mem_replaced replaced member with rfl | ⟨old, -⟩
          · exact h.rows row (image?_some found).1 own
          · exact h.rows w old own
      | aliased m db' present mapped =>
          rw [(insertAlias_some mapped).1]
          exact h.rows
      | unaliased other row found => exact h.rows
      | unaliasedUnseen other row found => exact h.rows
      | none q r db' reading images aliases =>
          rw [images]
          exact h.rows
  | _ =>
      rw [(perform_frame performed).database (by simp)]
      exact h.rows

/-- The debts that a statement puts on its call say that the image is private. -/
theorem Sealed.owed_step (h : Sealed B id debtor σ ls) (titles : Titles B σ ls)
    (sound : Sound P requests σ ls) (permitted : (ls i).permits P a)
    (performed : σ.perform P i a c = some (r, σ')) (unpublished : ¬ Publishes id a) :
    (∀ t, IndexStep.add id t ∈ ((ls i).record P a r).owes → t.visibility = .isPrivate) ∧
      ∀ visibility, IndexStep.updateVisibility id visibility ∈ ((ls i).record P a r).owes →
        visibility = .isPrivate := by
  have unused {v : Image} := h.unused (v := v) titles permitted performed
  cases a with
  | statement q =>
      have change := statement_change performed
      obtain ⟨idle, permitted⟩ := permitted
      generalize σ'.database = db' at change
      cases change with
      | created v db' stored =>
          refine ⟨fun t member => ?_, fun visibility member => ?_⟩
          · cases List.mem_singleton.mp member
            exact absurd rfl (unused rfl permitted.2.2.1)
          · cases List.mem_singleton.mp member
      | imported v m db₁ db₂ stored mapped =>
          refine ⟨fun t member => ?_, fun visibility member => ?_⟩
          · rcases List.mem_cons.mp member with eq | rest
            · cases eq
              exact absurd rfl (unused rfl permitted.2.2.1)
            · cases List.mem_singleton.mp rest
          · rcases List.mem_cons.mp member with eq | rest
            · cases eq
            · cases List.mem_singleton.mp rest
      | shown other visibility row db' found replaced =>
          refine ⟨fun t member => ?_, fun visibility' member => ?_⟩
          · cases List.mem_singleton.mp member
          · cases List.mem_singleton.mp member
            refine shown_private replaced ?_
            rintro rfl
            exact unpublished rfl
      | replaced v row db' found replaced =>
          -- the row that was read under the lock of the image is still there
          obtain ⟨-, -, -, ⟨old, read, own, same, -⟩, -⟩ := permitted
          refine ⟨fun t member => ?_, fun visibility member => ?_⟩
          · cases List.mem_singleton.mp member
            exact same.trans (h.rows old (sound.recalled.row i old read) own)
          · cases List.mem_singleton.mp member
      | erased other row found =>
          refine ⟨fun t member => ?_, fun visibility member => ?_⟩
          · cases List.mem_singleton.mp member
          · cases List.mem_singleton.mp member
      | aliased m db' present mapped =>
          refine ⟨fun t member => ?_, fun visibility member => ?_⟩
          · cases List.mem_singleton.mp member
          · cases List.mem_singleton.mp member
      | unaliased other row found =>
          refine ⟨fun t member => ?_, fun visibility member => ?_⟩
          · cases List.mem_singleton.mp member
          · cases List.mem_singleton.mp member
      | erasedUnseen other row found => exact ⟨h.owed i, h.shown i⟩
      | unaliasedUnseen other row found => exact ⟨h.owed i, h.shown i⟩
      | none q r db' reading images aliases =>
          obtain ⟨_, _, _, _, _, _, eq⟩ := reading_frame (P := P) (ls i) reading
          rw [Ledger.record, eq]
          exact ⟨h.owed i, h.shown i⟩
  | _ =>
      exact ⟨fun t member => h.owed i t (record_owes (by simp) _ member),
        fun visibility member => h.shown i visibility (record_owes (by simp) _ member)⟩

theorem Sealed.index_step (h : Sealed B id debtor σ ls) (sound : Sound P requests σ ls)
    (permitted : (ls i).permits P a) (performed : σ.perform P i a c = some (r, σ')) {t : Target}
    (there : σ'.index.byID.lookup id = some t) : t.visibility = .isPrivate ∨
      ∃ j ∈ debtor, IndexStep.updateVisibility id .isPrivate ∈
        (Function.update ls i ((ls i).record P a r) j).owes := by
  have kept := owed_kept (r := r) (s := .updateVisibility id .isPrivate) debtor permitted
  rcases index_entered sound permitted performed there with
    ⟨there, -, unshown⟩ | ⟨visibility, old, -, owed, -, rfl⟩ | owed | ⟨v, member, own, rfl⟩
  · exact (h.index t there).imp_right (kept (unshown .isPrivate))
  · exact .inl (h.shown i visibility owed)
  · exact .inl (h.owed i t owed)
  · exact .inl (h.rows v member own)

theorem Sealed.step (h : Sealed B id debtor σ ls) (titles : Titles B σ ls)
    (sound : Sound P requests σ ls) {B' : GoString → GoString → Prop}
    (grown : ∀ id k, B id k → B' id k) (permitted : (ls i).permits P a)
    (performed : σ.perform P i a c = some (r, σ')) (unpublished : ¬ Publishes id a) :
    Sealed B' id debtor σ' (Function.update ls i ((ls i).record P a r)) where
  known := h.known.imp (grown id)
  rows := h.row_step titles permitted performed unpublished
  index _ there := h.index_step sound permitted performed there
  owed j t member := by
    by_cases self : j = i
    · rw [self, Function.update_self] at member
      exact (h.owed_step titles sound permitted performed unpublished).1 t member
    · rw [Function.update_of_ne self] at member
      exact h.owed j t member
  shown j visibility member := by
    by_cases self : j = i
    · rw [self, Function.update_self] at member
      exact (h.owed_step titles sound permitted performed unpublished).2 visibility member
    · rw [Function.update_of_ne self] at member
      exact h.shown j visibility member

/-- The statement that makes the image private leaves one entry to mend, which its call owes. -/
theorem Sealed.hide (titles : Titles B σ ls) (sound : Sound P requests σ ls)
    (permitted : (ls i).permits P (.statement (.updateVisibility id .isPrivate)))
    (performed : σ.perform P i (.statement (.updateVisibility id .isPrivate)) c =
      some (.ok true, σ')) :
    Sealed B id (some i) σ' (Function.update ls i
      ((ls i).record P (.statement (.updateVisibility id .isPrivate)) (.ok true))) := by
  obtain ⟨idle, -, locked, -⟩ := permitted
  have owes : (Function.update ls i ((ls i).record P (.statement (.updateVisibility id .isPrivate))
      (.ok true)) i).owes = [.updateVisibility id .isPrivate] := by
    rw [Function.update_self]
    rfl
  -- nobody else owes a step about the image while the call has its lock
  have others : ∀ j, j ≠ i → ∀ s ∈ (Function.update ls i
      ((ls i).record P (.statement (.updateVisibility id .isPrivate)) (.ok true)) j).owes,
        ¬ Concerns id s := by
    intro j other s member
    rw [Function.update_of_ne other] at member
    exact sound.unconcerned locked idle j s member
  have change := statement_change performed
  generalize eq : σ'.database = db' at change
  cases change with
  | none q r db' reading images aliases => exact reading.elim
  | shown _ _ row db' found replaced =>
      refine ⟨⟨row.storageKey, ?_⟩, ?_, ?_, ?_, ?_⟩
      · rw [← (image?_some found).2]
        exact titles.rows row (image?_some found).1
      · rw [eq]
        intro w member own
        rcases mem_replaced replaced member with rfl | ⟨-, other⟩
        · rfl
        · exact absurd (own.trans (image?_some found).2.symm) other
      · intro t there
        exact .inr ⟨i, rfl, by rw [owes]; exact List.mem_cons_self⟩
      · intro j t member
        by_cases self : j = i
        · rw [self, owes] at member
          cases List.mem_singleton.mp member
        · exact absurd rfl (others j self _ member)
      · intro j visibility member
        by_cases self : j = i
        · rw [self, owes] at member
          cases List.mem_singleton.mp member
          rfl
        · exact absurd rfl (others j self _ member)

theorem Sealed.environment (h : Sealed B id debtor σ ls) (moved : σ.environment σ') :
    Sealed B id debtor σ' ls := by
  obtain ⟨t, -, rfl⟩ := moved
  exact ⟨h.known, h.rows, h.index, h.owed, h.shown⟩

theorem Sealed.restart (h : Sealed B id debtor σ ls) (moved : σ.restart σ') :
    Sealed B id debtor σ' fun j => Ledger.begin (requests j) := by
  obtain ⟨t, -, rfl⟩ := moved
  refine ⟨h.known, h.rows, ?_, ?_, ?_⟩
  · intro t there
    cases there
  · simp [Ledger.begin]
  · simp [Ledger.begin]

/-- When the call owes nothing any more, the index tells that the image is private. -/
theorem Sealed.settle (h : Sealed B id (some i) σ ls) (idle : (ls i).owes = []) :
    Sealed B id none σ ls where
  known := h.known
  rows := h.rows
  index t there := by
    rcases h.index t there with hidden | ⟨j, same, owed⟩
    · exact .inl hidden
    · cases same
      rw [idle] at owed
      cases owed
  owed := h.owed
  shown := h.shown

end Sealed

section Hiding

variable {σ₀ : State} {τ : List (Event (machine P))}

/-- The call has made the image private, and nobody has made it public again. -/
def Hushed (id : GoString) (i : Nat) (τ : List (Event (machine P))) : Prop :=
  ∃ before c after, τ = before ++
      (⟨i, .statement (.updateVisibility id .isPrivate), c, .ok true⟩ : Event (machine P)) :: after ∧
    ∀ e ∈ after, ¬ Publishes id e.action

theorem hushed_snoc {e : Event (machine P)} (hushed : Hushed id i (τ ++ [e])) :
    (∃ c, e = ⟨i, .statement (.updateVisibility id .isPrivate), c, .ok true⟩) ∨
      (Hushed id i τ ∧ ¬ Publishes id e.action) := by
  obtain ⟨before, c, after, same, unpublished⟩ := hushed
  rcases List.eq_nil_or_concat after with rfl | ⟨rest, last, rfl⟩
  · obtain ⟨-, eq⟩ := List.append_inj' same rfl
    exact .inl ⟨c, List.singleton_inj.mp eq⟩
  · rw [List.concat_eq_append, ← List.cons_append, ← List.append_assoc] at same
    obtain ⟨eq, single⟩ := List.append_inj' same rfl
    obtain rfl := List.singleton_inj.mp single
    refine .inr ⟨⟨before, c, rest, eq, fun e' member => ?_⟩, ?_⟩
    · exact unpublished e' (by simp [member])
    · exact unpublished e (by simp)

/-- What a call notes of a change of visibility is in the trace. -/
def Noted (τ : List (Event (machine P))) (ls : Nat → Ledger) : Prop :=
  ∀ j id visibility, (ls j).changed = some (id, visibility) →
    ∃ c, (⟨j, .statement (.updateVisibility id visibility), c, .ok true⟩ : Event (machine P)) ∈ τ

theorem record_changed {l : Ledger} {visibility : Visibility}
    (changed : (l.record P a r).changed = some (id, visibility)) : l.changed = some (id, visibility) ∨
      (⟨a, r⟩ : Answer Response) = ⟨.statement (.updateVisibility id visibility), .ok true⟩ := by
  cases a with
  | statement q =>
      rw [Ledger.record] at changed
      unfold Ledger.recordStatement at changed
      split at changed
      case h_5 =>
        cases changed
        exact .inr rfl
      case h_10 => split at changed <;> exact .inl changed
      case h_14 =>
        split at changed
        · split at changed <;> exact .inl changed
        · exact .inl changed
      all_goals exact .inl changed
  | sync s =>
      obtain ⟨_, _, _, _, _, eq⟩ := recordSync_frame l s
      rw [Ledger.record, eq] at changed
      exact .inl changed
  | index s =>
      obtain ⟨_, _, _, _, eq⟩ := recordIndex_frame l s
      rw [Ledger.record, eq] at changed
      exact .inl changed
  | file b =>
      obtain ⟨_, _, _, _, _, _, _, eq⟩ := recordFile_frame (P := P) l b r
      rw [Ledger.record, eq] at changed
      exact .inl changed
  | newUUID => cases r <;> exact .inl changed
  | _ => exact .inl changed

/-- What is known before the change to private has returned. -/
structure Hiding (σ₀ : State) (τ : List (Event (machine P))) (σ : State) (ls : Nat → Ledger) : Prop
    where
  titles : Titles (Belongs σ₀ τ) σ ls
  noted : Noted τ ls
  hidden : ∀ id i, Hushed id i τ → Sealed (Belongs σ₀ τ) id (some i) σ ls

theorem hiding_keeps (σ₀ : State) : (watch P requests).Keeps (anything P requests)
    fun τ σ ls => Sound P requests σ ls ∧ Hiding σ₀ τ σ ls := by
  refine keeps serving_serves _ ?_ ?_ ?_
  · intro τ w ls i a c r σ' sound h permitted performed _ _
    have titles := h.titles.step sound (fun _ _ => belongs_snoc (i := i) (c := c)) permitted performed
    refine ⟨titles, ?_, ?_⟩
    · intro j id visibility changed
      by_cases self : j = i
      · rw [self, Function.update_self] at changed
        rw [self]
        rcases record_changed changed with before | new
        · obtain ⟨c', member⟩ := h.noted i id visibility before
          exact ⟨c', List.mem_append_left _ member⟩
        · cases new
          exact ⟨c, by simp⟩
      · rw [Function.update_of_ne self] at changed
        obtain ⟨c', member⟩ := h.noted j id visibility changed
        exact ⟨c', List.mem_append_left _ member⟩
    · intro id j hushed
      rcases hushed_snoc hushed with ⟨c', new⟩ | ⟨before, unpublished⟩
      · cases new
        have hides := Sealed.hide h.titles sound permitted performed
        exact ⟨hides.known.imp fun _ title => title.later, hides.rows, hides.index, hides.owed,
          hides.shown⟩
      · exact (h.hidden id j before).step h.titles sound (fun _ _ title => title.later) permitted
          performed unpublished
  · intro τ σ ls σ' _ h moved
    exact ⟨h.titles.environment moved, h.noted, fun id i hushed =>
      (h.hidden id i hushed).environment moved⟩
  · intro _ τ σ ls σ' _ h moved
    exact ⟨h.titles.restart moved, by simp [Noted, Ledger.begin], fun id i hushed =>
      (h.hidden id i hushed).restart moved⟩

end Hiding

section Runs

variable {σ₀ : State} {τ τ₀ : List (Event (machine P))} {w : World (machine P) Result}

/-- The image has not been made public. -/
def Unpublished (id : GoString) (τ : List (Event (machine P))) : Prop :=
  ∀ e ∈ τ, ¬ Publishes id e.action

/-- What is known once the change to private has returned. -/
structure Hidden (σ₀ : State) (τ₀ : List (Event (machine P))) (id : GoString)
    (τ : List (Event (machine P))) (σ : State) (ls : Nat → Ledger) : Prop where
  titles : Titles (Belongs σ₀ (τ₀ ++ τ)) σ ls
  sealed : Unpublished id τ → Sealed (Belongs σ₀ (τ₀ ++ τ)) id none σ ls

theorem hidden_keeps (σ₀ : State) (τ₀ : List (Event (machine P))) (id : GoString) :
    (watch P requests).Keeps (anything P requests)
      fun τ σ ls => Sound P requests σ ls ∧ Hidden σ₀ τ₀ id τ σ ls := by
  refine keeps serving_serves _ ?_ ?_ ?_
  · intro τ w ls i a c r σ' sound h permitted performed _ _
    have titles := h.titles.step sound (fun _ _ => belongs_snoc (i := i) (c := c)) permitted performed
    rw [List.append_assoc] at titles
    refine ⟨titles, fun unpublished => ?_⟩
    have before := h.sealed fun e member => unpublished e (List.mem_append_left _ member)
    refine before.step h.titles sound (fun _ _ title => ?_) permitted performed
      (unpublished ⟨i, a, c, r⟩ (by simp))
    rw [← List.append_assoc]
    exact title.later
  · intro τ σ ls σ' _ h moved
    exact ⟨h.titles.environment moved, fun unpublished => (h.sealed unpublished).environment moved⟩
  · intro _ τ σ ls σ' _ h moved
    exact ⟨h.titles.restart moved, fun unpublished => (h.sealed unpublished).restart moved⟩

/-- Unless the image is made public, the target is a private one or of another image. -/
def Veiled (σ₀ : State) (τ₀ : List (Event (machine P))) (id : GoString)
    (τ : List (Event (machine P))) (t : Target) : Prop :=
  Unpublished id τ →
    ∃ id', Belongs σ₀ (τ₀ ++ τ) id' t.storageKey ∧ (id' = id → t.visibility = .isPrivate)

theorem veiled_snoc (τ : List (Event (machine P))) (e : Event (machine P)) (t : Target)
    (veiled : Veiled σ₀ τ₀ id τ t) : Veiled σ₀ τ₀ id (τ ++ [e]) t := by
  intro unpublished
  obtain ⟨id', title, tells⟩ := veiled fun e' member => unpublished e' (List.mem_append_left _ member)
  refine ⟨id', ?_, tells⟩
  rw [← List.append_assoc]
  exact title.later

/-- Whatever the index shows is veiled. -/
theorem Hidden.veils (h : Hidden σ₀ τ₀ id τ σ ls) {id' : GoString} {t : Target}
    (there : σ.index.byID.lookup id' = some t) : Veiled σ₀ τ₀ id τ t := by
  intro unpublished
  refine ⟨id', h.titles.index id' t there, ?_⟩
  rintro rfl
  rcases (h.sealed unpublished).index t there with tells | ⟨j, none, -⟩
  · exact tells
  · cases none

/-- Once the change of an image to private has returned, and as long as no later change makes it public,
no request that begins then opens a file that is or was a file of the image before it has shown a
credential for private images, and it sends nothing but what it has read from a file it has opened. -/
theorem private_stays_private (begins : Begins P σ₀)
    (before : Run (anything P requests) (start P requests σ₀) τ w)
    (asked : requests i = .changeVisibility id .isPrivate)
    (returned : w.calls i = .done (.visibilityChanged (.ok true))) :
    ∃ τ₁ c τ₂, τ = τ₁ ++ (⟨i, .statement (.updateVisibility id .isPrivate), c, .ok true⟩ :
        Event (machine P)) :: τ₂ ∧
      (Unpublished id τ₂ → ∀ τ' w', Run (anything P requests) w τ' w' → Unpublished id τ' →
        ∀ j r, requests j = .serve r → w.calls j = (requests j).program P →
          (∀ k c r', (⟨j, .file (.openImage k), c, r'⟩ : Event (machine P)) ∈ τ' →
            Belongs σ₀ (τ ++ τ') id k → Admitted P r (answersOf j τ')) ∧
          ∀ t bytes, w'.calls j = .done (.replied (.content t bytes)) →
            ⟨.file (.openImage t.storageKey), .ok bytes⟩ ∈ answersOf j τ') := by
  obtain ⟨ls, obeyed, sound, told⟩ := followed (hiding_keeps σ₀) begins.registered begins.free
    ⟨.begin begins, by simp [Noted, Ledger.begin], by rintro id i ⟨_, _, _, none, _⟩; simp at none⟩
    before
  -- the call has noted its statement, and owes nothing any more
  have finished := obeyed i
  rw [returned] at finished
  have changed := finished.told
  rw [asked] at changed
  obtain ⟨c, member⟩ := told.noted i id .isPrivate (changed rfl)
  obtain ⟨τ₁, τ₂, rfl⟩ := List.append_of_mem member
  refine ⟨τ₁, c, τ₂, rfl, ?_⟩
  intro unpublished τ' w' after unpublished' j r serves unbegun
  have hidden := (told.hidden id i ⟨τ₁, c, τ₂, rfl, unpublished⟩).settle finished.settled.owes
  obtain ⟨⟨ls', -, -, hidden'⟩, late⟩ := late_opens serving_serves (hidden_keeps σ₀ _ id)
    veiled_snoc (fun _ _ _ _ _ inv there => inv.2.veils there)
    ⟨ls, obeyed, sound, ⟨by rw [List.append_nil]; exact told.titles,
      fun _ => by rw [List.append_nil]; exact hidden⟩⟩ after
  obtain ⟨opened, replied⟩ := late j r serves unbegun
  refine ⟨fun k c' r' event title => ?_, replied⟩
  obtain ⟨t, rfl, veiled, admits⟩ := opened k c' r' event
  obtain ⟨id', title', tells⟩ := veiled unpublished'
  exact admits (tells (hidden'.titles.single id' id _ title' title))

def hideAndView : Nat → Request
  | 0 => .changeVisibility (str "a") .isPrivate
  | _ => .serve sampleRequest

/-- The change to private, from the lock of the image to its release. -/
def hidingSteps : List (Nat × Choice) := List.replicate 6 (0, .normal)

def discreet : Action → Bool
  | .statement (.updateVisibility _ .isPublic) => false
  | _ => true

theorem hiding_runs : ∃ τ w, (start samplePlatform hideAndView (sampleState Processor.pngSignature
      (str "image/png") .isPublic (by decide))).execute hidingSteps = some (τ, w) ∧
    w.calls 0 = .done (.visibilityChanged (.ok true)) ∧
    w.calls 1 = (hideAndView 1).program samplePlatform ∧
    (τ.all fun e => discreet e.action) = true :=
  ⟨_, _, rfl, rfl, rfl, rfl⟩

/-- After the change a request without credentials opens the file of the image in no run. -/
theorem private_stays_private_sample : ∃ τ w,
    Run (anything samplePlatform hideAndView) (start samplePlatform hideAndView
      (sampleState Processor.pngSignature (str "image/png") .isPublic (by decide))) τ w ∧
    w.calls 0 = .done (.visibilityChanged (.ok true)) ∧
    ∀ τ' w', Run (anything samplePlatform hideAndView) w τ' w' → Unpublished (str "a") τ' →
      ∀ c r', (⟨1, .file (.openImage (str "a")), c, r'⟩ : Event (machine samplePlatform)) ∉ τ' := by
  obtain ⟨τ, w, executed, returned, unbegun, quiet⟩ := hiding_runs
  have run := scheduled samplePlatform hideAndView _ hidingSteps executed
  refine ⟨τ, w, run, returned, ?_⟩
  obtain ⟨τ₁, c₀, τ₂, rfl, stays⟩ := private_stays_private (i := 0) sample_begins run rfl returned
  have unpublished : Unpublished (str "a") τ₂ := by
    intro e member publishes
    have told := List.all_eq_true.mp quiet e (by simp [member])
    rw [publishes] at told
    cases told
  intro τ' w' after unpublished' c r' opens
  have title : Belongs (P := samplePlatform)
      (sampleState Processor.pngSignature (str "image/png") .isPublic (by decide)) [] (str "a")
      (str "a") := .inl ⟨_, sample_images ▸ List.mem_cons_self, rfl, rfl⟩
  rcases (stays unpublished τ' w' after unpublished' 1 sampleRequest rfl unbegun).1 _ c r' opens
    title.later with ⟨cookie, now, identity, carries, -⟩ | ⟨plaintext, now, identity, carries, -⟩
  · cases carries
  · cases carries

end Runs

end ImageSilo.Publication
