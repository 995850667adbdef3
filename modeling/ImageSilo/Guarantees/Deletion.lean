import ImageSilo.Publication.Attendance
import ImageSilo.Publication.Origins

/-! Once the deletion of an image has returned success, no request that begins then reads a file of it. -/
namespace ImageSilo.Publication

open Go Concurrent Storage Tables Delivery

variable {P : Platform} {requests : Nat → Request} {σ σ' : State} {ls : Nat → Ledger} {i : Nat}
  {a : Action} {c : Choice} {r : Response a} {id k : GoString}

section Effaced

/-- Nothing brings the image back. If `debtor` is a call, the index may still wait for that call to take
the image out. -/
structure Effaced (B : GoString → GoString → Prop) (id : GoString) (debtor : Option Nat) (σ : State)
    (ls : Nat → Ledger) : Prop where
  known : ∃ k, B id k
  rows : ∀ v ∈ σ.database.images, v.id ≠ id
  index : ∀ t, σ.index.byID.lookup id = some t →
    ∃ i ∈ debtor, IndexStep.removeImage id ∈ (ls i).owes
  owed : ∀ j t, IndexStep.add id t ∉ (ls j).owes

variable {B B' : GoString → GoString → Prop} {debtor : Option Nat}

/-- The identifier is not that of a file that has been placed. -/
theorem Effaced.unborn (h : Effaced B id debtor σ ls) (titles : Titles B σ ls) {j : Nat} {f : Facts} :
    (ls j).placed ≠ some (id, f) := by
  intro placed
  obtain ⟨k, title⟩ := h.known
  exact (titles.placed j id f placed k).2 title

theorem Effaced.owed_step (h : Effaced B id debtor σ ls) (titles : Titles B σ ls)
    (permitted : (ls i).permits P a) (performed : σ.perform P i a c = some (r, σ')) {t : Target} :
    IndexStep.add id t ∉ ((ls i).record P a r).owes := by
  intro member
  cases a with
  | statement q =>
      rcases statement_concern permitted.1 permitted.2 performed member rfl with
        ⟨v, known, own⟩ | ⟨f, placed⟩
      · exact h.rows v known own
      · exact h.unborn titles placed
  | _ => exact h.owed i t (record_owes (by simp) _ member)

theorem Effaced.index_step (h : Effaced B id debtor σ ls) (sound : Sound P requests σ ls)
    (permitted : (ls i).permits P a) (performed : σ.perform P i a c = some (r, σ')) {t : Target}
    (there : σ'.index.byID.lookup id = some t) : ∃ j ∈ debtor,
      IndexStep.removeImage id ∈ (Function.update ls i ((ls i).record P a r) j).owes := by
  have kept := owed_kept (r := r) (s := .removeImage id) debtor permitted
  rcases index_entered sound permitted performed there with
    ⟨there, unremoved, -⟩ | ⟨visibility, old, rfl, -, known, -⟩ | owed | ⟨v, member, own, -⟩
  · exact kept unremoved (h.index t there)
  · exact kept (by simp) (h.index old known)
  · exact absurd owed (h.owed i t)
  · exact absurd own (h.rows v member)

theorem Effaced.step (h : Effaced B id debtor σ ls) (titles : Titles B σ ls)
    (sound : Sound P requests σ ls) (grown : ∀ id k, B id k → B' id k)
    (permitted : (ls i).permits P a) (performed : σ.perform P i a c = some (r, σ')) :
    Effaced B' id debtor σ' (Function.update ls i ((ls i).record P a r)) where
  known := h.known.imp (grown id)
  rows := rows_absent permitted performed (fun _ => h.unborn titles) h.rows
  index _ there := h.index_step sound permitted performed there
  owed j t member := by
    by_cases self : j = i
    · rw [self, Function.update_self] at member
      exact h.owed_step titles permitted performed member
    · rw [Function.update_of_ne self] at member
      exact h.owed j t member

/-- The statement that deletes the row leaves one entry to take out, which its call owes. -/
theorem Effaced.erase (titles : Titles B σ ls) (sound : Sound P requests σ ls)
    (permitted : (ls i).permits P (.statement (.deleteImage id))) {row : Image}
    (performed : σ.perform P i (.statement (.deleteImage id)) c = some (.ok row, σ')) :
    Effaced B id (some i) σ' (Function.update ls i
      ((ls i).record P (.statement (.deleteImage id)) (.ok row))) := by
  obtain ⟨idle, -, locked, -⟩ := permitted
  have owes : (Function.update ls i ((ls i).record P (.statement (.deleteImage id)) (.ok row)) i).owes =
      [.removeImage id] := by
    rw [Function.update_self]
    rfl
  have change := statement_change performed
  generalize eq : σ'.database = db' at change
  cases change with
  | none q r db' reading images aliases => exact reading.elim
  | erased _ _ found =>
      refine ⟨⟨row.storageKey, ?_⟩, ?_, ?_, ?_⟩
      · rw [← (image?_some found).2]
        exact titles.rows row (image?_some found).1
      · rw [eq]
        exact fun v member => (mem_removeImage.mp member).2
      · exact fun t there => ⟨i, rfl, by rw [owes]; exact List.mem_cons_self⟩
      · intro j t member
        by_cases self : j = i
        · rw [self, owes] at member
          cases List.mem_singleton.mp member
        · -- nobody else owes a step about the image while the call has its lock
          rw [Function.update_of_ne self] at member
          exact sound.unconcerned locked idle j _ member rfl

theorem Effaced.environment (h : Effaced B id debtor σ ls) (moved : σ.environment σ') :
    Effaced B id debtor σ' ls := by
  obtain ⟨t, -, rfl⟩ := moved
  exact ⟨h.known, h.rows, h.index, h.owed⟩

theorem Effaced.restart (h : Effaced B id debtor σ ls) (moved : σ.restart σ') :
    Effaced B id debtor σ' fun j => Ledger.begin (requests j) := by
  obtain ⟨t, -, rfl⟩ := moved
  refine ⟨h.known, h.rows, ?_, by simp [Ledger.begin]⟩
  intro t there
  cases there

/-- When the call owes nothing any more, the index has no entry for the image. -/
theorem Effaced.settle (h : Effaced B id (some i) σ ls) (idle : (ls i).owes = []) :
    Effaced B id none σ ls where
  known := h.known
  rows := h.rows
  index t there := by
    obtain ⟨j, same, owed⟩ := h.index t there
    cases same
    rw [idle] at owed
    cases owed
  owed := h.owed

theorem Effaced.missing (h : Effaced B id none σ ls) : σ.index.get id = none := by
  cases there : σ.index.byID.lookup id with
  | none => exact there
  | some t =>
      obtain ⟨j, none, -⟩ := h.index t there
      cases none

end Effaced

section Runs

variable {σ₀ : State} {τ τ₀ : List (Event (machine P))} {w : World (machine P) Result}

/-- What is known before the deletion has returned. -/
structure Erasing (σ₀ : State) (τ : List (Event (machine P))) (σ : State) (ls : Nat → Ledger) : Prop
    where
  titles : Titles (Belongs σ₀ τ) σ ls
  erased : ∀ id i c row, (⟨i, .statement (.deleteImage id), c, .ok row⟩ : Event (machine P)) ∈ τ →
    Effaced (Belongs σ₀ τ) id (some i) σ ls

theorem erasing_keeps (σ₀ : State) : (watch P requests).Keeps (anything P requests)
    fun τ σ ls => Sound P requests σ ls ∧ Erasing σ₀ τ σ ls := by
  refine keeps serving_serves _ ?_ ?_ ?_
  · intro τ w ls i a c r σ' sound h permitted performed _ _
    have grown (id k) (title : Belongs σ₀ τ id k) : Belongs σ₀ (τ ++ [⟨i, a, c, r⟩]) id k :=
      title.later
    have titles := h.titles.step sound (fun _ _ => belongs_snoc (i := i) (c := c)) permitted performed
    refine ⟨titles, fun id j c' row member => ?_⟩
    rcases List.mem_append.mp member with old | new
    · exact (h.erased id j c' row old).step h.titles sound grown permitted performed
    · cases List.mem_singleton.mp new
      have erases := Effaced.erase h.titles sound permitted performed
      exact ⟨erases.known.imp fun _ => grown id _, erases.rows, erases.index, erases.owed⟩
  · intro τ σ ls σ' _ h moved
    exact ⟨h.titles.environment moved, fun id i c row member =>
      (h.erased id i c row member).environment moved⟩
  · intro _ τ σ ls σ' _ h moved
    exact ⟨h.titles.restart moved, fun id i c row member => (h.erased id i c row member).restart moved⟩

/-- What is known once the deletion has returned. -/
structure Erased (σ₀ : State) (τ₀ : List (Event (machine P))) (id : GoString)
    (τ : List (Event (machine P))) (σ : State) (ls : Nat → Ledger) : Prop where
  titles : Titles (Belongs σ₀ (τ₀ ++ τ)) σ ls
  effaced : Effaced (Belongs σ₀ (τ₀ ++ τ)) id none σ ls

theorem erased_keeps (σ₀ : State) (τ₀ : List (Event (machine P))) (id : GoString) :
    (watch P requests).Keeps (anything P requests)
      fun τ σ ls => Sound P requests σ ls ∧ Erased σ₀ τ₀ id τ σ ls := by
  refine keeps serving_serves _ ?_ ?_ ?_
  · intro τ w ls i a c r σ' sound h permitted performed _ _
    have titles := h.titles.step sound (fun _ _ => belongs_snoc (i := i) (c := c)) permitted performed
    rw [List.append_assoc] at titles
    refine ⟨titles, h.effaced.step h.titles sound (fun _ _ title => ?_) permitted performed⟩
    rw [← List.append_assoc]
    exact title.later
  · exact fun _ h moved => ⟨h.titles.environment moved, h.effaced.environment moved⟩
  · exact fun _ _ _ _ _ _ h moved => ⟨h.titles.restart moved, h.effaced.restart moved⟩

/-- The target is of another image. -/
def Apart (σ₀ : State) (τ₀ : List (Event (machine P))) (id : GoString) (τ : List (Event (machine P)))
    (t : Target) : Prop :=
  ∃ id', Belongs σ₀ (τ₀ ++ τ) id' t.storageKey ∧ id' ≠ id

theorem apart_snoc (τ : List (Event (machine P))) (e : Event (machine P)) (t : Target)
    (apart : Apart σ₀ τ₀ id τ t) : Apart σ₀ τ₀ id (τ ++ [e]) t := by
  obtain ⟨id', title, other⟩ := apart
  refine ⟨id', ?_, other⟩
  rw [← List.append_assoc]
  exact title.later

theorem Erased.apart {τ : List (Event (machine P))} (h : Erased σ₀ τ₀ id τ σ ls) {id' : GoString}
    {t : Target} (there : σ.index.byID.lookup id' = some t) : Apart σ₀ τ₀ id τ t := by
  refine ⟨id', h.titles.index id' t there, ?_⟩
  rintro rfl
  have missing := h.effaced.missing
  rw [Index.get, there] at missing
  cases missing

theorem deleteImageRow_answered {answers : List (Answer Response)} {row : Image}
    (yields : (deleteImageRow id).Yields answers (.ok row)) :
    ⟨.statement (.deleteImage id), .ok row⟩ ∈ answers := by
  unfold deleteImageRow statement at yields
  obtain ⟨deleted, first, second, rfl, told, mapped⟩ := Program.yields_bind.mp yields
  have told := Program.yields_perform.mp told
  obtain ⟨-, same⟩ := Program.yields_pure.mp mapped
  cases deleted with
  | error e => cases same
  | ok row' =>
      cases same
      simp [told]

theorem deleteLocked_answered {answers : List (Answer Response)} {result : DeleteResult}
    (yields : (deleteLocked id).Yields answers (.ok result)) :
    ∃ row, ⟨.statement (.deleteImage id), .ok row⟩ ∈ answers := by
  unfold deleteLocked at yields
  obtain ⟨_, _, later, rfl, -, yields⟩ := Program.yields_bind.mp yields
  obtain ⟨deleted, first, second, rfl, told, yields⟩ := Program.yields_bind.mp yields
  cases deleted with
  | error e =>
      obtain ⟨_, _, _, -, -, yields⟩ := Program.yields_bind.mp yields
      obtain ⟨-, same⟩ := Program.yields_pure.mp yields
      cases same
  | ok row =>
      have answered := deleteImageRow_answered told
      exact ⟨row, by simp [answered]⟩

/-- A deletion that returns success has deleted the row. -/
theorem deletion_answered {answers : List (Answer Response)} {result : DeleteResult}
    (yields : (Request.program P (.deleteImage id)).Yields answers (.imageDeleted (.ok result))) :
    ∃ row, ⟨.statement (.deleteImage id), .ok row⟩ ∈ answers := by
  change (returning (deleteImage P id) Result.imageDeleted).Yields answers _ at yields
  unfold returning deleteImage at yields
  obtain ⟨answer, inner, rest, rfl, deleted, wrapped⟩ := Program.yields_bind.mp yields
  obtain ⟨-, same⟩ := Program.yields_pure.mp wrapped
  cases same
  split at deleted
  · obtain ⟨-, same⟩ := Program.yields_pure.mp deleted
    cases same
  obtain ⟨_, _, later, rfl, -, deleted⟩ := Program.yields_bind.mp deleted
  obtain ⟨answer, first, second, rfl, told, released⟩ := Program.yields_bind.mp deleted
  obtain ⟨_, _, _, rfl, -, returned⟩ := Program.yields_bind.mp released
  obtain ⟨-, same⟩ := Program.yields_pure.mp returned
  cases same
  obtain ⟨row, member⟩ := deleteLocked_answered told
  exact ⟨row, by simp [member]⟩

/-- Once the deletion of an image has returned success, the image has no row, no alias and no entry of the
index, whatever fails or crashes later, and no request that begins then opens or sends a file that is or
was a file of the image. -/
theorem deleted_stays_deleted (begins : Begins P σ₀)
    (before : Run (anything P requests) (start P requests σ₀) τ w)
    (asked : requests i = .deleteImage id) {result : DeleteResult}
    (returned : w.calls i = .done (.imageDeleted (.ok result))) {τ' : List (Event (machine P))}
    {w' : World (machine P) Result} (after : Run (anything P requests) w τ' w') :
    (∀ v ∈ w'.shared.database.images, v.id ≠ id) ∧
      (∀ m ∈ w'.shared.database.aliases, m.imageID ≠ id) ∧ w'.shared.index.get id = none ∧
      ∀ j r, requests j = .serve r → w.calls j = (requests j).program P →
        (∀ k c r', (⟨j, .file (.openImage k), c, r'⟩ : Event (machine P)) ∈ τ' →
          ¬ Belongs σ₀ (τ ++ τ') id k) ∧
        ∀ t bytes, w'.calls j = .done (.replied (.content t bytes)) →
          ¬ Belongs σ₀ (τ ++ τ') id t.storageKey := by
  obtain ⟨ls, obeyed, sound, told⟩ := followed (erasing_keeps σ₀) begins.registered begins.free
    ⟨.begin begins, fun _ _ _ _ none => absurd none List.not_mem_nil⟩ before
  have finished := obeyed i
  rw [returned] at finished
  -- the call has deleted the row, and owes nothing any more
  have effaced : Effaced (Belongs σ₀ τ) id none w.shared ls := by
    have followed := (before.follows_or_aborted i).resolve_left (by rw [returned]; rintro ⟨⟩)
    rw [returned] at followed
    change ((requests i).program P).Yields _ _ at followed
    rw [asked] at followed
    obtain ⟨row, answered⟩ := deletion_answered followed
    obtain ⟨c, member⟩ := event_of_answer answered
    exact (told.erased id i c row member).settle finished.settled.owes
  obtain ⟨⟨ls', -, -, erased⟩, late⟩ := late_opens serving_serves (erased_keeps σ₀ τ id) apart_snoc
    (fun _ _ _ _ _ inv there => inv.2.apart there)
    ⟨ls, obeyed, sound, by rw [List.append_nil]; exact told.titles,
      by rw [List.append_nil]; exact effaced⟩ after
  refine ⟨erased.effaced.rows, ?_, erased.effaced.missing, fun j r serves unbegun => ?_⟩
  · intro m member leads
    obtain ⟨v, known, own⟩ := w'.shared.database.aliasImages m member
    exact erased.effaced.rows v known (own.trans leads)
  obtain ⟨opened, replied⟩ := late j r serves unbegun
  have foreign : ∀ k c r', (⟨j, .file (.openImage k), c, r'⟩ : Event (machine P)) ∈ τ' →
      ¬ Belongs σ₀ (τ ++ τ') id k := by
    intro k c r' event title
    obtain ⟨t, rfl, ⟨id', title', other⟩, -⟩ := opened k c r' event
    exact other (erased.titles.single id' id _ title' title)
  refine ⟨foreign, fun t bytes done => ?_⟩
  obtain ⟨c, event⟩ := event_of_answer (replied t bytes done)
  exact foreign t.storageKey c _ event

def deleteAndView : Nat → Request
  | 0 => .deleteImage (str "a")
  | _ => .serve sampleRequest

/-- The deletion, from the lock of the image to its release. -/
def deletingSteps : List (Nat × Choice) := List.replicate 8 (0, .normal)

theorem deleting_runs : ∃ τ w result, (start samplePlatform deleteAndView (sampleState
      Processor.pngSignature (str "image/png") .isPublic (by decide))).execute deletingSteps =
        some (τ, w) ∧
    w.calls 0 = .done (.imageDeleted (.ok result)) ∧
    w.calls 1 = (deleteAndView 1).program samplePlatform :=
  ⟨_, _, _, rfl, rfl, rfl⟩

/-- After the deletion a request for the image opens its file in no run. -/
theorem deleted_stays_deleted_sample : ∃ τ w,
    Run (anything samplePlatform deleteAndView) (start samplePlatform deleteAndView
      (sampleState Processor.pngSignature (str "image/png") .isPublic (by decide))) τ w ∧
    ∀ τ' w', Run (anything samplePlatform deleteAndView) w τ' w' →
      ∀ c r', (⟨1, .file (.openImage (str "a")), c, r'⟩ : Event (machine samplePlatform)) ∉ τ' := by
  obtain ⟨τ, w, result, executed, returned, unbegun⟩ := deleting_runs
  have run := scheduled samplePlatform deleteAndView _ deletingSteps executed
  refine ⟨τ, w, run, fun τ' w' after c r' opens => ?_⟩
  have asked : deleteAndView 0 = .deleteImage (str "a") := rfl
  obtain ⟨-, -, -, late⟩ := deleted_stays_deleted sample_begins run asked returned after
  have title : Belongs (P := samplePlatform)
      (sampleState Processor.pngSignature (str "image/png") .isPublic (by decide)) [] (str "a")
      (str "a") := .inl ⟨_, sample_images ▸ List.mem_cons_self, rfl, rfl⟩
  exact (late 1 sampleRequest rfl unbegun).1 _ c r' opens title.later

end Runs

end ImageSilo.Publication
