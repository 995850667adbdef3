import ImageSilo.Publication.Rebuilding
import ImageSilo.Publication.Soundness

/-! In every state in which no call has a step of the index before it, the index holds what `Build`
computes. -/
namespace ImageSilo.Publication

open Go Concurrent Storage Tables Delivery

variable {P : Platform} {requests : Nat → Request} {σ σ' : State} {ls : Nat → Ledger} {i : Nat}
  {a : Action} {c : Choice} {r : Response a} {L : Loading} {id path : GoString}

/-- A statement that reports an error has had no effect. -/
def Plain (e : Event (machine P)) : Prop := ∀ q, e.action = .statement q → e.choice ≠ .interrupted

variable (P requests) in
/-- Calls without crashes, in which a statement that reports an error has had no effect. -/
def plainly : Setting (machine P) Result := serving P requests False fun _ e => Plain e

theorem plain_scheduled {schedule : List (Nat × Choice)}
    (uninterrupted : ∀ step ∈ schedule, step.2 ≠ .interrupted) {e : Event (machine P)}
    (member : (e.call, e.choice) ∈ schedule) : Plain e :=
  fun _ _ interrupted => uninterrupted _ member interrupted

/-- No call is between its database step and its index step. -/
def Quiet (w : World (machine P) Result) : Prop := ∀ i s next, w.calls i ≠ .act (.index s) next

/-- The row of the image was last changed after the epoch, or not since it was created. -/
def Dated (σ : State) (id : GoString) : Prop :=
  ∀ v ∈ σ.database.images, v.id = id → 0 < unix v.updatedAt ∨ unix v.updatedAt = unix v.createdAt

/-- The index holds what `Build` has loaded, and shows the same whole second for the timed images. -/
structure Mirrors (σ : State) (L : Loading) (timed : GoString → Prop) : Prop where
  targets : ∀ id, Option.Rel (fun t u : Target => t = { u with lastModified := t.lastModified })
    (σ.index.byID.lookup id) (L.snapshot.targets.lookup id)
  times : ∀ id t u, timed id → σ.index.byID.lookup id = some t →
    L.snapshot.targets.lookup id = some u → unix t.lastModified = unix u.lastModified
  aliases : σ.index.aliases = L.snapshot.aliases

section Entries

theorem Names.loaded {t : Target} {v : Image} (h : Names t v) :
    t = { targetOfRow (deliveryRow v) with lastModified := t.lastModified } := by
  obtain ⟨storageKey, mimeType, etag, size, lastModified, visibility, originalName⟩ := t
  have key := h.storageKey
  have mime := h.mimeType
  have digest := h.etag
  have length := h.size
  have shown := h.visibility
  have name := h.originalName
  dsimp only at key mime digest length shown name
  rw [key, mime, digest, length, shown, name]
  rfl

theorem Names.dated {t : Target} {v : Image} (h : Names t v)
    (dated : 0 < unix v.updatedAt ∨ unix v.updatedAt = unix v.createdAt) :
    unix t.lastModified = unix (targetOfRow (deliveryRow v)).lastModified := by
  have loaded : unix (targetOfRow (deliveryRow v)).lastModified = unix v.updatedAt := by
    change unix (ofUnix (if 0 < unix v.updatedAt then unix v.updatedAt else unix v.createdAt)) = _
    rw [unix_ofUnix]
    rcases dated with late | same
    · rw [if_pos late]
    · rw [same, ite_self]
  rcases h.lastModified with row | updated
  · rw [row]
    exact (unix_ofUnix _).symm
  · rw [updated, loaded]

/-- Two entries that the same rows call for are the same up to the time. -/
theorem Shows.agrees (d : Describing P σ L) {x : Option Target} (shows' : Shows σ id x) :
    Option.Rel (fun t u : Target => t = { u with lastModified := t.lastModified }) x
      (L.snapshot.targets.lookup id) := by
  cases x with
  | none =>
      cases there : L.snapshot.targets.lookup id with
      | none => exact .none
      | some u =>
          obtain ⟨v, member, own, whole, -⟩ := (d.target id u).mp there
          exact absurd whole (shows' v member own)
  | some t =>
      obtain ⟨v, member, own, whole, names⟩ := shows'
      rw [(d.target id _).mpr ⟨v, member, own, whole, rfl⟩]
      exact .some names.loaded

theorem Leads.agrees {x y : Option GoString} (leads : Leads σ path x) (leads' : Leads σ path y) :
    x = y := by
  cases x with
  | none =>
      cases y with
      | none => rfl
      | some id =>
          obtain ⟨m, member, same, rfl, loads⟩ := leads'
          exact absurd loads (leads m member same)
  | some id =>
      obtain ⟨m, member, same, rfl, loads⟩ := leads
      cases y with
      | none => exact absurd loads (leads' m member same)
      | some id' =>
          obtain ⟨m', member', same', rfl, -⟩ := leads'
          rw [σ.database.aliasPaths.eq member member' (same.trans same'.symm)]

end Entries

/-- Where nobody owes anything the index is the one that `Build` computes. -/
theorem Agreement.mirrors (h : Agreement P σ ls) (idle : ∀ j, (ls j).owes = []) :
    ∃ L, σ.built P = .ok L ∧ Mirrors σ L (Dated σ) := by
  obtain ⟨L, built⟩ := built_total h.readable h.canonical
  have d := built_describes built
  have shows' : ∀ id, Shows σ id (σ.index.byID.lookup id) :=
    fun id => h.targets.settled id (by simp [idle])
  refine ⟨L, built, fun id => (shows' id).agrees d, ?_, ?_⟩
  · intro id t u dated there loaded
    obtain ⟨v, member, own, -, rfl⟩ := (d.target id u).mp loaded
    have shown := shows' id
    rw [there] at shown
    obtain ⟨v', member', own', -, names⟩ := shown
    obtain rfl := σ.database.imageIDs.eq member' member (own'.trans own.symm)
    exact names.dated (dated v' member' own')
  · refine Finmap.ext_lookup ?_
    intro path
    by_cases root : path = str "/"
    · rw [root, h.mappings.root, describing_root d]
    · rcases h.mappings.settled path root (by simp [idle]) with leads | ⟨-, id, j, -, owed⟩
      · exact leads.agrees (describing_leads d root)
      · rw [idle] at owed
        cases owed

/-- A call that owes a step has it before it. -/
theorem Quiet.idle {w : World (machine P) Result} (quiet : Quiet w)
    (obeyed : (watch P requests).Obeyed w ls) (j : Nat) : (ls j).owes = [] := by
  have obeys := obeyed j
  cases program : w.calls j with
  | done v =>
      rw [program] at obeys
      exact (Finished.settled obeys).owes
  | act a next =>
      rw [program] at obeys
      have permitted : (ls j).permits P a := obeys.1
      cases a with
      | index s => exact absurd program (quiet j s next)
      | sync s => exact permitted.1
      | statement q => exact permitted.1
      | file b => exact permitted.1
      | getTarget id => exact permitted.1
      | getAlias path => exact permitted.1
      | _ => exact permitted

section Whole

/-- Every row has its file, before and after any step. -/
theorem whole_step (sound : Sound P requests σ ls) (placed : Placed σ ls)
    (whole : ∀ v ∈ σ.database.images, σ.whole v) (permitted : (ls i).permits P a)
    (performed : σ.perform P i a c = some (r, σ')) (spares : Spares σ ls i a) :
    ∀ v ∈ σ'.database.images, σ'.whole v := by
  cases a with
  | statement q =>
      intro v member
      rw [whole_of_files (statement_files performed).1]
      refine rows_statement whole ?_ permitted.2 performed ?_ v member
      · exact fun v w key size _ => (whole_congr key size).mpr
      · exact fun v f mine describes => placed.whole sound mine describes
  | _ =>
      intro v member
      rw [(perform_frame performed).database (by simp)] at member
      exact (row_whole sound permitted performed spares member).mpr (whole v member)

/-- With all files in place no damaged image can be given new content. -/
theorem Mends.of_whole (whole : ∀ v ∈ σ.database.images, σ.whole v) : Mends σ a r := by
  unfold Mends
  split
  case h_2 => trivial
  rename_i v
  by_cases there : ∃ u ∈ σ.database.images, u.id = v.id
  · obtain ⟨u, member, own⟩ := there
    exact .inl ⟨u, member, own, whole u member⟩
  · refine .inr fun m member same => ?_
    obtain ⟨u, known, own⟩ := σ.database.aliasImages m member
    exact absurd ⟨u, known, own.trans same⟩ there

theorem agreement_keeps (noDaily : ∀ i age, requests i ≠ .daily age) :
    (watch P requests).Keeps (plainly P requests) fun _ σ ls =>
      Sound P requests σ ls ∧ Agreement P σ ls ∧ ∀ v ∈ σ.database.images, σ.whole v := by
  refine keeps serving_serves (fun _ σ ls => Agreement P σ ls ∧ ∀ v ∈ σ.database.images, σ.whole v)
    ?_ ?_ ?_
  · intro τ w ls i a c r σ' sound h permitted performed plain _
    obtain ⟨agreement, whole⟩ := h
    have spares : Spares w.shared ls i a := .of_request sound (noDaily i)
    exact ⟨agreement.step sound permitted performed spares plain (.of_whole whole),
      whole_step sound agreement.placed whole permitted performed spares⟩
  · rintro τ σ ls σ' - ⟨agreement, whole⟩ moved
    refine ⟨agreement.environment moved, ?_⟩
    obtain ⟨t, -, rfl⟩ := moved
    exact whole
  · exact fun crashed => crashed.elim

end Whole

theorem begins_whole (begins : Begins P σ)
    (recorded : σ.rowFiles fun v content => (content.length : Int) = v.storedSize) :
    ∀ v ∈ σ.database.images, σ.whole v := by
  obtain ⟨L, built, -⟩ := begins.indexed
  intro v member
  obtain ⟨s, readable⟩ := (built_describes built).readable v member
  obtain ⟨content, t, there, size⟩ := recorded v member
  refine sizeIn_some.mpr ⟨?_, ?_, content, t, there, size⟩
  · change validKey v.storageKey = true
    by_contra invalid
    rw [sizeIn, if_pos (by simpa using invalid)] at readable
    cases readable
  · rintro dot
    change v.storageKey = str "." at dot
    rw [sizeIn, dot] at readable
    cases readable

/-- Whenever no call is between its database step and its index step, the index holds what `Build`
computes. -/
theorem quiet_index {w : World (machine P) Result} {τ : List (Event (machine P))}
    (begins : Begins P σ)
    (recorded : σ.rowFiles fun v content => (content.length : Int) = v.storedSize)
    (noDaily : ∀ i age, requests i ≠ .daily age)
    (run : Run (plainly P requests) (start P requests σ) τ w) (quiet : Quiet w) :
    ∃ L, w.shared.built P = .ok L ∧ Mirrors w.shared L (Dated w.shared) := by
  obtain ⟨ls, obeyed, -, agreement, -⟩ := followed (agreement_keeps noDaily) begins.registered
    begins.free ⟨.begin begins.indexed, begins_whole begins recorded⟩ run
  exact agreement.mirrors (quiet.idle obeyed)

/-- The sample conversion to its end. -/
def converted : List (Nat × Choice) := converting ++ List.replicate 5 (1, .normal)

theorem sample_admissible :
    (sampleImage Processor.pngSignature (str "image/png") .isPublic).admissible = true := by
  decide

/-- The sample image at some time. -/
def sampleAt (clock : Time) : State :=
  { sampleState Processor.pngSignature (str "image/png") .isPublic sample_admissible with
    clock := clock }

theorem sampleAt_begins (clock : Time) : Begins convertingPlatform (sampleAt clock) :=
  ⟨⟨converting_begins.registered.ids, converting_begins.registered.keys,
    converting_begins.registered.aliases, converting_begins.registered.files⟩,
    converting_begins.free, converting_begins.indexed⟩

theorem sampleAt_rowFiles (clock : Time) :
    (sampleAt clock).rowFiles fun v content => (content.length : Int) = v.storedSize :=
  @sample_rowFiles Processor.pngSignature (str "image/png") .isPublic (by decide) _ rfl

theorem converted_runs (clock : Time) : ∃ τ w,
    Run (plainly convertingPlatform fun _ => sampleConversion)
      (start convertingPlatform (fun _ => sampleConversion) (sampleAt clock)) τ w ∧ Quiet w ∧
    (∃ t, w.shared.index.byID.lookup (str "a") = some t ∧ unix t.lastModified = unix clock) ∧
    ∃ v, w.shared.database.images = [v] ∧ v.storageKey = str "b" ∧
      unix v.createdAt = 1 ∧ unix v.updatedAt = unix clock := by
  refine ⟨_, _, .of_execute converted ?_ rfl, ?_, ⟨_, rfl, rfl⟩, ⟨_, rfl, rfl, rfl, unix_ofUnix _⟩⟩
  · intro w w' e member _
    exact plain_scheduled (by simp [converted, converting]) member
  · intro i s next program
    by_cases self : i = 1
    · subst self
      cases program
    · simp [World.proceed, self] at program
      cases program

/-- An image that was converted at the epoch is dated otherwise after a rebuild. -/
theorem epoch_is_lost : ¬ ∀ (P : Platform) (requests : Nat → Request) (σ : State)
    (τ : List (Event (machine P))) (w : World (machine P) Result), Begins P σ →
    σ.rowFiles (fun v content => (content.length : Int) = v.storedSize) →
    (∀ i age, requests i ≠ .daily age) → Run (plainly P requests) (start P requests σ) τ w →
    Quiet w → ∃ L, w.shared.built P = .ok L ∧ Mirrors w.shared L fun _ => True := by
  intro claim
  obtain ⟨τ, w, run, quiet, ⟨t, there, shown⟩, v, images, -, created, updated⟩ := converted_runs 0
  obtain ⟨L, built, mirrors⟩ :=
    claim _ _ _ _ _ (sampleAt_begins 0) (sampleAt_rowFiles 0) (by simp [sampleConversion]) run quiet
  have loads := mirrors.targets (str "a")
  rw [there] at loads
  cases loaded : L.snapshot.targets.lookup (str "a") with
  | none => simp [loaded] at loads
  | some u =>
      have same := mirrors.times _ t u trivial there loaded
      obtain ⟨v', member, -, -, rfl⟩ := ((built_describes built).target _ u).mp loaded
      rw [images, List.mem_singleton] at member
      rw [shown, member] at same
      change 0 = unix (ofUnix (if 0 < unix v.updatedAt then _ else _)) at same
      rw [unix_ofUnix, updated, if_neg (by decide), created] at same
      cases same

/-- A conversion at five seconds. -/
theorem converted_mirrors : ∃ (w : World (machine convertingPlatform) Result) (L : Loading),
    (∃ v, w.shared.database.images = [v] ∧ v.storageKey = str "b" ∧ unix v.updatedAt = 5) ∧
      w.shared.built convertingPlatform = .ok L ∧ Mirrors w.shared L (Dated w.shared) ∧
      Dated w.shared (str "a") := by
  obtain ⟨τ, w, run, quiet, -, v, images, key, -, updated⟩ := converted_runs (ofUnix 5)
  rw [unix_ofUnix] at updated
  obtain ⟨L, built, mirrors⟩ :=
    quiet_index (sampleAt_begins _) (sampleAt_rowFiles _) (by simp [sampleConversion]) run quiet
  refine ⟨w, L, ⟨v, images, key, updated⟩, built, mirrors, ?_⟩
  intro u member _
  rw [images, List.mem_singleton] at member
  rw [member, updated]
  exact .inl (by decide)

end ImageSilo.Publication
