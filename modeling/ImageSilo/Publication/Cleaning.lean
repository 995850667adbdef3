import ImageSilo.Publication.Presence

/-! The daily maintenance unlinks the files that are old and belong to no row it has read. -/
namespace ImageSilo.Publication

open Go Concurrent Storage Tables

structure Sweep where
  age : Int
  time : Option Time
  records : Option (List ImageFileRecord)
  entries : Option (List FileEntry)

def Sweep.begin (age : Int) : Sweep := ⟨age, none, none, none⟩

/-- An old file that none of the rows refers to. -/
structure Sweep.Condemns (s : Sweep) (now : Time) (records : List ImageFileRecord)
    (entry : FileEntry) : Prop where
  old : entry.modifiedAt ≤ now - effectiveAge s.age
  unlisted : ∀ r ∈ records, r.storageKey ≠ entry.key

def Sweep.permits (s : Sweep) : Action → Prop
  | .now => s.records = none
  | .file (.remove .images key) => ∃ now records entries, s.time = some now ∧
      s.records = some records ∧ s.entries = some entries ∧
        ∃ entry ∈ entries, entry.key = key ∧ s.Condemns now records entry
  | _ => True

def Sweep.record (s : Sweep) : (a : Action) → Response a → Sweep
  | .now, t => { s with time := some t }
  | .statement .imageFiles, .ok records => { s with records := some records }
  | .file (.list .images), .ok entries => { s with entries := some entries }
  | _, _ => s

abbrev sweepDiscipline : Discipline Action Response where
  Ledger := Sweep
  Permits s a := s.permits a
  Reports _ _ _ := True
  record := Sweep.record

/-- From this sweep the program unlinks no file that it has not condemned. -/
abbrev Sweeps {α : Type} (p : Call α) (s : Sweep) (Q : α → Sweep → Prop) : Prop :=
  p.Obeys sweepDiscipline Q s

/-- Neither the clock nor the images directory. -/
def tame : Action → Bool
  | .now | .statement .imageFiles => false
  | .file (.list .images) | .file (.remove .images _) => false
  | _ => true

variable {α : Type} {s : Sweep}

theorem tame_sweeps {p : Call α} (only : p.Only fun a => tame a = true) :
    Sweeps p s fun _ s' => s' = s := by
  refine Program.Only.obeys (D := sweepDiscipline) (fun s' => s' = s) only ?_ ?_ rfl
  · rintro s a rfl quiet
    change s.permits a
    unfold Sweep.permits
    split
    · cases quiet
    · cases quiet
    · trivial
  · rintro s a r rfl quiet
    change s.record a r = s
    unfold Sweep.record
    split
    · cases quiet
    · cases quiet
    · cases quiet
    · rfl

theorem cleanFolder_tame {folder : Folder} {referenced : GoString → Bool} {cutoff : Time}
    (other : folder ≠ .images) (entries : List FileEntry) :
    (cleanFolder folder referenced cutoff entries).Only fun a => tame a = true := by
  induction entries with
  | nil => exact .pure _
  | cons entry rest ih =>
      unfold cleanFolder
      split
      · exact ih
      · refine .bind ?_ fun _ => .bind ih fun _ => .pure _
        unfold removeKey
        split
        · exact .pure _
        · refine .perform ?_
          cases folder <;> first | rfl | exact absurd rfl other

theorem cleanImages_sweeps {state : ScanState} {now : Time} (timed : s.time = some now)
    (read : s.records = some state.records) (listed : s.entries = some state.imageFiles)
    (rest : List FileEntry) (sub : rest ⊆ state.imageFiles) :
    Sweeps (cleanFolder .images (fun key => (state.expected key).isSome)
      (now - effectiveAge s.age) rest) s fun _ s' => s' = s := by
  induction rest with
  | nil => exact rfl
  | cons entry rest ih =>
      have ih := ih fun e member => sub (List.mem_cons_of_mem _ member)
      unfold cleanFolder
      split
      · exact ih
      · rename_i cleans
        simp only [Bool.or_eq_true, decide_eq_true_eq, not_or, Bool.not_eq_true] at cleans
        obtain ⟨⟨unknown, -⟩, old⟩ := cleans
        have removes : Sweeps (removeKey .images entry.key) s fun _ s' => s' = s := by
          unfold removeKey
          split
          · exact rfl
          · refine ⟨⟨now, _, _, timed, read, listed, entry, sub List.mem_cons_self, rfl, ?_, ?_⟩,
              fun _ _ => rfl⟩
            · exact not_lt.mp old
            · exact expected_none unknown
        refine Program.Obeys.bind removes ?_
        rintro _ _ rfl
        refine Program.Obeys.bind ih ?_
        rintro _ _ rfl
        exact rfl

theorem persistentStats_tame {now : Time} :
    (persistentStats now).Only fun a => tame a = true := by
  refine .bind (.perform rfl) fun totals => ?_
  split
  · exact .pure _
  refine .bind (.perform rfl) fun aliases => ?_
  split
  · exact .pure _
  refine .bind (.perform rfl) fun sessions => ?_
  split
  · exact .pure _
  · exact .bind (.perform rfl) fun tokens => .pure _

theorem indexStats_tame : indexStats.Only fun a => tame a = true :=
  .bind (.perform rfl) fun _ => .bind (.perform rfl) fun _ => .bind (.perform rfl) fun _ =>
    .bind (.perform rfl) fun _ => .pure _

/-- A scan notes the rows and then the images directory. -/
theorem scan_sweeps {age : Int} {now : Time} : Sweeps scan ⟨age, some now, none, none⟩
    fun r s => ∀ state, r = .ok state →
      s = ⟨age, some now, some state.records, some state.imageFiles⟩ := by
  refine (Program.obeys_bind ..).mpr ⟨trivial, fun records _ => ?_⟩
  match records with
  | .error e => exact fun _ none => by cases none
  | .ok records =>
      refine (Program.obeys_bind ..).mpr ⟨trivial, fun images _ => ?_⟩
      match images with
      | .error e => exact fun _ none => by cases none
      | .ok imageFiles =>
          refine (Program.obeys_bind ..).mpr ⟨trivial, fun thumbnails _ => ?_⟩
          match thumbnails with
          | .error e => exact fun _ none => by cases none
          | .ok thumbnailFiles =>
              refine (Program.obeys_bind ..).mpr ⟨trivial, fun temporaries _ => ?_⟩
              match temporaries with
              | .error e => exact fun _ none => by cases none
              | .ok temporaryFiles =>
                  rintro state ⟨⟩
                  rfl

theorem daily_sweeps (age : Int) : Sweeps (daily age) (.begin age) fun _ _ => True := by
  refine (Program.obeys_bind ..).mpr ⟨rfl, fun now _ => ?_⟩
  refine Program.Obeys.bind scan_sweeps ?_
  intro r s scanned
  match r with
  | .error e => trivial
  | .ok state =>
      obtain rfl := scanned state rfl
      have cleaned := cleanImages_sweeps
        (s := ⟨age, some now, some state.records, some state.imageFiles⟩) rfl rfl rfl
        state.imageFiles (List.Subset.refl _)
      refine Program.Obeys.bind cleaned ?_
      rintro images _ rfl
      refine (tame_sweeps (.bind (cleanFolder_tame (by simp) _) fun thumbnails =>
        .bind (cleanFolder_tame (by simp) _) fun temporary =>
          .bind persistentStats_tame fun persistent => ?_)).mono fun _ _ _ => trivial
      split
      · exact .pure _
      · exact .bind indexStats_tame fun _ => .pure _

end ImageSilo.Publication
