import ImageSilo.Publication.Effects
import ImageSilo.Publication.Soundness
import ImageSilo.Publication.Tidying

/-! A call that works on files and runs alone leaves the temporary directory as it was, whatever fails, if
the removals that it attempts succeed. -/
namespace ImageSilo.Publication

open Go Concurrent Storage Tables

variable {P : Platform} {requests : Nat → Request} {σ σ' : State} {i : Nat} {a : Action} {c : Choice}
  {r : Response a} {d : Desk} {before : Directory} {τ : List (Event (machine P))}

/-- The processor reports that it is unavailable and leaves the output file of a thumbnail. -/
def LeavesThumbnail (e : Event (machine P)) (path : GoString) : Prop :=
  ∃ j input content, e = ⟨j, .file (.thumbnail input path),
    .processed (some .unavailable) (some content), .error .unavailable⟩

/-- An attempt to remove a temporary file succeeds. -/
def Clears (e : Event (machine P)) : Prop :=
  ∀ path, e.action = .file (.remove .temporary path) → e.choice = .normal

/-- The temporary directory holds what it held before, and what is left of the call's own files. -/
structure Confined (before : Directory) (files : Files) (d : Desk) : Prop where
  handedOut : d.own ⊆ files.handedOut
  apart : ∀ p ∈ d.own, before.lookup p = none
  kept : ∀ p, p ∉ d.own → files.temporary.lookup p = before.lookup p
  gone : ∀ p ∈ d.own, p ∉ d.live → files.temporary.lookup p = none

/-- The output of a thumbnail call that found the processor unavailable is there if and only if the
processor has left it. -/
structure Left (τ : List (Event (machine P))) (files : Files) (d : Desk) : Prop where
  noted : ∀ e ∈ τ, ∀ p, LeavesThumbnail e p → d.seen = some p
  owned : ∀ p, d.seen = some p → p ∈ d.own
  left : ∀ p ∈ d.live, d.seen = some p →
    (files.temporary.lookup p ≠ none ↔ ∃ e ∈ τ, LeavesThumbnail e p)

section Steps

variable {files files' : Files} {path : GoString} {e : Event (machine P)}

/-- A step that touches one of the call's files. -/
theorem Confined.touch (h : Confined before files d) (live : path ∈ d.live)
    (handedOut : files'.handedOut = files.handedOut)
    (apart : ∀ p, p ≠ path → files'.temporary.lookup p = files.temporary.lookup p) :
    Confined before files' d := by
  refine ⟨?_, h.apart, ?_, ?_⟩
  · rw [handedOut]
    exact h.handedOut
  · intro p outside
    have different : p ≠ path := fun same => outside (same ▸ d.owned live)
    rw [apart p different]
    exact h.kept p outside
  · intro p mine dropped
    have different : p ≠ path := fun same => dropped (same ▸ live)
    rw [apart p different]
    exact h.gone p mine dropped

/-- A file of the call goes, to another directory or for good. -/
theorem Confined.drop (h : Confined before files d) (own : path ∈ d.own)
    (handedOut : files'.handedOut = files.handedOut)
    (temporary : files'.temporary = files.temporary.erase path) :
    Confined before files' (d.drop path) := by
  refine ⟨?_, h.apart, ?_, ?_⟩
  · rw [handedOut]
    exact h.handedOut
  · intro p outside
    have different : p ≠ path := fun same => outside (same ▸ own)
    rw [temporary, lookup_erase_ite, if_neg different]
    exact h.kept p outside
  · intro p mine dropped
    rw [temporary, lookup_erase_ite]
    split
    · rfl
    · rename_i different
      exact h.gone p mine fun live => dropped (Finset.mem_erase.mpr ⟨different, live⟩)

/-- A fresh file is the call's own. -/
theorem Confined.take (h : Confined before files d) (absent : path ∉ files.temporary)
    (unused : path ∉ d.own) (handedOut : files'.handedOut = insert path files.handedOut)
    (apart : ∀ p, p ≠ path → files'.temporary.lookup p = files.temporary.lookup p) :
    Confined before files' (d.take path) := by
  refine ⟨?_, ?_, ?_, ?_⟩
  · rw [handedOut]
    exact Finset.insert_subset_insert path h.handedOut
  · intro p mine
    rcases Finset.mem_insert.mp mine with rfl | old
    · rw [← h.kept p unused]
      exact Finmap.lookup_eq_none.mpr absent
    · exact h.apart p old
  · intro p outside
    obtain ⟨different, old⟩ := not_or.mp fun h => outside (Finset.mem_insert.mpr h)
    rw [apart p different]
    exact h.kept p old
  · intro p mine dropped
    obtain ⟨different, dead⟩ := not_or.mp fun h => dropped (Finset.mem_insert.mpr h)
    rw [apart p different]
    exact h.gone p ((Finset.mem_insert.mp mine).resolve_left different) dead

/-- A step that leaves no thumbnail, and has nothing to do with one that may have been left. -/
theorem Left.aside (h : Left τ files d) (other : ∀ p, ¬ LeavesThumbnail e p) {d' : Desk}
    (seen : d'.seen = d.seen) (own : d.own ⊆ d'.own)
    (same : ∀ p ∈ d'.live, d.seen = some p → p ∈ d.live ∧
      files'.temporary.lookup p = files.temporary.lookup p) : Left (τ ++ [e]) files' d' := by
  refine ⟨?_, ?_, ?_⟩
  · intro e' member p leaves
    rw [seen]
    rcases List.mem_append.mp member with old | new
    · exact h.noted e' old p leaves
    · obtain rfl := List.mem_singleton.mp new
      exact absurd leaves (other p)
  · intro p noted
    rw [seen] at noted
    exact own (h.owned p noted)
  · intro p live noted
    rw [seen] at noted
    obtain ⟨live', lookup⟩ := same p live noted
    rw [lookup, h.left p live' noted]
    simp [or_and_right, exists_or, other]

/-- The processor was unavailable: the call does not use its output again. -/
theorem Left.noted_now (h : Left τ files d) (untried : d.seen = none) (own : path ∈ d.own)
    (only : ∀ p, LeavesThumbnail e p → p = path)
    (there : files'.temporary.lookup path ≠ none ↔ LeavesThumbnail e path) :
    Left (τ ++ [e]) files' { d with seen := some path } := by
  have before : ∀ e ∈ τ, ∀ p, ¬ LeavesThumbnail e p := by
    intro e member p leaves
    rw [h.noted e member p leaves] at untried
    cases untried
  refine ⟨?_, ?_, ?_⟩
  · intro e' member p leaves
    rcases List.mem_append.mp member with old | new
    · exact absurd leaves (before e' old p)
    · obtain rfl := List.mem_singleton.mp new
      rw [only p leaves]
  · rintro p ⟨⟩
    exact own
  · rintro p - ⟨⟩
    rw [there]
    constructor
    · exact fun leaves => ⟨e, by simp, leaves⟩
    · rintro ⟨e', member, leaves⟩
      rcases List.mem_append.mp member with old | new
      · exact absurd leaves (before e' old path)
      · obtain rfl := List.mem_singleton.mp new
        exact leaves

theorem thumbnail_performed {now : Time} {input : FileRef} {r : Except Processor.Error Unit}
    (performed : files.perform P now (.thumbnail input path) c = some (r, files')) :
    ∃ failure left, c = .processed failure left ∧ r = failure.elim (.ok ()) .error ∧
      files' = left.elim (files.drop .temporary path) fun content =>
        files.put .temporary path ⟨.regular content, now⟩ := by
  unfold Files.perform Files.process at performed
  cases c with
  | processed failure left =>
      simp only [Option.some.injEq, Prod.mk.injEq] at performed
      refine ⟨failure, left, rfl, performed.1.symm, ?_⟩
      rw [← performed.2]
      cases left <;> rfl
  | _ => cases performed

/-- What the processor leaves of its output file. -/
theorem processed_lookup (files : Files) (path : GoString) (now : Time) (left : Option Bytes)
    (p : GoString) :
    (left.elim (files.drop .temporary path) fun content =>
        files.put .temporary path ⟨.regular content, now⟩).temporary.lookup p =
      if p = path then left.map fun content => ⟨.regular content, now⟩
      else files.temporary.lookup p := by
  cases left with
  | none =>
      change ((files.drop .temporary path).directory .temporary).lookup p = _
      rw [drop_same, lookup_erase_ite]
      rfl
  | some content =>
      change ((files.put .temporary path _).directory .temporary).lookup p = _
      rw [put_same, lookup_insert_ite]
      rfl

theorem processed_handedOut (files : Files) (path : GoString) (now : Time) (left : Option Bytes) :
    (left.elim (files.drop .temporary path) fun content =>
      files.put .temporary path ⟨.regular content, now⟩).handedOut = files.handedOut := by
  cases left <;> rfl

theorem Confined.staged (h : Confined before files d) (stage : Stage) :
    Confined before files { d with stage := stage } := ⟨h.handedOut, h.apart, h.kept, h.gone⟩

theorem Left.staged (h : Left τ files d) (other : ∀ p, ¬ LeavesThumbnail e p) (stage : Stage) :
    Left (τ ++ [e]) files { d with stage := stage } :=
  h.aside other rfl subset_rfl fun _ live _ => ⟨live, rfl⟩

/-- One call of the processor for a thumbnail. -/
theorem thumbnail_step {input : FileRef} {r : Except Processor.Error Unit}
    (confined : Confined before σ.files d) (left : Left τ σ.files d)
    (permitted : path ∈ d.live ∧ d.seen = none)
    (performed : σ.files.perform P σ.clock (.thumbnail input path) c = some (r, files')) :
    Confined before files' (d.record (.file (.thumbnail input path)) r) ∧
      Left (τ ++ [(⟨i, .file (.thumbnail input path), c, r⟩ : Event (machine P))]) files'
        (d.record (.file (.thumbnail input path)) r) := by
  obtain ⟨live, untried⟩ := permitted
  obtain ⟨failure, content, rfl, answer, rfl⟩ := thumbnail_performed performed
  have confined' := confined.touch live (processed_handedOut σ.files path σ.clock content)
    fun p different => by rw [processed_lookup, if_neg different]
  by_cases unavailable : failure = some .unavailable
  · subst unavailable
    subst answer
    refine ⟨⟨confined'.handedOut, confined'.apart, confined'.kept, confined'.gone⟩,
      left.noted_now untried (d.owned live) ?_ ?_⟩
    · rintro p ⟨j, input', content', same⟩
      cases same
      rfl
    · rw [processed_lookup, if_pos rfl]
      cases content with
      | none =>
          refine iff_of_false (by simp) ?_
          rintro ⟨j, input', content', same⟩
          cases same
      | some content => exact iff_of_true (by simp) ⟨i, input, content, rfl⟩
  · have unnoted : d.record (.file (.thumbnail input path)) r = d := by
      rw [answer]
      cases failure with
      | none => rfl
      | some e => cases e <;> first | rfl | exact absurd rfl unavailable
    rw [unnoted]
    refine ⟨confined', left.aside ?_ rfl subset_rfl ?_⟩
    · rintro p ⟨j, input', content', same⟩
      cases same
      exact unavailable rfl
    · intro p _ noted
      rw [untried] at noted
      cases noted

theorem no_thumbnail (other : ∀ input path, a ≠ .file (.thumbnail input path)) (p : GoString) :
    ¬ LeavesThumbnail (⟨i, a, c, r⟩ : Event (machine P)) p := by
  rintro ⟨j, input, content, same⟩
  cases same
  exact other input p rfl

/-- One step of a call keeps what is known of its desk. -/
theorem desk_step (confined : Confined before σ.files d) (left : Left τ σ.files d)
    (permitted : d.permits a) (performed : σ.perform P i a c = some (r, σ'))
    (clears : Clears (⟨i, a, c, r⟩ : Event (machine P))) :
    d.reports a r ∧ Confined before σ'.files (d.record a r) ∧
      Left (τ ++ [(⟨i, a, c, r⟩ : Event (machine P))]) σ'.files (d.record a r) := by
  by_cases about : ∃ b, a = .file b
  · obtain ⟨b, rfl⟩ := about
    obtain ⟨files, done, rfl⟩ := file_state performed
    have effect := file_effect done
    -- the directory stays, a live file is touched, or one of the call's files goes
    have elsewhere : (∀ p, ¬ LeavesThumbnail (⟨i, .file b, c, r⟩ : Event (machine P)) p) →
        files.handedOut = σ.files.handedOut → files.temporary = σ.files.temporary →
        Confined before files d ∧
          Left (τ ++ [(⟨i, .file b, c, r⟩ : Event (machine P))]) files d := by
      intro other handedOut same
      refine ⟨⟨?_, confined.apart, ?_, ?_⟩, left.aside other rfl subset_rfl ?_⟩
      · rw [handedOut]
        exact confined.handedOut
      · rw [same]
        exact confined.kept
      · rw [same]
        exact confined.gone
      · exact fun p live _ => ⟨live, by rw [same]⟩
    have unnoted : (∀ p, ¬ LeavesThumbnail (⟨i, .file b, c, r⟩ : Event (machine P)) p) →
        files = σ.files → Confined before files d ∧
          Left (τ ++ [(⟨i, .file b, c, r⟩ : Event (machine P))]) files d := by
      rintro other rfl
      exact elsewhere other rfl rfl
    have untried_aside : ∀ path ∈ d.live, d.seen = none →
        (∀ p, ¬ LeavesThumbnail (⟨i, .file b, c, r⟩ : Event (machine P)) p) →
        files.handedOut = σ.files.handedOut →
        (∀ p, p ≠ path → files.temporary.lookup p = σ.files.temporary.lookup p) →
        Confined before files d ∧
          Left (τ ++ [(⟨i, .file b, c, r⟩ : Event (machine P))]) files d := by
      intro path live untried other handedOut apart
      refine ⟨confined.touch live handedOut apart, left.aside other rfl subset_rfl ?_⟩
      intro p _ noted
      rw [untried] at noted
      cases noted
    have dropped : ∀ {path}, path ∈ d.own →
        (∀ p, ¬ LeavesThumbnail (⟨i, .file b, c, r⟩ : Event (machine P)) p) →
        files.handedOut = σ.files.handedOut → files.temporary = σ.files.temporary.erase path →
        Confined before files (d.drop path) ∧
          Left (τ ++ [(⟨i, .file b, c, r⟩ : Event (machine P))]) files (d.drop path) := by
      intro path own other handedOut temporary
      refine ⟨confined.drop own handedOut temporary, left.aside other rfl subset_rfl ?_⟩
      intro p live _
      obtain ⟨different, live⟩ := Finset.mem_erase.mp live
      exact ⟨live, by rw [temporary, lookup_erase_ite, if_neg different]⟩
    cases b with
    | createTemporary =>
        cases effect with
        | created path fresh absent =>
            have unused : path ∉ d.own := fun own => fresh (confined.handedOut own)
            have apart : ∀ p, p ≠ path →
                (σ.files.put .temporary path ⟨.regular [], σ.clock⟩).temporary.lookup p =
                  σ.files.temporary.lookup p := fun p different => by
              change ((σ.files.put _ _ _).directory .temporary).lookup p = _
              rw [put_same, lookup_insert_ite, if_neg different]
              rfl
            refine ⟨unused, confined.take absent unused rfl apart,
              left.aside (no_thumbnail (by simp)) rfl (Finset.subset_insert path d.own) ?_⟩
            intro p live noted
            have different : p ≠ path := fun same => unused (same ▸ left.owned p noted)
            exact ⟨(Finset.mem_insert.mp live).resolve_left different, apart p different⟩
        | none b r kept =>
            cases r with
            | ok path => exact kept.elim
            | error e => exact ⟨trivial, unnoted (no_thumbnail (by simp)) rfl⟩
    | write path content =>
        cases effect with
        | wrote path content kept r _ =>
            refine ⟨trivial, untried_aside path permitted.1 permitted.2 (no_thumbnail (by simp)) rfl ?_⟩
            intro p different
            change ((σ.files.put _ _ _).directory .temporary).lookup p = _
            rw [put_same, lookup_insert_ite, if_neg different]
            rfl
        | none b r kept => exact ⟨trivial, unnoted (no_thumbnail (by simp)) rfl⟩
    | transform input output metadata options plan =>
        cases effect with
        | transformed input path metadata options plan r kept =>
            refine ⟨trivial, untried_aside output permitted.1 permitted.2 (no_thumbnail (by simp))
              (processed_handedOut σ.files output σ.clock kept) ?_⟩
            intro p different
            rw [processed_lookup, if_neg different]
        | none b r kept => exact ⟨trivial, unnoted (no_thumbnail (by simp)) rfl⟩
    | thumbnail input output => exact ⟨trivial, thumbnail_step confined left permitted done⟩
    | rename path folder key =>
        cases effect with
        | renamed path folder key entry there =>
            obtain ⟨own, other⟩ := permitted
            refine ⟨trivial, dropped own (no_thumbnail (by simp)) (renamed_handedOut _ _ _ _ _) ?_⟩
            change (renamed σ.files path folder key entry).directory .temporary = _
            rw [renamed_directory, put_other (Ne.symm other), drop_same]
            rfl
        | none b r kept =>
            cases r with
            | ok u => exact kept.elim
            | error e => exact ⟨trivial, unnoted (no_thumbnail (by simp)) rfl⟩
    | remove folder key =>
        cases folder with
        | temporary =>
            obtain rfl : c = .normal := clears key rfl
            cases done
            refine ⟨trivial, dropped permitted (no_thumbnail (by simp)) rfl ?_⟩
            exact drop_same σ.files .temporary key
        | images =>
            cases effect with
            | removed folder key => exact ⟨trivial, elsewhere (no_thumbnail (by simp)) rfl rfl⟩
            | none b r kept => exact ⟨trivial, unnoted (no_thumbnail (by simp)) rfl⟩
        | thumbnails =>
            cases effect with
            | removed folder key => exact ⟨trivial, elsewhere (no_thumbnail (by simp)) rfl rfl⟩
            | none b r kept => exact ⟨trivial, unnoted (no_thumbnail (by simp)) rfl⟩
    | _ =>
        refine ⟨trivial, unnoted (no_thumbnail (by simp)) ?_⟩
        cases effect
        rfl
  · have files := (perform_frame performed).files fun b same => about ⟨b, same⟩
    rw [files]
    have other : ∀ p, ¬ LeavesThumbnail (⟨i, a, c, r⟩ : Event (machine P)) p :=
      no_thumbnail fun input path same => about ⟨_, same⟩
    cases a with
    | file b => exact absurd ⟨b, rfl⟩ about
    | statement q => exact ⟨trivial, confined.staged _, left.staged other _⟩
    | index s => exact ⟨trivial, confined.staged _, left.staged other _⟩
    | _ => exact ⟨trivial, confined, left.staged other d.stage⟩

end Steps

section Runs

theorem desks_keep (before : Directory) : (desks P requests).Keeps (alone P requests i Clears)
    fun τ σ ls => ∃ d, ls i = some d ∧ Confined before σ.files d ∧ Left τ σ.files d where
  call := by
    rintro τ w ls j a next c r σ' - ⟨d, desk, confined, left⟩ - permitted performed ⟨rfl, clears⟩
    obtain ⟨report, confined', left'⟩ := desk_step confined left (permitted d desk) performed clears
    refine ⟨?_, d.record a r, ?_, confined', left'⟩
    · intro d' same
      obtain rfl : d = d' := Option.some.inj (desk.symm.trans same)
      exact report
    · rw [Function.update_self]
      change (ls j).map _ = _
      rw [desk]
      rfl
  environment := by
    rintro τ σ ls σ' inv ⟨t, -, rfl⟩
    exact inv
  crash := fun crashed => crashed.elim

/-- Without a file of its own left the call leaves the directory as it was. -/
theorem Confined.restored {files : Files} (h : Confined before files d)
    (gone : ∀ p ∈ d.live, files.temporary.lookup p = none) : files.temporary = before := by
  refine Finmap.ext_lookup fun p => ?_
  by_cases own : p ∈ d.own
  · rw [h.apart p own]
    by_cases live : p ∈ d.live
    · exact gone p live
    · exact h.gone p own live
  · exact h.kept p own

/-- A call that works on files and runs alone leaves the temporary directory as it was, except that a
conversion leaves the thumbnail of an unavailable processor that has not taken it away. -/
theorem temporaries_kept {w : World (machine P) Result} {result : Result}
    (works : stageOf (requests i) ≠ none) (run : Run (alone P requests i Clears) (start P requests σ) τ w)
    (ended : w.calls i = .done result) :
    w.shared.files.temporary = σ.files.temporary ↔
      ¬ ((∃ id options, requests i = .convertToWebP id options) ∧
        ∃ e ∈ τ, ∃ path, LeavesThumbnail e path) := by
  obtain ⟨stage, works⟩ := Option.ne_none_iff_exists'.mp works
  have begun : (desks P requests).Held (fun τ σ' ls => ∃ d, ls i = some d ∧
      Confined σ.files.temporary σ'.files d ∧ Left τ σ'.files d) [] (start P requests σ) := by
    refine ⟨_, fun j => desk_obeys (requests j), Desk.begin stage, by simp [works], ?_⟩
    exact ⟨⟨by simp [Desk.begin], by simp [Desk.begin], fun _ _ => rfl, by simp [Desk.begin]⟩,
      by simp, by simp [Desk.begin], by simp [Desk.begin]⟩
  obtain ⟨ls, obeyed, d, desk, confined, left⟩ := run.held (desks_keep σ.files.temporary) begun
  have ending : Ending (requests i) d := by
    have obeys := obeyed i
    rw [ended] at obeys
    exact obeys d desk
  by_cases converts : ∃ id options, requests i = .convertToWebP id options
  · obtain ⟨id, options, same⟩ := converts
    rw [same] at ending
    obtain ⟨live, -⟩ := ending
    constructor
    · rintro restored ⟨-, e, member, path, leaves⟩
      have seen := left.noted e member path leaves
      refine (left.left path ((live path).mpr seen) seen).mpr ⟨e, member, leaves⟩ ?_
      rw [restored]
      exact confined.apart path (left.owned path seen)
    · intro cleared
      refine confined.restored fun p there => ?_
      by_contra present
      obtain ⟨e, member, leaves⟩ := (left.left p there ((live p).mp there)).mp present
      exact cleared ⟨⟨id, options, same⟩, e, member, p, leaves⟩
  · refine iff_of_true (confined.restored ?_) fun both => converts both.1
    have empty : d.live = ∅ := by
      cases request : requests i with
      | convertToWebP id options => exact absurd ⟨id, options, request⟩ converts
      | _ =>
          rw [request] at ending
          exact ending
    simp [empty]

end Runs

section Sample

/-- The sample conversion with a processor that cannot make thumbnails. -/
def leaking : List (Nat × Choice) :=
  converting.take 11 ++ [(1, .processed (some .unavailable) (some [])), (1, .name (str "b"))] ++
    List.replicate 12 (1, .normal)

theorem clears_scheduled {schedule : List (Nat × Choice)} {w w' : World (machine P) Result}
    {e : Event (machine P)} (faultless : ∀ j, (j, Choice.fault) ∉ schedule)
    (member : (e.call, e.choice) ∈ schedule) (stepped : w.step e.call e.choice = some (e, w')) :
    Clears e := by
  obtain ⟨a, r, next, σ, same, -, -, performed⟩ := World.step_some stepped
  intro path removes
  obtain ⟨j, a', c, r'⟩ := e
  cases same
  obtain rfl : a = _ := removes
  cases c with
  | normal => rfl
  | fault => exact absurd member (faultless j)
  | _ => cases performed

theorem leaking_runs : ∃ τ w result, Run (alone convertingPlatform (fun _ => sampleConversion) 1 Clears)
      (start convertingPlatform (fun _ => sampleConversion)
        (sampleState Processor.pngSignature (str "image/png") .isPublic (by decide))) τ w ∧
    w.calls 1 = .done result ∧ w.shared.files.temporary.lookup (str "u") ≠ none ∧
    ∃ e ∈ τ, LeavesThumbnail e (str "u") := by
  refine ⟨_, _, _, .of_execute leaking ?_ rfl, rfl, ?_, ⟨1, .file (.thumbnail (.temporary (str "t"))
    (str "u")), .processed (some .unavailable) (some []), .error .unavailable⟩,
    List.mem_of_getElem? (i := 11) rfl, 1, _, _, rfl⟩
  · intro w w' e member stepped
    refine ⟨?_, clears_scheduled (by simp [leaking, converting]) member stepped⟩
    simp only [leaking, converting] at member
    simp at member
    tauto
  · decide

theorem temporaries_kept_sample : ∃ (w : World (machine convertingPlatform) Result) (result : Result),
    w.calls 1 = .done result ∧ w.shared.files.temporary ≠
      (sampleState Processor.pngSignature (str "image/png") .isPublic (by decide)).files.temporary := by
  obtain ⟨τ, w, result, run, ended, -, e, member, leaves⟩ := leaking_runs
  refine ⟨w, result, ended, fun restored => ?_⟩
  exact (temporaries_kept (by simp [sampleConversion, stageOf]) run ended).mp restored
    ⟨⟨_, _, rfl⟩, e, member, _, leaves⟩

/-- A conversion without a processor for thumbnails leaves a temporary file behind. -/
theorem conversion_leaks : ¬ ∀ (P : Platform) (requests : Nat → Request) (σ : State) (i : Nat)
    (τ : List (Event (machine P))) (w : World (machine P) Result) (result : Result),
    stageOf (requests i) ≠ none → Run (alone P requests i Clears) (start P requests σ) τ w →
    w.calls i = .done result →
    w.shared.files.temporary.keys = σ.files.temporary.keys := by
  intro claim
  obtain ⟨τ, w, result, run, ended, there, -⟩ := leaking_runs
  have same := claim _ _ _ _ _ _ _ (by simp [sampleConversion, stageOf]) run ended
  have member : str "u" ∈ w.shared.files.temporary.keys :=
    Finmap.mem_keys.mpr (not_not.mp fun absent => there (Finmap.lookup_eq_none.mpr absent))
  rw [same, sampleState, loaded_files] at member
  exact absurd member (by decide)

end Sample

end ImageSilo.Publication
