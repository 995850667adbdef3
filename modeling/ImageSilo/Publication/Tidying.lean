import ImageSilo.Importer.Service
import ImageSilo.Publication.Desk
import ImageSilo.Publication.Effects
import ImageSilo.Publication.Frames

/-! Uploads, imports and conversions end with nothing left of their temporary files. -/
namespace ImageSilo.Publication

open Go Concurrent Storage

variable {α : Type} {d d' d'' : Desk} {P : Platform} {s : Finset GoString} {path source : GoString}

/-- A file that has been taken on is gone again. -/
theorem Desk.Leads.discard (h : d.Leads d' (insert path s)) : d.Leads (d'.drop path) s :=
  (h.drop path).mono (Finset.erase_insert_subset path s)

theorem Desk.mem_take (d : Desk) (path : GoString) : path ∈ (d.take path).own :=
  Finset.mem_insert_self path d.own

section Staging

theorem stageReader_tidies {defaultMaxBytes maxBytes : Int} {reader : Reader}
    {Q : Except Error Staged → Desk → Prop} (untried : d.seen = none)
    (failed : ∀ e d', d.Leads d' d.live → Q (.error e) d')
    (made : ∀ (staged : Staged) d', d.Leads d' (insert staged.path d.live) → staged.path ∈ d'.own →
      d'.seen = none → Q (.ok staged) d') :
    Tidies (stageReader P defaultMaxBytes reader maxBytes) d Q := by
  unfold stageReader
  generalize (if maxBytes ≤ 0 then defaultMaxBytes else maxBytes) = limit
  refine .seq (createTemporary_tidies ?_ ?_)
  · exact fun e => failed e d (.refl d)
  intro path _
  have taken : d.Leads (d.take path) (insert path d.live) := (Desk.Leads.refl d).take path
  have lost : ∀ e : Error, Tidies (discard path e) (d.take path) Q := fun e =>
    discard_tidies (d.mem_take path) (failed e _ taken.discard)
  have written : (d.take path).permits (.file (.write path (reader.content.take (limit + 1).toNat))) :=
    ⟨Finset.mem_insert_self path d.live, untried⟩
  refine .seq (request_tidies written (fun _ => rfl) ?_)
  intro copied
  refine .seq (closeTemporary_tidies ?_)
  intro closed
  match copied, closed with
  | .error e, _ => exact lost e
  | .ok _, .error e => exact lost e
  | .ok _, .ok _ =>
      dsimp only
      split
      · exact lost _
      split
      · exact lost _
      split
      · exact lost _
      exact .done (made ⟨path, _, _⟩ _ taken (d.mem_take path) untried)

theorem prepareThumbnail_tidies {input : GoString} {Q : Except Error (Option GoString) → Desk → Prop}
    (untried : d.seen = none) (failed : ∀ e d', d.Leads d' d.live → Q (.error e) d')
    (none : ∀ d', d.Leads d' d.live → Q (.ok none) d')
    (made : ∀ path d', d.Leads d' (insert path d.live) → path ∈ d'.own → Q (.ok (some path)) d') :
    Tidies (prepareThumbnail input) d Q := by
  refine .seq (createTemporary_tidies ?_ ?_)
  · exact fun e => failed e d (.refl d)
  intro path _
  have taken : d.Leads (d.take path) (insert path d.live) := (Desk.Leads.refl d).take path
  have mine := d.mem_take path
  refine .seq (closeTemporary_tidies ?_)
  intro closed
  match closed with
  | .error e => exact discard_tidies mine (failed e _ taken.discard)
  | .ok _ =>
      refine .seq ⟨⟨Finset.mem_insert_self path d.live, untried⟩, ?_⟩
      intro r _
      match r with
      | .ok _ => exact .done (made path _ taken mine)
      | .error e =>
          -- whatever the processor has reported, the file goes
          obtain ⟨seen, eq⟩ : ∃ seen, (d.take path).record (.file (.thumbnail (.temporary input) path))
              (.error e) = { d.take path with seen := seen } := by
            cases e <;> exact ⟨_, rfl⟩
          change Tidies _ ((d.take path).record _ _) Q
          rw [eq]
          have lost : d.Leads ({ d.take path with seen := seen }.drop path) d.live :=
            ⟨taken.discard.live, taken.own, taken.stage⟩
          refine .seq (removeTemporary_tidies mine ?_)
          split
          · exact .done (none _ lost)
          · exact .done (failed _ _ lost)

theorem transformImage_tidies {sourceSize : Int} {options : UploadOptions}
    {sourceMetadata : Processor.Metadata} {Q : Except Error Transformed → Desk → Prop}
    (mine : source ∈ d.own) (untried : d.seen = none)
    (failed : ∀ e d', d.Leads d' d.live → Q (.error e) d')
    (made : ∀ (t : Transformed) d', d.Leads d' (insert t.selectedPath d.live) →
      t.selectedPath ∈ d'.own → d'.seen = none → Q (.ok t) d') :
    Tidies (transformImage source sourceSize options sourceMetadata) d Q := by
  unfold transformImage
  dsimp only
  split
  · exact .done (made _ d ((Desk.Leads.refl d).mono (Finset.subset_insert source d.live)) mine untried)
  refine .seq (createTemporary_tidies ?_ ?_)
  · exact fun e => failed e d (.refl d)
  intro path _
  have taken : d.Leads (d.take path) (insert path d.live) := (Desk.Leads.refl d).take path
  have own := d.mem_take path
  have lost : ∀ e : Error, Tidies (discard path e) (d.take path) Q := fun e =>
    discard_tidies own (failed e _ taken.discard)
  refine .seq (closeTemporary_tidies ?_)
  intro closed
  match closed with
  | .error e => exact lost e
  | .ok _ =>
      refine .seq (request_tidies ⟨Finset.mem_insert_self path d.live, untried⟩ (fun _ => rfl) ?_)
      intro transformed
      match transformed with
      | .error e => exact lost _
      | .ok _ =>
          refine .seq (request_tidies trivial (fun _ => rfl) ?_)
          intro size
          match size with
          | .error e => exact lost e
          | .ok size =>
              dsimp only
              split
              · refine .seq (removeTemporary_tidies own ?_)
                exact .done (made _ _ (taken.discard.mono (Finset.subset_insert source d.live))
                  (Finset.mem_insert_of_mem mine) untried)
              · refine .seq (inspectFile_tidies ?_)
                intro inspected
                match inspected with
                | .error e => exact lost e
                | .ok metadata =>
                    dsimp only
                    split
                    · exact lost _
                    · exact .done (made ⟨metadata, path, _, false⟩ _ taken own untried)

theorem removeUnless_tidies {Q : Unit → Desk → Prop} (mine : path ∈ d.own)
    (next : ∀ d', d.Leads d' (insert source (d.live.erase path)) → d'.own = d.own → Q () d') :
    Tidies (removeUnless path source) d Q := by
  unfold removeUnless
  split
  · exact removeTemporary_tidies mine
      (next _ (((Desk.Leads.refl d).drop path).mono (Finset.subset_insert source _)) rfl)
  · rename_i same
    obtain rfl : path = source := not_not.mp same
    refine next d ((Desk.Leads.refl d).mono ?_) rfl
    exact Finset.insert_erase_subset path d.live

theorem removeOptional_tidies {Q : Unit → Desk → Prop} {thumbnail : Option GoString}
    (mine : ∀ p ∈ thumbnail, p ∈ d.own)
    (next : ∀ d', d.Leads d' (d.live \ thumbnail.toFinset) → d'.own = d.own → Q () d') :
    Tidies (removeOptional thumbnail) d Q := by
  cases thumbnail with
  | none => exact next d (by simpa using Desk.Leads.refl d) rfl
  | some p =>
      refine removeTemporary_tidies (mine p rfl) (next _ ?_ rfl)
      simpa [Finset.sdiff_singleton_eq_erase] using (Desk.Leads.refl d).drop p

end Staging

section Uploads

theorem prepareImage_tidies {sourceSize : Int} {options : UploadOptions}
    {Q : Except Error Prepared → Desk → Prop} (mine : source ∈ d.own) (untried : d.seen = none)
    (failed : ∀ e d', d.Leads d' (insert source d.live) → Q (.error e) d')
    (made : ∀ (p : Prepared) d',
      d.Leads d' (p.thumbnailPath.toFinset ∪ insert p.selectedPath d.live) →
      p.selectedPath ∈ d'.own → (∀ path ∈ p.thumbnailPath, path ∈ d'.own) → Q (.ok p) d') :
    Tidies (prepareImage source sourceSize options) d Q := by
  have more := Finset.subset_insert source d.live
  refine .seq (inspectFile_tidies ?_)
  intro inspected
  match inspected with
  | .error e => exact failed e d ((Desk.Leads.refl d).mono more)
  | .ok metadata =>
      refine .seq (transformImage_tidies mine untried ?_ ?_)
      · exact fun e d' leads => failed e d' (leads.mono more)
      intro t d' leads own untried
      refine .seq (prepareThumbnail_tidies untried ?_ ?_ ?_)
      · intro e d'' next
        refine .seq (removeUnless_tidies (next.own own) ?_)
        intro d₃ last _
        refine .done (failed e d₃ ((leads.here.trans (next.here.trans last)).mono ?_))
        exact Finset.insert_subset_insert source
          ((Finset.erase_subset_erase _ (next.live.trans leads.live)).trans
            (Finset.erase_insert_subset _ _))
      · intro d'' next
        refine .done (made ⟨t.metadata, t.selectedPath, none, _⟩ d''
          ((leads.here.trans next).mono ?_) (next.own own) (by simp))
        simpa using leads.live
      · intro thumbnail d'' next kept
        refine .done (made ⟨t.metadata, t.selectedPath, some thumbnail, _⟩ d''
          ((leads.here.trans next).mono ?_) (next.own own) (by simpa using kept))
        exact Finset.insert_subset_insert thumbnail leads.live

theorem commitThumbnail_tidies {Q : Except Error Bool → Desk → Prop} {thumbnail : Option GoString}
    {id : GoString} (mine : ∀ p ∈ thumbnail, p ∈ d.own)
    (next : ∀ r d', d.Leads d' d.live → d'.own = d.own → Q r d') :
    Tidies (commitThumbnail thumbnail id) d Q := by
  cases thumbnail with
  | none => exact next _ d (.refl d) rfl
  | some path =>
      refine .seq (commitThumbnailTemporary_tidies (mine path rfl) ?_ ?_)
      · exact fun e => next _ d (.refl d) rfl
      · exact next _ _ (((Desk.Leads.refl d).drop path).mono (Finset.erase_subset path d.live)) rfl

theorem rollback_tidies {Q : Except Error α → Desk → Prop} {key id : GoString} {committed : Bool}
    {e : Error} (next : Q (.error e) d) : Tidies (rollback key id committed e) d Q := by
  refine .seq (removeKey_tidies (by simp) ?_)
  intro _
  cases committed with
  | true => exact .seq (removeKey_tidies (by simp) fun _ => next)
  | false => exact next

theorem storedDigest_tidies {Q : Except Error (Int × Digest) → Desk → Prop} {staged : Staged}
    (next : ∀ r, Q r d) : Tidies (storedDigest staged path) d Q := by
  unfold storedDigest
  split
  · exact request_tidies trivial (fun _ => rfl) next
  · exact next _

theorem publishImage_tidies {Q : Except Error Image → Desk → Prop} {value : Image} {committed : Bool}
    (unfollowed : d.stage = .unfollowed) (next : ∀ r, Q r d) :
    Tidies (publishImage value committed) d Q := by
  refine .seq (sync_tidies (.seq (sync_tidies (.seq (.seq ?_)))))
  refine unfollowed_tidies unfollowed (.inl ⟨_, rfl⟩) ?_
  intro created
  cases created with
  | error e => exact .seq (sync_tidies (.seq (sync_tidies (rollback_tidies (next _)))))
  | ok u =>
      refine .seq (unfollowed_tidies unfollowed (.inr ⟨_, rfl⟩) ?_)
      exact fun _ => .seq (sync_tidies (.seq (sync_tidies (next _))))

theorem commitPrepared_tidies {staged : Staged} {originalName : GoString} {options : UploadOptions}
    {now : Time} {p : Prepared} {Q : Except Error Image → Desk → Prop}
    (unfollowed : d.stage = .unfollowed) (mine : p.selectedPath ∈ d.own)
    (thumbnail : ∀ path ∈ p.thumbnailPath, path ∈ d.own)
    (next : ∀ r d', d.Leads d' d.live → d'.own = d.own → Q r d') :
    Tidies (commitPrepared staged originalName options now p) d Q := by
  refine .seq (storedDigest_tidies ?_)
  intro stored
  match stored with
  | .error e => exact next _ d (.refl d) rfl
  | .ok stored =>
      refine .seq (newUUID_tidies ?_)
      intro made
      match made with
      | .error e => exact next _ d (.refl d) rfl
      | .ok id =>
          refine .seq (commitTemporary_tidies mine ?_ ?_)
          · exact fun e => next _ d (.refl d) rfl
          have leads : d.Leads (d.drop p.selectedPath) d.live :=
            ((Desk.Leads.refl d).drop _).mono (Finset.erase_subset _ d.live)
          refine .seq (commitThumbnail_tidies thumbnail ?_)
          intro committed d' leads' own
          have both : d.Leads d' d.live := (leads.here.trans leads').mono leads.live
          match committed with
          | .error e => exact rollback_tidies (next _ d' both own)
          | .ok committed =>
              exact publishImage_tidies (leads'.stage.trans unfollowed) fun r => next r d' both own

theorem commitStagedUpload_tidies {staged : Staged} {originalName : GoString}
    {options : UploadOptions} {now : Time} (unfollowed : d.stage = .unfollowed)
    (mine : staged.path ∈ d.own) (untried : d.seen = none) :
    Tidies (commitStagedUpload staged originalName options now) d fun _ d' =>
      d.Leads d' (insert staged.path d.live) := by
  have more := (Desk.Leads.refl d).mono (Finset.subset_insert staged.path d.live)
  unfold commitStagedUpload
  split
  · exact .done more
  split
  · exact .done more
  refine .seq (gate_tidies ?_)
  intro active
  cases active with
  | false => exact .done more
  | true =>
      refine .seq (prepareImage_tidies mine untried ?_ ?_)
      · exact fun e d' leads => .seq (releaseLease_tidies (.done leads))
      intro p d' leads own thumbnail
      refine .seq (releaseLease_tidies (.seq ?_))
      refine commitPrepared_tidies (leads.stage.trans unfollowed) own thumbnail ?_
      intro result d₁ leads₁ same₁
      refine .seq (removeOptional_tidies (fun path has => same₁ ▸ thumbnail path has) ?_)
      intro d₂ leads₂ same₂
      refine .seq (removeUnless_tidies (by rw [same₂, same₁]; exact own) ?_)
      intro d₃ leads₃ _
      refine .done ((leads.here.trans (leads₁.here.trans (leads₂.here.trans leads₃))).mono ?_)
      -- the thumbnail has gone first, the chosen file last
      refine Finset.insert_subset_insert staged.path ?_
      refine (Finset.erase_subset_erase _ leads₂.live).trans ?_
      intro path member
      have there := leads.live (leads₁.live (Finset.mem_sdiff.mp (Finset.mem_erase.mp member).2).1)
      simp only [Finset.mem_erase, Finset.mem_sdiff] at member
      simp only [Finset.mem_union, Finset.mem_insert] at there
      tauto

theorem upload_tidies {reader : Reader} {originalName : GoString} {options : UploadOptions}
    {now : Time} (unfollowed : d.stage = .unfollowed) (untried : d.seen = none) :
    Tidies (upload P reader originalName options now) d fun _ d' => d'.live ⊆ d.live := by
  unfold upload
  split
  · exact .done subset_rfl
  refine .seq (gate_tidies ?_)
  intro acquired
  cases acquired with
  | false => exact .done subset_rfl
  | true =>
      refine .seq (stageReader_tidies untried ?_ ?_)
      · exact fun e d' leads => .seq (releaseLease_tidies (.done leads.live))
      intro staged d' leads own seen
      refine .seq ((commitStagedUpload_tidies (leads.stage.trans unfollowed) own
        seen).mono ?_)
      intro result d₁ leads₁
      refine .seq (removeTemporary_tidies (leads₁.own own) (.seq (releaseLease_tidies (.done ?_))))
      refine (Finset.erase_subset_erase _ (leads₁.live.trans
        (Finset.insert_subset_insert _ leads.live))).trans ?_
      rw [Finset.insert_idem]
      exact Finset.erase_insert_subset _ _

end Uploads

section Imports

theorem publishImport_tidies {Q : Except Error ImportResult → Desk → Prop} {value : Image}
    {mapping : Alias} {committed : Bool} (unfollowed : d.stage = .unfollowed) (next : ∀ r, Q r d) :
    Tidies (publishImport value mapping committed) d Q := by
  refine .seq (sync_tidies (.seq (.seq (sync_tidies (sync_tidies (.seq (.seq ?_)))))))
  refine unfollowed_tidies unfollowed (.inl ⟨_, rfl⟩) ?_
  intro created
  have ended : ∀ {α : Type} {p : Call α} {Q : α → Desk → Prop}, Tidies p d Q →
      Tidies (do endAliasChange mapping.path; unlockImage value.id; p) d Q :=
    fun h => .seq (.seq (sync_tidies (sync_tidies (.seq (sync_tidies h)))))
  cases created with
  | error e => exact ended (rollback_tidies (next _))
  | ok u =>
      refine .seq (unfollowed_tidies unfollowed (.inr ⟨_, rfl⟩) fun _ => ?_)
      refine .seq (unfollowed_tidies unfollowed (.inr ⟨_, rfl⟩) fun _ => ?_)
      exact ended (next _)

theorem commitImport_tidies {staged : Staged} {originalName aliasPath : GoString}
    {options : ImportOptions} {now : Time} {metadata : Processor.Metadata}
    {thumbnail : Option GoString} {Q : Except Error ImportResult → Desk → Prop}
    (unfollowed : d.stage = .unfollowed) (mine : staged.path ∈ d.own)
    (own : ∀ path ∈ thumbnail, path ∈ d.own)
    (next : ∀ r d', d.Leads d' d.live → d'.own = d.own → Q r d') :
    Tidies (commitImport staged originalName aliasPath options now metadata thumbnail) d Q := by
  refine .seq (newUUID_tidies ?_)
  intro made
  match made with
  | .error e => exact next _ d (.refl d) rfl
  | .ok imageID =>
      refine .seq (newUUID_tidies ?_)
      intro made
      match made with
      | .error e => exact next _ d (.refl d) rfl
      | .ok aliasID =>
          refine .seq (commitTemporary_tidies mine ?_ ?_)
          · exact fun e => next _ d (.refl d) rfl
          have leads : d.Leads (d.drop staged.path) d.live :=
            ((Desk.Leads.refl d).drop _).mono (Finset.erase_subset _ d.live)
          refine .seq (commitThumbnail_tidies own ?_)
          intro committed d' leads' same
          have both : d.Leads d' d.live := (leads.here.trans leads').mono leads.live
          match committed with
          | .error e => exact rollback_tidies (next _ d' both same)
          | .ok committed =>
              exact publishImport_tidies (leads'.stage.trans unfollowed) fun r => next r d' both same

theorem importPrepared_tidies {staged : Staged} {originalName aliasPath : GoString}
    {options : ImportOptions} {now : Time} (unfollowed : d.stage = .unfollowed)
    (mine : staged.path ∈ d.own) (untried : d.seen = none) :
    Tidies (importPrepared staged originalName aliasPath options now) d fun _ d' =>
      d'.own ⊇ d.own ∧ d'.live ⊆ d.live := by
  refine .seq (.seq (inspectFile_tidies ?_))
  intro inspected
  match inspected with
  | .error e => exact .done (.seq (releaseLease_tidies (.done ⟨subset_rfl, subset_rfl⟩)))
  | .ok metadata =>
      -- what is left of the commit, whatever thumbnail there is
      have commit : ∀ (thumbnail : Option GoString) d',
          d.Leads d' (thumbnail.toFinset ∪ d.live) → (∀ path ∈ thumbnail, path ∈ d'.own) →
          Tidies (do
            let result ← commitImport staged originalName aliasPath options now metadata thumbnail
            removeOptional thumbnail
            pure result) d' fun _ d' => d'.own ⊇ d.own ∧ d'.live ⊆ d.live := by
        intro thumbnail d' leads own
        refine .seq (commitImport_tidies (leads.stage.trans unfollowed) (leads.own mine) own ?_)
        intro result d₁ leads₁ same₁
        refine .seq (removeOptional_tidies (fun path has => same₁ ▸ own path has) ?_)
        intro d₂ leads₂ _
        refine .done ⟨leads.own.trans (leads₁.own.trans leads₂.own), leads₂.live.trans ?_⟩
        exact sdiff_le_iff.mpr (leads₁.live.trans leads.live)
      refine .seq (prepareThumbnail_tidies untried ?_ ?_ ?_)
      · intro e d' leads
        exact .done (.seq (releaseLease_tidies (.done ⟨leads.own, leads.live⟩)))
      · intro d' leads
        exact .done (.seq (releaseLease_tidies (commit none d' (leads.mono (by simp)) (by simp))))
      · intro path d' leads own
        exact .done (.seq (releaseLease_tidies
          (commit (some path) d' (leads.mono (by simp)) (by simpa using own))))

theorem importStaged_tidies {staged : Staged} {originalName aliasPath : GoString}
    {options : ImportOptions} {now : Time} (unfollowed : d.stage = .unfollowed)
    (mine : staged.path ∈ d.own) (untried : d.seen = none) :
    Tidies (importStaged P staged originalName aliasPath options now) d fun _ d' =>
      d'.own ⊇ d.own ∧ d'.live ⊆ d.live := by
  have same : d.own ⊇ d.own ∧ d.live ⊆ d.live := ⟨subset_rfl, subset_rfl⟩
  unfold importStaged
  split
  · exact .done same
  split
  · exact .done same
  refine .seq (gate_tidies ?_)
  intro active
  cases active with
  | false => exact .done same
  | true =>
      simp only [Bool.not_true, Bool.false_eq_true, ↓reduceIte]
      split
      · exact .done same
      split
      · exact .done same
      refine .seq (.seq ?_)
      refine unfollowed_tidies unfollowed (.inl ⟨_, rfl⟩) ?_
      intro found
      match found with
      | .error e => exact .done same
      | .ok true => exact .done same
      | .ok false => exact importPrepared_tidies unfollowed mine untried

theorem importImage_tidies {reader : Reader} {originalName aliasPath : GoString}
    {options : ImportOptions} {now : Time} (unfollowed : d.stage = .unfollowed)
    (untried : d.seen = none) :
    Tidies (importImage P reader originalName aliasPath options now) d fun _ d' =>
      d'.live ⊆ d.live := by
  unfold importImage
  split
  · exact .done subset_rfl
  refine .seq (gate_tidies ?_)
  intro acquired
  cases acquired with
  | false => exact .done subset_rfl
  | true =>
      refine .seq (stageReader_tidies untried ?_ ?_)
      · exact fun e d' leads => .seq (releaseLease_tidies (.done leads.live))
      intro staged d' leads own seen
      refine .seq ((importStaged_tidies (leads.stage.trans unfollowed) own seen).mono ?_)
      intro result d₁ ⟨kept, live⟩
      refine .seq (removeTemporary_tidies (kept own) (.seq (releaseLease_tidies (.done ?_))))
      exact (Finset.erase_subset_erase _ (live.trans leads.live)).trans
        (Finset.erase_insert_subset _ _)

end Imports

section Conversions

/-- From `d` to `d'` a conversion has kept the file it can no longer reach, and owes no index step. -/
structure Desk.Ends (d d' : Desk) (live : Finset GoString) : Prop where
  live : d'.live ⊆ live
  own : d.own ⊆ d'.own
  seen : d'.seen = d.seen
  kept : ∀ p, d.seen = some p → p ∈ d.live → p ∈ d'.live
  paid : ∀ v, d'.stage ≠ .owing v

theorem Desk.Ends.refl (paid : ∀ v, d.stage ≠ .owing v) : d.Ends d d.live :=
  ⟨subset_rfl, subset_rfl, rfl, fun _ _ there => there, paid⟩

theorem Desk.Ends.mono {t : Finset GoString} (h : d.Ends d' s) (sub : s ⊆ t) : d.Ends d' t :=
  ⟨h.live.trans sub, h.own, h.seen, h.kept, h.paid⟩

theorem Desk.Ends.drop (h : d.Ends d' s) (other : d.seen ≠ some path) :
    d.Ends (d'.drop path) (s.erase path) := by
  refine ⟨Finset.erase_subset_erase path h.live, h.own, h.seen, ?_, h.paid⟩
  intro p seen there
  refine Finset.mem_erase.mpr ⟨?_, h.kept p seen there⟩
  rintro rfl
  exact other seen

/-- What a publication leaves once the thumbnail it still has is removed. -/
structure Desk.Passes (d d' : Desk) (thumbnail remaining : Option GoString) : Prop where
  ends : d.Ends d' d.live
  left : remaining = none ∨ remaining = thumbnail
  gone : ∀ p ∈ thumbnail, p ∈ d'.live → remaining = some p

theorem finishConversion_tidies {value : Image} {oldKey : GoString} {thumbnail : Option GoString}
    (paid : ∀ v, d.stage ≠ .owing v) (mine : ∀ p ∈ thumbnail, p ∈ d.own ∧ d.seen ≠ some p) :
    Tidies (finishConversion value oldKey thumbnail) d fun r d' => d.Passes d' thumbnail r.2 := by
  have ends : d.Ends d d.live := .refl paid
  cases thumbnail with
  | none =>
      refine .seq (removeKey_tidies (by simp) ?_)
      intro removed
      refine .seq (removeKey_tidies (by simp) fun _ => .done ?_)
      exact ⟨ends, by simp, by simp⟩
  | some path =>
      obtain ⟨own, other⟩ := mine path rfl
      refine .seq (commitThumbnailTemporary_tidies own ?_ ?_)
      · intro e
        refine .seq (removeKey_tidies (by simp) fun _ => .done ?_)
        refine ⟨ends, .inr rfl, ?_⟩
        rintro p ⟨⟩ -
        rfl
      · refine .seq (removeKey_tidies (by simp) fun _ => .done ?_)
        refine ⟨(ends.drop other).mono (Finset.erase_subset path d.live), .inl rfl, ?_⟩
        rintro p ⟨⟩ there
        exact absurd rfl (Finset.mem_erase.mp there).1

theorem replaceContent_tidies {value : Image} {oldKey : GoString} {thumbnail : Option GoString}
    (reading : d.stage = .reading) (mine : ∀ p ∈ thumbnail, p ∈ d.own ∧ d.seen ≠ some p) :
    Tidies (replaceContent value oldKey thumbnail) d fun r d' => d.Passes d' thumbnail r.2 := by
  obtain ⟨own, live, seen, stage, owned⟩ := d
  obtain rfl : stage = .reading := reading
  have same : Desk.Passes ⟨own, live, seen, .reading, owned⟩ ⟨own, live, seen, .reading, owned⟩
      thumbnail thumbnail := by
    refine ⟨.refl (by simp), .inr rfl, ?_⟩
    rintro p ⟨⟩ -
    rfl
  refine .seq (sync_tidies (.seq (.seq ⟨trivial, ?_⟩)))
  intro updated _
  match updated with
  | .error e => exact .seq (sync_tidies (.seq (removeKey_tidies (by simp) fun _ => .done same)))
  | .ok false => exact .seq (sync_tidies (.seq (removeKey_tidies (by simp) fun _ => .done same)))
  | .ok true =>
      refine .seq ⟨rfl, fun _ _ => .seq (sync_tidies ?_)⟩
      refine (finishConversion_tidies (d := ⟨own, live, seen, .published value, owned⟩) (by simp)
        mine).mono ?_
      rintro r d' ⟨ends, left, gone⟩
      exact ⟨⟨ends.live, ends.own, ends.seen, ends.kept, ends.paid⟩, left, gone⟩

theorem publishConversion_tidies {value : Image} {origin metadata : Processor.Metadata}
    {stored : Int × Digest} {output : GoString} {thumbnail : Option GoString}
    (reading : d.stage = .reading) (own : output ∈ d.own) (other : d.seen ≠ some output)
    (mine : ∀ p ∈ thumbnail, p ∈ d.own ∧ d.seen ≠ some p) :
    Tidies (publishConversion value origin metadata stored output thumbnail) d fun r d' =>
      d.Passes d' thumbnail r.2 := by
  have ends : d.Ends d d.live := .refl (by simp [reading])
  have same : d.Passes d thumbnail thumbnail := by
    refine ⟨ends, .inr rfl, ?_⟩
    rintro p ⟨⟩ -
    rfl
  refine .seq (newUUID_tidies ?_)
  intro made
  match made with
  | .error e => exact .done same
  | .ok key =>
      refine .seq (commitTemporary_tidies own ?_ ?_)
      · exact fun e => .done same
      refine .seq (request_tidies trivial (fun _ => rfl) ?_)
      intro now
      refine (replaceContent_tidies (d := d.drop output) reading mine).mono ?_
      intro r d' passes
      have fewer : (d.drop output).live ⊆ d.live := Finset.erase_subset output d.live
      refine ⟨⟨passes.ends.live.trans fewer, passes.ends.own, passes.ends.seen, ?_, passes.ends.paid⟩,
        passes.left, passes.gone⟩
      intro p seen there
      exact passes.ends.kept p seen ((ends.drop other).kept p seen there)

theorem withThumbnail_tidies
    {publish : Option GoString → Call (Except Error ConversionResult × Option GoString)}
    {thumbnail : Option GoString} (mine : ∀ p ∈ thumbnail, p ∈ d.own ∧ d.seen ≠ some p)
    (publishes : Tidies (publish thumbnail) d fun r d' => d.Passes d' thumbnail r.2) :
    Tidies (withThumbnail publish thumbnail) d fun _ d' =>
      d.Ends d' (d.live \ thumbnail.toFinset) := by
  refine .seq (publishes.mono ?_)
  rintro ⟨result, remaining⟩ d' passes
  have rest : ∀ p ∈ d'.live, remaining ≠ some p → p ∈ d.live \ thumbnail.toFinset := by
    intro p there other
    refine Finset.mem_sdiff.mpr ⟨passes.ends.live there, ?_⟩
    intro member
    exact other (passes.gone p (by simpa using member) there)
  cases remaining with
  | none =>
      have ends := passes.ends
      exact .done ⟨fun p there => rest p there (by simp), ends.own, ends.seen, ends.kept, ends.paid⟩
  | some path =>
      obtain rfl : some path = thumbnail := passes.left.resolve_left (by simp)
      obtain ⟨own, other⟩ := mine path rfl
      refine .seq (removeTemporary_tidies (passes.ends.own own) (.done ?_))
      have ends := passes.ends.drop other
      refine ⟨?_, ends.own, ends.seen, ends.kept, ends.paid⟩
      intro p there
      obtain ⟨apart, there⟩ := Finset.mem_erase.mp there
      refine rest p there ?_
      rintro ⟨⟩
      exact apart rfl

/-- What a conversion leaves: at most the output of a thumbnail call that found the processor
unavailable. -/
structure Desk.Leaves (d d' : Desk) (live : Finset GoString) : Prop where
  live : d'.live ⊆ live ∪ d'.seen.toFinset
  own : d.own ⊆ d'.own
  kept : ∀ p, d'.seen = some p → p ∈ d'.live ∧ p ∉ d.own
  paid : ∀ v, d'.stage ≠ .owing v

theorem Desk.Leads.leaves (h : d.Leads d' s) (untried : d'.seen = none)
    (reading : d.stage = .reading) : d.Leaves d' s :=
  ⟨h.live.trans Finset.subset_union_left, h.own, by simp [untried], by simp [h.stage, reading]⟩

theorem convertThumbnail_tidies {value : Image} {origin metadata : Processor.Metadata}
    {stored : Int × Digest} {output : GoString} (reading : d.stage = .reading)
    (own : output ∈ d.own) (untried : d.seen = none) :
    Tidies (convertThumbnail value origin metadata stored output) d fun _ d' =>
      d.Leaves d' d.live := by
  refine .seq (createTemporary_tidies ?_ ?_)
  · exact fun e => .done ((Desk.Leads.refl d).leaves untried reading)
  intro path fresh
  have apart : output ≠ path := fun same => fresh (same ▸ own)
  have taken : d.Leads (d.take path) (insert path d.live) := (Desk.Leads.refl d).take path
  have mine := d.mem_take path
  have lost : ∀ e : Error, Tidies (discard path e) (d.take path)
      fun (_ : Except Error ConversionResult) d' => d.Leaves d' d.live := fun e =>
    discard_tidies mine (taken.discard.leaves untried reading)
  refine .seq (closeTemporary_tidies ?_)
  intro closed
  match closed with
  | .error e => exact lost e
  | .ok _ =>
      refine .seq ⟨⟨Finset.mem_insert_self path d.live, untried⟩, ?_⟩
      intro made _
      match made with
      | .ok _ =>
          have thumbnail : ∀ p ∈ some path, p ∈ (d.take path).own ∧ (d.take path).seen ≠ some p := by
            rintro p ⟨⟩
            exact ⟨mine, by simp [Desk.take, untried]⟩
          refine (withThumbnail_tidies thumbnail (publishConversion_tidies reading
            (Finset.mem_insert_of_mem own) (by simp [Desk.take, untried]) thumbnail)).mono ?_
          intro _ d' ends
          have unseen : d'.seen = none := ends.seen.trans untried
          refine ⟨?_, taken.own.trans ends.own, by simp [unseen], ends.paid⟩
          rw [unseen]
          refine ends.live.trans ?_
          intro p member
          simp only [Desk.take, Finset.mem_sdiff, Finset.mem_insert, Option.toFinset_some,
            Finset.mem_singleton] at member
          exact Finset.mem_union_left _ (member.1.resolve_left member.2)
      | .error .unavailable =>
          -- the file stays, and nothing of what follows can reach it
          refine (withThumbnail_tidies (d := { d.take path with seen := some path }) (by simp)
            (publishConversion_tidies reading (Finset.mem_insert_of_mem own) ?_ (by simp))).mono ?_
          · simpa using Ne.symm apart
          intro _ d' ends
          refine ⟨?_, taken.own.trans ends.own, ?_, ends.paid⟩
          · rw [ends.seen]
            refine ends.live.trans ?_
            intro p member
            simp only [Desk.take, Finset.mem_sdiff, Finset.mem_insert] at member
            simp only [Finset.mem_union, Option.toFinset_some, Finset.mem_singleton]
            exact member.1.symm
          · intro p seen
            obtain rfl : path = p := Option.some.inj (ends.seen.symm.trans seen)
            exact ⟨ends.kept path rfl (Finset.mem_insert_self path d.live), fresh⟩
      | .error .invalidImage => exact lost _
      | .error .unsupportedFormat => exact lost _
      | .error .fileTooLarge => exact lost _
      | .error .tooManyPixels => exact lost _
      | .error .other => exact lost _

theorem convertOutput_tidies {value : Image} {origin : Processor.Metadata}
    {options : Processor.Options} {output : GoString} (reading : d.stage = .reading)
    (live : output ∈ d.live) (untried : d.seen = none) :
    Tidies (convertOutput value origin options output) d fun _ d' => d.Leaves d' d.live := by
  have same : d.Leaves d d.live := (Desk.Leads.refl d).leaves untried reading
  refine .seq (request_tidies ⟨live, untried⟩ (fun _ => rfl) ?_)
  intro transformed
  match transformed with
  | .error e => exact .done same
  | .ok _ =>
      refine .seq (inspectFile_tidies ?_)
      intro inspected
      match inspected with
      | .error e => exact .done same
      | .ok metadata =>
          dsimp only
          split
          · exact .done same
          refine .seq (request_tidies trivial (fun _ => rfl) ?_)
          intro hashed
          match hashed with
          | .error e => exact .done same
          | .ok stored => exact convertThumbnail_tidies reading (d.owned live) untried

theorem convertGated_tidies {id : GoString} {options : Processor.Options}
    (reading : d.stage = .reading) (untried : d.seen = none) :
    Tidies (convertGated id options) d fun _ d' => d.Leaves d' d.live := by
  have same : d.Leaves d d.live := (Desk.Leads.refl d).leaves untried reading
  have permitted : d.permits (.statement (.getImage id)) := by
    change d.stage.allows _
    rw [reading]
    trivial
  have unnoted : ∀ r, d.record (.statement (.getImage id)) r = d := by
    obtain ⟨own, live, seen, stage, owned⟩ := d
    obtain rfl : stage = .reading := reading
    exact fun _ => rfl
  refine .seq (.seq (request_tidies permitted unnoted ?_))
  intro found
  match found with
  | .error e => exact .done same
  | .ok value =>
      refine .done ?_
      dsimp only [Except.mapError]
      split
      · exact .done same
      split
      · exact .done same
      refine .seq (inspectFile_tidies ?_)
      intro inspected
      match inspected with
      | .error e => exact .done same
      | .ok origin =>
          refine .seq (createTemporary_tidies ?_ ?_)
          · exact fun e => .done same
          intro output fresh
          have taken : d.Leads (d.take output) (insert output d.live) :=
            (Desk.Leads.refl d).take output
          have mine := d.mem_take output
          refine .seq (closeTemporary_tidies ?_)
          intro closed
          match closed with
          | .error e => exact discard_tidies mine (taken.discard.leaves untried reading)
          | .ok _ =>
              refine .seq ((convertOutput_tidies (d := d.take output) reading
                (Finset.mem_insert_self output d.live) untried).mono ?_)
              intro result d' leaves
              refine .seq (removeTemporary_tidies (leaves.own mine) (.done ?_))
              refine ⟨?_, taken.own.trans leaves.own, ?_, leaves.paid⟩
              · intro p member
                obtain ⟨apart, there⟩ := Finset.mem_erase.mp member
                rcases Finset.mem_union.mp (leaves.live there) with old | seen
                · exact Finset.mem_union_left _ ((Finset.mem_insert.mp old).resolve_left apart)
                · exact Finset.mem_union_right _ seen
              · intro p seen
                obtain ⟨there, other⟩ := leaves.kept p seen
                refine ⟨Finset.mem_erase.mpr ⟨?_, there⟩, fun own => other (taken.own own)⟩
                rintro rfl
                exact other mine

theorem convertToWebP_tidies {id : GoString} {options : Processor.Options}
    (reading : d.stage = .reading) (untried : d.seen = none) :
    Tidies (convertToWebP P id options) d fun _ d' => d.Leaves d' d.live := by
  have same : d.Leaves d d.live := (Desk.Leads.refl d).leaves untried reading
  unfold convertToWebP
  split
  · exact .done same
  refine .seq (sync_tidies (.seq (.seq (gate_tidies ?_))))
  intro acquired
  cases acquired with
  | false => exact .done (.seq (sync_tidies (.done same)))
  | true =>
      refine .seq ((convertGated_tidies reading untried).mono ?_)
      intro result d' leaves
      exact .seq (gate_tidies fun _ => .done (.seq (sync_tidies (.done leaves))))

end Conversions

section Names

variable {σ σ' : State} {i : Nat} {a : Action} {c : Choice} {r : Response a}

theorem handedOut_kept {files files' : Files} {now : Time} {b : FileAction} {r : b.Response}
    (performed : files.perform P now b c = some (r, files')) (other : b ≠ .createTemporary) :
    files'.handedOut = files.handedOut := by
  have effect := file_effect performed
  cases effect with
  | created path fresh absent => exact absurd rfl other
  | wrote path content left r _ => rfl
  | transformed input path metadata options plan r left => cases left <;> rfl
  | thumbnailed input path r left => cases left <;> rfl
  | renamed path folder key entry there => exact renamed_handedOut files path folder key entry
  | removed folder key => rfl
  | none b r kept => rfl

theorem desk_own (other : a ≠ .file .createTemporary) : (d.record a r).own = d.own := by
  unfold Desk.record
  split <;> first | rfl | exact absurd rfl other

/-- A new temporary file has a name that the call has not had before. -/
theorem own_step (own : d.own ⊆ σ.files.handedOut) (performed : σ.perform P i a c = some (r, σ')) :
    d.reports a r ∧ (d.record a r).own ⊆ σ'.files.handedOut := by
  by_cases about : a = .file .createTemporary
  · subst about
    obtain ⟨files, done, rfl⟩ := file_state performed
    have effect := file_effect done
    cases effect with
    | created path fresh absent =>
        exact ⟨fun mine => fresh (own mine), Finset.insert_subset_insert path own⟩
    | none b r kept =>
        cases r with
        | ok path => exact kept.elim
        | error e => exact ⟨trivial, own⟩
  · refine ⟨?_, ?_⟩
    · unfold Desk.reports
      split <;> trivial
    rw [desk_own about]
    by_cases file : ∃ b, a = .file b
    · obtain ⟨b, rfl⟩ := file
      obtain ⟨files, done, rfl⟩ := file_state performed
      rw [handedOut_kept done fun same => about (congrArg Action.file same)]
      exact own
    · rw [(perform_frame performed).files fun b same => file ⟨b, same⟩]
      exact own

end Names

section Requests

/-- The calls that create temporary files. -/
def stageOf : Request → Option Stage
  | .upload _ _ _ _ => some .unfollowed
  | .importImage _ _ _ _ _ => some .unfollowed
  | .convertToWebP _ _ => some .reading
  | _ => none

/-- How such a call leaves its desk. -/
def Ending : Request → Desk → Prop
  | .convertToWebP _ _, d => (∀ p, p ∈ d.live ↔ d.seen = some p) ∧ ∀ v, d.stage ≠ .owing v
  | _, d => d.live = ∅

theorem desk_obeys (request : Request) :
    (request.program P).Obeys deskDiscipline.optional (fun _ l => ∀ d ∈ l, Ending request d)
      ((stageOf request).map Desk.begin) := by
  have followed : ∀ {p : Call Result} {stage : Stage},
      Tidies p (Desk.begin stage) (fun _ d => Ending request d) →
      p.Obeys deskDiscipline.optional (fun _ l => ∀ d ∈ l, Ending request d)
        (some (Desk.begin stage)) := by
    intro p stage h
    refine h.followed.mono ?_
    rintro v l ⟨d, rfl, leaves⟩ d' ⟨⟩
    exact leaves
  cases request with
  | upload reader originalName options now =>
      refine followed (.seq ((upload_tidies rfl rfl).mono ?_))
      exact fun _ d live => .done (Finset.subset_empty.mp live)
  | importImage reader originalName aliasPath options now =>
      refine followed (.seq ((importImage_tidies rfl rfl).mono ?_))
      exact fun _ d live => .done (Finset.subset_empty.mp live)
  | convertToWebP id options =>
      refine followed (.seq ((convertToWebP_tidies rfl rfl).mono ?_))
      intro _ d leaves
      refine .done ⟨?_, leaves.paid⟩
      intro p
      refine ⟨fun there => ?_, fun seen => (leaves.kept p seen).1⟩
      simpa [Desk.begin] using leaves.live there
  | _ => exact (Program.obeys_unfollowed _).mono (by simp)

variable (P) in
/-- The desks of all calls that create temporary files. -/
abbrev desks (requests : Nat → Request) : Watch (machine P) Result where
  discipline := deskDiscipline.optional
  begin j := (stageOf (requests j)).map Desk.begin
  Final j _ l := ∀ d ∈ l, Ending (requests j) d

end Requests

end ImageSilo.Publication
