import ImageSilo.HttpApi.Uploads

/-! A call holds at most one slot of the processing gate, and processes files only while it does. -/
namespace ImageSilo.Slots

open Go Concurrent Storage

inductive Hold
  | none
  | lease
  | conversion
  deriving DecidableEq

/-- The work of the image processor. -/
def processes : Action → Bool
  | .file (.transform _ _ _ _ _) | .file (.thumbnail _ _) | .file (.inspect _ _) => true
  | _ => false

/-- What a call may do with or without a slot, other than with the gate. -/
def calm (held : Bool) : Action → Bool
  | .gate _ => false
  | a => !processes a || held

def Hold.held : Hold → Bool
  | .none => false
  | _ => true

def Permits (h : Hold) : Action → Prop
  | .gate .tryAcquireLease => h = .none
  | .gate .tryAcquire => h = .none
  | .gate .releaseLease => h ≠ .conversion
  | .gate .release => h = .conversion
  | .gate .leaseActive => True
  | a => calm h.held a = true

def Hold.record (h : Hold) : (a : Action) → Response a → Hold
  | .gate .tryAcquireLease, granted => if granted = true then .lease else h
  | .gate .tryAcquire, granted => if granted = true then .conversion else h
  | .gate .releaseLease, _ => .none
  | .gate .release, _ => .none
  | _, _ => h

abbrev slots : Discipline Action Response where
  Ledger := Hold
  Permits := Permits
  Reports _ _ _ := True
  record := Hold.record

variable {P : Platform} {α : Type} {held : Bool} {h : Hold}

/-- The program leaves the gate alone, and processes only if a slot is held. -/
abbrev Calm (held : Bool) {α : Type} (p : Call α) : Prop := p.Only fun a => calm held a = true

theorem permits_calm {a : Action} (quiet : calm h.held a = true) : Permits h a := by
  cases a with
  | gate g => cases quiet
  | _ => exact quiet

theorem record_calm {a : Action} (quiet : calm held a = true) (r : Response a) : h.record a r = h := by
  cases a with
  | gate g => cases quiet
  | _ => rfl

/-- The processor works for holders of a slot only. -/
theorem processes_held {a : Action} (permitted : Permits h a) (work : processes a = true) :
    h ≠ .none := by
  rintro rfl
  cases a with
  | file b =>
      change (!processes (.file b) || false) = true at permitted
      rw [work] at permitted
      cases permitted
  | _ => cases work

/-- A calm program keeps the slot it runs under. -/
theorem obeys_calm {p : Call α} (quiet : Calm h.held p) : p.Obeys slots (fun _ h' => h' = h) h := by
  refine Program.Only.obeys (D := slots) (· = h) quiet ?_ ?_ rfl
  · rintro l a rfl quiet
    exact permits_calm quiet
  · rintro l a r rfl quiet
    exact record_calm quiet r

section Files

theorem request_calm {a : Action} (quiet : calm held a = true) : Calm held (request a) :=
  .perform quiet

theorem removeTemporary_calm {path : GoString} : Calm held (removeTemporary path) :=
  .bind (request_calm rfl) fun _ => .pure _

theorem discard_calm {path : GoString} {e : Error} :
    Calm held (discard path e : Call (Except Error α)) :=
  .bind removeTemporary_calm fun _ => .pure _

theorem removeUnless_calm {path source : GoString} : Calm held (removeUnless path source) := by
  unfold removeUnless
  split
  · exact removeTemporary_calm
  · exact .pure _

theorem removeOptional_calm {path : Option GoString} : Calm held (removeOptional path) := by
  cases path with
  | none => exact .pure _
  | some path => exact removeTemporary_calm

theorem inspectFile_calm {ref : FileRef} {limits : Processor.Limits} :
    Calm true (inspectFile ref limits) :=
  .bind (request_calm rfl) fun _ => .pure _

theorem commitTemporary_calm {path key : GoString} : Calm held (commitTemporary path key) := by
  unfold commitTemporary
  split
  · exact .pure _
  · refine .bind (request_calm rfl) fun present => ?_
    split
    · exact .pure _
    · exact .pure _
    · exact request_calm rfl

theorem commitThumbnailTemporary_calm {path id : GoString} :
    Calm held (commitThumbnailTemporary path id) := by
  unfold commitThumbnailTemporary
  split
  · exact .pure _
  · exact request_calm rfl

theorem commitThumbnail_calm {path : Option GoString} {id : GoString} :
    Calm held (commitThumbnail path id) := by
  cases path with
  | none => exact .pure _
  | some path =>
      refine .bind commitThumbnailTemporary_calm fun committed => ?_
      split <;> exact .pure _

theorem removeKey_calm {folder : Folder} {key : GoString} : Calm held (removeKey folder key) := by
  unfold removeKey
  split
  · exact .pure _
  · exact request_calm rfl

theorem rollback_calm {key id : GoString} {committed : Bool} {e : Error} :
    Calm held (rollback key id committed e : Call (Except Error α)) := by
  refine .bind removeKey_calm fun _ => ?_
  split
  · exact .bind removeKey_calm fun _ => .pure _
  · exact .pure _

theorem stageReader_calm {defaultMaxBytes maxBytes : Int} {reader : Reader} :
    Calm held (stageReader P defaultMaxBytes reader maxBytes) := by
  refine .bind (request_calm rfl) fun made => ?_
  split
  · exact .pure _
  refine .bind (request_calm rfl) fun copied => .bind (request_calm rfl) fun closed => ?_
  repeat' split
  all_goals first | exact discard_calm | exact .pure _

/-- A repository method that only maps the error of its statement. -/
theorem mapped_calm {q : Statement} {f : Except DatabaseError q.Value → α} :
    Calm held (statement q >>= fun r => (pure (f r) : Call α)) :=
  .bind (request_calm rfl) fun _ => .pure _

end Files

section Processing

theorem prepareThumbnail_calm {input : GoString} : Calm true (prepareThumbnail input) := by
  refine .bind (request_calm rfl) fun made => ?_
  split
  · exact .pure _
  refine .bind (request_calm rfl) fun closed => ?_
  split
  · exact discard_calm
  refine .bind (request_calm rfl) fun thumbnail => ?_
  split
  · exact .pure _
  refine .bind removeTemporary_calm fun _ => ?_
  split <;> exact .pure _

theorem transformImage_calm {path : GoString} {size : Int} {options : UploadOptions}
    {metadata : Processor.Metadata} : Calm true (transformImage path size options metadata) := by
  unfold transformImage
  dsimp only
  split
  · exact .pure _
  refine .bind (request_calm rfl) fun made => ?_
  split
  · exact .pure _
  refine .bind (request_calm rfl) fun closed => ?_
  split
  · exact discard_calm
  refine .bind (request_calm rfl) fun transformed => ?_
  split
  · exact discard_calm
  refine .bind (request_calm rfl) fun size => ?_
  split
  · exact discard_calm
  split
  · exact .bind removeTemporary_calm fun _ => .pure _
  refine .bind inspectFile_calm fun inspected => ?_
  repeat' split
  all_goals first | exact discard_calm | exact .pure _

theorem prepareImage_calm {path : GoString} {size : Int} {options : UploadOptions} :
    Calm true (prepareImage path size options) := by
  refine .bind inspectFile_calm fun inspected => ?_
  split
  · exact .pure _
  refine .bind transformImage_calm fun transformed => ?_
  split
  · exact .pure _
  refine .bind prepareThumbnail_calm fun thumbnail => ?_
  split
  · exact .bind removeUnless_calm fun _ => .pure _
  · exact .pure _

theorem prepareImport_calm {path : GoString} {limits : Processor.Limits} :
    Calm true (prepareImport path limits) := by
  refine .bind inspectFile_calm fun inspected => ?_
  split
  · exact .pure _
  refine .bind prepareThumbnail_calm fun thumbnail => ?_
  split <;> exact .pure _

theorem finishConversion_calm {value : Image} {old : GoString} {thumbnail : Option GoString} :
    Calm held (finishConversion value old thumbnail) := by
  unfold finishConversion
  split
  · exact .bind commitThumbnailTemporary_calm fun _ => .bind removeKey_calm fun _ => .pure _
  · exact .bind removeKey_calm fun _ => .bind removeKey_calm fun _ => .pure _

theorem replaceContent_calm {value : Image} {old : GoString} {thumbnail : Option GoString} :
    Calm held (replaceContent value old thumbnail) := by
  refine .bind (request_calm rfl) fun _ => .bind mapped_calm fun updated => ?_
  split
  · exact .bind (request_calm rfl) fun _ => .bind removeKey_calm fun _ => .pure _
  · exact .bind (request_calm rfl) fun _ => .bind removeKey_calm fun _ => .pure _
  · exact .bind (request_calm rfl) fun _ => .bind (request_calm rfl) fun _ => finishConversion_calm

theorem publishConversion_calm {value : Image} {source metadata : Processor.Metadata}
    {stored : Int × Digest} {output : GoString} {thumbnail : Option GoString} :
    Calm held (publishConversion value source metadata stored output thumbnail) := by
  refine .bind (request_calm rfl) fun key => ?_
  split
  · exact .pure _
  refine .bind commitTemporary_calm fun committed => ?_
  split
  · exact .pure _
  · exact .bind (request_calm rfl) fun now => replaceContent_calm

theorem withThumbnail_calm
    {publish : Option GoString → Call (Except Error ConversionResult × Option GoString)}
    {thumbnail : Option GoString} (quiet : Calm held (publish thumbnail)) :
    Calm held (withThumbnail publish thumbnail) :=
  .bind quiet fun _ => .bind removeOptional_calm fun _ => .pure _

theorem convertThumbnail_calm {value : Image} {source metadata : Processor.Metadata}
    {stored : Int × Digest} {output : GoString} :
    Calm true (convertThumbnail value source metadata stored output) := by
  refine .bind (request_calm rfl) fun made => ?_
  split
  · exact .pure _
  refine .bind (request_calm rfl) fun closed => ?_
  split
  · exact discard_calm
  refine .bind (request_calm rfl) fun thumbnail => ?_
  split
  · exact withThumbnail_calm publishConversion_calm
  · split
    · exact withThumbnail_calm publishConversion_calm
    · exact discard_calm

theorem convertOutput_calm {value : Image} {source : Processor.Metadata} {options : Processor.Options}
    {output : GoString} : Calm true (convertOutput value source options output) := by
  refine .bind (request_calm rfl) fun transformed => ?_
  split
  · exact .pure _
  refine .bind inspectFile_calm fun inspected => ?_
  split
  · exact .pure _
  split
  · exact .pure _
  refine .bind (request_calm rfl) fun stored => ?_
  split
  · exact .pure _
  · exact convertThumbnail_calm

theorem convertGated_calm {id : GoString} {options : Processor.Options} :
    Calm true (convertGated id options) := by
  refine .bind mapped_calm fun found => ?_
  split
  · exact .pure _
  split
  · exact .pure _
  split
  · exact .pure _
  refine .bind inspectFile_calm fun inspected => ?_
  split
  · exact .pure _
  refine .bind (request_calm rfl) fun made => ?_
  split
  · exact .pure _
  refine .bind (request_calm rfl) fun closed => ?_
  split
  · exact discard_calm
  · exact .bind convertOutput_calm fun _ => .bind removeTemporary_calm fun _ => .pure _

end Processing

section Commits

theorem publishImage_calm {value : Image} {committed : Bool} :
    Calm held (publishImage value committed) := by
  refine .bind (request_calm rfl) fun _ => .bind (request_calm rfl) fun _ => ?_
  refine .bind mapped_calm fun created => ?_
  split
  · exact .bind (request_calm rfl) fun _ => .bind (request_calm rfl) fun _ => rollback_calm
  · exact .bind (request_calm rfl) fun _ => .bind (request_calm rfl) fun _ =>
      .bind (request_calm rfl) fun _ => .pure _

theorem commitPrepared_calm {staged : Staged} {name : GoString} {options : UploadOptions} {now : Time}
    {prepared : Prepared} : Calm held (commitPrepared staged name options now prepared) := by
  refine .bind ?_ fun stored => ?_
  · unfold storedDigest
    split
    · exact request_calm rfl
    · exact .pure _
  split
  · exact .pure _
  refine .bind (request_calm rfl) fun id => ?_
  split
  · exact .pure _
  refine .bind commitTemporary_calm fun committed => ?_
  split
  · exact .pure _
  refine .bind commitThumbnail_calm fun thumbnail => ?_
  split
  · exact rollback_calm
  · exact publishImage_calm

theorem beginAliasChange_calm {path : GoString} : Calm held (beginAliasChange path) :=
  .bind (request_calm rfl) fun _ => request_calm rfl

theorem endAliasChange_calm {path : GoString} : Calm held (endAliasChange path) :=
  .bind (request_calm rfl) fun _ => request_calm rfl

theorem publishImport_calm {value : Image} {mapping : Alias} {committed : Bool} :
    Calm held (publishImport value mapping committed) := by
  refine .bind (request_calm rfl) fun _ => .bind beginAliasChange_calm fun _ => ?_
  refine .bind mapped_calm fun created => ?_
  split
  · exact .bind endAliasChange_calm fun _ => .bind (request_calm rfl) fun _ => rollback_calm
  · exact .bind (request_calm rfl) fun _ => .bind (request_calm rfl) fun _ =>
      .bind endAliasChange_calm fun _ => .bind (request_calm rfl) fun _ => .pure _

theorem commitImport_calm {staged : Staged} {name path : GoString} {options : ImportOptions}
    {now : Time} {metadata : Processor.Metadata} {thumbnail : Option GoString} :
    Calm held (ImageSilo.commitImport staged name path options now metadata thumbnail) := by
  refine .bind (request_calm rfl) fun imageID => ?_
  split
  · exact .pure _
  refine .bind (request_calm rfl) fun aliasID => ?_
  split
  · exact .pure _
  refine .bind commitTemporary_calm fun committed => ?_
  split
  · exact .pure _
  refine .bind commitThumbnail_calm fun thumbnail => ?_
  split
  · exact rollback_calm
  · exact publishImport_calm

end Commits

section Gate

variable {β : Type}

/-- A part of a program that keeps its slot, and what follows it. -/
theorem seq_calm {p : Call α} {f : α → Call β} {Q : β → Hold → Prop} (quiet : Calm h.held p)
    (next : ∀ v, (f v).Obeys slots Q h) : (p >>= f).Obeys slots Q h := by
  refine (obeys_calm quiet).bind ?_
  rintro v h' rfl
  exact next v

theorem seq_gate {g : GateAction} {f : Bool → Call β} {Q : β → Hold → Prop}
    (permitted : Permits h (.gate g))
    (next : ∀ r, (f r).Obeys slots Q (h.record (.gate g) r)) : (gate g >>= f).Obeys slots Q h :=
  (Program.obeys_bind slots _ _ _ _).mpr ⟨permitted, fun r _ => next r⟩

theorem seq_release {f : Unit → Call β} {Q : β → Hold → Prop} (spent : h ≠ .conversion)
    (next : (f ()).Obeys slots Q .none) : (releaseLease >>= f).Obeys slots Q h := by
  refine (Program.obeys_bind slots _ _ _ _).mpr ?_
  exact seq_gate spent fun r => next

/-- A service may leave its lease active or release it. -/
theorem commitStagedUpload_obeys {staged : Staged} {name : GoString} {options : UploadOptions}
    {now : Time} :
    (commitStagedUpload staged name options now).Obeys slots (fun _ h => h ≠ .conversion) .lease := by
  unfold commitStagedUpload
  split
  · exact Hold.noConfusion
  split
  · exact Hold.noConfusion
  refine seq_gate trivial fun active => ?_
  split
  · exact Hold.noConfusion
  refine seq_calm prepareImage_calm fun prepared => seq_release Hold.noConfusion ?_
  split
  · exact Hold.noConfusion
  · refine seq_calm commitPrepared_calm fun result => seq_calm removeOptional_calm fun _ => ?_
    exact seq_calm removeUnless_calm fun _ => Hold.noConfusion

theorem importStaged_obeys {staged : Staged} {name path : GoString} {options : ImportOptions}
    {now : Time} :
    (importStaged P staged name path options now).Obeys slots (fun _ h => h ≠ .conversion) .lease := by
  unfold importStaged
  split
  · exact Hold.noConfusion
  split
  · exact Hold.noConfusion
  refine seq_gate trivial fun active => ?_
  split
  · exact Hold.noConfusion
  split
  · exact Hold.noConfusion
  split
  · exact Hold.noConfusion
  refine seq_calm mapped_calm fun found => ?_
  split
  · exact Hold.noConfusion
  · exact Hold.noConfusion
  refine seq_calm prepareImport_calm fun prepared => seq_release Hold.noConfusion ?_
  split
  · exact Hold.noConfusion
  · refine seq_calm commitImport_calm fun result => ?_
    exact seq_calm removeOptional_calm fun _ => Hold.noConfusion

/-- The end of a call: it holds nothing. -/
abbrev Free {α : Type} (_ : α) (h : Hold) : Prop := h = .none

theorem upload_obeys {reader : Reader} {name : GoString} {options : UploadOptions} {now : Time} :
    (ImageSilo.upload P reader name options now).Obeys slots Free .none := by
  unfold ImageSilo.upload
  split
  · rfl
  refine seq_gate rfl fun acquired => ?_
  cases acquired with
  | false => rfl
  | true =>
      refine seq_calm stageReader_calm fun staged => ?_
      split
      · exact seq_release Hold.noConfusion rfl
      · refine commitStagedUpload_obeys.bind ?_
        intro result h spent
        exact seq_calm removeTemporary_calm fun _ => seq_release spent rfl

theorem importImage_obeys {reader : Reader} {name path : GoString} {options : ImportOptions}
    {now : Time} : (importImage P reader name path options now).Obeys slots Free .none := by
  unfold importImage
  split
  · rfl
  refine seq_gate rfl fun acquired => ?_
  cases acquired with
  | false => rfl
  | true =>
      refine seq_calm stageReader_calm fun staged => ?_
      split
      · exact seq_release Hold.noConfusion rfl
      · refine importStaged_obeys.bind ?_
        intro result h spent
        exact seq_calm removeTemporary_calm fun _ => seq_release spent rfl

theorem convertToWebP_obeys {id : GoString} {options : Processor.Options} :
    (convertToWebP P id options).Obeys slots Free .none := by
  unfold convertToWebP
  split
  · rfl
  refine seq_calm (request_calm rfl) fun _ => ?_
  refine Program.Obeys.bind (Q := Free) ?_ ?_
  · refine seq_gate rfl fun acquired => ?_
    cases acquired with
    | false => rfl
    | true => exact seq_calm convertGated_calm fun result => seq_gate rfl fun _ => rfl
  · rintro result h rfl
    exact seq_calm (request_calm rfl) fun _ => rfl

end Gate

section Handlers

open Uploads

variable {form : Form} {settings : Setup.Settings} {tokenID : Option GoString}

theorem receiveFile_calm {stage : Reader → Int → Call (Except Error Staged)} {failure : Error → Answer}
    {single : Answer} {maxBytes : Int} {name : GoString} {content : Reader}
    (quiet : Calm held (stage content maxBytes)) :
    Calm held (receiveFile stage failure single maxBytes form name content) := by
  unfold receiveFile
  split
  · exact .pure _
  · refine .bind quiet fun staged => ?_
    split <;> exact .pure _

theorem receiveUploadPart_calm {maxBytes : Int} {part : Part} :
    Calm held (receiveUploadPart P maxBytes form part) := by
  cases part with
  | file name content => exact receiveFile_calm stageReader_calm
  | _ => exact .pure _

theorem receiveImportPart_calm {maxBytes : Int} {part : Part} :
    Calm held (receiveImportPart P maxBytes form part) := by
  cases part with
  | file name content => exact receiveFile_calm stageReader_calm
  | _ => exact .pure _

theorem receiveParts_calm {receive : Form → Part → Call (Form × Except Answer Unit)}
    {ending : Except Answer Unit} {parts : List Part}
    (quiet : ∀ form part, Calm held (receive form part)) :
    Calm held (receiveParts receive ending parts form) := by
  induction parts generalizing form with
  | nil => exact .pure _
  | cons part parts ih =>
      refine .bind (quiet form part) fun received => ?_
      split
      · exact .pure _
      · exact ih

theorem commitUpload_obeys : (commitUpload settings tokenID form).Obeys slots
    (fun _ h => h ≠ .conversion) .lease := by
  unfold commitUpload
  split
  · exact Hold.noConfusion
  dsimp only
  split
  · exact Hold.noConfusion
  refine seq_calm (request_calm rfl) fun now => commitStagedUpload_obeys.bind ?_
  intro result h spent
  split <;> exact spent

theorem commitImport_obeys : (Uploads.commitImport P settings tokenID form).Obeys slots
    (fun _ h => h ≠ .conversion) .lease := by
  unfold Uploads.commitImport
  split
  · dsimp only
    split
    · exact Hold.noConfusion
    refine seq_calm (request_calm rfl) fun now => importStaged_obeys.bind ?_
    intro result h spent
    split <;> exact spent
  · exact Hold.noConfusion

theorem receiveBody_obeys {receive : Form → Part → Call (Form × Except Answer Unit)}
    {ending : Except Answer Unit} {commit : Form → Call Answer} {parts : List Part}
    (quiet : ∀ form part, Calm true (receive form part))
    (commits : ∀ form, (commit form).Obeys slots (fun _ h => h ≠ .conversion) .lease) :
    (receiveBody receive ending commit parts).Obeys slots (fun _ h => h ≠ .conversion) .lease := by
  unfold receiveBody
  refine seq_calm (receiveParts_calm quiet) fun received => ?_
  split
  split
  · exact seq_calm removeOptional_calm fun _ => Hold.noConfusion
  · refine (commits _).bind ?_
    intro answer h spent
    exact seq_calm removeOptional_calm fun _ => spent

/-- Whatever the body leaves of the lease, the deferred release ends it. -/
theorem leased_obeys {required : Answer} {multipart : Bool} {body : Call Answer}
    (obeys : body.Obeys slots (fun _ h => h ≠ .conversion) .lease) :
    (leased required multipart body).Obeys slots Free .none := by
  unfold leased
  refine seq_gate rfl fun acquired => ?_
  cases acquired with
  | false => rfl
  | true =>
      cases multipart with
      | false => exact seq_release Hold.noConfusion rfl
      | true =>
          refine obeys.bind ?_
          intro answer h spent
          exact seq_release spent rfl

theorem uploadRequest_obeys (r : MultipartRequest) :
    (Uploads.upload P r).Obeys slots Free .none := by
  unfold Uploads.upload
  split
  · rfl
  · rfl
  · exact leased_obeys (receiveBody_obeys (fun _ _ => receiveUploadPart_calm)
      fun _ => commitUpload_obeys)

theorem importRequest_obeys (r : MultipartRequest) :
    (Uploads.create P r).Obeys slots Free .none := by
  unfold Uploads.create
  split
  · rfl
  · rfl
  · exact leased_obeys (receiveBody_obeys (fun _ _ => receiveImportPart_calm)
      fun _ => commitImport_obeys)

end Handlers

end ImageSilo.Slots
