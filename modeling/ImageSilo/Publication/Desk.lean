import ImageSilo.System.Requests

/-! The desk of a call notes the temporary files that it has been given and has neither moved nor removed.
-/
namespace ImageSilo.Publication

open Go Concurrent Storage

/-- How far a conversion has come. Other calls are not followed. -/
inductive Stage
  | unfollowed
  | reading
  | owing (value : Image)
  | published (value : Image)

def Stage.allows : Stage → Statement → Prop
  | .unfollowed, _ => True
  | .reading, .getImage _ => True
  | .reading, .updateContent _ => True
  | _, _ => False

def Stage.allowsIndex : Stage → Delivery.IndexStep → Prop
  | .unfollowed, _ => True
  | .owing v, s => s = .add v.id (Delivery.targetOf v)
  | _, _ => False

def Stage.afterStatement : Stage → (q : Statement) → Except DatabaseError q.Value → Stage
  | .reading, .updateContent v, .ok true => .owing v
  | s, _, _ => s

def Stage.afterIndex : Stage → Stage
  | .owing v => .published v
  | s => s

structure Desk where
  own : Finset GoString
  live : Finset GoString
  seen : Option GoString
  stage : Stage
  owned : live ⊆ own

def Desk.begin (stage : Stage) : Desk := ⟨∅, ∅, none, stage, Finset.empty_subset _⟩

def Desk.take (d : Desk) (path : GoString) : Desk :=
  { d with
    own := insert path d.own
    live := insert path d.live
    owned := Finset.insert_subset_insert path d.owned }

def Desk.drop (d : Desk) (path : GoString) : Desk :=
  { d with
    live := d.live.erase path
    owned := (Finset.erase_subset path d.live).trans d.owned }

def Desk.permits (d : Desk) : Action → Prop
  | .file (.write path _) => path ∈ d.live ∧ d.seen = none
  | .file (.transform _ output _ _ _) => output ∈ d.live ∧ d.seen = none
  | .file (.thumbnail _ output) => output ∈ d.live ∧ d.seen = none
  | .file (.rename path folder _) => path ∈ d.own ∧ folder ≠ .temporary
  | .file (.remove .temporary path) => path ∈ d.own
  | .statement q => d.stage.allows q
  | .index s => d.stage.allowsIndex s
  | _ => True

def Desk.reports (d : Desk) : (a : Action) → Response a → Prop
  | .file .createTemporary, .ok path => path ∉ d.own
  | _, _ => True

def Desk.record (d : Desk) : (a : Action) → Response a → Desk
  | .file .createTemporary, .ok path => d.take path
  | .file (.rename path _ _), .ok _ => d.drop path
  | .file (.remove .temporary path), _ => d.drop path
  | .file (.thumbnail _ output), .error .unavailable => { d with seen := some output }
  | .statement q, r => { d with stage := d.stage.afterStatement q r }
  | .index _, _ => { d with stage := d.stage.afterIndex }
  | _, _ => d

abbrev deskDiscipline : Discipline Action Response where
  Ledger := Desk
  Permits := Desk.permits
  Reports := Desk.reports
  record := Desk.record

/-- From this desk the program asks for permitted actions only, and ends in `Q`. -/
abbrev Tidies {α : Type} (p : Call α) (d : Desk) (Q : α → Desk → Prop) : Prop :=
  p.Obeys deskDiscipline Q d

variable {α β : Type} {d d' d'' : Desk} {P : Platform}

theorem Tidies.done {v : α} {Q : α → Desk → Prop} (q : Q v d) : Tidies (pure v) d Q := q

theorem Tidies.seq {p : Call α} {f : α → Call β} {Q : β → Desk → Prop}
    (h : Tidies p d fun v d' => Tidies (f v) d' Q) : Tidies (p >>= f) d Q :=
  (Program.obeys_bind deskDiscipline p f Q d).mpr h

theorem Tidies.bind {p : Call α} {f : α → Call β} {Q : α → Desk → Prop} {Q' : β → Desk → Prop}
    (h : Tidies p d Q) (rest : ∀ v d', Q v d' → Tidies (f v) d' Q') : Tidies (p >>= f) d Q' :=
  Program.Obeys.bind h rest

theorem Tidies.mono {p : Call α} {Q Q' : α → Desk → Prop} (h : Tidies p d Q)
    (weaker : ∀ v d', Q v d' → Q' v d') : Tidies p d Q' :=
  Program.Obeys.mono h weaker

/-- From `d` to `d'` the call has kept its names and its stage, and has at most these files left. -/
structure Desk.Leads (d d' : Desk) (live : Finset GoString) : Prop where
  live : d'.live ⊆ live
  own : d.own ⊆ d'.own
  stage : d'.stage = d.stage

theorem Desk.Leads.refl (d : Desk) : d.Leads d d.live := ⟨subset_rfl, subset_rfl, rfl⟩

theorem Desk.Leads.mono {s t : Finset GoString} (h : d.Leads d' s) (sub : s ⊆ t) : d.Leads d' t :=
  ⟨h.live.trans sub, h.own, h.stage⟩

theorem Desk.Leads.trans {s : Finset GoString} (h : d.Leads d' d'.live) (h' : d'.Leads d'' s) :
    d.Leads d'' s :=
  ⟨h'.live, h.own.trans h'.own, h'.stage.trans h.stage⟩

theorem Desk.Leads.here {s : Finset GoString} (h : d.Leads d' s) : d.Leads d' d'.live :=
  ⟨subset_rfl, h.own, h.stage⟩

theorem Desk.Leads.take (h : d.Leads d' d'.live) (path : GoString) :
    d.Leads (d'.take path) (insert path d'.live) :=
  ⟨subset_rfl, h.own.trans (Finset.subset_insert path d'.own), h.stage⟩

theorem Desk.Leads.drop {s : Finset GoString} (h : d.Leads d' s) (path : GoString) :
    d.Leads (d'.drop path) (s.erase path) :=
  ⟨Finset.erase_subset_erase path h.live, h.own, h.stage⟩

section Actions

/-- A step that the desk does not note. -/
theorem request_tidies {a : Action} {Q : Response a → Desk → Prop} (permitted : d.permits a)
    (same : ∀ r, d.record a r = d) (next : ∀ r, Q r d) : Tidies (request a) d Q := by
  refine ⟨permitted, ?_⟩
  intro r _
  change Q r (d.record a r)
  rw [same]
  exact next r

theorem createTemporary_tidies {Q : Except Error GoString → Desk → Prop}
    (failed : ∀ e, Q (.error e) d) (made : ∀ path, path ∉ d.own → Q (.ok path) (d.take path)) :
    Tidies createTemporary d Q := by
  refine ⟨trivial, ?_⟩
  intro r report
  cases r with
  | error e => exact failed e
  | ok path => exact made path report

theorem closeTemporary_tidies {Q : Except Error Unit → Desk → Prop} {path : GoString}
    (next : ∀ r, Q r d) : Tidies (closeTemporary path) d Q :=
  request_tidies trivial (fun _ => rfl) next

theorem removeTemporary_tidies {Q : Unit → Desk → Prop} {path : GoString} (mine : path ∈ d.own)
    (next : Q () (d.drop path)) : Tidies (removeTemporary path) d Q :=
  .seq ⟨mine, fun _ _ => next⟩

theorem discard_tidies {Q : Except Error α → Desk → Prop} {path : GoString} {e : Error}
    (mine : path ∈ d.own) (next : Q (.error e) (d.drop path)) : Tidies (discard path e) d Q :=
  .seq (removeTemporary_tidies mine next)

theorem rename_tidies {Q : Except Error Unit → Desk → Prop} {path key : GoString} {folder : Folder}
    (mine : path ∈ d.own) (other : folder ≠ .temporary) (failed : ∀ e, Q (.error e) d)
    (moved : Q (.ok ()) (d.drop path)) : Tidies (file (.rename path folder key)) d Q := by
  refine ⟨⟨mine, other⟩, ?_⟩
  intro r _
  cases r with
  | error e => exact failed e
  | ok u => exact moved

theorem commitTemporary_tidies {Q : Except Error Unit → Desk → Prop} {path key : GoString}
    (mine : path ∈ d.own) (failed : ∀ e, Q (.error e) d) (moved : Q (.ok ()) (d.drop path)) :
    Tidies (commitTemporary path key) d Q := by
  unfold commitTemporary
  split
  · exact failed _
  · refine .seq (request_tidies trivial (fun _ => rfl) ?_)
    intro present
    match present with
    | .error e => exact failed e
    | .ok true => exact failed _
    | .ok false => exact rename_tidies mine (by simp) failed moved

theorem commitThumbnailTemporary_tidies {Q : Except Error Unit → Desk → Prop} {path id : GoString}
    (mine : path ∈ d.own) (failed : ∀ e, Q (.error e) d) (moved : Q (.ok ()) (d.drop path)) :
    Tidies (commitThumbnailTemporary path id) d Q := by
  unfold commitThumbnailTemporary
  split
  · exact failed _
  · exact rename_tidies mine (by simp) failed moved

theorem removeKey_tidies {Q : Except Error Unit → Desk → Prop} {folder : Folder} {key : GoString}
    (other : folder ≠ .temporary) (next : ∀ r, Q r d) : Tidies (removeKey folder key) d Q := by
  unfold removeKey
  split
  · exact next _
  · cases folder with
    | temporary => exact absurd rfl other
    | images => exact request_tidies trivial (fun _ => rfl) next
    | thumbnails => exact request_tidies trivial (fun _ => rfl) next

theorem inspectFile_tidies {Q : Except Error Processor.Metadata → Desk → Prop} {ref : FileRef}
    {limits : Processor.Limits} (next : ∀ r, Q r d) : Tidies (inspectFile ref limits) d Q := by
  refine .seq (request_tidies trivial (fun _ => rfl) ?_)
  exact fun r => next _

theorem sync_tidies {Q : Unit → Desk → Prop} {s : Sync} (next : Q () d) : Tidies (sync s) d Q :=
  request_tidies trivial (fun _ => rfl) fun _ => next

theorem gate_tidies {Q : Bool → Desk → Prop} {g : GateAction} (next : ∀ b, Q b d) :
    Tidies (gate g) d Q :=
  request_tidies trivial (fun _ => rfl) next

theorem releaseLease_tidies {Q : Unit → Desk → Prop} (next : Q () d) :
    Tidies releaseLease d Q :=
  .seq (gate_tidies fun _ => next)

theorem newUUID_tidies {Q : Except Error GoString → Desk → Prop} (next : ∀ r, Q r d) :
    Tidies newUUID d Q :=
  request_tidies trivial (fun _ => rfl) next

/-- Statements and index steps of calls that are not followed. -/
theorem unfollowed_tidies {a : Action} {Q : Response a → Desk → Prop}
    (unfollowed : d.stage = .unfollowed) (about : (∃ q, a = .statement q) ∨ ∃ s, a = .index s)
    (next : ∀ r, Q r d) : Tidies (request a) d Q := by
  obtain ⟨own, live, seen, stage, owned⟩ := d
  obtain rfl : stage = .unfollowed := unfollowed
  rcases about with ⟨q, rfl⟩ | ⟨s, rfl⟩
  · exact request_tidies trivial (fun _ => rfl) next
  · exact request_tidies trivial (fun _ => rfl) next

end Actions

end ImageSilo.Publication
