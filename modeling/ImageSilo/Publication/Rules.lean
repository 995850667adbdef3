import ImageSilo.Publication.Ledger

/-! One rule for each call that services are made of: it is permitted, and its answers lead on to these
ledgers. -/
namespace ImageSilo.Publication

open Go Concurrent Storage

/-- From ledger `l` the program asks for permitted actions only, and ends in `Q`. -/
abbrev Walks (P : Platform) {α : Type} (p : Call α) (l : Ledger) (Q : α → Ledger → Prop) : Prop :=
  p.Obeys (discipline P) Q l

variable {P : Platform} {α β : Type} {l : Ledger}

theorem Walks.done {v : α} {Q : α → Ledger → Prop} (q : Q v l) : Walks P (pure v) l Q := q

theorem Walks.seq {p : Call α} {f : α → Call β} {Q : β → Ledger → Prop}
    (h : Walks P p l fun v l' => Walks P (f v) l' Q) : Walks P (p >>= f) l Q :=
  (Program.obeys_bind (discipline P) p f Q l).mpr h

theorem Walks.bind {p : Call α} {f : α → Call β} {Q : α → Ledger → Prop} {Q' : β → Ledger → Prop}
    (h : Walks P p l Q) (rest : ∀ v l', Q v l' → Walks P (f v) l' Q') : Walks P (p >>= f) l Q' :=
  Program.Obeys.bind h rest

theorem Walks.mono {p : Call α} {Q Q' : α → Ledger → Prop} (h : Walks P p l Q)
    (weaker : ∀ v l', Q v l' → Q' v l') : Walks P p l Q' :=
  Program.Obeys.mono h weaker

theorem request_walks {a : Action} {Q : Response a → Ledger → Prop} (permitted : l.permits P a)
    (next : ∀ r, l.reports a r → Q r (l.record P a r)) : Walks P (request a) l Q :=
  ⟨permitted, next⟩

theorem at_record {l l' : Ledger} {Q : α → Ledger → Prop} {v : α} (same : l' = l) (q : Q v l) :
    Q v l' := by
  rw [same]
  exact q

section Locks

variable {Q : Unit → Ledger → Prop}

theorem sync_walks {s : Sync} (idle : l.owes = []) (allowed : l.allowsSync s)
    (next : Q () (l.recordSync s)) : Walks P (sync s) l Q :=
  ⟨⟨idle, allowed⟩, fun _ _ => next⟩

theorem gate_walks {g : GateAction} {Q : Bool → Ledger → Prop} (idle : l.owes = [])
    (next : ∀ b, Q b l) : Walks P (gate g) l Q :=
  ⟨idle, fun b _ => next b⟩

theorem releaseLease_walks (idle : l.owes = []) (next : Q () l) : Walks P releaseLease l Q :=
  .seq (gate_walks idle fun _ => next)

theorem beginAliasChange_walks {path : GoString} (idle : l.owes = []) (noPath : l.path = none)
    (free : l.hold = .free) (next : Q () { l with path := some path, hold := .shared }) :
    Walks P (beginAliasChange path) l Q :=
  .seq (sync_walks idle ⟨noPath, free⟩ (sync_walks idle free next))

theorem endAliasChange_walks {path : GoString} (idle : l.owes = []) (held : l.path = some path)
    (shared : l.hold = .shared) (next : Q () { l with path := none, hold := .free }) :
    Walks P (endAliasChange path) l Q :=
  .seq (sync_walks idle shared (sync_walks idle ⟨held, rfl⟩ next))

theorem index_walks {s : Delivery.IndexStep} {rest : List Delivery.IndexStep}
    (owed : l.owes = s :: rest) (next : Q () (l.recordIndex s)) : Walks P (index s) l Q :=
  ⟨.inl ⟨rest, owed⟩, fun _ _ => next⟩

end Locks

section Files

theorem createTemporary_walks {Q : Except Error GoString → Ledger → Prop} (idle : l.owes = [])
    (failed : ∀ e, Q (.error e) l)
    (made : ∀ path, l.temps path = none → Q (.ok path) (l.know path .nothing)) :
    Walks P createTemporary l Q := by
  refine ⟨⟨idle, trivial⟩, ?_⟩
  intro r report
  cases r with
  | error e => exact failed e
  | ok path => exact made path report

theorem write_walks {Q : Except Error Unit → Ledger → Prop} {path : GoString} {content : Bytes}
    (idle : l.owes = []) (owned : l.temps path ≠ none)
    (failed : ∀ e, Q (.error e) (l.know path .nothing))
    (written : Q (.ok ())
      (l.know path ⟨some content.length, some (P.sha256 content), none⟩)) :
    Walks P (file (.write path content)) l Q := by
  refine ⟨⟨idle, owned⟩, ?_⟩
  intro r _
  cases r with
  | error e => exact failed e
  | ok u => exact written

theorem transform_walks {Q : Except Processor.Error Unit → Ledger → Prop} {input : FileRef}
    {output : GoString} {metadata : Processor.Metadata} {options : Processor.Options}
    {plan : Processor.Plan} (idle : l.owes = []) (owned : l.temps output ≠ none)
    (next : ∀ r, Q r (l.know output .nothing)) :
    Walks P (file (.transform input output metadata options plan)) l Q :=
  ⟨⟨idle, owned⟩, fun r _ => next r⟩

theorem thumbnail_walks {Q : Except Processor.Error Unit → Ledger → Prop} {input : FileRef}
    {output : GoString} (idle : l.owes = []) (owned : l.temps output ≠ none)
    (next : ∀ r, Q r (l.know output .nothing)) :
    Walks P (file (.thumbnail input output)) l Q :=
  ⟨⟨idle, owned⟩, fun r _ => next r⟩

theorem statTemporary_walks {Q : Except Error Int → Ledger → Prop} {path : GoString}
    (idle : l.owes = []) (next : ∀ r, Q r l) : Walks P (file (.statTemporary path)) l Q :=
  ⟨⟨idle, trivial⟩, fun r _ => next r⟩

theorem closeTemporary_walks {Q : Except Error Unit → Ledger → Prop} {path : GoString}
    (idle : l.owes = []) (next : ∀ r, Q r l) : Walks P (closeTemporary path) l Q :=
  ⟨⟨idle, trivial⟩, fun r _ => next r⟩

theorem removeTemporary_walks {Q : Unit → Ledger → Prop} {path : GoString} (idle : l.owes = [])
    (owned : l.temps path ≠ none) (next : Q () l) : Walks P (removeTemporary path) l Q :=
  .seq ⟨⟨idle, .inl owned⟩, fun _ _ => next⟩

theorem discard_walks {Q : Except Error α → Ledger → Prop} {path : GoString} {e : Error}
    (idle : l.owes = []) (owned : l.temps path ≠ none) (next : Q (.error e) l) :
    Walks P (discard path e) l Q :=
  .seq (removeTemporary_walks idle owned next)

theorem removeUnless_walks {Q : Unit → Ledger → Prop} {path source : GoString}
    (idle : l.owes = []) (owned : l.temps path ≠ none) (next : Q () l) :
    Walks P (removeUnless path source) l Q := by
  unfold removeUnless
  split
  · exact removeTemporary_walks idle owned next
  · exact next

theorem removeOptional_walks {Q : Unit → Ledger → Prop} {path : Option GoString}
    (idle : l.owes = []) (owned : ∀ p ∈ path, l.temps p ≠ none) (next : Q () l) :
    Walks P (removeOptional path) l Q := by
  cases path with
  | none => exact next
  | some p => exact removeTemporary_walks idle (owned p rfl) next

theorem inspectTemporary_walks {Q : Except Error Processor.Metadata → Ledger → Prop}
    {path : GoString} {limits : Processor.Limits} {f : Facts} (idle : l.owes = [])
    (owned : l.temps path = some f) (failed : ∀ e, Q (.error e) l)
    (found : ∀ metadata : Processor.Metadata,
      Q (.ok metadata) (l.know path { f with mime := some metadata.mimeType })) :
    Walks P (inspectFile (.temporary path) limits) l Q := by
  refine .seq ⟨⟨idle, trivial⟩, ?_⟩
  intro r _
  cases r with
  | error e => exact failed _
  | ok metadata =>
      refine .done ?_
      have same : l.recordFile P (.inspect (.temporary path) limits) (.ok metadata) =
          l.know path { f with mime := some metadata.mimeType } := Ledger.recordFile_inspect owned
      exact at_record (Q := Q) same (found metadata)

theorem inspectStored_walks {Q : Except Error Processor.Metadata → Ledger → Prop}
    {key : GoString} {limits : Processor.Limits} (idle : l.owes = []) (next : ∀ r, Q r l) :
    Walks P (inspectFile (.stored key) limits) l Q := by
  refine .seq ⟨⟨idle, trivial⟩, ?_⟩
  intro r _
  cases r with
  | error e => exact next _
  | ok metadata => exact next _

theorem hashFile_walks {Q : Except Error (Int × Digest) → Ledger → Prop} {path : GoString}
    {f : Facts} (idle : l.owes = []) (owned : l.temps path = some f)
    (failed : ∀ e, Q (.error e) l)
    (found : ∀ stored : Int × Digest,
      Q (.ok stored) (l.know path { f with size := some stored.1, digest := some stored.2 })) :
    Walks P (hashFile path) l Q := by
  refine ⟨⟨idle, trivial⟩, ?_⟩
  intro r _
  cases r with
  | error e => exact failed e
  | ok stored =>
      have same : l.recordFile P (.hash path) (.ok stored) =
          l.know path { f with size := some stored.1, digest := some stored.2 } :=
        Ledger.recordFile_hash owned
      exact at_record (Q := Q) same (found stored)

theorem commitTemporary_walks {Q : Except Error Unit → Ledger → Prop} {path key : GoString}
    {f : Facts} (idle : l.owes = []) (owned : l.temps path = some f) (fresh : key ∈ l.pending)
    (empty : l.placed = none) (failed : ∀ e, Q (.error e) l)
    (moved : validKey key = true → Q (.ok ())
      { l.know path .nothing with placed := some (key, f), pending := l.pending.erase key }) :
    Walks P (commitTemporary path key) l Q := by
  unfold commitTemporary
  split
  · exact failed _
  · rename_i valid
    have valid : validKey key = true := by simpa using valid
    refine .seq ⟨⟨idle, trivial⟩, ?_⟩
    intro present _
    match present with
    | .error e => exact failed e
    | .ok true => exact failed _
    | .ok false =>
        have mine : l.temps path ≠ none := by
          rw [owned]
          exact Option.some_ne_none f
        refine ⟨⟨idle, mine, fresh, empty, valid⟩, ?_⟩
        intro r _
        cases r with
        | error e => exact failed e
        | ok u =>
            have same : l.recordFile P (.rename path .images key) (.ok u) =
                { l.know path .nothing with
                  placed := some (key, f), pending := l.pending.erase key } :=
              Ledger.recordFile_rename owned
            exact at_record (Q := Q) same (moved valid)

theorem commitThumbnailTemporary_walks {Q : Except Error Unit → Ledger → Prop}
    {path id : GoString} (idle : l.owes = []) (owned : l.temps path ≠ none)
    (mine : (∃ f, l.placed = some (id, f)) ∨ l.image = some id) (failed : ∀ e, Q (.error e) l)
    (moved : validKey id = true → Q (.ok ()) { l.know path .nothing with thumb := some id }) :
    Walks P (commitThumbnailTemporary path id) l Q := by
  unfold commitThumbnailTemporary
  split
  · exact failed _
  · rename_i valid
    refine ⟨⟨idle, owned, mine⟩, ?_⟩
    intro r _
    cases r with
    | error e => exact failed e
    | ok u => exact moved (by simpa using valid)

/-- The undoing of a commit that has no row yet. -/
theorem removePlaced_walks {Q : Except Error Unit → Ledger → Prop} {key : GoString} {f : Facts}
    (idle : l.owes = []) (valid : validKey key = true) (placed : l.placed = some (key, f))
    (next : ∀ r, Q r { l with placed := none }) : Walks P (removeKey .images key) l Q := by
  unfold removeKey
  rw [if_neg (by simp [valid])]
  refine ⟨⟨idle, .inl ⟨f, placed⟩⟩, ?_⟩
  intro r _
  have same : l.recordFile P (.remove .images key) r = { l with placed := none } := by
    rw [Ledger.recordFile_removeImage, if_pos (by rw [placed, Option.map_some])]
  exact at_record (Q := Q) same (next r)

theorem removeDead_walks {Q : Except Error Unit → Ledger → Prop} {key : GoString}
    (idle : l.owes = []) (dead : l.dead = some key) (placed : l.placed = none)
    (next : ∀ r, Q r l) : Walks P (removeKey .images key) l Q := by
  unfold removeKey
  split
  · exact next _
  · refine ⟨⟨idle, .inr (.inl dead)⟩, ?_⟩
    intro r _
    have same : l.recordFile P (.remove .images key) r = l := by
      rw [Ledger.recordFile_removeImage, if_neg (by simp [placed])]
    exact at_record (Q := Q) same (next r)

theorem removeThumb_walks {Q : Except Error Unit → Ledger → Prop} {id : GoString}
    (idle : l.owes = []) (valid : validKey id = true) (thumb : l.thumb = some id)
    (next : ∀ r, Q r { l with thumb := none }) : Walks P (removeKey .thumbnails id) l Q := by
  unfold removeKey
  rw [if_neg (by simp [valid])]
  refine ⟨⟨idle, .inl thumb⟩, ?_⟩
  intro r _
  have same : l.recordFile P (.remove .thumbnails id) r = { l with thumb := none } := by
    rw [Ledger.recordFile_removeThumbnail, if_pos thumb]
  exact at_record (Q := Q) same (next r)

theorem removeOtherThumb_walks {Q : Except Error Unit → Ledger → Prop} {id : GoString}
    (idle : l.owes = []) (locked : l.image = some id) (thumb : l.thumb = none)
    (next : ∀ r, Q r l) : Walks P (removeKey .thumbnails id) l Q := by
  unfold removeKey
  split
  · exact next _
  · refine ⟨⟨idle, .inr (.inl locked)⟩, ?_⟩
    intro r _
    have same : l.recordFile P (.remove .thumbnails id) r = l := by
      rw [Ledger.recordFile_removeThumbnail, if_neg (by simp [thumb])]
    exact at_record (Q := Q) same (next r)

end Files

section Random

theorem clockNow_walks {Q : Time → Ledger → Prop} (idle : l.owes = [])
    (next : ∀ t, Q t { l with time := some t }) : Walks P clockNow l Q :=
  ⟨idle, fun t _ => next t⟩

theorem newUUID_walks {Q : Except Error GoString → Ledger → Prop} (idle : l.owes = [])
    (failed : ∀ e, Q (.error e) l)
    (made : ∀ id, id ∉ l.pending → Q (.ok id) { l with pending := insert id l.pending }) :
    Walks P newUUID l Q := by
  refine ⟨idle, ?_⟩
  intro r report
  cases r with
  | error e => exact failed e
  | ok id => exact made id report

end Random

section Statements

theorem statement_walks {q : Statement} {Q : Except DatabaseError q.Value → Ledger → Prop}
    (idle : l.owes = []) (allowed : l.allows P q)
    (next : ∀ r, l.reports (.statement q) r → Q r (l.recordStatement P q r)) :
    Walks P (statement q) l Q :=
  ⟨⟨idle, allowed⟩, next⟩

theorem createImage_walks {Q : Except Error Unit → Ledger → Prop} {v : Image}
    (idle : l.owes = []) (allowed : l.allows P (.createImage v)) (failed : ∀ e, Q (.error e) l)
    (made : Q (.ok ())
      { l with
        owes := [.add v.id (Delivery.targetOf v)], placed := none, thumb := none,
        inserted := some v }) : Walks P (createImage v) l Q := by
  refine .seq (statement_walks idle allowed ?_)
  intro r _
  cases r with
  | error e => exact failed _
  | ok u => exact made

theorem createImport_walks {Q : Except Error Unit → Ledger → Prop} {v : Image} {a : Alias}
    (idle : l.owes = []) (allowed : l.allows P (.createImport v a)) (failed : ∀ e, Q (.error e) l)
    (made : Q (.ok ())
      { l with
        owes := [.add v.id (Delivery.targetOf v), .addAlias a.path v.id], placed := none,
        thumb := none, inserted := some v, aliased := some a, pending := l.pending.erase a.id }) :
    Walks P (createImport v a) l Q := by
  refine .seq (statement_walks idle allowed ?_)
  intro r _
  cases r with
  | error e => exact failed _
  | ok u => exact made

theorem getImage_walks {Q : Except Error Image → Ledger → Prop} {id : GoString}
    (idle : l.owes = []) (locked : l.image = some id) (failed : ∀ e, Q (.error e) l)
    (found : ∀ v : Image, v.id = id → Q (.ok v) { l with row := some v }) :
    Walks P (getImage id) l Q := by
  refine .seq (statement_walks idle trivial ?_)
  intro r report
  cases r with
  | error e => exact failed _
  | ok v =>
      have same : l.recordStatement P (.getImage id) (.ok v) = { l with row := some v } :=
        Ledger.recordStatement_getImage locked
      exact at_record (Q := Q) same (found v report)

theorem deleteImageRow_walks {Q : Except Error Image → Ledger → Prop} {id : GoString}
    (idle : l.owes = []) (allowed : l.allows P (.deleteImage id))
    (failed : ∀ e, e ≠ .imageNotFound → Q (.error e) l)
    (missing : Q (.error .imageNotFound) { l with erased := some id })
    (deleted : ∀ v : Image, Q (.ok v)
      { l with owes := [.removeImage id], dead := some v.storageKey, row := none }) :
    Walks P (deleteImageRow id) l Q := by
  refine .seq (statement_walks idle allowed ?_)
  intro r _
  match r with
  | .error .noRows => exact missing
  | .error .unique => exact failed _ (by simp [imageError])
  | .error .failed => exact failed _ (by simp [imageError])
  | .ok v => exact deleted v

theorem updateVisibility_walks {Q : Except Error Bool → Ledger → Prop} {id : GoString}
    {visibility : Visibility} (idle : l.owes = [])
    (allowed : l.allows P (.updateVisibility id visibility)) (failed : ∀ e, Q (.error e) l)
    (missing : Q (.ok false) l)
    (updated : Q (.ok true)
      { l with
        owes := [.updateVisibility id visibility], changed := some (id, visibility),
        row := none }) : Walks P (updateVisibility id visibility) l Q := by
  refine .seq (statement_walks idle allowed ?_)
  intro r _
  match r with
  | .error e => exact failed _
  | .ok false => exact missing
  | .ok true => exact updated

theorem updateContent_walks {Q : Except Error Bool → Ledger → Prop} {v : Image}
    (idle : l.owes = []) (allowed : l.allows P (.updateContent v)) (failed : ∀ e, Q (.error e) l)
    (missing : Q (.ok false) l)
    (updated : Q (.ok true)
      { l with
        owes := [.add v.id (Delivery.targetOf v)], placed := none,
        dead := l.row.map Image.storageKey, row := none }) :
    Walks P (updateContent v) l Q := by
  refine .seq (statement_walks idle allowed ?_)
  intro r _
  match r with
  | .error e => exact failed _
  | .ok false => exact missing
  | .ok true => exact updated

theorem createAliasRow_walks {Q : Except Error Unit → Ledger → Prop} {a : Alias}
    (idle : l.owes = []) (allowed : l.allows P (.createAlias a)) (failed : ∀ e, Q (.error e) l)
    (made : Q (.ok ())
      { l with
        owes := [.addAlias a.path a.imageID], aliased := some a,
        pending := l.pending.erase a.id }) : Walks P (createAliasRow a) l Q := by
  refine .seq (statement_walks idle allowed ?_)
  intro r _
  match r with
  | .error e => exact failed _
  | .ok false => exact failed _
  | .ok true => exact made

theorem pathByID_walks {Q : Except Error GoString → Ledger → Prop} {id : GoString}
    (idle : l.owes = []) (failed : ∀ e, e ≠ .aliasNotFound → Q (.error e) l)
    (missing : Q (.error .aliasNotFound) { l with unaliased := some id })
    (found : ∀ path, Q (.ok path) { l with mapping := some (id, path) }) :
    Walks P (pathByID id) l Q := by
  refine .seq (statement_walks idle trivial ?_)
  intro r _
  match r with
  | .error .noRows => exact missing
  | .error .unique => exact failed _ (by simp [aliasError])
  | .error .failed => exact failed _ (by simp [aliasError])
  | .ok path => exact found path

theorem deleteAliasRow_walks {Q : Except Error GoString → Ledger → Prop} {id : GoString}
    (idle : l.owes = []) (allowed : l.allows P (.deleteAlias id))
    (failed : ∀ e, e ≠ .aliasNotFound → Q (.error e) l)
    (missing : Q (.error .aliasNotFound) { l with unaliased := some id })
    (deleted : ∀ path, l.path = some path →
      Q (.ok path) { l with owes := [.removeAlias path] }) : Walks P (deleteAliasRow id) l Q := by
  refine .seq (statement_walks idle allowed ?_)
  intro r report
  match r with
  | .error .noRows => exact missing
  | .error .unique => exact failed _ (by simp [aliasError])
  | .error .failed => exact failed _ (by simp [aliasError])
  | .ok path => exact deleted path report

theorem aliasExists_walks {Q : Except Error Bool → Ledger → Prop} {path : GoString}
    (idle : l.owes = []) (next : ∀ r, Q r l) : Walks P (aliasExists path) l Q := by
  refine .seq (statement_walks idle trivial ?_)
  intro r _
  cases r with
  | error e => exact next _
  | ok b => exact next _

end Statements

end ImageSilo.Publication
