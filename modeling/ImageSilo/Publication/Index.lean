import ImageSilo.Publication.Soundness

/-! What index steps, readings and placements do to the index, to a ledger and to the images directory. -/
namespace ImageSilo.Publication

open Go Concurrent Storage Tables Delivery

section Lookups

variable (x : Index) (id other path : GoString) (t : Target)

@[simp] theorem add_target : ((IndexStep.add id t).apply x).byID.lookup other =
    if other = id then some t else x.byID.lookup other :=
  lookup_insert_ite x.byID id other t

@[simp] theorem add_aliases : ((IndexStep.add id t).apply x).aliases = x.aliases := rfl

@[simp] theorem updateVisibility_target (visibility : Visibility) :
    ((IndexStep.updateVisibility id visibility).apply x).byID.lookup other =
      if other = id then (x.byID.lookup id).map fun t => { t with visibility := visibility }
      else x.byID.lookup other := by
  dsimp only [IndexStep.apply]
  cases known : x.byID.lookup id with
  | none =>
      by_cases same : other = id
      · rw [if_pos same, same, known]
        rfl
      · rw [if_neg same]
  | some t => exact lookup_insert_ite x.byID id other _

@[simp] theorem updateVisibility_aliases (visibility : Visibility) :
    ((IndexStep.updateVisibility id visibility).apply x).aliases = x.aliases := by
  dsimp only [IndexStep.apply]
  split <;> rfl

@[simp] theorem addAlias_byID : ((IndexStep.addAlias path id).apply x).byID = x.byID := by
  dsimp only [IndexStep.apply]
  split <;> rfl

@[simp] theorem addAlias_alias : ((IndexStep.addAlias path id).apply x).aliases.lookup other =
    if other = path ∧ (x.byID.lookup id).isSome then some id else x.aliases.lookup other := by
  dsimp only [IndexStep.apply]
  by_cases known : (x.byID.lookup id).isSome
  · rw [if_pos known, lookup_insert_ite]
    simp only [known, and_true]
  · rw [if_neg known, if_neg fun both => known both.2]

@[simp] theorem removeAlias_byID : ((IndexStep.removeAlias path).apply x).byID = x.byID := rfl

@[simp] theorem removeAlias_alias : ((IndexStep.removeAlias path).apply x).aliases.lookup other =
    if other = path then none else x.aliases.lookup other :=
  lookup_erase_ite x.aliases path other

@[simp] theorem removeImage_target : ((IndexStep.removeImage id).apply x).byID.lookup other =
    if other = id then none else x.byID.lookup other :=
  lookup_erase_ite x.byID id other

@[simp] theorem removeImage_alias : ((IndexStep.removeImage id).apply x).aliases.lookup other =
    (x.aliases.lookup other).filter fun imageID => imageID != id :=
  lookup_keep _ x.aliases other

@[simp] theorem replaceAll_byID (snapshot : Snapshot) :
    ((IndexStep.replaceAll snapshot).apply x).byID = snapshot.targets := rfl

@[simp] theorem replaceAll_aliases (snapshot : Snapshot) :
    ((IndexStep.replaceAll snapshot).apply x).aliases = snapshot.aliases := rfl

end Lookups

section Entries

variable {P : Platform} {requests : Nat → Request} {σ σ' : State} {ls : Nat → Ledger} {i : Nat}
  {a : Action} {c : Choice} {r : Response a} {id : GoString} {t : Target}

/-- How the target came to be under its identifier at an action: it was there, a step that the call owed
has shown or added it, or a rebuild has loaded it from a row. -/
inductive Entered (σ : State) (l : Ledger) (a : Action) (id : GoString) (t : Target) : Prop
  | kept : σ.index.byID.lookup id = some t → a ≠ .index (.removeImage id) →
      (∀ visibility, a ≠ .index (.updateVisibility id visibility)) → Entered σ l a id t
  | shown (visibility : Visibility) (old : Target) : a = .index (.updateVisibility id visibility) →
      IndexStep.updateVisibility id visibility ∈ l.owes → σ.index.byID.lookup id = some old →
      t = { old with visibility := visibility } → Entered σ l a id t
  | added : IndexStep.add id t ∈ l.owes → Entered σ l a id t
  | loaded (v : Image) : v ∈ σ.database.images → v.id = id → t = targetOfRow (deliveryRow v) →
      Entered σ l a id t

theorem index_entered (sound : Sound P requests σ ls) (permitted : (ls i).permits P a)
    (performed : σ.perform P i a c = some (r, σ')) (there : σ'.index.byID.lookup id = some t) :
    Entered σ (ls i) a id t := by
  cases a with
  | index s =>
      cases performed
      change (s.apply σ.index).byID.lookup id = some t at there
      rcases permitted with ⟨rest, owed⟩ | ⟨-, L, ready, rfl⟩
      · cases s with
        | add id' t' =>
            rw [add_target] at there
            split at there
            · rename_i same
              cases there
              exact .added (by simp [owed, same])
            · exact .kept there (by simp) (by simp)
        | updateVisibility id' visibility =>
            rw [updateVisibility_target] at there
            split at there
            · rename_i same
              subst same
              obtain ⟨old, known, rfl⟩ := Option.map_eq_some_iff.mp there
              exact .shown visibility old rfl (by simp [owed]) known rfl
            · rename_i other
              refine .kept there (by simp) ?_
              rintro _ ⟨⟩
              exact other rfl
        | addAlias path id' =>
            rw [addAlias_byID] at there
            exact .kept there (by simp) (by simp)
        | removeAlias path => exact .kept there (by simp) (by simp)
        | removeImage id' =>
            rw [removeImage_target] at there
            split at there
            · cases there
            · rename_i other
              refine .kept there ?_ (by simp)
              rintro ⟨⟩
              exact other rfl
        | replaceAll snapshot =>
            exact ((sound.coherent i).backed (.replaceAll snapshot) (by simp [owed])).elim
      · -- a rebuild has loaded the targets of the present rows
        have reads := sound.reads i
        rw [ready] at reads
        obtain ⟨v, member, own, same⟩ := reads id t there
        exact .loaded v member own same
  | _ =>
      rw [(perform_frame performed).index (by simp)] at there
      exact .kept there (by simp) (by simp)

end Entries

section Debts

variable {P : Platform} {l : Ledger}

theorem recordIndex_owes (l : Ledger) (s : IndexStep) : (l.recordIndex s).owes = l.owes.tail := by
  unfold Ledger.recordIndex
  cases owed : l.owes with
  | nil => cases s <;> rfl
  | cons first rest => cases s <;> rfl

/-- Only a statement makes a call owe an index step. -/
theorem record_owes {a : Action} {r : Response a} (other : ∀ q, a ≠ .statement q) :
    ∀ s ∈ (l.record P a r).owes, s ∈ l.owes := by
  intro s member
  cases a with
  | statement q => exact absurd rfl (other q)
  | sync s =>
      obtain ⟨_, _, _, _, _, eq⟩ := recordSync_frame l s
      rwa [Ledger.record, eq] at member
  | index s' =>
      rw [Ledger.record, recordIndex_owes] at member
      exact List.mem_of_mem_tail member
  | file b =>
      obtain ⟨_, _, _, _, _, _, _, eq⟩ := recordFile_frame (P := P) l b r
      rwa [Ledger.record, eq] at member
  | newUUID => cases r <;> exact member
  | _ => exact member

/-- Nothing but a lookup in the index changes what has been looked up. -/
theorem record_looked (l : Ledger) (a : Action) (r : Response a)
    (target : ∀ id, a ≠ .getTarget id) (mapped : ∀ path, a ≠ .getAlias path) :
    (l.record P a r).looked = l.looked := by
  cases a with
  | getTarget id => exact absurd rfl (target id)
  | getAlias path => exact absurd rfl (mapped path)
  | sync s =>
      obtain ⟨_, _, _, _, _, eq⟩ := recordSync_frame l s
      rw [Ledger.record, eq]
  | statement q =>
      obtain ⟨_, _, _, _, _, _, _, _, _, _, _, _, _, _, eq⟩ := recordStatement_frame (P := P) l q r
      rw [Ledger.record, eq]
  | index s =>
      obtain ⟨_, _, _, _, eq⟩ := recordIndex_frame l s
      rw [Ledger.record, eq]
  | file b =>
      obtain ⟨_, _, _, _, _, _, _, eq⟩ := recordFile_frame (P := P) l b r
      rw [Ledger.record, eq]
  | newUUID => cases r <;> rfl
  | _ => rfl

/-- Outside a rebuild, opening a file is what sets what has been opened. -/
theorem openImage_opened {key : GoString} (l : Ledger) (r : Except OpenError Bytes) :
    (l.progress = .idle ∧ (l.record P (.file (.openImage key)) r).opened = some r) ∨
      l.progress ≠ .idle := by
  by_cases idle : l.progress = .idle
  · refine .inl ⟨idle, ?_⟩
    simp only [Ledger.record, Ledger.recordFile, idle]
  · exact .inr idle

theorem openImage_rows {key : GoString} {l : Ledger} {row : DeliveryRow} {rest : List DeliveryRow}
    {L : Loading} (loading : l.progress = .rows (row :: rest) L) (r : Except OpenError Bytes) :
    (l.record P (.file (.openImage key)) r).opened = l.opened := by
  cases r with
  | ok content => simp only [Ledger.record, Ledger.recordFile, loading]
  | error e =>
      cases e with
      | notExist => simp only [Ledger.record, Ledger.recordFile, loading]
      | failed => simp only [Ledger.record, Ledger.recordFile, loading]

theorem record_opened (l : Ledger) (a : Action) (r : Response a)
    (target : ∀ id, a ≠ .getTarget id) (mapped : ∀ path, a ≠ .getAlias path)
    (opens : ∀ key, a ≠ .file (.openImage key)) : (l.record P a r).opened = l.opened := by
  cases a with
  | getTarget id => exact absurd rfl (target id)
  | getAlias path => exact absurd rfl (mapped path)
  | sync s =>
      obtain ⟨_, _, _, _, _, eq⟩ := recordSync_frame l s
      rw [Ledger.record, eq]
  | statement q =>
      obtain ⟨_, _, _, _, _, _, _, _, _, _, _, _, _, _, eq⟩ := recordStatement_frame (P := P) l q r
      rw [Ledger.record, eq]
  | index s =>
      obtain ⟨_, _, _, _, eq⟩ := recordIndex_frame l s
      rw [Ledger.record, eq]
  | file b =>
      change (l.recordFile P b r).opened = l.opened
      unfold Ledger.recordFile
      split
      case h_12 key _ => exact absurd rfl (opens key)
      all_goals first
        | rfl
        | (split <;> rfl)
  | newUUID => cases r <;> rfl
  | _ => rfl

end Debts

section Images

variable {P : Platform} {σ σ' : State} {ls : Nat → Ledger} {i : Nat} {a : Action} {c : Choice}
  {r : Response a}

/-- The three things that can happen to the images directory. -/
inductive Moved (f : Files) : Directory → Action → Prop
  | kept (a : Action) : Moved f f.images a
  | placed (path key : GoString) (entry : Entry) : f.temporary.lookup path = some entry →
      Moved f (f.images.insert key entry) (.file (.rename path .images key))
  | unlinked (key : GoString) : Moved f (f.images.erase key) (.file (.remove .images key))

theorem images_moved {l : Ledger} (permitted : l.permits P a)
    (performed : σ.perform P i a c = some (r, σ')) : Moved σ.files σ'.files.images a := by
  cases a with
  | file b =>
      obtain ⟨files, done, rfl⟩ := file_state performed
      have effect := file_effect done
      cases effect with
      | created path unused absent =>
          change Moved σ.files (σ.files.put .temporary path ⟨.regular [], σ.clock⟩).images _
          rw [images_put_temporary]
          exact .kept _
      | wrote path content left r full =>
          rw [images_put_temporary]
          exact .kept _
      | transformed input path metadata options plan r left =>
          rw [images_output]
          exact .kept _
      | thumbnailed input path r left =>
          rw [images_output]
          exact .kept _
      | renamed path folder key entry there =>
          cases folder with
          | images =>
              rw [images_renamed, if_pos rfl]
              exact .placed path key entry there
          | thumbnails =>
              rw [images_renamed, if_neg (by simp)]
              exact .kept _
          | temporary => exact absurd permitted.2 id
      | removed folder key =>
          cases folder with
          | images =>
              unfold Files.images
              rw [drop_same]
              exact .unlinked key
          | thumbnails =>
              unfold Files.images
              rw [drop_other (by simp)]
              exact .kept _
          | temporary =>
              rw [images_drop_temporary]
              exact .kept _
      | none b r kept => exact .kept _
  | _ =>
      rw [(perform_frame performed).files (by simp)]
      exact .kept _

/-- A file is only ever placed under a key that was still in a call's hand. -/
theorem images_kept (permitted : (ls i).permits P a)
    (performed : σ.perform P i a c = some (r, σ')) {k : GoString} (spent : Spent σ.issued ls k)
    {entry : Entry} (there : σ'.files.images.lookup k = some entry) :
    σ.files.images.lookup k = some entry := by
  have moved := images_moved permitted performed
  generalize σ'.files.images = images at moved there
  cases moved with
  | kept => exact there
  | placed path key entry' was =>
      rw [lookup_insert_ite] at there
      split at there
      · rename_i same
        rw [same] at spent
        exact absurd permitted.2.2.1 (spent.2 i)
      · exact there
  | unlinked key =>
      rw [lookup_erase_ite] at there
      split at there
      · cases there
      · exact there

end Images

end ImageSilo.Publication
