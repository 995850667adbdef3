import ImageSilo.Accounts.Effects

/-! `Balanced` relates the table of the sessions with an index while some steps of the index are owed. -/
namespace ImageSilo.Accounts

open Go Tables

/-- The entry is about the session of this row, up to fractions of a second. -/
structure Describes (identity : Auth.SessionIdentity) (s : Auth.Session) : Prop where
  sessionID : identity.sessionID = s.id
  adminID : identity.adminID = s.adminID
  csrfHash : identity.csrfHash = s.csrfHash
  expiresAt : unix identity.expiresAt = unix s.expiresAt

/-- The entry has a row, or has none and has expired. -/
def Founded (used : Time → Prop) (db : Database) (hash : Digest) (identity : Auth.SessionIdentity) :
    Prop :=
  (∃ s ∈ db.sessions, s.tokenHash = hash ∧ Describes identity s) ∨
    ((∀ s ∈ db.sessions, s.tokenHash ≠ hash) ∧ ∃ t, used t ∧ unix identity.expiresAt ≤ unix t)

/-- The entry calls the administrator by the present name. -/
def Named (db : Database) (identity : Auth.SessionIdentity) : Prop :=
  ∀ admin, db.admin = some admin →
    identity.displayName = admin.displayName ∧ identity.email = admin.email

/-- The entry belongs to the administrator. -/
def Own (db : Database) (identity : Auth.SessionIdentity) : Prop :=
  ∀ admin, db.admin = some admin → identity.adminID = admin.id

/-- The row has not expired at any of these times. -/
def Outlives (used : Time → Prop) (s : Auth.Session) : Prop :=
  ∀ t, used t → unix t < unix s.expiresAt

structure Balanced (used : Time → Prop) (db : Database) (index : Auth.SessionIndex)
    (owes : Auth.SessionStep → Prop) : Prop where
  known : ∀ hash identity, index.lookup hash = some identity →
    Founded used db hash identity ∨ owes (.remove hash) ∨
      (∃ kept, kept ≠ hash ∧ owes (.removeAllExcept kept)) ∨ ∃ identity', owes (.add hash identity')
  listed : ∀ s ∈ db.sessions, Outlives used s →
    (∃ identity, index.lookup s.tokenHash = some identity) ∨
      ∃ identity, owes (.add s.tokenHash identity)
  named : ∀ hash identity, index.lookup hash = some identity →
    Named db identity ∨ ∃ adminID displayName email, owes (.updateAdmin adminID displayName email)
  own : ∀ hash identity, index.lookup hash = some identity → Own db identity
  adding : ∀ hash identity, owes (.add hash identity) →
    Founded used db hash identity ∧ Named db identity ∧ Own db identity
  removing : ∀ hash, owes (.remove hash) → ∀ s ∈ db.sessions, s.tokenHash ≠ hash
  pruning : ∀ kept, owes (.removeAllExcept kept) → ∀ s ∈ db.sessions, s.tokenHash = kept
  calling : ∀ adminID displayName email, owes (.updateAdmin adminID displayName email) →
    ∀ admin, db.admin = some admin →
      admin.id = adminID ∧ displayName = admin.displayName ∧ email = admin.email

variable {used used' : Time → Prop} {db db' : Database} {index : Auth.SessionIndex}
  {owes owes' : Auth.SessionStep → Prop} {hash kept : Digest} {identity : Auth.SessionIdentity}
  {s : Auth.Session} {admin : Auth.Admin}

section Rows

/-- A row of the administrator, and what the index holds for it. -/
theorem describes_identityOf (s : Auth.Session) (admin : Auth.Admin) :
    Describes (Database.identityOf s admin) s := ⟨rfl, rfl, rfl, rfl⟩

theorem Describes.stored (h : Describes identity s) : Describes identity (storedSession s) :=
  ⟨h.sessionID, h.adminID, h.csrfHash, h.expiresAt.trans (unix_ofUnix _).symm⟩

theorem Founded.mono (h : Founded used db hash identity) (later : ∀ t, used t → used' t)
    (kept : ∀ s ∈ db.sessions, s.tokenHash = hash → s ∈ db'.sessions)
    (old : ∀ s ∈ db'.sessions, s.tokenHash = hash → s ∈ db.sessions) :
    Founded used' db' hash identity := by
  rcases h with ⟨s, member, same, describes⟩ | ⟨absent, t, passed, expired⟩
  · exact .inl ⟨s, kept s member same, same, describes⟩
  · exact .inr ⟨fun s member same => absent s (old s member same) same, t, later t passed, expired⟩

/-- The row of an entry that has not expired. -/
theorem Founded.row (h : Founded used db hash identity) {t : Time} (latest : ∀ u, used u → u ≤ t)
    (unexpired : unix t < unix identity.expiresAt) :
    ∃ s ∈ db.sessions, s.tokenHash = hash ∧ Describes identity s := by
  rcases h with row | ⟨-, u, passed, expired⟩
  · exact row
  · exact absurd (expired.trans (unix_mono (latest u passed))) (not_le.mpr unexpired)

theorem Outlives.before (h : Outlives used' s) (later : ∀ t, used t → used' t) : Outlives used s :=
  fun t passed => h t (later t passed)

end Rows

section Statements

/-- Nobody owes a step that needs the mutex of the credentials. -/
def Unguarded (owes : Auth.SessionStep → Prop) : Prop :=
  (∀ hash identity, ¬ owes (.add hash identity)) ∧ (∀ kept, ¬ owes (.removeAllExcept kept)) ∧
    ∀ adminID displayName email, ¬ owes (.updateAdmin adminID displayName email)

/-- Time goes by, and what is owed is written in another way. -/
theorem Balanced.congr (h : Balanced used db index owes) (later : ∀ t, used t → used' t)
    (sessions : db'.sessions = db.sessions) (admin : ∀ admin', db'.admin = some admin' →
      ∃ admin, db.admin = some admin ∧ admin'.id = admin.id ∧
        admin'.displayName = admin.displayName ∧ admin'.email = admin.email)
    (same : ∀ s, owes' s ↔ owes s) : Balanced used' db' index owes' := by
  have founded {hash : Digest} {identity : Auth.SessionIdentity}
      (f : Founded used db hash identity) : Founded used' db' hash identity :=
    f.mono later (fun s member _ => sessions ▸ member) fun s member _ => sessions ▸ member
  have named {identity : Auth.SessionIdentity} (n : Named db identity) : Named db' identity := by
    intro admin' there
    obtain ⟨old, before, -, name, email⟩ := admin admin' there
    rw [name, email]
    exact n old before
  have own {identity : Auth.SessionIdentity} (o : Own db identity) : Own db' identity := by
    intro admin' there
    obtain ⟨old, before, id, -, -⟩ := admin admin' there
    rw [id]
    exact o old before
  constructor
  · intro hash identity there
    simp only [same]
    exact (h.known hash identity there).imp_left founded
  · intro s member lasts
    simp only [same]
    exact h.listed s (sessions ▸ member) (lasts.before later)
  · intro hash identity there
    simp only [same]
    exact (h.named hash identity there).imp_left named
  · exact fun hash identity there => own (h.own hash identity there)
  · intro hash identity owed
    obtain ⟨f, n, o⟩ := h.adding hash identity ((same _).mp owed)
    exact ⟨founded f, named n, own o⟩
  · intro hash owed
    rw [sessions]
    exact h.removing hash ((same _).mp owed)
  · intro kept owed
    rw [sessions]
    exact h.pruning kept ((same _).mp owed)
  · intro adminID displayName email owed admin' there
    obtain ⟨old, before, id, name, mail⟩ := admin admin' there
    rw [id, name, mail]
    exact h.calling adminID displayName email ((same _).mp owed) old before

/-- A session is inserted, and its entry is owed. -/
theorem Balanced.opened (h : Balanced used db index owes) (later : ∀ t, used t → used' t)
    (sessions : db'.sessions = db.sessions ++ [s]) (same : db'.admin = db.admin)
    (fresh : ∀ r ∈ db.sessions, r.tokenHash ≠ s.tokenHash) (unguarded : Unguarded owes)
    (staying : ¬ owes (.remove s.tokenHash)) (describes : Describes identity s)
    (named : Named db identity) (own : Own db identity)
    (now : ∀ step, owes' step ↔ owes step ∨ step = .add s.tokenHash identity) :
    Balanced used' db' index owes' := by
  have others : ∀ r ∈ db'.sessions, r.tokenHash ≠ s.tokenHash → r ∈ db.sessions := by
    intro r member apart
    rw [sessions, List.mem_append, List.mem_singleton] at member
    rcases member with old | rfl
    · exact old
    · exact absurd rfl apart
  have still : ∀ r ∈ db.sessions, r ∈ db'.sessions := by
    intro r member
    rw [sessions]
    exact List.mem_append_left _ member
  have named' {identity : Auth.SessionIdentity} (n : Named db identity) : Named db' identity := by
    unfold Named
    rwa [same]
  have own' {identity : Auth.SessionIdentity} (o : Own db identity) : Own db' identity := by
    unfold Own
    rwa [same]
  constructor
  · intro hash identity' there
    by_cases new : hash = s.tokenHash
    · subst new
      exact .inr (.inr (.inr ⟨identity, (now _).mpr (.inr rfl)⟩))
    · rcases h.known hash identity' there with founded | removed | ⟨kept, -, pruned⟩ | ⟨_, added⟩
      · refine .inl (founded.mono later (fun r member _ => still r member) fun r member own => ?_)
        exact others r member (own ▸ new)
      · exact .inr (.inl ((now _).mpr (.inl removed)))
      · exact absurd pruned (unguarded.2.1 kept)
      · exact absurd added (unguarded.1 _ _)
  · intro r member lasts
    by_cases new : r.tokenHash = s.tokenHash
    · rw [new]
      exact .inr ⟨identity, (now _).mpr (.inr rfl)⟩
    · rcases h.listed r (others r member new) (lasts.before later) with there | ⟨_, added⟩
      · exact .inl there
      · exact absurd added (unguarded.1 _ _)
  · intro hash identity' there
    rcases h.named hash identity' there with n | ⟨_, _, _, renamed⟩
    · exact .inl (named' n)
    · exact absurd renamed (unguarded.2.2 _ _ _)
  · exact fun hash identity' there => own' (h.own hash identity' there)
  · intro hash identity' owed
    rcases (now _).mp owed with before | new
    · exact absurd before (unguarded.1 _ _)
    · cases new
      exact ⟨.inl ⟨s, by simp [sessions], rfl, describes⟩, named' named, own' own⟩
  · intro hash owed r member own
    rcases (now _).mp owed with before | new
    · by_cases same : r.tokenHash = s.tokenHash
      · exact staying (same ▸ own ▸ before)
      · exact h.removing hash before r (others r member same) own
    · cases new
  · intro kept owed
    rcases (now _).mp owed with before | new
    · exact absurd before (unguarded.2.1 _)
    · cases new
  · intro adminID displayName email owed
    rcases (now _).mp owed with before | new
    · exact absurd before (unguarded.2.2 _ _ _)
    · cases new

/-- What a statement may owe that deletes rows. -/
def Cleared (db : Database) : Auth.SessionStep → Prop
  | .remove hash => ∀ s ∈ db.sessions, s.tokenHash ≠ hash
  | .removeAllExcept kept => ∀ s ∈ db.sessions, s.tokenHash = kept
  | .purgeExpired _ => True
  | _ => False

/-- Some sessions are deleted: each is to be removed from the index, or has expired. -/
theorem Balanced.dropped (h : Balanced used db index owes) (later : ∀ t, used t → used' t)
    (fewer : ∀ s ∈ db'.sessions, s ∈ db.sessions) (same : ∀ admin', db'.admin = some admin' →
      ∃ admin, db.admin = some admin ∧ admin'.id = admin.id ∧
        admin'.displayName = admin.displayName ∧ admin'.email = admin.email)
    (gone : ∀ s ∈ db.sessions, s ∈ db'.sessions ∨ owes' (.remove s.tokenHash) ∨
      (∃ kept, kept ≠ s.tokenHash ∧ owes' (.removeAllExcept kept)) ∨
        ∃ t, used' t ∧ unix s.expiresAt ≤ unix t)
    (awaited : ∀ hash identity, owes (.add hash identity) → ∀ s ∈ db.sessions, s.tokenHash = hash →
      s ∈ db'.sessions ∨ ∃ t, used' t ∧ unix s.expiresAt ≤ unix t)
    (still : ∀ step, owes step → owes' step)
    (new : ∀ step, owes' step → owes step ∨ Cleared db' step) : Balanced used' db' index owes' := by
  have named {identity : Auth.SessionIdentity} (n : Named db identity) : Named db' identity := by
    intro admin' there
    obtain ⟨old, before, -, name, email⟩ := same admin' there
    rw [name, email]
    exact n old before
  have own {identity : Auth.SessionIdentity} (o : Own db identity) : Own db' identity := by
    intro admin' there
    obtain ⟨old, before, id, -, -⟩ := same admin' there
    rw [id]
    exact o old before
  -- the row of an entry that is deleted was the only one with its digest
  have expired {s : Auth.Session} {identity : Auth.SessionIdentity} {t : Time} (member : s ∈ db.sessions)
      (describes : Describes identity s) (passed : used' t) (late : unix s.expiresAt ≤ unix t)
      (absent : s ∉ db'.sessions) : Founded used' db' s.tokenHash identity := by
    refine .inr ⟨fun r there own => ?_, t, passed, by rwa [describes.expiresAt]⟩
    rw [db.sessionHashes.eq (fewer r there) member own] at there
    exact absent there
  have absent {hash : Digest} (none : ∀ s ∈ db.sessions, s.tokenHash ≠ hash) :
      ∀ s ∈ db'.sessions, s.tokenHash ≠ hash := fun s member => none s (fewer s member)
  constructor
  · intro hash identity there
    rcases h.known hash identity there with
      (⟨s, member, rfl, describes⟩ | ⟨none, t, passed, late⟩) | removed | ⟨kept, apart, pruned⟩ |
        ⟨_, added⟩
    · by_cases stays : s ∈ db'.sessions
      · exact .inl (.inl ⟨s, stays, rfl, describes⟩)
      · rcases (gone s member).resolve_left stays with removed | pruned | ⟨t, passed, late⟩
        · exact .inr (.inl removed)
        · exact .inr (.inr (.inl pruned))
        · exact .inl (expired member describes passed late stays)
    · exact .inl (.inr ⟨absent none, t, later t passed, late⟩)
    · exact .inr (.inl (still _ removed))
    · exact .inr (.inr (.inl ⟨kept, apart, still _ pruned⟩))
    · exact .inr (.inr (.inr ⟨_, still _ added⟩))
  · intro s member lasts
    rcases h.listed s (fewer s member) (lasts.before later) with there | ⟨identity, added⟩
    · exact .inl there
    · exact .inr ⟨identity, still _ added⟩
  · intro hash identity there
    rcases h.named hash identity there with n | ⟨_, _, _, renamed⟩
    · exact .inl (named n)
    · exact .inr ⟨_, _, _, still _ renamed⟩
  · exact fun hash identity there => own (h.own hash identity there)
  · intro hash identity owed
    have before := (new _ owed).resolve_right fun cleared => cleared
    obtain ⟨founded, n, o⟩ := h.adding hash identity before
    refine ⟨?_, named n, own o⟩
    rcases founded with ⟨s, member, rfl, describes⟩ | ⟨none, t, passed, late⟩
    · by_cases stays : s ∈ db'.sessions
      · exact .inl ⟨s, stays, rfl, describes⟩
      · obtain ⟨t, passed, late⟩ := (awaited _ _ before s member rfl).resolve_left stays
        exact expired member describes passed late stays
    · exact .inr ⟨absent none, t, later t passed, late⟩
  · intro hash owed
    rcases new _ owed with before | cleared
    · exact absent (h.removing hash before)
    · exact cleared
  · intro kept owed
    rcases new _ owed with before | cleared
    · exact fun s member => h.pruning kept before s (fewer s member)
    · exact cleared
  · intro adminID displayName email owed admin' there
    have before := (new _ owed).resolve_right fun cleared => cleared
    obtain ⟨old, known, id, name, mail⟩ := same admin' there
    rw [id, name, mail]
    exact h.calling adminID displayName email before old known

/-- The administrator gets another name, and the index is to be told. -/
theorem Balanced.renamed {admin : Auth.Admin} {displayName email : GoString} {updatedAt : Time}
    (h : Balanced used db index owes) (later : ∀ t, used t → used' t)
    (sessions : db'.sessions = db.sessions) (there : db.admin = some admin)
    (written : db'.admin = some { admin with
      displayName := displayName, email := email, updatedAt := updatedAt })
    (unguarded : Unguarded owes)
    (now : ∀ step, owes' step ↔ owes step ∨ step = .updateAdmin admin.id displayName email) :
    Balanced used' db' index owes' := by
  have founded {hash : Digest} {identity : Auth.SessionIdentity}
      (f : Founded used db hash identity) : Founded used' db' hash identity :=
    f.mono later (fun s member _ => sessions ▸ member) fun s member _ => sessions ▸ member
  constructor
  · intro hash identity entry
    rcases h.known hash identity entry with f | removed | ⟨kept, -, pruned⟩ | ⟨_, added⟩
    · exact .inl (founded f)
    · exact .inr (.inl ((now _).mpr (.inl removed)))
    · exact absurd pruned (unguarded.2.1 kept)
    · exact absurd added (unguarded.1 _ _)
  · intro s member lasts
    rcases h.listed s (sessions ▸ member) (lasts.before later) with entry | ⟨_, added⟩
    · exact .inl entry
    · exact absurd added (unguarded.1 _ _)
  · exact fun hash identity entry => .inr ⟨_, _, _, (now _).mpr (.inr rfl)⟩
  · intro hash identity entry row known
    rw [written] at known
    cases known
    exact h.own hash identity entry admin there
  · intro hash identity owed
    rcases (now _).mp owed with before | new
    · exact absurd before (unguarded.1 _ _)
    · cases new
  · intro hash owed
    rw [sessions]
    rcases (now _).mp owed with before | new
    · exact h.removing hash before
    · cases new
  · intro kept owed
    rcases (now _).mp owed with before | new
    · exact absurd before (unguarded.2.1 _)
    · cases new
  · intro adminID name mail owed row known
    rw [written] at known
    cases known
    rcases (now _).mp owed with before | new
    · exact absurd before (unguarded.2.2 _ _ _)
    · cases new
      exact ⟨rfl, rfl, rfl⟩

end Statements

section Steps

variable {index' : Auth.SessionIndex}

/-- A step of the index pays a debt; the table is the same. -/
theorem Balanced.paid (h : Balanced used db index owes) (later : ∀ t, used t → used' t)
    (fewer : ∀ step, owes' step → owes step)
    (known : ∀ hash identity, index'.lookup hash = some identity →
      Founded used' db hash identity ∨ owes' (.remove hash) ∨
        (∃ kept, kept ≠ hash ∧ owes' (.removeAllExcept kept)) ∨
          ∃ identity', owes' (.add hash identity'))
    (listed : ∀ s ∈ db.sessions, Outlives used' s →
      (∃ identity, index'.lookup s.tokenHash = some identity) ∨
        ∃ identity, owes' (.add s.tokenHash identity))
    (named : ∀ hash identity, index'.lookup hash = some identity →
      Named db identity ∨ ∃ adminID displayName email, owes' (.updateAdmin adminID displayName email))
    (own : ∀ hash identity, index'.lookup hash = some identity → Own db identity) :
    Balanced used' db index' owes' where
  known := known
  listed := listed
  named := named
  own := own
  adding hash identity owed := by
    obtain ⟨founded, n, o⟩ := h.adding hash identity (fewer _ owed)
    exact ⟨founded.mono later (fun _ member _ => member) fun _ member _ => member, n, o⟩
  removing hash owed := h.removing hash (fewer _ owed)
  pruning kept owed := h.pruning kept (fewer _ owed)
  calling adminID displayName email owed := h.calling adminID displayName email (fewer _ owed)

/-- What is known of an entry that a step leaves, unless the step was owed for it. -/
theorem Balanced.remembered (h : Balanced used db index owes) (later : ∀ t, used t → used' t)
    {step : Auth.SessionStep} (rest : ∀ other, owes other → other = step ∨ owes' other)
    (there : index.lookup hash = some identity) (kept : step ≠ .remove hash)
    (pruned : ∀ k, k ≠ hash → step ≠ .removeAllExcept k)
    (added : ∀ identity', step ≠ .add hash identity') :
    Founded used' db hash identity ∨ owes' (.remove hash) ∨
      (∃ kept, kept ≠ hash ∧ owes' (.removeAllExcept kept)) ∨
        ∃ identity', owes' (.add hash identity') := by
  rcases h.known hash identity there with founded | owed | ⟨k, apart, owed⟩ | ⟨identity', owed⟩
  · exact .inl (founded.mono later (fun _ member _ => member) fun _ member _ => member)
  · exact .inr (.inl ((rest _ owed).resolve_left (Ne.symm kept)))
  · exact .inr (.inr (.inl ⟨k, apart, (rest _ owed).resolve_left (Ne.symm (pruned k apart))⟩))
  · exact .inr (.inr (.inr ⟨identity', (rest _ owed).resolve_left (Ne.symm (added identity'))⟩))

/-- What a step leaves of the name in an entry, unless it was owed for the names. -/
theorem Balanced.still_named (h : Balanced used db index owes) {step : Auth.SessionStep}
    (rest : ∀ other, owes other → other = step ∨ owes' other)
    (there : index.lookup hash = some identity)
    (other : ∀ adminID displayName email, step ≠ .updateAdmin adminID displayName email) :
    Named db identity ∨ ∃ adminID displayName email, owes' (.updateAdmin adminID displayName email) := by
  rcases h.named hash identity there with n | ⟨adminID, displayName, email, owed⟩
  · exact .inl n
  · exact .inr ⟨adminID, displayName, email, (rest _ owed).resolve_left (Ne.symm (other _ _ _))⟩

theorem Balanced.added (h : Balanced used db index owes) (later : ∀ t, used t → used' t)
    (owed : owes (.add hash identity)) (fewer : ∀ step, owes' step → owes step)
    (rest : ∀ step, owes step → step = .add hash identity ∨ owes' step) :
    Balanced used' db (index.insert hash identity) owes' := by
  obtain ⟨founded, n, o⟩ := h.adding hash identity owed
  refine h.paid later fewer ?_ ?_ ?_ ?_
  · intro hash' identity' there
    rw [lookup_insert_ite] at there
    split at there
    · rename_i same
      cases there
      subst same
      exact .inl (founded.mono later (fun _ member _ => member) fun _ member _ => member)
    · rename_i other
      exact h.remembered later rest there (by simp) (by simp) (by simp [Ne.symm other])
  · intro s member lasts
    rw [lookup_insert_ite]
    by_cases same : s.tokenHash = hash
    · rw [if_pos same]
      exact .inl ⟨identity, rfl⟩
    · rw [if_neg same]
      refine (h.listed s member (lasts.before later)).imp_right fun ⟨identity', owed'⟩ => ?_
      exact ⟨identity', (rest _ owed').resolve_left (by simp [same])⟩
  · intro hash' identity' there
    rw [lookup_insert_ite] at there
    split at there
    · cases there
      exact .inl n
    · exact h.still_named rest there (by simp)
  · intro hash' identity' there
    rw [lookup_insert_ite] at there
    split at there
    · cases there
      exact o
    · exact h.own hash' identity' there

theorem Balanced.removed (h : Balanced used db index owes) (later : ∀ t, used t → used' t)
    (owed : owes (.remove hash)) (fewer : ∀ step, owes' step → owes step)
    (rest : ∀ step, owes step → step = .remove hash ∨ owes' step) :
    Balanced used' db (index.erase hash) owes' := by
  have old {hash' : Digest} {identity' : Auth.SessionIdentity}
      (there : (index.erase hash).lookup hash' = some identity') :
      hash' ≠ hash ∧ index.lookup hash' = some identity' := by
    rw [lookup_erase_ite] at there
    split at there
    · cases there
    · exact ⟨‹_›, there⟩
  refine h.paid later fewer ?_ ?_ ?_ ?_
  · intro hash' identity' there
    obtain ⟨other, there⟩ := old there
    exact h.remembered later rest there (by simp [Ne.symm other]) (by simp) (by simp)
  · intro s member lasts
    rw [lookup_erase_ite, if_neg (h.removing hash owed s member)]
    refine (h.listed s member (lasts.before later)).imp_right fun ⟨identity', owed'⟩ => ?_
    exact ⟨identity', (rest _ owed').resolve_left (by simp)⟩
  · exact fun hash' identity' there => h.still_named rest (old there).2 (by simp)
  · exact fun hash' identity' there => h.own hash' identity' (old there).2

theorem Balanced.pruned (h : Balanced used db index owes) (later : ∀ t, used t → used' t)
    (owed : owes (.removeAllExcept kept)) (fewer : ∀ step, owes' step → owes step)
    (rest : ∀ step, owes step → step = .removeAllExcept kept ∨ owes' step) :
    Balanced used' db (keep (fun hash _ => hash == kept) index) owes' := by
  have old {hash' : Digest} {identity' : Auth.SessionIdentity}
      (there : (keep (fun hash _ => hash == kept) index).lookup hash' = some identity') :
      hash' = kept ∧ index.lookup hash' = some identity' := by
    rw [lookup_keep, Option.filter_eq_some_iff] at there
    exact ⟨by simpa using there.2, there.1⟩
  refine h.paid later fewer ?_ ?_ ?_ ?_
  · intro hash' identity' there
    obtain ⟨rfl, before⟩ := old there
    refine h.remembered later rest before (by simp) (fun k apart same => ?_) (by simp)
    cases same
    exact apart rfl
  · intro s member lasts
    have own := h.pruning kept owed s member
    rcases h.listed s member (lasts.before later) with ⟨identity', there⟩ | ⟨identity', owed'⟩
    · refine .inl ⟨identity', ?_⟩
      rw [lookup_keep, there]
      simp [own]
    · exact .inr ⟨identity', (rest _ owed').resolve_left (by simp)⟩
  · exact fun hash' identity' there => h.still_named rest (old there).2 (by simp)
  · exact fun hash' identity' there => h.own hash' identity' (old there).2

theorem Balanced.called {adminID displayName email : GoString} (h : Balanced used db index owes)
    (later : ∀ t, used t → used' t) (owed : owes (.updateAdmin adminID displayName email))
    (fewer : ∀ step, owes' step → owes step)
    (rest : ∀ step, owes step → step = .updateAdmin adminID displayName email ∨ owes' step) :
    Balanced used' db ((Auth.SessionStep.updateAdmin adminID displayName email).apply index) owes' := by
  have old {hash' : Digest} {identity' : Auth.SessionIdentity}
      (there : ((Auth.SessionStep.updateAdmin adminID displayName email).apply index).lookup hash' =
        some identity') : ∃ identity, index.lookup hash' = some identity ∧
          identity' = if identity.adminID = adminID then
            { identity with displayName := displayName, email := email } else identity := by
    obtain ⟨identity, there, eq⟩ := Option.map_eq_some_iff.mp ((lookup_mapValues _ _ _).symm.trans there)
    exact ⟨identity, there, eq.symm⟩
  have founded {hash' : Digest} {identity : Auth.SessionIdentity} (f : Founded used' db hash' identity) :
      Founded used' db hash' (if identity.adminID = adminID then
        { identity with displayName := displayName, email := email } else identity) := by
    split
    · refine f.imp ?_ id
      rintro ⟨s, member, same, describes⟩
      exact ⟨s, member, same, describes.1, describes.2, describes.3, describes.4⟩
    · exact f
  refine h.paid later fewer ?_ ?_ ?_ ?_
  · intro hash' identity' there
    obtain ⟨identity, before, rfl⟩ := old there
    exact (h.remembered later rest before (by simp) (by simp) (by simp)).imp_left founded
  · intro s member lasts
    rcases h.listed s member (lasts.before later) with ⟨identity', there⟩ | ⟨identity', owed'⟩
    · refine .inl (Option.isSome_iff_exists.mp ?_)
      change ((mapValues _ index).lookup s.tokenHash).isSome = true
      rw [lookup_mapValues, there]
      rfl
    · exact .inr ⟨identity', (rest _ owed').resolve_left (by simp)⟩
  · intro hash' identity' there
    obtain ⟨identity, before, rfl⟩ := old there
    refine .inl fun admin known => ?_
    obtain ⟨same, rfl, rfl⟩ := h.calling adminID displayName email owed admin known
    rw [if_pos ((h.own hash' identity before admin known).trans same)]
    exact ⟨rfl, rfl⟩
  · intro hash' identity' there admin known
    obtain ⟨identity, before, rfl⟩ := old there
    have same := h.own hash' identity before admin known
    split <;> exact same

/-- A purge removes no entry whose row lasts. -/
theorem Balanced.purged {now : Time} (h : Balanced used db index owes)
    (later : ∀ t, used t → used' t) (passed : used' now) (fewer : ∀ step, owes' step → owes step)
    (rest : ∀ step, owes step → step = .purgeExpired now ∨ owes' step) :
    Balanced used' db ((Auth.SessionStep.purgeExpired now).apply index) owes' := by
  have old {hash' : Digest} {identity' : Auth.SessionIdentity}
      (there : ((Auth.SessionStep.purgeExpired now).apply index).lookup hash' = some identity') :
      index.lookup hash' = some identity' :=
    (Option.filter_eq_some_iff.mp ((lookup_keep _ _ _).symm.trans there)).1
  refine h.paid later fewer ?_ ?_ ?_ ?_
  · intro hash' identity' there
    exact h.remembered later rest (old there) (by simp) (by simp) (by simp)
  · intro s member lasts
    rcases h.listed s member (lasts.before later) with ⟨identity, there⟩ | ⟨identity, owed⟩
    · have fate := h.known s.tokenHash identity there
      rcases fate with (⟨r, known, same, describes⟩ | ⟨none, -⟩) | owed | ⟨kept, apart, owed⟩ | ⟨_, owed⟩
      · obtain rfl := db.sessionHashes.eq known member same
        refine .inl ⟨identity, (lookup_keep _ _ _).trans ?_⟩
        have alive : now < identity.expiresAt := by
          by_contra late
          have expired := unix_mono (not_lt.mp late)
          rw [describes.expiresAt] at expired
          exact absurd expired (not_le.mpr (lasts now passed))
        rw [there, Option.filter_some, if_pos (by simpa using alive)]
      · exact absurd rfl (none s member)
      · exact absurd rfl (h.removing _ owed s member)
      · exact absurd (h.pruning kept owed s member).symm apart
      · exact .inr ⟨_, (rest _ owed).resolve_left (by simp)⟩
    · exact .inr ⟨identity, (rest _ owed).resolve_left (by simp)⟩
  · exact fun hash' identity' there => h.still_named rest (old there) (by simp)
  · exact fun hash' identity' there => h.own hash' identity' (old there)

end Steps

/-- The index that a load fills. -/
theorem balanced_loaded (db : Database) {now : Time} (passed : used now) :
    Balanced used db (mapOf (db.activeSessions now)) fun _ => False where
  known hash identity there := by
    obtain ⟨s, member, admin, -, -, -, rfl, rfl⟩ := mem_activeSessions.mp (lookup_activeSessions.mp there)
    exact .inl (.inl ⟨s, member, rfl, describes_identityOf s admin⟩)
  listed s member lasts := by
    obtain ⟨admin, there, own⟩ := db.sessionAdmins s member
    exact .inl ⟨_, lookup_activeSessions.mpr (mem_activeSessions.mpr
      ⟨s, member, admin, there, own, lasts now passed, rfl, rfl⟩)⟩
  named hash identity there := by
    obtain ⟨s, -, admin, known, -, -, rfl, rfl⟩ := mem_activeSessions.mp (lookup_activeSessions.mp there)
    refine .inl fun admin' known' => ?_
    obtain rfl := Option.some.inj (known.symm.trans known')
    exact ⟨rfl, rfl⟩
  own hash identity there := by
    obtain ⟨s, -, admin, known, own, -, rfl, rfl⟩ :=
      mem_activeSessions.mp (lookup_activeSessions.mp there)
    intro admin' known'
    obtain rfl := Option.some.inj (known.symm.trans known')
    exact own.symm
  adding _ _ owed := owed.elim
  removing _ owed := owed.elim
  pruning _ owed := owed.elim
  calling _ _ _ owed := owed.elim

/-- An entry up to fractions of a second. -/
def inSeconds (identity : Auth.SessionIdentity) : Auth.SessionIdentity :=
  { identity with expiresAt := ofUnix (unix identity.expiresAt) }

theorem inSeconds_eq (describes : Describes identity s) (there : db.admin = some admin)
    (named : Named db identity) : inSeconds identity = inSeconds (Database.identityOf s admin) := by
  obtain ⟨_, _, _, _, _, _⟩ := identity
  obtain ⟨rfl, rfl, rfl, expires⟩ := describes
  obtain ⟨rfl, rfl⟩ := named admin there
  exact congrArg (Auth.SessionIdentity.mk _ _ _ _ _ ∘ ofUnix) expires

/-- When nothing is owed, the index and the join of the table agree on what has not expired. -/
theorem Balanced.agree (h : Balanced used db index owes) (idle : ∀ step, ¬ owes step) {t : Time}
    (latest : ∀ u, used u → u ≤ t) (entry : Auth.SessionIdentity) :
    (∃ identity, index.lookup hash = some identity ∧ unix t < unix identity.expiresAt ∧
        inSeconds identity = entry) ↔
      ∃ identity, (hash, identity) ∈ db.activeSessions t ∧ inSeconds identity = entry := by
  have row {identity : Auth.SessionIdentity} (there : index.lookup hash = some identity)
      (unexpired : unix t < unix identity.expiresAt) :
      ∃ s ∈ db.sessions, s.tokenHash = hash ∧ Describes identity s := by
    rcases h.known hash identity there with founded | owed | ⟨_, -, owed⟩ | ⟨_, owed⟩
    · exact founded.row latest unexpired
    all_goals exact absurd owed (idle _)
  have named {identity : Auth.SessionIdentity} (there : index.lookup hash = some identity) :
      Named db identity := by
    rcases h.named hash identity there with n | ⟨_, _, _, owed⟩
    · exact n
    · exact absurd owed (idle _)
  constructor
  · rintro ⟨identity, there, unexpired, rfl⟩
    obtain ⟨s, member, rfl, describes⟩ := row there unexpired
    obtain ⟨admin, known, own⟩ := db.sessionAdmins s member
    rw [inSeconds_eq describes known (named there)]
    exact ⟨_, mem_activeSessions.mpr
      ⟨s, member, admin, known, own, describes.expiresAt ▸ unexpired, rfl, rfl⟩, rfl⟩
  · rintro ⟨_, listed, rfl⟩
    obtain ⟨s, member, admin, known, own, unexpired, rfl, rfl⟩ := mem_activeSessions.mp listed
    have lasts : Outlives used s := fun u passed => lt_of_le_of_lt (unix_mono (latest u passed)) unexpired
    rcases h.listed s member lasts with ⟨identity, there⟩ | ⟨_, owed⟩
    · rcases h.known s.tokenHash identity there with
        (⟨r, known', same, describes⟩ | ⟨none, -⟩) | owed | ⟨_, -, owed⟩ | ⟨_, owed⟩
      · obtain rfl := db.sessionHashes.eq known' member same
        exact ⟨identity, there, describes.expiresAt ▸ unexpired,
          inSeconds_eq describes known (named there)⟩
      · exact absurd rfl (none s member)
      all_goals exact absurd owed (idle _)
    · exact absurd owed (idle _)

end ImageSilo.Accounts
