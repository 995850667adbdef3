import ImageSilo.Accounts.Walks
import ImageSilo.Publication.Effects

/-! `Amend` lists the outcomes of a statement that touch the administrator, the sessions or the tokens,
interrupted ones included. -/
namespace ImageSilo.Accounts

open Go Concurrent Tables Publication

/-- The tables of the accounts are the same. -/
structure Same (db db' : Database) : Prop where
  admin : db'.admin = db.admin
  sessions : db'.sessions = db.sessions
  tokens : db'.tokens = db.tokens

/-- The outcomes that leave the accounts alone. -/
def Leaving : (q : Statement) → Except DatabaseError q.Value → Prop
  | .updateProfile _ _ _ _, .ok true => False
  | .createSession _, .ok _ => False
  | .deleteSessionByHash _, .ok _ => False
  | .deleteExpiredSessions _, .ok _ => False
  | .changePassword _ _ _ _, .ok _ => False
  | .createToken _ _, .ok _ => False
  | .revokeToken _, .ok _ => False
  | .revokeToken _, .error .noRows => False
  | _, _ => True

/-- A session as its row holds it. -/
def storedSession (s : Auth.Session) : Auth.Session :=
  { s with expiresAt := ofUnix (unix s.expiresAt), createdAt := ofUnix (unix s.createdAt) }

/-- A token as its row holds it. -/
def storedToken (t : ApiToken.Token) : ApiToken.Token :=
  { t with
    expiresAt := t.expiresAt.map fun t => ofUnix (unix t)
    createdAt := ofUnix (unix t.createdAt) }

inductive Amend (db : Database) : (q : Statement) → Except DatabaseError q.Value → Database → Prop
  | renamed (adminID displayName email : GoString) (now : Time) (admin : Auth.Admin)
      (db' : Database) : db.admin = some admin → admin.id = adminID →
      db'.admin = some { admin with
        displayName := displayName, email := email, updatedAt := ofUnix (unix now) } →
      db'.sessions = db.sessions → db'.tokens = db.tokens →
      Amend db (.updateProfile adminID displayName email now) (.ok true) db'
  | opened (s : Auth.Session) (db' : Database) : db.insertSession (storedSession s) = some db' →
      Amend db (.createSession s) (.ok ()) db'
  | closed (hash : Digest) : Amend db (.deleteSessionByHash hash) (.ok ())
      (db.removeSessions fun s => s.tokenHash == hash)
  | expired (now : Time) (count : Int) : Amend db (.deleteExpiredSessions now) (.ok count)
      (db.removeSessions fun s => unix s.expiresAt ≤ unix now)
  | secured (adminID passwordHash : GoString) (kept : Digest) (now : Time) (admin : Auth.Admin)
      (db' : Database) : db.admin = some admin → admin.id = adminID →
      db'.admin = some { admin with passwordHash := passwordHash, updatedAt := ofUnix (unix now) } →
      db'.sessions = db.sessions.filter (fun s => !(s.adminID == adminID && s.tokenHash != kept)) →
      db'.tokens = db.tokens →
      Amend db (.changePassword adminID passwordHash kept now) (.ok ()) db'
  | issued (t : ApiToken.Token) (hash : Digest) (db' : Database) :
      db.insertToken ⟨storedToken t, hash⟩ = some db' → Amend db (.createToken t hash) (.ok ()) db'
  | revoked (id : GoString) (row : ApiToken.Row) : row ∈ db.tokens → row.token.id = id →
      row.token.isActive = true → Amend db (.revokeToken id) (.ok row.hash) (db.revokeToken id)
  | revokedUnseen (id : GoString) (row : ApiToken.Row) : row ∈ db.tokens → row.token.id = id →
      row.token.isActive = true → Amend db (.revokeToken id) (.error .failed) (db.revokeToken id)
  | missing (id : GoString) : (∀ row ∈ db.tokens, row.token.id = id → row.token.isActive = false) →
      Amend db (.revokeToken id) (.error .noRows) db
  | none (q : Statement) (r : Except DatabaseError q.Value) (db' : Database) : Leaving q r →
      Same db db' → Amend db q r db'

variable {db db' : Database} {q : Statement}

section Tables

theorem Same.refl (db : Database) : Same db db := ⟨rfl, rfl, rfl⟩

theorem insertImage_accounts {v : Image} (inserted : db.insertImage v = some db') : Same db db' := by
  unfold Database.insertImage at inserted
  split at inserted <;> cases inserted
  exact ⟨rfl, rfl, rfl⟩

theorem insertAlias_accounts {m : Alias} (inserted : db.insertAlias m = some db') : Same db db' := by
  unfold Database.insertAlias at inserted
  split at inserted <;> cases inserted
  exact ⟨rfl, rfl, rfl⟩

theorem updateImage_accounts (db : Database) (id : GoString) (change : Image → Image) :
    Same db (db.updateImage id change).2 := by
  rcases updateImage_cases db id change with ⟨row, db', -, replaced, eq⟩ | ⟨eq, -⟩ | eq
  · rw [eq]
    unfold Database.replaceImage at replaced
    split at replaced <;> cases replaced
    exact ⟨rfl, rfl, rfl⟩
  · rw [eq]
    exact .refl db
  · rw [eq]
    exact .refl db

theorem insertSession_some {s : Auth.Session} (inserted : db.insertSession s = some db') :
    db'.sessions = db.sessions ++ [s] ∧ db'.tokens = db.tokens ∧ db'.admin = db.admin ∧
      ∀ r ∈ db.sessions, r.tokenHash ≠ s.tokenHash := by
  unfold Database.insertSession at inserted
  split at inserted
  · rename_i valid
    cases inserted
    exact ⟨rfl, rfl, rfl, valid.2.1⟩
  · cases inserted

theorem insertToken_some {r : ApiToken.Row} (inserted : db.insertToken r = some db') :
    db'.tokens = db.tokens ++ [r] ∧ db'.sessions = db.sessions ∧ db'.admin = db.admin ∧
      ∀ s ∈ db.tokens, s.hash ≠ r.hash := by
  unfold Database.insertToken at inserted
  split at inserted
  · rename_i valid
    cases inserted
    exact ⟨rfl, rfl, rfl, valid.2⟩
  · cases inserted

theorem find_active {id : GoString} {row : ApiToken.Row}
    (found : (db.tokens.find? fun r => r.token.id == id && r.token.isActive) = some row) :
    row ∈ db.tokens ∧ row.token.id = id ∧ row.token.isActive = true := by
  have told := List.find?_some found
  simp only [Bool.and_eq_true, beq_iff_eq] at told
  exact ⟨List.mem_of_find?_eq_some found, told.1, told.2⟩

/-- The join lists the unexpired sessions with what the administrator is called. -/
theorem mem_activeSessions {now : Time} {hash : Digest} {identity : Auth.SessionIdentity} :
    (hash, identity) ∈ db.activeSessions now ↔ ∃ s ∈ db.sessions, ∃ admin, db.admin = some admin ∧
      admin.id = s.adminID ∧ unix now < unix s.expiresAt ∧ hash = s.tokenHash ∧
        identity = Database.identityOf s admin := by
  constructor
  · intro member
    obtain ⟨s, selected, joined⟩ := List.mem_filterMap.mp member
    obtain ⟨known, unexpired⟩ := List.mem_filter.mp selected
    obtain ⟨admin, there, eq⟩ := Option.map_eq_some_iff.mp joined
    obtain ⟨there, own⟩ := Option.filter_eq_some_iff.mp there
    cases eq
    exact ⟨s, known, admin, there, by simpa using own, by simpa using unexpired, rfl, rfl⟩
  · rintro ⟨s, known, admin, there, own, unexpired, rfl, rfl⟩
    refine List.mem_filterMap.mpr ⟨s, List.mem_filter.mpr ⟨known, by simpa using unexpired⟩, ?_⟩
    rw [there, Option.filter_some, if_pos (by simpa using own), Option.map_some]

theorem activeSessions_distinct (db : Database) (now : Time) :
    ((db.activeSessions now).map Prod.fst).Nodup := by
  have hashes : (db.sessions.map Auth.Session.tokenHash).Nodup := db.sessionHashes
  unfold Database.activeSessions List.Nodup
  rw [List.pairwise_map, List.pairwise_filterMap]
  refine (List.pairwise_map.mp hashes).filter _ |>.imp ?_
  intro s s' apart row joined row' joined'
  obtain ⟨admin, -, rfl⟩ := Option.map_eq_some_iff.mp joined
  obtain ⟨admin', -, rfl⟩ := Option.map_eq_some_iff.mp joined'
  exact apart

/-- What a load of the sessions has read. -/
theorem lookup_activeSessions {now : Time} {hash : Digest} {identity : Auth.SessionIdentity} :
    (mapOf (db.activeSessions now)).lookup hash = some identity ↔
      (hash, identity) ∈ db.activeSessions now := by
  unfold mapOf
  rw [lookup_filled (activeSessions_distinct db now)]
  simp

end Tables

section Statements

/-- A statement that is carried out amends the accounts in one of the listed ways. -/
theorem execute_amend (db : Database) (q : Statement) :
    Amend db q (db.execute q).1 (db.execute q).2 := by
  cases q with
  | createImage v =>
      dsimp only [Database.execute]
      rcases inserted_cases db .failed (db.insertImage (Database.storedImage v)) with
        ⟨db', stored, eq⟩ | eq
      · rw [eq]
        exact .none _ _ _ trivial (insertImage_accounts stored)
      · rw [eq]
        exact .none _ _ _ trivial (.refl db)
  | createImport v m =>
      dsimp only [Database.execute]
      cases stored : db.insertImage (Database.storedImage { v with uploadedVia := str "import" }) with
      | none => exact .none _ _ _ trivial (.refl db)
      | some db₁ =>
          dsimp only
          cases mapped : db₁.insertAlias { m with createdAt := ofUnix (unix m.createdAt) } with
          | none => exact .none _ _ _ trivial (.refl db)
          | some db₂ =>
              obtain ⟨admin, sessions, tokens⟩ := insertImage_accounts stored
              obtain ⟨admin', sessions', tokens'⟩ := insertAlias_accounts mapped
              exact .none _ _ _ trivial
                ⟨admin'.trans admin, sessions'.trans sessions, tokens'.trans tokens⟩
  | deleteImage id =>
      dsimp only [Database.execute]
      cases db.image? id with
      | none => exact .none _ _ _ trivial (.refl db)
      | some row => exact .none _ _ _ trivial ⟨rfl, rfl, rfl⟩
  | updateVisibility id visibility => exact .none _ _ _ trivial (updateImage_accounts db id _)
  | updateContent v => exact .none _ _ _ trivial (updateImage_accounts db v.id _)
  | createAlias m =>
      dsimp only [Database.execute]
      split
      · exact .none _ _ _ trivial (.refl db)
      cases mapped : db.insertAlias { m with createdAt := ofUnix (unix m.createdAt) } with
      | none => exact .none _ _ _ trivial (.refl db)
      | some db' => exact .none _ _ _ trivial (insertAlias_accounts mapped)
  | deleteAlias id =>
      dsimp only [Database.execute]
      cases row? Alias.id id db.aliases with
      | none => exact .none _ _ _ trivial (.refl db)
      | some row => exact .none _ _ _ trivial ⟨rfl, rfl, rfl⟩
  | updateProfile adminID displayName email now =>
      by_cases known : (db.admin.any fun a => a.id == adminID) = true
      · rw [show (db.execute (.updateProfile adminID displayName email now)).1 = .ok true from
          congrArg Except.ok known]
        obtain ⟨admin, there, own⟩ : ∃ admin, db.admin = some admin ∧ admin.id = adminID := by
          simpa [Option.any_eq_true] using known
        refine .renamed adminID displayName email now admin _ there own ?_ rfl rfl
        change db.admin.map _ = some _
        rw [there, Option.map_some, if_pos own]
      · rw [show (db.execute (.updateProfile adminID displayName email now)).1 = .ok false from
          congrArg Except.ok (by simpa using known)]
        refine .none _ _ _ trivial ⟨?_, rfl, rfl⟩
        change (db.admin.map fun a => if a.id = adminID then _ else a) = db.admin
        cases there : db.admin with
        | none => rfl
        | some a =>
            have other : a.id ≠ adminID := by simpa [there] using known
            simp [other]
  | createSession s =>
      change Amend db (.createSession s) (db.inserted .failed (db.insertSession (storedSession s))).1
        (db.inserted .failed (db.insertSession (storedSession s))).2
      rcases inserted_cases db .failed (db.insertSession (storedSession s)) with ⟨db', stored, eq⟩ | eq
      · rw [eq]
        exact .opened s db' stored
      · rw [eq]
        exact .none _ _ _ trivial (.refl db)
  | deleteSessionByHash hash => exact .closed hash
  | deleteExpiredSessions now => exact .expired now _
  | changePassword adminID passwordHash kept now =>
      dsimp only [Database.execute]
      split
      · rename_i known
        obtain ⟨admin, there, own⟩ : ∃ admin, db.admin = some admin ∧ admin.id = adminID := by
          simpa [Option.any_eq_true] using known
        refine .secured adminID passwordHash kept now admin _ there own ?_ rfl rfl
        change db.admin.map _ = some _
        rw [there, Option.map_some, if_pos own]
      · exact .none _ _ _ trivial (.refl db)
  | createToken t hash =>
      change Amend db (.createToken t hash) (db.inserted .failed (db.insertToken ⟨storedToken t, hash⟩)).1
        (db.inserted .failed (db.insertToken ⟨storedToken t, hash⟩)).2
      rcases inserted_cases db .failed (db.insertToken ⟨storedToken t, hash⟩) with
        ⟨db', stored, eq⟩ | eq
      · rw [eq]
        exact .issued t hash db' stored
      · rw [eq]
        exact .none _ _ _ trivial (.refl db)
  | revokeToken id =>
      dsimp only [Database.execute]
      cases found : db.tokens.find? fun r => r.token.id == id && r.token.isActive with
      | none =>
          refine .missing id fun row member own => ?_
          have absent := List.find?_eq_none.mp found row member
          simpa [own] using absent
      | some row =>
          obtain ⟨member, own, active⟩ := find_active found
          exact .revoked id row member own active
  | _ => exact .none _ _ _ trivial (.refl db)

theorem leaving_failed (q : Statement) : Leaving q (.error .failed) := by
  cases q <;> trivial

theorem statement_amend {σ σ' : State} {c : Choice} {r : Except DatabaseError q.Value}
    (performed : σ.statement q c = some (r, σ')) : Amend σ.database q r σ'.database := by
  unfold State.statement at performed
  split at performed
  · cases performed
    exact execute_amend σ.database q
  · cases performed
    exact .none _ _ _ (leaving_failed q) (.refl _)
  · split at performed
    · rename_i returning
      cases performed
      cases q with
      | deleteImage id =>
          dsimp only [Database.execute]
          cases σ.database.image? id with
          | none => exact .none _ _ _ trivial (.refl _)
          | some row => exact .none _ _ _ trivial ⟨rfl, rfl, rfl⟩
      | deleteAlias id =>
          dsimp only [Database.execute]
          cases row? Alias.id id σ.database.aliases with
          | none => exact .none _ _ _ trivial (.refl _)
          | some row => exact .none _ _ _ trivial ⟨rfl, rfl, rfl⟩
      | revokeToken id =>
          dsimp only [Database.execute]
          cases found : σ.database.tokens.find? fun r => r.token.id == id && r.token.isActive with
          | none => exact .none _ _ _ trivial (.refl _)
          | some row =>
              obtain ⟨member, own, active⟩ := find_active found
              exact .revokedUnseen id row member own active
      | _ => cases returning
    · cases performed
  · cases performed

end Statements

end ImageSilo.Accounts
