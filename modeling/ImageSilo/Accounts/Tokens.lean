import ImageSilo.Accounts.Mutexes
import ImageSilo.Publication.Agreement

/-! An entry of the token index belongs to an active row, or some call still has to remove it. -/
namespace ImageSilo.Accounts

open Go Concurrent Tables Publication

variable {P : Platform} {requests : Nat → Request} {σ σ' : State} {ls : Nat → Ledger}
  {ks : Nat → Docket} {i j : Nat} {a : Action} {c : Choice} {r : Response a} {d : Docket}
  {τ : List (Event (machine P))} {t₀ : Time} {db db' : Database} {row : ApiToken.Row}

/-- The identity of a row, up to fractions of a second. -/
structure Answers (row : ApiToken.Row) (identity : ApiToken.Identity) : Prop where
  tokenID : identity.tokenID = row.token.id
  tokenPrefix : identity.tokenPrefix = row.token.tokenPrefix
  scopes : identity.scopes = row.token.scopes
  expiresAt : identity.expiresAt.map unix = row.token.expiresAt.map unix

/-- The time at which a step lets tokens expire. -/
def tokenTime (e : Event (machine P)) : Option Time :=
  match e.action with
  | .tokenStep (.purgeExpired now) => some now
  | .statement (.listActiveTokens now) => some now
  | _ => none

/-- The row has not expired at any of the times used so far. -/
def Lasting (t₀ : Time) (τ : List (Event (machine P))) (row : ApiToken.Row) : Prop :=
  Database.tokenUnexpired t₀ row = true ∧
    ∀ e ∈ τ, ∀ t ∈ tokenTime e, Database.tokenUnexpired t row = true

/-- There is an active row for this digest and this identity. -/
def Active (db : Database) (hash : Digest) (identity : ApiToken.Identity) : Prop :=
  ∃ row ∈ db.tokens, row.hash = hash ∧ row.token.isActive = true ∧ Answers row identity

/-- The map holds active rows alone, and all of them that last. -/
structure Lists (db : Database) (lasting : ApiToken.Row → Prop) (m : ApiToken.Index) : Prop where
  known : ∀ hash identity, m.lookup hash = some identity → Active db hash identity
  listed : ∀ row ∈ db.tokens, row.token.isActive = true → lasting row →
    ∃ identity, m.lookup row.hash = some identity

/-- The index of the tokens, debts taken into account. -/
structure Tokens (t₀ : Time) (τ : List (Event (machine P))) (σ : State) (ks : Nat → Docket) :
    Prop where
  known : ∀ hash identity, σ.tokens.lookup hash = some identity →
    Active σ.database hash identity ∨ ∃ j, (ks j).token = some (.remove hash)
  listed : ∀ row ∈ σ.database.tokens, row.token.isActive = true → Lasting t₀ τ row →
    (∃ identity, σ.tokens.lookup row.hash = some identity) ∨
      ∃ j identity, (ks j).token = some (.add row.hash identity)
  owed : ∀ j s, (ks j).token = some s →
    (∃ hash identity, s = .add hash identity ∧ Active σ.database hash identity) ∨
      ∃ row ∈ σ.database.tokens, s = .remove row.hash ∧ row.token.isActive = false ∧
        (ks j).request = .revokeToken row.token.id
  loaded : ∀ j m, (ks j).tokens = some m → Lists σ.database (Lasting t₀ τ) m
  gone : ∀ j id, (ks j).gone = some id → ∃ row ∈ σ.database.tokens, row.token.id = id ∧
    row.token.isActive = false ∧ σ.tokens.lookup row.hash = none

section Rows

theorem Lasting.before {e : Event (machine P)} (h : Lasting t₀ (τ ++ [e]) row) : Lasting t₀ τ row :=
  ⟨h.1, fun e' member => h.2 e' (List.mem_append_left _ member)⟩

theorem Lasting.now {e : Event (machine P)} {t : Time} (h : Lasting t₀ (τ ++ [e]) row)
    (timed : tokenTime e = some t) : Database.tokenUnexpired t row = true :=
  h.2 e (List.mem_append_right _ (List.mem_singleton_self e)) t timed

theorem answers_identity (row : ApiToken.Row) :
    Answers row (ApiToken.identityFromToken row.token) :=
  ⟨rfl, rfl, rfl, rfl⟩

theorem answers_stored (t : ApiToken.Token) (hash : Digest) :
    Answers ⟨storedToken t, hash⟩ (ApiToken.identityFromToken t) := by
  refine ⟨rfl, rfl, rfl, ?_⟩
  change t.expiresAt.map unix = (t.expiresAt.map fun t => ofUnix (unix t)).map unix
  cases t.expiresAt with
  | none => rfl
  | some t => exact congrArg some (unix_ofUnix _).symm

/-- An entry is removed by a purge only when its row has expired in whole seconds. -/
theorem alive_of_unexpired {identity : ApiToken.Identity} {now : Time} (answers : Answers row identity)
    (unexpired : Database.tokenUnexpired now row = true) : ApiToken.alive now identity.expiresAt := by
  have same := answers.expiresAt
  unfold Database.tokenUnexpired at unexpired
  unfold ApiToken.alive
  cases expires : identity.expiresAt with
  | none => rfl
  | some t =>
      rw [expires] at same
      obtain ⟨u, there, eq⟩ := Option.map_eq_some_iff.mp same.symm
      rw [there] at unexpired
      simp only [Option.all_some, decide_eq_true_eq] at unexpired ⊢
      rw [eq] at unexpired
      by_contra late
      exact absurd (unix_mono (not_lt.mp late)) (not_le.mpr unexpired)

theorem mem_activeTokens {now : Time} : row ∈ db.activeTokens now ↔
    row ∈ db.tokens ∧ row.token.isActive = true ∧ Database.tokenUnexpired now row = true := by
  simp [Database.activeTokens]

/-- What a load has read. -/
theorem lists_loaded (now : Time) : Lists db (fun row => Database.tokenUnexpired now row = true)
    (mapOf ((db.activeTokens now).map fun r => (r.hash, ApiToken.identityFromToken r.token))) := by
  have distinct : (((db.activeTokens now).map fun r =>
      (r.hash, ApiToken.identityFromToken r.token)).map Prod.fst).Nodup := by
    rw [List.map_map]
    exact db.tokenHashes.filter _
  have holds := lookup_filled distinct ∅
  constructor
  · intro hash identity there
    rcases (holds hash identity).mp there with member | ⟨-, absent⟩
    · obtain ⟨row, active, eq⟩ := List.mem_map.mp member
      cases eq
      obtain ⟨known, live, -⟩ := mem_activeTokens.mp active
      exact ⟨row, known, rfl, live, answers_identity row⟩
    · simp at absent
  · intro row member live unexpired
    refine ⟨ApiToken.identityFromToken row.token, (holds _ _).mpr (.inl ?_)⟩
    exact List.mem_map_of_mem (f := fun r : ApiToken.Row => (r.hash, ApiToken.identityFromToken r.token))
      (mem_activeTokens.mpr ⟨member, live, unexpired⟩)

/-- A row after a revocation. -/
theorem mem_revoked {id : GoString} : row ∈ (db.revokeToken id).tokens → ∃ old ∈ db.tokens,
    old.hash = row.hash ∧ old.token.id = row.token.id ∧
      (row.token.isActive = true → row = old ∧ row.token.id ≠ id) := by
  intro member
  obtain ⟨old, known, rfl⟩ := List.mem_map.mp member
  refine ⟨old, known, ?_⟩
  by_cases same : old.token.id = id
  · rw [if_pos same]
    exact ⟨rfl, rfl, by simp⟩
  · rw [if_neg same]
    exact ⟨rfl, rfl, fun _ => ⟨rfl, same⟩⟩

theorem revoked_mem {id : GoString} (member : row ∈ db.tokens)
    (kept : row.token.isActive = false ∨ row.token.id ≠ id) : row ∈ (db.revokeToken id).tokens := by
  refine List.mem_map.mpr ⟨row, member, ?_⟩
  by_cases same : row.token.id = id
  · rw [if_pos same]
    have inactive := kept.resolve_right (not_not.mpr same)
    obtain ⟨⟨_, _, _, _, _, active, _⟩, hash⟩ := row
    obtain rfl : active = false := inactive
    rfl
  · rw [if_neg same]

end Rows

section Steps

/-- A debt of another call is still there. -/
theorem owed_elsewhere {s : ApiToken.IndexStep} (apart : (ks i).token ≠ some s)
    (owed : ∃ j, (ks j).token = some s) : ∃ j, (Function.update ks i d j).token = some s := by
  obtain ⟨j, owed⟩ := owed
  have other : j ≠ i := by
    intro self
    exact apart (self ▸ owed)
  exact ⟨j, by rw [Function.update_of_ne other]; exact owed⟩

theorem owed_here {s : ApiToken.IndexStep} (owed : d.token = some s) :
    ∃ j, (Function.update ks i d j).token = some s :=
  ⟨i, by rw [Function.update_self]; exact owed⟩

theorem Active.mono {hash : Digest} {identity : ApiToken.Identity} (h : Active db hash identity)
    (kept : ∀ row ∈ db.tokens, row.token.isActive = true → row.hash = hash → row ∈ db'.tokens) :
    Active db' hash identity := by
  obtain ⟨row, member, same, live, answers⟩ := h
  exact ⟨row, kept row member live same, same, live, answers⟩

/-- A digest does not belong to an active and to a revoked row. -/
theorem Active.apart {hash : Digest} {identity : ApiToken.Identity} (h : Active db hash identity)
    (member : row ∈ db.tokens) (gone : row.token.isActive = false) : row.hash ≠ hash := by
  intro same
  obtain ⟨row', member', same', live, -⟩ := h
  rw [db.tokenHashes.eq member member' (same.trans same'.symm), live] at gone
  cases gone

theorem Lists.congr {m : ApiToken.Index} {lasting lasting' : ApiToken.Row → Prop}
    (h : Lists db lasting m) (tables : db'.tokens = db.tokens)
    (weaker : ∀ row, lasting' row → lasting row) : Lists db' lasting' m := by
  constructor
  · intro hash identity there
    exact (h.known hash identity there).mono fun row member _ _ => by rwa [tables]
  · intro row member live lasts
    rw [tables] at member
    exact h.listed row member live (weaker row lasts)

/-- A step that is not about tokens. -/
theorem Tokens.frame {e : Event (machine P)} (h : Tokens t₀ τ σ ks)
    (tables : σ'.database.tokens = σ.database.tokens) (index : σ'.tokens = σ.tokens)
    (token : d.token = (ks i).token) (tokens : ∀ m, d.tokens = some m → (ks i).tokens = some m)
    (gone : d.gone = (ks i).gone) (request : d.request = (ks i).request) :
    Tokens t₀ (τ ++ [e]) σ' (Function.update ks i d) := by
  have debts : ∀ j, (Function.update ks i d j).token = (ks j).token := by
    intro j
    by_cases self : j = i
    · rw [self, Function.update_self]
      exact token
    · rw [Function.update_of_ne self]
  have requested : ∀ j, (Function.update ks i d j).request = (ks j).request := by
    intro j
    by_cases self : j = i
    · rw [self, Function.update_self]
      exact request
    · rw [Function.update_of_ne self]
  constructor
  · intro hash identity there
    rw [index] at there
    simp only [debts, Active, tables]
    exact h.known hash identity there
  · intro row member live lasts
    rw [tables] at member
    simp only [debts, index]
    exact h.listed row member live lasts.before
  · intro j s owed
    rw [debts] at owed
    rw [requested]
    simp only [Active, tables]
    exact h.owed j s owed
  · intro j m loaded
    have before : (ks j).tokens = some m := by
      by_cases self : j = i
      · subst self
        rw [Function.update_self] at loaded
        exact tokens m loaded
      · rwa [Function.update_of_ne self] at loaded
    exact (h.loaded j m before).congr tables fun _ => Lasting.before
  · intro j id told
    have before : (ks j).gone = some id := by
      by_cases self : j = i
      · subst self
        rw [Function.update_self] at told
        exact gone ▸ told
      · rwa [Function.update_of_ne self] at told
    rw [tables, index]
    exact h.gone j id before

/-- While a call changes something, no map of tokens is loaded. -/
theorem Filed.no_tokens (filed : Filed requests σ ls ks) (sound : Sound P requests σ ls)
    (changing : (ks i).hold = .shared) (j : Nat) (m : ApiToken.Index) : (ks j).tokens ≠ some m :=
  fun loaded => filed.unloaded sound changing j ((filed.orderly j).tokens m loaded)

/-- A call that holds the mutex of the tokens owes what is owed. -/
theorem Filed.debtor (filed : Filed requests σ ls ks) (mine : (ks i).mutations = true)
    {s : ApiToken.IndexStep} (owed : (ks j).token = some s) : j = i :=
  filed.mutator mine ((filed.orderly j).token s owed).1

theorem Tokens.issued {e : Event (machine P)} {t : ApiToken.Token} {hash : Digest}
    (h : Tokens t₀ τ σ ks) (filed : Filed requests σ ls ks) (sound : Sound P requests σ ls)
    (idle : (ks i).Idle) (changing : (ks i).hold = .shared) (mine : (ks i).mutations = true)
    (live : t.isActive = true)
    (inserted : σ.database.insertToken ⟨storedToken t, hash⟩ = some σ'.database)
    (index : σ'.tokens = σ.tokens) :
    Tokens t₀ (τ ++ [e]) σ' (Function.update ks i
      { ks i with token := some (.add hash (ApiToken.identityFromToken t)) }) := by
  obtain ⟨tables, -, -, -⟩ := insertToken_some inserted
  have still : ∀ row ∈ σ.database.tokens, row ∈ σ'.database.tokens := by
    intro row member
    rw [tables]
    exact List.mem_append_left _ member
  have apart : ∀ s, (ks i).token ≠ some s := by simp [idle.token]
  have new : (⟨storedToken t, hash⟩ : ApiToken.Row) ∈ σ'.database.tokens := by simp [tables]
  constructor
  · intro hash' identity there
    rw [index] at there
    rcases h.known hash' identity there with active | owed
    · exact .inl (active.mono fun row member _ _ => still row member)
    · exact .inr (owed_elsewhere (apart _) owed)
  · intro row member active lasts
    rw [tables, List.mem_append, List.mem_singleton] at member
    rcases member with old | rfl
    · rw [index]
      rcases h.listed row old active lasts.before with there | ⟨j, identity, owed⟩
      · exact .inl there
      · obtain ⟨j', owed'⟩ := owed_elsewhere (apart _) ⟨j, owed⟩
        exact .inr ⟨j', identity, owed'⟩
    · have owes : ∃ j, (Function.update ks i
          { ks i with token := some (.add hash (ApiToken.identityFromToken t)) } j).token =
            some (.add hash (ApiToken.identityFromToken t)) := owed_here rfl
      obtain ⟨j, owed⟩ := owes
      exact .inr ⟨j, _, owed⟩
  · intro j s owed
    by_cases self : j = i
    · subst self
      rw [Function.update_self] at owed
      cases owed
      exact .inl ⟨hash, _, rfl, _, new, rfl, live, answers_stored t hash⟩
    · rw [Function.update_of_ne self] at owed
      exact absurd (filed.debtor mine owed) self
  · intro j m loaded
    by_cases self : j = i
    · subst self
      rw [Function.update_self] at loaded
      exact absurd loaded (filed.no_tokens sound changing j m)
    · rw [Function.update_of_ne self] at loaded
      exact absurd loaded (filed.no_tokens sound changing j m)
  · intro j id told
    have before : (ks j).gone = some id := by
      by_cases self : j = i
      · subst self
        rwa [Function.update_self] at told
      · rwa [Function.update_of_ne self] at told
    obtain ⟨row, member, same, dead, absent⟩ := h.gone j id before
    exact ⟨row, still row member, same, dead, by rw [index]; exact absent⟩

theorem Tokens.revoked {e : Event (machine P)} {id : GoString}
    (h : Tokens t₀ τ σ ks) (filed : Filed requests σ ls ks) (sound : Sound P requests σ ls)
    (idle : (ks i).Idle) (changing : (ks i).hold = .shared) (mine : (ks i).mutations = true)
    (asked : (ks i).request = .revokeToken id)
    (member : row ∈ σ.database.tokens) (own : row.token.id = id)
    (tables : σ'.database = σ.database.revokeToken id) (index : σ'.tokens = σ.tokens) :
    Tokens t₀ (τ ++ [e]) σ' (Function.update ks i { ks i with token := some (.remove row.hash) }) := by
  have apart : ∀ s, (ks i).token ≠ some s := by simp [idle.token]
  have here : ∃ j, (Function.update ks i { ks i with token := some (.remove row.hash) } j).token =
      some (.remove row.hash) := owed_here rfl
  have still : ∀ old ∈ σ.database.tokens, old.token.isActive = false ∨ old.token.id ≠ id →
      old ∈ σ'.database.tokens := by
    intro old known kept
    rw [tables]
    exact revoked_mem known kept
  -- only the revoked row has its digest
  have other : ∀ old ∈ σ.database.tokens, old.hash ≠ row.hash → old.token.id ≠ id := by
    intro old known differs same
    exact differs (congrArg _ (σ.database.tokenIDs.eq known member (same.trans own.symm)))
  have active : ∀ hash identity, hash ≠ row.hash → Active σ.database hash identity →
      Active σ'.database hash identity := by
    intro hash identity differs known
    refine known.mono fun old there _ same => still old there (.inr (other old there ?_))
    rwa [same]
  have dead : (⟨{ row.token with isActive := false }, row.hash⟩ : ApiToken.Row) ∈
      σ'.database.tokens := by
    rw [tables]
    refine List.mem_map.mpr ⟨row, member, ?_⟩
    rw [if_pos own]
  constructor
  · intro hash identity there
    rw [index] at there
    by_cases same : hash = row.hash
    · subst same
      exact .inr here
    · rcases h.known hash identity there with known | owed
      · exact .inl (active hash identity same known)
      · exact .inr (owed_elsewhere (apart _) owed)
  · intro new there live lasts
    rw [tables] at there
    obtain ⟨old, known, -, -, kept⟩ := mem_revoked there
    obtain ⟨rfl, -⟩ := kept live
    rw [index]
    rcases h.listed new known live lasts.before with found | ⟨j, identity, owed⟩
    · exact .inl found
    · obtain ⟨j', owed'⟩ := owed_elsewhere (apart _) ⟨j, owed⟩
      exact .inr ⟨j', identity, owed'⟩
  · intro j s owed
    by_cases self : j = i
    · subst self
      rw [Function.update_self] at owed ⊢
      cases owed
      exact .inr ⟨_, dead, rfl, rfl, own.symm ▸ asked⟩
    · rw [Function.update_of_ne self] at owed
      exact absurd (filed.debtor mine owed) self
  · intro j m loaded
    by_cases self : j = i
    · subst self
      rw [Function.update_self] at loaded
      exact absurd loaded (filed.no_tokens sound changing j m)
    · rw [Function.update_of_ne self] at loaded
      exact absurd loaded (filed.no_tokens sound changing j m)
  · intro j id' told
    have before : (ks j).gone = some id' := by
      by_cases self : j = i
      · subst self
        rwa [Function.update_self] at told
      · rwa [Function.update_of_ne self] at told
    obtain ⟨old, known, same, inactive, absent⟩ := h.gone j id' before
    exact ⟨old, still old known (.inl inactive), same, inactive, by rw [index]; exact absent⟩

/-- A load reads what a replaced index has to hold. -/
theorem Tokens.read {e : Event (machine P)} {now : Time} (h : Tokens t₀ τ σ ks)
    (timed : tokenTime e = some now) (same : σ'.database = σ.database)
    (index : σ'.tokens = σ.tokens) :
    Tokens t₀ (τ ++ [e]) σ' (Function.update ks i
      { ks i with
        tokens := some (mapOf ((σ.database.activeTokens now).map fun r =>
          (r.hash, ApiToken.identityFromToken r.token))) }) := by
  have framed : Tokens t₀ (τ ++ [e]) σ' ks := by
    have frame := h.frame (e := e) (i := i) (d := ks i) (congrArg Database.tokens same) index rfl
      (fun _ loaded => loaded) rfl rfl
    rwa [Function.update_eq_self] at frame
  constructor
  · intro hash identity there
    rcases framed.known hash identity there with active | ⟨j, owed⟩
    · exact .inl active
    · exact .inr ⟨j, by rw [project_docket Docket.token, Function.update_eq_self]; exact owed⟩
  · intro row member live lasts
    rcases framed.listed row member live lasts with there | ⟨j, identity, owed⟩
    · exact .inl there
    · exact .inr ⟨j, identity, by rw [project_docket Docket.token, Function.update_eq_self]; exact owed⟩
  · intro j s owed
    rw [project_docket Docket.token, Function.update_eq_self] at owed
    rw [project_docket Docket.request, Function.update_eq_self]
    exact framed.owed j s owed
  · intro j m loaded
    by_cases self : j = i
    · subst self
      rw [Function.update_self] at loaded
      cases loaded
      rw [same]
      exact (lists_loaded now).congr rfl fun _ lasts => lasts.now timed
    · rw [Function.update_of_ne self] at loaded
      exact framed.loaded j m loaded
  · intro j id told
    rw [project_docket Docket.gone, Function.update_eq_self] at told
    exact framed.gone j id told

theorem Tokens.added {e : Event (machine P)} {hash : Digest} {identity : ApiToken.Identity}
    (h : Tokens t₀ τ σ ks) (filed : Filed requests σ ls ks)
    (owed : (ks i).token = some (.add hash identity)) (same : σ'.database = σ.database)
    (index : σ'.tokens = σ.tokens.insert hash identity) :
    Tokens t₀ (τ ++ [e]) σ' (Function.update ks i { ks i with token := none }) := by
  have mine := ((filed.orderly i).token _ owed).1
  have active : Active σ.database hash identity := by
    rcases h.owed i _ owed with ⟨hash', identity', eq, active⟩ | ⟨row, -, eq, -⟩
    · cases eq
      exact active
    · cases eq
  constructor
  · intro hash' identity' there
    rw [index, lookup_insert_ite] at there
    rw [same]
    split at there
    · rename_i eq
      cases there
      exact .inl (eq ▸ active)
    · rcases h.known hash' identity' there with known | debt
      · exact .inl known
      · exact .inr (owed_elsewhere (by simp [owed]) debt)
  · intro row member live lasts
    rw [same] at member
    rw [index, lookup_insert_ite]
    refine .inl ?_
    split
    · exact ⟨identity, rfl⟩
    · rename_i differs
      rcases h.listed row member live lasts.before with found | ⟨j, identity', debt⟩
      · exact found
      · obtain rfl := filed.debtor mine debt
        rw [owed] at debt
        cases debt
        exact absurd rfl differs
  · intro j s debt
    by_cases self : j = i
    · subst self
      rw [Function.update_self] at debt
      cases debt
    · rw [Function.update_of_ne self] at debt
      exact absurd (filed.debtor mine debt) self
  · intro j m loaded
    rw [project_docket Docket.tokens, Function.update_eq_self] at loaded
    exact (h.loaded j m loaded).congr (congrArg Database.tokens same) fun _ => Lasting.before
  · intro j id told
    rw [project_docket Docket.gone, Function.update_eq_self] at told
    obtain ⟨row, member, own, dead, absent⟩ := h.gone j id told
    rw [same, index]
    refine ⟨row, member, own, dead, ?_⟩
    rw [lookup_insert_ite, if_neg (active.apart member dead)]
    exact absent

theorem Tokens.removed {e : Event (machine P)} {hash : Digest} (h : Tokens t₀ τ σ ks)
    (filed : Filed requests σ ls ks) (owed : (ks i).token = some (.remove hash))
    (same : σ'.database = σ.database) (index : σ'.tokens = σ.tokens.erase hash) :
    Tokens t₀ (τ ++ [e]) σ' (Function.update ks i ((ks i).recordToken (.remove hash))) := by
  have mine := ((filed.orderly i).token _ owed).1
  obtain ⟨row, member, rfl, dead, asked⟩ : ∃ row ∈ σ.database.tokens, hash = row.hash ∧
      row.token.isActive = false ∧ (ks i).request = .revokeToken row.token.id := by
    rcases h.owed i _ owed with ⟨hash', identity', eq, -⟩ | ⟨row, member, eq, rest⟩
    · cases eq
    · cases eq
      exact ⟨row, member, rfl, rest⟩
  rw [recordToken_remove asked]
  constructor
  · intro hash identity there
    rw [index, lookup_erase_ite] at there
    rw [same]
    split at there
    · cases there
    · rename_i differs
      rcases h.known hash identity there with known | debt
      · exact .inl known
      · refine .inr (owed_elsewhere ?_ debt)
        rw [owed]
        intro eq
        cases eq
        exact differs rfl
  · intro row' member' live lasts
    rw [same] at member'
    rw [index, lookup_erase_ite, if_neg]
    · rcases h.listed row' member' live lasts.before with found | ⟨j, identity, debt⟩
      · exact .inl found
      · obtain rfl := filed.debtor mine debt
        rw [owed] at debt
        cases debt
    · intro eq
      rw [σ.database.tokenHashes.eq member' member eq, dead] at live
      cases live
  · intro j s debt
    by_cases self : j = i
    · subst self
      rw [Function.update_self] at debt
      cases debt
    · rw [Function.update_of_ne self] at debt
      exact absurd (filed.debtor mine debt) self
  · intro j m loaded
    rw [project_docket Docket.tokens, Function.update_eq_self] at loaded
    exact (h.loaded j m loaded).congr (congrArg Database.tokens same) fun _ => Lasting.before
  · intro j id told
    rw [same, index]
    by_cases self : j = i
    · subst self
      rw [Function.update_self] at told
      cases told
      exact ⟨row, member, rfl, dead, Finmap.lookup_erase row.hash σ.tokens⟩
    · rw [Function.update_of_ne self] at told
      obtain ⟨row', member', own, dead', absent⟩ := h.gone j id told
      refine ⟨row', member', own, dead', ?_⟩
      rw [lookup_erase_ite, absent, ite_self]

theorem Tokens.replaced {e : Event (machine P)} {m : ApiToken.Index} (h : Tokens t₀ τ σ ks)
    (filed : Filed requests σ ls ks) (sound : Sound P requests σ ls)
    (rebuilds : (ks i).hold = .exclusive) (loaded : (ks i).tokens = some m)
    (same : σ'.database = σ.database) (index : σ'.tokens = m) :
    Tokens t₀ (τ ++ [e]) σ' (Function.update ks i { ks i with token := none }) := by
  have lists := h.loaded i m loaded
  have idle : ∀ j, (Function.update ks i { ks i with token := none } j).token = none := by
    intro j
    by_cases self : j = i
    · rw [self, Function.update_self]
    · rw [Function.update_of_ne self]
      exact (filed.undisturbed sound rebuilds j).1
  constructor
  · intro hash identity there
    rw [index] at there
    rw [same]
    exact .inl (lists.known hash identity there)
  · intro row member live lasts
    rw [same] at member
    rw [index]
    exact .inl (lists.listed row member live lasts.before)
  · intro j s debt
    rw [idle j] at debt
    cases debt
  · intro j m' loaded'
    rw [project_docket Docket.tokens, Function.update_eq_self] at loaded'
    exact (h.loaded j m' loaded').congr (congrArg Database.tokens same) fun _ => Lasting.before
  · intro j id told
    rw [project_docket Docket.gone, Function.update_eq_self] at told
    obtain ⟨row, member, own, dead, -⟩ := h.gone j id told
    rw [same, index]
    refine ⟨row, member, own, dead, Option.eq_none_iff_forall_ne_some.mpr ?_⟩
    intro identity there
    exact (lists.known row.hash identity there).apart member dead rfl

theorem Tokens.purged {e : Event (machine P)} {now : Time} (h : Tokens t₀ τ σ ks)
    (timed : tokenTime e = some now) (idle : (ks i).token = none)
    (same : σ'.database = σ.database)
    (index : σ'.tokens = keep (fun _ identity => ApiToken.alive now identity.expiresAt) σ.tokens) :
    Tokens t₀ (τ ++ [e]) σ' (Function.update ks i { ks i with token := none }) := by
  have untouched : Function.update ks i { ks i with token := none } = ks := by
    rw [← idle, Function.update_eq_self]
  rw [untouched]
  constructor
  · intro hash identity there
    rw [index, lookup_keep] at there
    rw [same]
    exact h.known hash identity (Option.filter_eq_some_iff.mp there).1
  · intro row member live lasts
    rw [same] at member
    rw [index, lookup_keep]
    rcases h.listed row member live lasts.before with ⟨identity, there⟩ | debt
    · refine .inl ⟨identity, Option.filter_eq_some_iff.mpr ⟨there, ?_⟩⟩
      rcases h.known row.hash identity there with ⟨row', member', eq, -, answers⟩ | ⟨j, debt⟩
      · obtain rfl := σ.database.tokenHashes.eq member' member eq
        exact alive_of_unexpired answers (lasts.now timed)
      · rcases h.owed j _ debt with ⟨_, _, eq, -⟩ | ⟨row', member', eq, dead, -⟩
        · cases eq
        · have own : row.hash = row'.hash := ApiToken.IndexStep.remove.inj eq
          rw [← σ.database.tokenHashes.eq member member' own, live] at dead
          cases dead
    · exact .inr debt
  · intro j s debt
    rw [same]
    exact h.owed j s debt
  · intro j m loaded
    exact (h.loaded j m loaded).congr (congrArg Database.tokens same) fun _ => Lasting.before
  · intro j id told
    obtain ⟨row, member, own, dead, absent⟩ := h.gone j id told
    rw [same, index]
    exact ⟨row, member, own, dead, by rw [lookup_keep, absent, Option.filter_none]⟩

theorem Tokens.tokenStep {s : ApiToken.IndexStep} {r : Response (.tokenStep s)}
    (h : Tokens t₀ τ σ ks) (filed : Filed requests σ ls ks) (sound : Sound P requests σ ls)
    (permitted : (ks i).permits P (.tokenStep s))
    (performed : σ.perform P i (.tokenStep s) c = some (r, σ')) :
    Tokens t₀ (τ ++ [⟨i, .tokenStep s, c, r⟩]) σ'
      (Function.update ks i ((ks i).record (.tokenStep s) r)) := by
  cases performed
  rcases permitted with owed | ⟨idle, ⟨rebuilds, m, loaded, rfl⟩ | ⟨changing, now, timed, rfl⟩⟩
  · rcases h.owed i s owed with ⟨hash, identity, rfl, -⟩ | ⟨row, -, rfl, -⟩
    · exact h.added filed owed rfl rfl
    · exact h.removed filed owed rfl rfl
  · exact h.replaced filed sound rebuilds loaded rfl rfl
  · exact h.purged rfl idle.token rfl rfl

/-- A statement that is not about tokens. -/
theorem Tokens.leaving {e : Event (machine P)} {q : Statement} {r : Except DatabaseError q.Value}
    (h : Tokens t₀ τ σ ks) (leaving : Leaving q r) (other : ∀ now, q ≠ .listActiveTokens now)
    (tables : σ'.database.tokens = σ.database.tokens) (index : σ'.tokens = σ.tokens) :
    Tokens t₀ (τ ++ [e]) σ' (Function.update ks i ((ks i).recordStatement q r)) := by
  unfold Docket.recordStatement
  split
  case h_9 | h_10 | h_11 => exact leaving.elim
  case h_12 => exact absurd rfl (other _)
  all_goals exact h.frame tables index rfl (fun _ loaded => loaded) rfl rfl

/-- What a statement does to the tokens, when one that reports an error has no effect. -/
theorem Tokens.statement {q : Statement} {r : Response (.statement q)} (h : Tokens t₀ τ σ ks)
    (filed : Filed requests σ ls ks) (sound : Sound P requests σ ls)
    (permitted : (ks i).permits P (.statement q)) (plain : c ≠ .interrupted)
    (performed : σ.perform P i (.statement q) c = some (r, σ')) :
    Tokens t₀ (τ ++ [⟨i, .statement q, c, r⟩]) σ'
      (Function.update ks i ((ks i).record (.statement q) r)) := by
  obtain ⟨idle, allowed⟩ := permitted
  have amend := statement_amend (q := q) performed
  obtain ⟨db', rfl⟩ := statement_state (q := q) performed
  cases amend with
  | renamed adminID displayName email now admin db' there own renamed sessions tokens =>
      exact h.frame tokens rfl rfl (fun _ loaded => loaded) rfl rfl
  | opened s db' inserted =>
      obtain ⟨-, tokens, -⟩ := insertSession_some inserted
      exact h.frame tokens rfl rfl (fun _ loaded => loaded) rfl rfl
  | closed hash => exact h.frame rfl rfl rfl (fun _ loaded => loaded) rfl rfl
  | expired now count => exact h.frame rfl rfl rfl (fun _ loaded => loaded) rfl rfl
  | secured adminID passwordHash kept now admin db' there own secured sessions tokens =>
      exact h.frame tokens rfl rfl (fun _ loaded => loaded) rfl rfl
  | issued t hash db' inserted =>
      obtain ⟨changing, mine, live⟩ := allowed
      exact h.issued filed sound idle changing mine live inserted rfl
  | revoked id row member own live =>
      obtain ⟨changing, mine, asked⟩ := allowed
      exact h.revoked filed sound idle changing mine asked member own rfl rfl
  | revokedUnseen id row member own live =>
      have unchanged := congrArg Database.tokens (failed_unchanged performed plain)
      exact h.frame unchanged rfl rfl (fun _ loaded => loaded) rfl rfl
  | missing id absent => exact h.frame rfl rfl rfl (fun _ loaded => loaded) rfl rfl
  | none _ _ _ leaving same =>
      by_cases reads : ∃ now, q = .listActiveTokens now
      · obtain ⟨now, rfl⟩ := reads
        cases r with
        | error e => exact h.frame same.tokens rfl rfl (fun _ loaded => loaded) rfl rfl
        | ok rows =>
            obtain ⟨answer, state⟩ := statement_answer performed (by simp)
            cases answer
            exact h.read rfl (congrArg State.database state) rfl
      · exact h.leaving leaving (fun now eq => reads ⟨now, eq⟩) same.tokens rfl

theorem Tokens.step (h : Tokens t₀ τ σ ks) (filed : Filed requests σ ls ks)
    (sound : Sound P requests σ ls) (permitted : (ks i).permits P a)
    (plain : (∃ q, a = .statement q) → c ≠ .interrupted)
    (performed : σ.perform P i a c = some (r, σ')) :
    Tokens t₀ (τ ++ [⟨i, a, c, r⟩]) σ' (Function.update ks i ((ks i).record a r)) := by
  cases a with
  | statement q => exact h.statement filed sound permitted (plain ⟨q, rfl⟩) performed
  | tokenStep s => exact h.tokenStep filed sound permitted performed
  | sync s =>
      have frame := perform_frame performed
      refine h.frame (congrArg Database.tokens (frame.database (by simp))) (frame.tokens (by simp))
        ?_ ?_ ?_ ?_
      · cases s <;> rfl
      · intro m loaded
        cases s <;> first | exact loaded | cases loaded
      · cases s <;> rfl
      · cases s <;> rfl
  | sessionStep s =>
      have frame := perform_frame performed
      exact h.frame (congrArg Database.tokens (frame.database (by simp))) (frame.tokens (by simp))
        rfl (fun _ loaded => loaded) rfl rfl
  | _ =>
      have frame := perform_frame performed
      obtain ⟨drawn, eq⟩ := record_frame (ks i) _ r (by simp) (by simp) (by simp) (by simp)
      rw [eq]
      exact h.frame (congrArg Database.tokens (frame.database (by simp))) (frame.tokens (by simp))
        rfl (fun _ loaded => loaded) rfl rfl

theorem Tokens.environment (h : Tokens t₀ τ σ ks) (moved : σ.environment σ') :
    Tokens t₀ τ σ' ks := by
  obtain ⟨t, -, rfl⟩ := moved
  exact ⟨h.known, h.listed, h.owed, h.loaded, h.gone⟩

theorem Tokens.begin
    (loaded : Lists σ.database (fun row => Database.tokenUnexpired t₀ row = true) σ.tokens) :
    Tokens t₀ ([] : List (Event (machine P))) σ fun j => Docket.begin (requests j) where
  known hash identity there := .inl (loaded.known hash identity there)
  listed row member live lasts := .inl (loaded.listed row member live lasts.1)
  owed j s owed := by cases owed
  loaded j m loaded := by cases loaded
  gone j id told := by cases told

end Steps

end ImageSilo.Accounts
