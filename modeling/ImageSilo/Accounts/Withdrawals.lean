import ImageSilo.Accounts.Tokens
import ImageSilo.Concurrent.Traces

/-! A row of a token that is revoked is never active again, and a revocation that finds no active row
holds the mutex of the tokens. -/
namespace ImageSilo.Accounts

open Go Concurrent Tables Publication

variable {P : Platform} {requests : Nat → Request} {σ σ' : State} {ls : Nat → Ledger}
  {ks : Nat → Docket} {i j : Nat} {a : Action} {c : Choice} {r : Response a} {d : Docket}
  {τ τ' : List (Event (machine P))} {t₀ : Time} {db db' : Database} {row : ApiToken.Row}

/-- Rows of tokens keep their identifier and their digest, none becomes active again, and a new row has
a digest of its own. -/
structure Ageing (db db' : Database) : Prop where
  kept : ∀ r ∈ db.tokens, ∃ r' ∈ db'.tokens, r'.token.id = r.token.id ∧ r'.hash = r.hash
  old : ∀ r' ∈ db'.tokens, (∃ r ∈ db.tokens, r.hash = r'.hash ∧
    (r'.token.isActive = true → r.token.isActive = true)) ∨ ∀ r ∈ db.tokens, r.hash ≠ r'.hash

theorem Ageing.of_same (same : db'.tokens = db.tokens) : Ageing db db' where
  kept r member := ⟨r, by rwa [same], rfl, rfl⟩
  old r' member := .inl ⟨r', by rwa [same] at member, rfl, fun live => live⟩

theorem ageing_revoked (id : GoString) : Ageing db (db.revokeToken id) where
  kept r member := by
    refine ⟨_, List.mem_map_of_mem member, ?_⟩
    split <;> exact ⟨rfl, rfl⟩
  old r' member := by
    obtain ⟨r, known, same, -, live⟩ := mem_revoked member
    exact .inl ⟨r, known, same, fun active => (live active).1 ▸ active⟩

theorem ageing_issued (inserted : db.insertToken row = some db') : Ageing db db' := by
  obtain ⟨tables, -, -, fresh⟩ := insertToken_some inserted
  constructor
  · intro r member
    refine ⟨r, ?_, rfl, rfl⟩
    rw [tables]
    exact List.mem_append_left _ member
  · intro r' member
    rw [tables, List.mem_append, List.mem_singleton] at member
    rcases member with known | rfl
    · exact .inl ⟨r', known, rfl, fun live => live⟩
    · exact .inr fresh

theorem statement_ageing {q : Statement} {r : Except DatabaseError q.Value}
    (performed : σ.statement q c = some (r, σ')) : Ageing σ.database σ'.database := by
  have amend := statement_amend performed
  generalize σ'.database = db' at amend
  cases amend with
  | renamed _ _ _ _ _ _ _ _ _ _ tokens => exact .of_same tokens
  | opened s db' inserted => exact .of_same (insertSession_some inserted).2.1
  | closed => exact .of_same rfl
  | expired => exact .of_same rfl
  | secured _ _ _ _ _ _ _ _ _ _ tokens => exact .of_same tokens
  | issued t hash db' inserted => exact ageing_issued inserted
  | revoked id => exact ageing_revoked id
  | revokedUnseen id => exact ageing_revoked id
  | missing => exact .of_same rfl
  | none _ _ _ _ same => exact .of_same same.tokens

theorem ageing_step (performed : σ.perform P i a c = some (r, σ')) :
    Ageing σ.database σ'.database := by
  cases a with
  | statement q => exact statement_ageing performed
  | _ => exact .of_same (by rw [(perform_frame performed).database (by simp)])

/-- A removal of a token comes to be owed by revoking it. -/
theorem record_removal {hash : Digest} (owed : (d.record a r).token = some (.remove hash)) :
    d.token = some (.remove hash) ∨
      ∃ id, (⟨a, r⟩ : Answer Response) = ⟨.statement (.revokeToken id), .ok hash⟩ := by
  cases a with
  | statement q =>
      unfold Docket.record Docket.recordStatement at owed
      dsimp only at owed
      split at owed
      case h_9 => cases owed
      case h_10 id hash' =>
        cases owed
        exact .inr ⟨id, rfl⟩
      all_goals exact .inl owed
  | sync s => cases s <;> exact .inl owed
  | tokenStep s =>
      obtain ⟨_, eq⟩ := recordToken_frame d s
      rw [Docket.record, eq] at owed
      cases owed
  | newToken text => cases r <;> exact .inl owed
  | _ => exact .inl owed

/-- A token comes to be noted as missing when its revocation finds no active row. -/
theorem record_missed {id : GoString} (missed : (d.record a r).missed = some id) :
    d.missed = some id ∨
      (⟨a, r⟩ : Answer Response) = ⟨.statement (.revokeToken id), .error .noRows⟩ := by
  cases a with
  | statement q =>
      unfold Docket.record Docket.recordStatement at missed
      dsimp only at missed
      split at missed
      case h_11 id' =>
        cases missed
        exact .inr rfl
      all_goals exact .inl missed
  | sync s => cases s <;> exact .inl missed
  | tokenStep s =>
      obtain ⟨_, eq⟩ := recordToken_frame d s
      rw [Docket.record, eq] at missed
      exact .inl missed
  | newToken text => cases r <;> exact .inl missed
  | _ => exact .inl missed

/-- A revocation that succeeds has found the row active. -/
theorem revokeToken_found {id : GoString} {hash : Digest}
    (performed : σ.statement (.revokeToken id) c = some (.ok hash, σ')) :
    ∃ r ∈ σ.database.tokens, r.hash = hash ∧ r.token.isActive = true := by
  have amend := statement_amend performed
  generalize σ'.database = db' at amend
  cases amend with
  | revoked _ found member _ live => exact ⟨found, member, rfl, live⟩
  | none _ _ _ leaving _ => exact leaving.elim

theorem revokeToken_missed {id : GoString}
    (performed : σ.statement (.revokeToken id) c = some (.error .noRows, σ')) :
    ∀ r ∈ σ.database.tokens, r.token.id = id → r.token.isActive = false := by
  have amend := statement_amend performed
  generalize σ'.database = db' at amend
  cases amend with
  | missing _ absent => exact absent
  | none _ _ _ leaving _ => exact leaving.elim

/-- A token that had a row, before and after a revocation has missed it. -/
structure Barred (i : Nat) (row : ApiToken.Row) (σ : State) (ks : Nat → Docket) : Prop where
  there : ∃ r ∈ σ.database.tokens, r.token.id = row.token.id ∧ r.hash = row.hash
  missed : (ks i).missed = some row.token.id →
    (∀ r ∈ σ.database.tokens, r.hash = row.hash → r.token.isActive = false) ∧
      ∀ j, (ks j).token ≠ some (.remove row.hash)

theorem Barred.begin (there : row ∈ σ.database.tokens) (fresh : (ks i).missed = none) :
    Barred i row σ ks where
  there := ⟨row, there, rfl, rfl⟩
  missed missed := by rw [fresh] at missed; cases missed

theorem Barred.step (h : Barred j row σ ks) (filed : Filed requests σ ls ks)
    (permitted : (ks i).permits P a) (performed : σ.perform P i a c = some (r, σ')) :
    Barred j row σ' (Function.update ks i ((ks i).record a r)) := by
  have ageing := ageing_step performed
  obtain ⟨known, member, own, hash⟩ := h.there
  refine ⟨?_, ?_⟩
  · obtain ⟨known', member', own', hash'⟩ := ageing.kept known member
    exact ⟨known', member', own'.trans own, hash'.trans hash⟩
  have stay (dead : ∀ r ∈ σ.database.tokens, r.hash = row.hash → r.token.isActive = false)
      (quiet : ∀ k, (ks k).token ≠ some (.remove row.hash)) :
      (∀ r ∈ σ'.database.tokens, r.hash = row.hash → r.token.isActive = false) ∧
        ∀ k, (Function.update ks i ((ks i).record a r) k).token ≠ some (.remove row.hash) := by
    constructor
    · intro new there same
      rcases ageing.old new there with ⟨old, before, eq, live⟩ | fresh
      · rw [← Bool.not_eq_true]
        intro active
        have inactive := dead old before (eq.trans same)
        rw [live active] at inactive
        cases inactive
      · exact absurd (hash.trans same.symm) (fresh known member)
    · intro k owed
      by_cases self : k = i
      · subst self
        rw [Function.update_self] at owed
        rcases record_removal owed with before | ⟨id, eq⟩
        · exact quiet k before
        · cases eq
          obtain ⟨found, active, same, live⟩ := revokeToken_found performed
          rw [dead found active same] at live
          cases live
      · rw [Function.update_of_ne self] at owed
        exact quiet k owed
  intro missed
  by_cases self : j = i
  · subst self
    rw [Function.update_self] at missed
    rcases record_missed missed with before | eq
    · exact stay (h.missed before).1 (h.missed before).2
    · cases eq
      obtain ⟨idle, -, mine, -⟩ := permitted
      refine stay ?_ ?_
      · intro r there same
        obtain rfl := σ.database.tokenHashes.eq there member (same.trans hash.symm)
        exact revokeToken_missed performed r there own
      · intro k owed
        obtain rfl := filed.debtor mine owed
        rw [idle.token] at owed
        cases owed
  · rw [Function.update_of_ne self] at missed
    exact stay (h.missed missed).1 (h.missed missed).2

/-- A token that a revocation has missed is not in the index. -/
theorem Barred.absent (h : Barred i row σ ks) (tokens : Tokens t₀ τ σ ks)
    (missed : (ks i).missed = some row.token.id) : σ.tokens.lookup row.hash = none := by
  obtain ⟨dead, quiet⟩ := h.missed missed
  cases there : σ.tokens.lookup row.hash with
  | none => rfl
  | some identity =>
      rcases tokens.known row.hash identity there with ⟨r, member, same, live, -⟩ | ⟨j, owed⟩
      · rw [dead r member same] at live
        cases live
      · exact absurd owed (quiet j)

/-- Events that use the same time leave the same tokens unexpired. -/
theorem Tokens.retimed {e e' : Event (machine P)} (h : Tokens t₀ (τ ++ [e]) σ ks)
    (same : tokenTime e' = tokenTime e) : Tokens t₀ (τ ++ [e']) σ ks := by
  have lasting : ∀ row, Lasting t₀ (τ ++ [e']) row → Lasting t₀ (τ ++ [e]) row := by
    intro row lasts
    refine ⟨lasts.1, ?_⟩
    intro e'' member t timed
    rcases List.mem_append.mp member with old | new
    · exact lasts.before.2 e'' old t timed
    · obtain rfl := List.mem_singleton.mp new
      exact lasts.now (same.trans timed)
  exact ⟨h.known, fun row member live lasts => h.listed row member live (lasting row lasts), h.owed,
    fun j m loaded => (h.loaded j m loaded).congr rfl lasting, h.gone⟩

end ImageSilo.Accounts
