import ImageSilo.Accounts.Sessions
import ImageSilo.Accounts.Tokens

/-! A call that replaces an index of the accounts does so with what the tables hold at that moment, in
whole seconds. -/
namespace ImageSilo.Accounts

open Go Concurrent Tables Publication

variable {P : Platform} {requests : Nat → Request} {σ σ' : State} {ls : Nat → Ledger}
  {ks : Nat → Docket} {i j : Nat} {a : Action} {c : Choice} {r : Response a} {d : Docket}
  {τ : List (Event (machine P))} {db db' : Database} {t : Time}

/-- A time without fractions of a second. -/
def Whole (t : Time) : Prop := t = ofUnix (unix t)

/-- The rows of sessions and tokens hold whole seconds. -/
structure Stored (db : Database) : Prop where
  sessions : ∀ s ∈ db.sessions, Whole s.expiresAt
  tokens : ∀ row ∈ db.tokens, ∀ t ∈ row.token.expiresAt, Whole t

/-- What a load of the tokens reads. -/
def tokenMap (db : Database) (now : Time) : ApiToken.Index :=
  mapOf ((db.activeTokens now).map fun r => (r.hash, ApiToken.identityFromToken r.token))

structure Reloading (σ : State) (ks : Nat → Docket) : Prop where
  stored : Stored σ.database
  sessions : ∀ j m, (ks j).sessions = some m → ∃ now, timeOf (ks j).request = some now ∧
    m = mapOf (σ.database.activeSessions now)
  tokens : ∀ j m, (ks j).tokens = some m → ∃ now, timeOf (ks j).request = some now ∧
    m = tokenMap σ.database now

theorem whole_ofUnix (seconds : Int) : Whole (ofUnix seconds) := by
  unfold Whole
  rw [unix_ofUnix]

section Rows

theorem Stored.same (h : Stored db) (same : Same db db') : Stored db' where
  sessions := by
    rw [same.sessions]
    exact h.sessions
  tokens := by
    rw [same.tokens]
    exact h.tokens

theorem Stored.amend (h : Stored db) {q : Statement} {r : Except DatabaseError q.Value}
    (amend : Amend db q r db') : Stored db' := by
  have revoked (id : GoString) : Stored (db.revokeToken id) := by
    refine ⟨h.sessions, fun row member t expires => ?_⟩
    obtain ⟨old, known, rfl⟩ := List.mem_map.mp member
    refine h.tokens old known t ?_
    by_cases same : old.token.id = id
    · rwa [if_pos same] at expires
    · rwa [if_neg same] at expires
  cases amend with
  | renamed adminID displayName email now admin _ there own written sessions tokens =>
      exact ⟨fun s member => h.sessions s (sessions ▸ member),
        fun row member => h.tokens row (tokens ▸ member)⟩
  | opened s _ inserted =>
      obtain ⟨sessions, tokens, -, -⟩ := insertSession_some inserted
      refine ⟨?_, fun row member => h.tokens row (tokens ▸ member)⟩
      intro r member
      rw [sessions, List.mem_append, List.mem_singleton] at member
      rcases member with old | rfl
      · exact h.sessions r old
      · exact whole_ofUnix _
  | closed hash => exact ⟨fun s member => h.sessions s (List.mem_of_mem_filter member), h.tokens⟩
  | expired now count => exact ⟨fun s member => h.sessions s (List.mem_of_mem_filter member), h.tokens⟩
  | secured adminID passwordHash kept now admin _ there own written sessions tokens =>
      refine ⟨fun s member => ?_, fun row member => h.tokens row (tokens ▸ member)⟩
      rw [sessions] at member
      exact h.sessions s (List.mem_of_mem_filter member)
  | issued token hash _ inserted =>
      obtain ⟨tokens, sessions, -, -⟩ := insertToken_some inserted
      refine ⟨fun s member => h.sessions s (sessions ▸ member), ?_⟩
      intro row member t expires
      rw [tokens, List.mem_append, List.mem_singleton] at member
      rcases member with old | rfl
      · exact h.tokens row old t expires
      · obtain ⟨u, -, rfl⟩ := Option.map_eq_some_iff.mp expires
        exact whole_ofUnix _
  | revoked id row member own live => exact revoked id
  | revokedUnseen id row member own live => exact revoked id
  | missing id absent => exact h
  | none _ _ _ leaving same => exact h.same same

theorem activeSessions_same (same : Same db db') (now : Time) :
    db'.activeSessions now = db.activeSessions now := by
  unfold Database.activeSessions
  rw [same.sessions, same.admin]

theorem tokenMap_same (same : Same db db') (now : Time) : tokenMap db' now = tokenMap db now := by
  unfold tokenMap Database.activeTokens
  rw [same.tokens]

end Rows

section Steps

/-- A step that leaves the accounts alone. -/
theorem Reloading.frame (h : Reloading σ ks) (same : Same σ.database σ'.database)
    (request : d.request = (ks i).request)
    (sessions : ∀ m, d.sessions = some m → (ks i).sessions = some m ∨
      ∃ now, timeOf d.request = some now ∧ m = mapOf (σ'.database.activeSessions now))
    (tokens : ∀ m, d.tokens = some m → (ks i).tokens = some m ∨
      ∃ now, timeOf d.request = some now ∧ m = tokenMap σ'.database now) :
    Reloading σ' (Function.update ks i d) := by
  refine ⟨h.stored.same same, ?_, ?_⟩
  · intro j m loaded
    by_cases self : j = i
    · subst self
      rw [Function.update_self] at loaded ⊢
      rcases sessions m loaded with before | now
      · obtain ⟨now, timed, eq⟩ := h.sessions j m before
        exact ⟨now, by rwa [request], by rwa [activeSessions_same same]⟩
      · exact now
    · rw [Function.update_of_ne self] at loaded ⊢
      obtain ⟨now, timed, eq⟩ := h.sessions j m loaded
      exact ⟨now, timed, by rwa [activeSessions_same same]⟩
  · intro j m loaded
    by_cases self : j = i
    · subst self
      rw [Function.update_self] at loaded ⊢
      rcases tokens m loaded with before | now
      · obtain ⟨now, timed, eq⟩ := h.tokens j m before
        exact ⟨now, by rwa [request], by rwa [tokenMap_same same]⟩
      · exact now
    · rw [Function.update_of_ne self] at loaded ⊢
      obtain ⟨now, timed, eq⟩ := h.tokens j m loaded
      exact ⟨now, timed, by rwa [tokenMap_same same]⟩

/-- A statement inside a change: no map is loaded. -/
theorem Reloading.within {q : Statement} {r : Response (.statement q)} (h : Reloading σ ks)
    (filed : Filed requests σ ls ks) (sound : Sound P requests σ ls) (changing : (ks i).hold = .shared)
    (performed : σ.perform P i (.statement q) c = some (r, σ'))
    (sessions : ((ks i).recordStatement q r).sessions = (ks i).sessions)
    (tokens : ((ks i).recordStatement q r).tokens = (ks i).tokens) :
    Reloading σ' (Function.update ks i ((ks i).recordStatement q r)) := by
  refine ⟨h.stored.amend (statement_amend (q := q) performed), ?_, ?_⟩
  · intro j m loaded
    have before : (ks j).sessions = some m := by
      by_cases self : j = i
      · subst self
        rwa [Function.update_self, sessions] at loaded
      · rwa [Function.update_of_ne self] at loaded
    exact absurd before (filed.no_sessions sound changing j m)
  · intro j m loaded
    have before : (ks j).tokens = some m := by
      by_cases self : j = i
      · subst self
        rwa [Function.update_self, tokens] at loaded
      · rwa [Function.update_of_ne self] at loaded
    exact absurd before (filed.no_tokens sound changing j m)

theorem Reloading.leaving {q : Statement} {r : Response (.statement q)} (h : Reloading σ ks)
    (leaving : Leaving q r) (same : Same σ.database σ'.database)
    (allowed : (ks i).allows P q) (performed : σ.perform P i (.statement q) c = some (r, σ')) :
    Reloading σ' (Function.update ks i ((ks i).recordStatement q r)) := by
  unfold Docket.recordStatement
  split
  case h_8 now rows =>
      obtain ⟨answer, state⟩ := statement_answer performed (by simp)
      obtain rfl : σ' = σ := state
      cases answer
      refine h.frame same rfl (fun m loaded => ?_) fun _ loaded => .inl loaded
      cases loaded
      exact .inr ⟨now, allowed.2, rfl⟩
  case h_12 now rows =>
      obtain ⟨answer, state⟩ := statement_answer performed (by simp)
      obtain rfl : σ' = σ := state
      cases answer
      refine h.frame same rfl (fun _ loaded => .inl loaded) fun m loaded => ?_
      cases loaded
      exact .inr ⟨now, allowed.2, rfl⟩
  case h_3 | h_4 | h_5 | h_6 | h_7 | h_9 | h_10 => exact leaving.elim
  all_goals exact h.frame same rfl (fun _ loaded => .inl loaded) fun _ loaded => .inl loaded

theorem Reloading.statement {q : Statement} {r : Response (.statement q)} (h : Reloading σ ks)
    (filed : Filed requests σ ls ks) (sound : Sound P requests σ ls)
    (permitted : (ks i).permits P (.statement q))
    (performed : σ.perform P i (.statement q) c = some (r, σ')) :
    Reloading σ' (Function.update ks i ((ks i).record (.statement q) r)) := by
  obtain ⟨idle, allowed⟩ := permitted
  have amend := statement_amend (q := q) performed
  obtain ⟨db', rfl⟩ := statement_state (q := q) performed
  cases amend with
  | renamed | opened | expired | secured | issued | revoked | revokedUnseen | missing =>
      exact h.within filed sound allowed.1 performed rfl rfl
  | closed hash => exact h.within filed sound allowed performed rfl rfl
  | none _ _ _ leaving same => exact h.leaving leaving same allowed performed

theorem Reloading.step (h : Reloading σ ks) (filed : Filed requests σ ls ks)
    (sound : Sound P requests σ ls) (permitted : (ks i).permits P a)
    (performed : σ.perform P i a c = some (r, σ')) :
    Reloading σ' (Function.update ks i ((ks i).record a r)) := by
  have frame := perform_frame performed
  have same (other : ∀ q, a ≠ .statement q) : Same σ.database σ'.database := by
    rw [frame.database other]
    exact .refl _
  cases a with
  | statement q => exact h.statement filed sound permitted performed
  | sync s =>
      refine h.frame (same (by simp)) (by cases s <;> rfl) ?_ ?_
      · intro m loaded
        cases s <;> first | exact .inl loaded | cases loaded
      · intro m loaded
        cases s <;> first | exact .inl loaded | cases loaded
  | sessionStep s =>
      exact h.frame (same (by simp)) rfl (fun _ loaded => .inl loaded) fun _ loaded => .inl loaded
  | tokenStep s =>
      obtain ⟨gone, eq⟩ := recordToken_frame (ks i) s
      rw [Docket.record, eq]
      exact h.frame (same (by simp)) rfl (fun _ loaded => .inl loaded) fun _ loaded => .inl loaded
  | _ =>
      obtain ⟨drawn, eq⟩ := record_frame (ks i) _ r (by simp) (by simp) (by simp) (by simp)
      rw [eq]
      exact h.frame (same (by simp)) rfl (fun _ loaded => .inl loaded) fun _ loaded => .inl loaded

end Steps

theorem Reloading.begin (stored : Stored σ.database) :
    Reloading σ fun j => Docket.begin (requests j) where
  stored := stored
  sessions j m loaded := by cases loaded
  tokens j m loaded := by cases loaded

theorem reloading_kept {S : Setting (machine P) Result} :
    Kept P requests S fun _ σ ks => Reloading σ ks where
  call := fun _ sound filed reloading permitted performed _ =>
    reloading.step filed sound permitted performed
  environment := by
    intro τ σ ks σ' reloading moved
    obtain ⟨t, -, rfl⟩ := moved
    exact ⟨reloading.stored, reloading.sessions, reloading.tokens⟩

end ImageSilo.Accounts
