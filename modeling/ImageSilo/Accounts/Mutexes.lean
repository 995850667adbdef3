import ImageSilo.Accounts.Effects
import ImageSilo.Publication.Soundness

/-! Whoever owes a step of an index is inside a change, and whoever has loaded a map rebuilds; a mutex is
held by one call at a time. -/
namespace ImageSilo.Accounts

open Go Concurrent Tables Publication

/-- The steps of the session index that can be owed, three of them under the credentials mutex. -/
def Backed (credentials : Bool) : Auth.SessionStep → Prop
  | .replace _ => False
  | .add _ _ => credentials = true
  | .removeAllExcept _ => credentials = true
  | .updateAdmin _ _ _ => credentials = true
  | _ => True

/-- Debts and loaded maps go with the locks under which they came about. -/
structure Orderly (d : Docket) : Prop where
  token : ∀ s, d.token = some s → d.mutations = true ∧ d.hold = .shared
  session : ∀ s, d.session = some s → d.hold = .shared
  tokens : ∀ m, d.tokens = some m → d.hold = .exclusive
  sessions : ∀ m, d.sessions = some m → d.hold = .exclusive
  admin : ∀ a, d.admin = some a → d.credentials = true
  single : d.token = none ∨ d.session = none
  backed : ∀ s, d.session = some s → Backed d.credentials s

/-- The dockets, next to the locks and to the ledgers of the same calls. -/
structure Filed (requests : Nat → Request) (σ : State) (ls : Nat → Ledger) (ks : Nat → Docket) :
    Prop where
  hold : ∀ j, (ks j).hold = (ls j).hold
  mutations : ∀ j, (ks j).mutations = true ↔ σ.locks.mutations = some j
  credentials : ∀ j, (ks j).credentials = true ↔ σ.locks.credentials = some j
  made : ∀ j, (ks j).request = requests j
  orderly : ∀ j, Orderly (ks j)

variable {P : Platform} {requests : Nat → Request} {σ σ' : State} {ls : Nat → Ledger}
  {ks : Nat → Docket} {i j : Nat} {a : Action} {c : Choice} {r : Response a} {d : Docket} {l : Ledger}

theorem Filed.begin (free : σ.locks = .free) :
    Filed requests σ (fun j => Ledger.begin (requests j)) fun j => Docket.begin (requests j) where
  hold _ := rfl
  mutations := by simp [Docket.begin, free, Locks.free]
  credentials := by simp [Docket.begin, free, Locks.free]
  made _ := rfl
  orderly _ := by constructor <;> simp [Docket.begin]

section Records

/-- What a statement adds to a docket. -/
theorem recordStatement_frame (d : Docket) (q : Statement) (r : Except DatabaseError q.Value) :
    ∃ admin session token sessions tokens changed missed, d.recordStatement q r =
      { d with
        admin := admin, session := session, token := token, sessions := sessions, tokens := tokens,
        changed := changed, missed := missed } := by
  unfold Docket.recordStatement
  split <;> exact ⟨_, _, _, _, _, _, _, rfl⟩

theorem recordToken_frame (d : Docket) (s : ApiToken.IndexStep) : ∃ gone,
    d.recordToken s = { d with token := none, gone := gone } := by
  unfold Docket.recordToken
  split
  · split <;> exact ⟨_, rfl⟩
  · exact ⟨_, rfl⟩

/-- Of an action that is neither about a lock nor about the accounts a docket notes at most a token. -/
theorem record_frame (d : Docket) (a : Action) (r : Response a) (sync : ∀ s, a ≠ .sync s)
    (statement : ∀ q, a ≠ .statement q) (session : ∀ s, a ≠ .sessionStep s)
    (token : ∀ s, a ≠ .tokenStep s) : ∃ drawn, d.record a r = { d with drawn := drawn } := by
  unfold Docket.record
  split
  · exact absurd rfl (sync _)
  · exact absurd rfl (statement _)
  · exact absurd rfl (session _)
  · exact absurd rfl (token _)
  · exact ⟨_, rfl⟩
  · exact ⟨_, rfl⟩

theorem record_request (d : Docket) (a : Action) (r : Response a) :
    (d.record a r).request = d.request := by
  by_cases about : (∃ q, a = .statement q) ∨ ∃ s, a = .tokenStep s
  · rcases about with ⟨q, rfl⟩ | ⟨s, rfl⟩
    · obtain ⟨_, _, _, _, _, _, _, eq⟩ := recordStatement_frame d q r
      rw [Docket.record, eq]
    · obtain ⟨_, eq⟩ := recordToken_frame d s
      rw [Docket.record, eq]
  · cases a with
    | sync s => cases s <;> rfl
    | statement q => exact absurd (.inl ⟨q, rfl⟩) about
    | tokenStep s => exact absurd (.inr ⟨s, rfl⟩) about
    | newToken text => cases r <;> rfl
    | _ => rfl

/-- The side of the rebuild lock that the docket notes is the one that the ledger notes. -/
theorem record_hold (same : d.hold = l.hold) : (d.record a r).hold = (l.record P a r).hold := by
  cases a with
  | sync s => cases s <;> first | exact same | rfl
  | statement q =>
      obtain ⟨_, _, _, _, _, _, _, eq⟩ := recordStatement_frame d q r
      obtain ⟨_, _, _, _, _, _, _, _, _, _, _, _, _, _, eq'⟩ :=
        Publication.recordStatement_frame (P := P) l q r
      rw [Docket.record, eq, Ledger.record, eq']
      exact same
  | tokenStep s =>
      obtain ⟨_, eq⟩ := recordToken_frame d s
      rw [Docket.record, eq]
      exact same
  | index s =>
      obtain ⟨_, _, _, _, eq⟩ := recordIndex_frame l s
      rw [Ledger.record, eq]
      exact same
  | file b =>
      obtain ⟨_, _, _, _, _, _, _, eq⟩ := recordFile_frame (P := P) l b r
      rw [Ledger.record, eq]
      exact same
  | newUUID => cases r <;> exact same
  | newToken text => cases r <;> exact same
  | _ => exact same

end Records

section Steps

theorem Orderly.statement (h : Orderly d) {q : Statement} {r : Except DatabaseError q.Value}
    (permitted : d.permits P (.statement q)) : Orderly (d.recordStatement q r) := by
  obtain ⟨idle, allowed⟩ := permitted
  have token := idle.token
  have session := idle.session
  unfold Docket.recordStatement
  split
  · exact ⟨h.token, h.session, h.tokens, h.sessions, fun _ _ => allowed, h.single, h.backed⟩
  · exact ⟨h.token, h.session, h.tokens, h.sessions, fun _ _ => allowed, h.single, h.backed⟩
  · exact ⟨h.token, fun _ _ => allowed.1, h.tokens, h.sessions, h.admin, .inl token,
      by
        intro s owed
        obtain ⟨_, -, rfl⟩ := Option.map_eq_some_iff.mp owed
        exact allowed.2.1⟩
  · exact ⟨h.token, fun _ _ => allowed, h.tokens, h.sessions, h.admin, .inl token,
      by simp [Backed]⟩
  · exact ⟨h.token, fun _ _ => allowed.1, h.tokens, h.sessions, h.admin, .inl token,
      by simp [Backed]⟩
  · exact ⟨h.token, fun _ _ => allowed.1, h.tokens, h.sessions, by simp, .inl token,
      by rintro _ ⟨⟩; exact allowed.2.1⟩
  · exact ⟨h.token, fun _ _ => allowed.1, h.tokens, h.sessions, by simp, .inl token,
      by rintro _ ⟨⟩; exact allowed.2⟩
  · exact ⟨h.token, h.session, h.tokens, fun _ _ => allowed.1, h.admin, h.single, h.backed⟩
  · exact ⟨fun _ _ => ⟨allowed.2.1, allowed.1⟩, h.session, h.tokens, h.sessions, h.admin,
      .inr session, h.backed⟩
  · exact ⟨fun _ _ => ⟨allowed.2.1, allowed.1⟩, h.session, h.tokens, h.sessions, h.admin,
      .inr session, h.backed⟩
  · exact ⟨h.token, h.session, h.tokens, h.sessions, h.admin, h.single, h.backed⟩
  · exact ⟨h.token, h.session, fun _ _ => allowed.1, h.sessions, h.admin, h.single, h.backed⟩
  · exact h

theorem Orderly.sync (h : Orderly d) {s : Sync} (idle : d.Idle) (same : d.hold = l.hold)
    (allowed : l.allowsSync s) : Orderly (d.recordSync s) := by
  have apart : d.hold ≠ .exclusive → d.tokens = none ∧ d.sessions = none := by
    intro other
    constructor
    · by_contra loaded
      obtain ⟨m, some⟩ := Option.ne_none_iff_exists'.mp loaded
      exact other (h.tokens m some)
    · by_contra loaded
      obtain ⟨m, some⟩ := Option.ne_none_iff_exists'.mp loaded
      exact other (h.sessions m some)
  have settled : d.hold ≠ .exclusive → ∀ side,
      Orderly { d with hold := side } := by
    intro other side
    obtain ⟨tokens, sessions⟩ := apart other
    exact ⟨by simp [idle.token], by simp [idle.session], by simp [tokens], by simp [sessions], h.admin,
      h.single, h.backed⟩
  cases s with
  | beginChange =>
      refine settled ?_ _
      rw [same, show l.hold = .free from allowed]
      simp
  | endChange =>
      refine settled ?_ _
      rw [same, show l.hold = .shared from allowed]
      simp
  | announceRebuild =>
      refine settled ?_ _
      rw [same, allowed.2.2]
      simp
  | beginRebuild =>
      refine settled ?_ _
      rw [same, show l.hold = .waiting from allowed]
      simp
  | endRebuild =>
      exact ⟨by simp [Docket.recordSync, idle.token], by simp [Docket.recordSync, idle.session],
        by simp [Docket.recordSync], by simp [Docket.recordSync], h.admin, h.single, h.backed⟩
  | lockCredentials | unlockCredentials =>
      exact ⟨h.token, h.session, h.tokens, h.sessions, by simp [Docket.recordSync], h.single,
        by simp [Docket.recordSync, idle.session]⟩
  | lockMutations | unlockMutations =>
      exact ⟨by simp [Docket.recordSync, idle.token], h.session, h.tokens, h.sessions, h.admin,
        h.single, h.backed⟩
  | _ => exact h

theorem Orderly.step (h : Orderly d) (permitted : d.permits P a) (same : d.hold = l.hold)
    (allowed : l.permits P a) : Orderly (d.record a r) := by
  cases a with
  | sync s => exact h.sync permitted.1 same allowed.2
  | statement q => exact h.statement permitted
  | sessionStep s =>
      exact ⟨h.token, by simp [Docket.record], h.tokens, h.sessions, h.admin, .inr rfl,
        by simp [Docket.record]⟩
  | tokenStep s =>
      obtain ⟨_, eq⟩ := recordToken_frame d s
      rw [Docket.record, eq]
      exact ⟨by simp, h.session, h.tokens, h.sessions, h.admin, .inl rfl, h.backed⟩
  | newToken text =>
      cases r <;> exact ⟨h.token, h.session, h.tokens, h.sessions, h.admin, h.single, h.backed⟩
  | _ => exact h

/-- A mutex and the mark of its holders. -/
theorem mutex_step {held : Nat → Bool} {holder holder' : Option Nat} {mark : Bool}
    (agree : ∀ j, held j = true ↔ holder = some j)
    (moved : (mark = held i ∧ holder' = holder) ∨ (mark = true ∧ holder = none ∧ holder' = some i) ∨
      (mark = false ∧ holder = some i ∧ holder' = none)) :
    ∀ j, Function.update held i mark j = true ↔ holder' = some j := by
  intro j
  by_cases self : j = i
  · subst self
    rw [Function.update_self]
    rcases moved with ⟨rfl, rfl⟩ | ⟨rfl, -, rfl⟩ | ⟨rfl, -, rfl⟩
    · exact agree j
    · simp
    · simp
  · rw [Function.update_of_ne self, agree]
    rcases moved with ⟨-, rfl⟩ | ⟨-, rfl, rfl⟩ | ⟨-, rfl, rfl⟩
    · exact Iff.rfl
    · simp [Ne.symm self]
    · simp [Ne.symm self]

/-- An entry of every docket, after one docket has been replaced. -/
theorem project_docket {β : Type} (f : Docket → β) (d : Docket) (j : Nat) :
    f (Function.update ks i d j) = Function.update (fun j => f (ks j)) i (f d) j :=
  Function.apply_update (fun _ => f) ks i d j

/-- The two mutexes go from hand to hand. -/
theorem mutexes_sync {s : Sync} {locks locks' : Locks} (d : Docket)
    (performed : locks.perform i s = some locks') :
    (((d.recordSync s).mutations = d.mutations ∧ locks'.mutations = locks.mutations) ∨
      ((d.recordSync s).mutations = true ∧ locks.mutations = none ∧ locks'.mutations = some i) ∨
      ((d.recordSync s).mutations = false ∧ locks.mutations = some i ∧ locks'.mutations = none)) ∧
    (((d.recordSync s).credentials = d.credentials ∧ locks'.credentials = locks.credentials) ∨
      ((d.recordSync s).credentials = true ∧ locks.credentials = none ∧
        locks'.credentials = some i) ∨
      ((d.recordSync s).credentials = false ∧ locks.credentials = some i ∧
        locks'.credentials = none)) := by
  cases s with
  | lockImage id | unlockImage id | lockAlias path | unlockAlias path =>
      obtain ⟨table, -, rfl⟩ := Option.map_eq_some_iff.mp performed
      exact ⟨.inl ⟨rfl, rfl⟩, .inl ⟨rfl, rfl⟩⟩
  | lockCredentials =>
      obtain ⟨free, ⟨⟩⟩ := Option.ite_none_right_eq_some.mp performed
      exact ⟨.inl ⟨rfl, rfl⟩, .inr (.inl ⟨rfl, free, rfl⟩)⟩
  | unlockCredentials =>
      obtain ⟨mine, ⟨⟩⟩ := Option.ite_none_right_eq_some.mp performed
      exact ⟨.inl ⟨rfl, rfl⟩, .inr (.inr ⟨rfl, mine, rfl⟩)⟩
  | lockMutations =>
      obtain ⟨free, ⟨⟩⟩ := Option.ite_none_right_eq_some.mp performed
      exact ⟨.inr (.inl ⟨rfl, free, rfl⟩), .inl ⟨rfl, rfl⟩⟩
  | unlockMutations =>
      obtain ⟨mine, ⟨⟩⟩ := Option.ite_none_right_eq_some.mp performed
      exact ⟨.inr (.inr ⟨rfl, mine, rfl⟩), .inl ⟨rfl, rfl⟩⟩
  | beginChange | endChange | announceRebuild | beginRebuild | endRebuild =>
      obtain ⟨-, ⟨⟩⟩ := Option.ite_none_right_eq_some.mp performed
      exact ⟨.inl ⟨rfl, rfl⟩, .inl ⟨rfl, rfl⟩⟩

theorem record_mutexes (d : Docket) (performed : σ.perform P i a c = some (r, σ')) :
    (((d.record a r).mutations = d.mutations ∧ σ'.locks.mutations = σ.locks.mutations) ∨
      ((d.record a r).mutations = true ∧ σ.locks.mutations = none ∧ σ'.locks.mutations = some i) ∨
      ((d.record a r).mutations = false ∧ σ.locks.mutations = some i ∧
        σ'.locks.mutations = none)) ∧
    (((d.record a r).credentials = d.credentials ∧
        σ'.locks.credentials = σ.locks.credentials) ∨
      ((d.record a r).credentials = true ∧ σ.locks.credentials = none ∧
        σ'.locks.credentials = some i) ∨
      ((d.record a r).credentials = false ∧ σ.locks.credentials = some i ∧
        σ'.locks.credentials = none)) := by
  by_cases about : ∃ s, a = .sync s
  · obtain ⟨s, rfl⟩ := about
    obtain ⟨locks, done, rfl⟩ := sync_state performed
    exact mutexes_sync d done
  · have locks := (perform_frame performed).locks fun s same => about ⟨s, same⟩
    have kept : (d.record a r).mutations = d.mutations ∧
        (d.record a r).credentials = d.credentials := by
      cases a with
      | sync s => exact absurd ⟨s, rfl⟩ about
      | statement q =>
          obtain ⟨_, _, _, _, _, _, _, eq⟩ := recordStatement_frame d q r
          rw [Docket.record, eq]
          exact ⟨rfl, rfl⟩
      | tokenStep s =>
          obtain ⟨_, eq⟩ := recordToken_frame d s
          rw [Docket.record, eq]
          exact ⟨rfl, rfl⟩
      | newToken text => cases r <;> exact ⟨rfl, rfl⟩
      | _ => exact ⟨rfl, rfl⟩
    exact ⟨.inl ⟨kept.1, by rw [locks]⟩, .inl ⟨kept.2, by rw [locks]⟩⟩

theorem Filed.step (h : Filed requests σ ls ks) (permitted : (ks i).permits P a)
    (allowed : (ls i).permits P a) (performed : σ.perform P i a c = some (r, σ')) :
    Filed requests σ' (Function.update ls i ((ls i).record P a r))
      (Function.update ks i ((ks i).record a r)) := by
  obtain ⟨mutations, credentials⟩ := record_mutexes (ks i) performed
  refine ⟨?_, ?_, ?_, ?_, ?_⟩
  · intro j
    by_cases self : j = i
    · rw [self, Function.update_self, Function.update_self]
      exact record_hold (h.hold i)
    · rw [Function.update_of_ne self, Function.update_of_ne self]
      exact h.hold j
  · intro j
    rw [project_docket Docket.mutations]
    exact mutex_step h.mutations mutations j
  · intro j
    rw [project_docket Docket.credentials]
    exact mutex_step h.credentials credentials j
  · intro j
    by_cases self : j = i
    · rw [self, Function.update_self, record_request]
      exact h.made i
    · rw [Function.update_of_ne self]
      exact h.made j
  · intro j
    by_cases self : j = i
    · rw [self, Function.update_self]
      exact (h.orderly i).step permitted (h.hold i) allowed
    · rw [Function.update_of_ne self]
      exact h.orderly j

end Steps

section Holders

/-- One call holds the token mutex. -/
theorem Filed.mutator (h : Filed requests σ ls ks) (mine : (ks i).mutations = true)
    (other : (ks j).mutations = true) : j = i :=
  Option.some.inj (((h.mutations j).mp other).symm.trans ((h.mutations i).mp mine))

/-- One call holds the credentials mutex. -/
theorem Filed.keeper (h : Filed requests σ ls ks) (mine : (ks i).credentials = true)
    (other : (ks j).credentials = true) : j = i :=
  Option.some.inj (((h.credentials j).mp other).symm.trans ((h.credentials i).mp mine))

/-- While one call changes something, no call has loaded a map. -/
theorem Filed.unloaded (h : Filed requests σ ls ks) (sound : Sound P requests σ ls)
    (changing : (ks i).hold = .shared) (j : Nat) : (ks j).hold ≠ .exclusive := by
  intro rebuilds
  rw [h.hold] at changing rebuilds
  exact sound.locks.alone rebuilds changing

/-- While one call rebuilds, no call owes a step. -/
theorem Filed.undisturbed (h : Filed requests σ ls ks) (sound : Sound P requests σ ls)
    (rebuilds : (ks i).hold = .exclusive) (j : Nat) : (ks j).token = none ∧ (ks j).session = none := by
  have still : (ks j).hold ≠ .shared := by
    intro changing
    exact h.unloaded sound changing i rebuilds
  constructor
  · by_contra owes
    obtain ⟨s, owed⟩ := Option.ne_none_iff_exists'.mp owes
    exact still ((h.orderly j).token s owed).2
  · by_contra owes
    obtain ⟨s, owed⟩ := Option.ne_none_iff_exists'.mp owes
    exact still ((h.orderly j).session s owed)

end Holders

section Runs

variable {S : Setting (machine P) Result} {Inv : List (Event (machine P)) → State → (Nat → Docket) → Prop}
  {τ : List (Event (machine P))} {w : World (machine P) Result}

theorem Filed.environment (h : Filed requests σ ls ks) (moved : σ.environment σ') :
    Filed requests σ' ls ks := by
  obtain ⟨t, -, rfl⟩ := moved
  exact ⟨h.hold, h.mutations, h.credentials, h.made, h.orderly⟩

/-- An invariant of the dockets that every step keeps. -/
structure Kept (P : Platform) (requests : Nat → Request) (S : Setting (machine P) Result)
    (Inv : List (Event (machine P)) → State → (Nat → Docket) → Prop) : Prop where
  call : ∀ {τ w ls ks i a c r σ'}, (dockets P requests).Obeyed w ks → Sound P requests w.shared ls →
    Filed requests w.shared ls ks → Inv τ w.shared ks → (ks i).permits P a → State.perform P w.shared i a c = some (r, σ') →
    S.Admits w ⟨i, a, c, r⟩ → Inv (τ ++ [⟨i, a, c, r⟩]) σ' (Function.update ks i ((ks i).record a r))
  environment : ∀ {τ σ ks σ'}, Inv τ σ ks → σ.environment σ' → Inv τ σ' ks

/-- Two invariants are kept together, and in every stricter setting. -/
theorem Kept.both {S' : Setting (machine P) Result}
    {Inv' : List (Event (machine P)) → State → (Nat → Docket) → Prop} (kept : Kept P requests S Inv)
    (kept' : Kept P requests S' Inv') {S'' : Setting (machine P) Result}
    (admits : ∀ w e, S''.Admits w e → S.Admits w e ∧ S'.Admits w e) :
    Kept P requests S'' fun τ σ ks => Inv τ σ ks ∧ Inv' τ σ ks where
  call := fun obeyed sound filed inv permitted performed admitted =>
    ⟨kept.call obeyed sound filed inv.1 permitted performed (admits _ _ admitted).1,
      kept'.call obeyed sound filed inv.2 permitted performed (admits _ _ admitted).2⟩
  environment := fun inv moved => ⟨kept.environment inv.1 moved, kept'.environment inv.2 moved⟩

theorem Kept.beside (kept : Kept P requests S Inv) (calm : ¬ S.Crashes) :
    (watch P requests).KeepsBeside (dockets P requests) S (fun _ σ ls => Sound P requests σ ls ∧ True)
      fun τ σ ls ks => Filed requests σ ls ks ∧ Inv τ σ ks where
  call := by
    intro τ w ls ks i a next c r σ' _ obeyed sound inv _ allowed permitted performed admitted
    exact ⟨trivial, inv.1.step permitted allowed performed,
      kept.call obeyed sound.1 inv.1 inv.2 permitted performed admitted⟩
  environment := by
    intro τ σ ls ks σ' _ inv moved
    exact ⟨inv.1.environment moved, kept.environment inv.2 moved⟩
  crash crashes := absurd crashes calm

/-- A run from idle calls is followed by dockets that satisfy the invariant. -/
theorem docketed (serves : Serves P requests S) (calm : ¬ S.Crashes) (kept : Kept P requests S Inv)
    (registered : Registered σ) (free : σ.locks = .free)
    (inv : Inv [] σ fun j => Docket.begin (requests j)) (run : Run S (start P requests σ) τ w) :
    ∃ ls ks, (dockets P requests).Obeyed w ks ∧ Sound P requests w.shared ls ∧
      Filed requests w.shared ls ks ∧ Inv τ w.shared ks := by
  have sound : (watch P requests).Keeps S fun _ σ ls => Sound P requests σ ls ∧ True :=
    keeps serves (fun _ _ _ => True) (fun _ _ _ _ _ _ => trivial) (fun _ _ _ => trivial)
      fun crashes => absurd crashes calm
  obtain ⟨ls, ks, -, obeyed, ⟨sound', -⟩, filed, inv'⟩ :=
    run.held_beside sound (kept.beside calm) ⟨_, _, fun i => request_obeys (requests i),
      fun i => docket_obeys (requests i), ⟨.begin registered free, trivial⟩, .begin free, inv⟩
  exact ⟨ls, ks, obeyed, sound', filed, inv'⟩

end Runs

end ImageSilo.Accounts
