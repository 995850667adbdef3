import ImageSilo.Setup.Service
import ImageSilo.System.Boot

/-! A commit of the setup is permitted only to a request that has presented the token, and only once. -/
namespace ImageSilo.Setup

open Go Concurrent

/-- The administrator that a request asks for, its password under a hash. -/
structure Asks (P : Platform) (r : Request) (now : Time) (hash : GoString) (admin : Auth.Admin) :
    Prop where
  displayName : Auth.normalizeDisplayName r.displayName = .ok admin.displayName
  email : Auth.normalizeEmail P r.email = .ok admin.email
  passwordHash : admin.passwordHash = hash
  createdAt : admin.createdAt = now
  updatedAt : admin.updatedAt = now

structure Ledger where
  request : Request
  now : Time
  locked : Bool
  presented : Bool
  hashed : Option GoString
  tx : Option Tx
  committed : Option Auth.Admin
  consumed : Bool

def Ledger.start (r : Request) (now : Time) : Ledger :=
  ⟨r, now, false, false, none, none, none, false⟩

variable (P : Platform) (drawn : GoString)

/-- A transaction that may be committed: the request's own values, after its token was accepted. -/
def Ledger.ready (l : Ledger) : Prop :=
  l.presented = true ∧ l.committed = none ∧ ∃ admin hash preferences, l.hashed = some hash ∧
    Asks P l.request l.now hash admin ∧ l.request.preferences l.now = some preferences ∧
    l.tx = some ⟨some 0, some (storedAdmin admin), some preferences⟩

def Ledger.permits (l : Ledger) : Action → Prop
  | .lock => l = .start l.request l.now
  | .unlock => l.locked = true ∧ l.tx = none
  | .begin => l.locked = true ∧ l.tx = none
  | .insertAdmin _ => l.locked = true ∧ ∃ tx, l.tx = some tx ∧ tx.admin = none ∧ tx.seen = some 0
  | .commit => l.locked = true ∧ l.ready P
  | .consume => l.locked = true ∧ l.committed ≠ none
  | .hashPassword password => l.locked = true ∧ password = l.request.password
  | _ => l.locked = true

/-- What the shared state guarantees of an answer. -/
def Ledger.reports : (a : Action) → Response a → Prop
  | .bootstrap, token => token.1 = true → token.2 = P.sha256 drawn
  | _, _ => True

def Ledger.record (l : Ledger) : (a : Action) → Response a → Ledger
  | .lock, _ => { l with locked := true }
  | .unlock, _ => { l with locked := false }
  | .bootstrap, token =>
      { l with presented := token.1 && P.sha256 l.request.bootstrapToken == token.2 }
  | .hashPassword _, hash => { l with hashed := hash }
  | .begin, true => { l with tx := some ⟨none, none, none⟩ }
  | .countInside, some n => { l with tx := l.tx.map fun tx => { tx with seen := some n } }
  | .insertAdmin admin, true => { l with tx := l.tx.map fun tx => { tx with admin := some admin } }
  | .updateSettings p, true => { l with tx := l.tx.map fun tx => { tx with preferences := some p } }
  | .commit, true => { l with tx := none, committed := l.tx.bind Tx.admin }
  | .commit, false => { l with tx := none }
  | .rollback, _ => { l with tx := none }
  | .consume, _ => { l with consumed := true }
  | _, _ => l

abbrev discipline : Discipline Action Response where
  Ledger := Ledger
  Permits l a := l.permits P a
  Reports _ a r := Ledger.reports P drawn a r
  record l a r := l.record P a r

/-- What has to hold of a request that has its answer. -/
def Ledger.tells (l : Ledger) : Except Error Auth.Admin → Prop
  | .ok admin =>
      l.committed = some (storedAdmin admin) ∧ l.consumed = true ∧ l.presented = true ∧
        (∃ hash, l.hashed = some hash ∧ Asks P l.request l.now hash admin) ∧
        ∃ preferences, l.request.preferences l.now = some preferences
  | .error _ => l.committed = none

section Walks

variable {P drawn} {l : Ledger}

/-- How the locked part of a request ends. -/
structure Ends (P : Platform) (r : Request) (now : Time) (result : Except Error Auth.Admin)
    (l : Ledger) : Prop where
  request : l.request = r
  now : l.now = now
  locked : l.locked = true
  tells : l.tells P result

theorem request_obeys {α : Type} {a : Action} {f : Response a → Call α} {Q : α → Ledger → Prop}
    (permitted : l.permits P a)
    (next : ∀ r, Ledger.reports P drawn a r → (f r).Obeys (discipline P drawn) Q (l.record P a r)) :
    (request a >>= f).Obeys (discipline P drawn) Q l := ⟨permitted, next⟩

theorem commitInside_obeys {admin : Auth.Admin} {preferences : Preferences} {hash : GoString}
    (locked : l.locked = true) (presented : l.presented = true) (clean : l.committed = none)
    (hashed : l.hashed = some hash) (asks : Asks P l.request l.now hash admin)
    (valid : l.request.preferences l.now = some preferences)
    (tx : l.tx = some ⟨some 0, some (storedAdmin admin), some preferences⟩) :
    (commitInside admin).Obeys (discipline P drawn) (Ends P l.request l.now) l := by
  refine request_obeys
    ⟨locked, presented, clean, admin, hash, preferences, hashed, asks, valid, tx⟩ ?_
  intro committed _
  match committed with
  | false => exact ⟨rfl, rfl, locked, clean⟩
  | true =>
      have known : (l.record P .commit true).committed = some (storedAdmin admin) := by
        simp [Ledger.record, tx]
      refine request_obeys ⟨locked, ?_⟩ ?_
      · rw [known]
        exact Option.some_ne_none _
      intro _ _
      exact ⟨rfl, rfl, locked, known, rfl, presented, ⟨hash, hashed, asks⟩, preferences, valid⟩

theorem saveInside_obeys {admin : Auth.Admin} {preferences : Preferences} {hash : GoString}
    (locked : l.locked = true) (tx : l.tx = some ⟨none, none, none⟩) (presented : l.presented = true)
    (clean : l.committed = none) (hashed : l.hashed = some hash)
    (asks : Asks P l.request l.now hash admin)
    (valid : l.request.preferences l.now = some preferences) :
    (saveInside admin preferences).Obeys (discipline P drawn) (Ends P l.request l.now) l := by
  refine request_obeys locked ?_
  intro count _
  match count with
  | none => exact ⟨rfl, rfl, locked, clean⟩
  | some (n + 1) => exact ⟨rfl, rfl, locked, clean⟩
  | some 0 =>
      have seen : (l.record P .countInside (some 0)).tx = some ⟨some 0, none, none⟩ := by
        simp [Ledger.record, tx]
      refine request_obeys ⟨locked, _, seen, rfl, rfl⟩ ?_
      intro inserted _
      match inserted with
      | false => exact ⟨rfl, rfl, locked, clean⟩
      | true =>
          refine request_obeys locked ?_
          intro updated _
          match updated with
          | false => exact ⟨rfl, rfl, locked, clean⟩
          | true =>
              refine commitInside_obeys locked presented clean hashed asks valid ?_
              simp [Ledger.record, tx]

theorem save_obeys {admin : Auth.Admin} {preferences : Preferences} {hash : GoString}
    (locked : l.locked = true) (tx : l.tx = none) (presented : l.presented = true)
    (clean : l.committed = none) (hashed : l.hashed = some hash)
    (asks : Asks P l.request l.now hash admin)
    (valid : l.request.preferences l.now = some preferences) :
    (save admin preferences).Obeys (discipline P drawn)
      (fun result l' => Ends P l.request l.now result l' ∧ l'.tx = none) l := by
  refine request_obeys ⟨locked, tx⟩ ?_
  intro begun _
  match begun with
  | false => exact ⟨⟨rfl, rfl, locked, clean⟩, tx⟩
  | true =>
      refine .bind (saveInside_obeys (l := { l with tx := some ⟨none, none, none⟩ }) locked rfl presented clean hashed asks valid) ?_
      intro result l' ends
      refine request_obeys ends.locked ?_
      intro _ _
      refine ⟨⟨ends.request, ends.now, ends.locked, ?_⟩, rfl⟩
      cases result with
      | ok admin => exact ends.tells
      | error e => exact ends.tells

theorem hashPassword_obeys (locked : l.locked = true) :
    (hashPassword l.request.password).Obeys (discipline P drawn) (fun result l' =>
      ∃ hashed, l' = { l with hashed := hashed } ∧ ∀ hash, result = .ok hash → hashed = some hash) l := by
  unfold hashPassword
  split
  · exact ⟨l.hashed, rfl, fun hash impossible => by cases impossible⟩
  split
  · exact ⟨l.hashed, rfl, fun hash impossible => by cases impossible⟩
  refine request_obeys ⟨locked, rfl⟩ ?_
  intro hashed _
  refine ⟨hashed, rfl, ?_⟩
  intro hash same
  cases hashed with
  | none => cases same
  | some other =>
      cases same
      rfl

theorem initializeAdmin_obeys {displayName email : GoString} (locked : l.locked = true)
    (tx : l.tx = none) (presented : l.presented = true) (clean : l.committed = none)
    (named : Auth.normalizeDisplayName l.request.displayName = .ok displayName)
    (mailed : Auth.normalizeEmail P l.request.email = .ok email) :
    (initializeAdmin l.request l.now displayName email).Obeys (discipline P drawn)
      (fun result l' => Ends P l.request l.now result l' ∧ l'.tx = none) l := by
  refine .bind (hashPassword_obeys locked) ?_
  rintro result _ ⟨hashed, rfl, same⟩
  cases result with
  | error e => exact ⟨⟨rfl, rfl, locked, clean⟩, tx⟩
  | ok hash =>
      obtain rfl := same hash rfl
      simp only
      cases valid : l.request.preferences l.now with
      | none => exact ⟨⟨rfl, rfl, locked, clean⟩, tx⟩
      | some preferences =>
          refine request_obeys locked ?_
          intro id _
          match id with
          | none => exact ⟨⟨rfl, rfl, locked, clean⟩, tx⟩
          | some id =>
              have asks : Asks P l.request l.now hash ⟨id, displayName, email, hash, l.now, l.now⟩ :=
                ⟨named, mailed, rfl, rfl, rfl⟩
              exact save_obeys (l := { l with hashed := some hash }) locked tx presented clean rfl asks
                valid

theorem initializeLocked_obeys (locked : l.locked = true) (tx : l.tx = none)
    (clean : l.committed = none) :
    (initializeLocked P l.request l.now).Obeys (discipline P drawn)
      (fun result l' => Ends P l.request l.now result l' ∧ l'.tx = none) l := by
  refine request_obeys locked ?_
  intro count _
  match count with
  | none => exact ⟨⟨rfl, rfl, locked, clean⟩, tx⟩
  | some (n + 1) => exact ⟨⟨rfl, rfl, locked, clean⟩, tx⟩
  | some 0 =>
      refine request_obeys locked ?_
      intro token _
      split
      · exact ⟨⟨rfl, rfl, locked, clean⟩, tx⟩
      rename_i accepted
      cases named : Auth.normalizeDisplayName l.request.displayName with
      | error e => exact ⟨⟨rfl, rfl, locked, clean⟩, tx⟩
      | ok displayName =>
          cases mailed : Auth.normalizeEmail P l.request.email with
          | error e => exact ⟨⟨rfl, rfl, locked, clean⟩, tx⟩
          | ok email =>
              have presented : (l.record P .bootstrap token).presented = true := by
                simpa [Ledger.record] using accepted
              exact initializeAdmin_obeys (l := l.record P .bootstrap token) locked tx presented
                clean named mailed

/-- Every request obeys. -/
theorem serviceInitialize_obeys (r : Request) (now : Time) :
    (serviceInitialize P r now).Obeys (discipline P drawn)
      (fun result l => l.request = r ∧ l.now = now ∧ l.tells P result) (.start r now) := by
  refine request_obeys rfl ?_
  intro _ _
  have inside := @initializeLocked_obeys P drawn { Ledger.start r now with locked := true } rfl rfl rfl
  refine .bind inside ?_
  rintro result l' ⟨ends, closed⟩
  refine request_obeys ⟨ends.locked, closed⟩ ?_
  intro _ _
  refine ⟨ends.request, ends.now, ?_⟩
  cases result with
  | ok admin => exact ends.tells
  | error e => exact ends.tells

end Walks

/-- The events that write rows or the token. -/
def Marks : Event machine → Prop
  | ⟨_, .commit, _, true⟩ => True
  | ⟨_, .consume, _, _⟩ => True
  | _ => False

/-- What is so at every moment of a run that began with the settings `before`. -/
structure Sound (P : Platform) (requests : Nat → Request) (times : Nat → Time) (drawn : GoString)
    (made : Prop) (before : Settings) (τ : List (Event machine)) (σ : State) (ls : Nat → Ledger) :
    Prop where
  identity : ∀ i, (ls i).request = requests i ∧ (ls i).now = times i
  holder : ∀ i, (ls i).locked = true ↔ σ.holder = some i
  txs : ∀ i, (ls i).tx = σ.txs i
  single : σ.admins.length ≤ 1
  token : σ.tokenSet = true → made ∧ σ.tokenHash = P.sha256 drawn
  presented : ∀ i, (ls i).presented = true →
    made ∧ P.sha256 (requests i).bootstrapToken = P.sha256 drawn
  stored : ∀ i row, (ls i).committed = some row → σ.admins = [row] ∧
    ∃ preferences, (requests i).preferences (times i) = some preferences ∧
      σ.settings = { before with preferences := preferences }
  fresh : (∀ i, (ls i).committed = none) → σ.settings = before
  once : ∀ i j, (ls i).committed ≠ none → (ls j).committed ≠ none → i = j
  consumed : ∀ i, (ls i).consumed = true → σ.tokenSet = false
  marked : ∀ e ∈ τ, Marks e → (ls e.call).committed ≠ none
  hashed : ∀ i hash, (ls i).hashed = some hash →
    ∃ c, (⟨i, .hashPassword (requests i).password, c, some hash⟩ : Event machine) ∈ τ

section Steps

variable {P : Platform} {requests : Nat → Request} {times : Nat → Time} {drawn : GoString}
  {made : Prop} {before : Settings} {τ : List (Event machine)} {σ σ' : State} {ls : Nat → Ledger} {i : Nat}
  {l : Ledger} {e : Event machine}

theorem update_field {α : Type} {f : Ledger → α} (same : f l = f (ls i)) (j : Nat) :
    f (Function.update ls i l j) = f (ls j) := by
  by_cases own : j = i
  · subst own
    rw [Function.update_self, same]
  · rw [Function.update_of_ne own]

/-- A step that writes neither a row nor the token. -/
theorem Sound.quiet (h : Sound P requests times drawn made before τ σ ls) (unmarked : ¬ Marks e)
    (identity : l.request = (ls i).request ∧ l.now = (ls i).now)
    (committed : l.committed = (ls i).committed) (consumed : l.consumed = (ls i).consumed)
    (presented : l.presented = true →
      made ∧ P.sha256 (requests i).bootstrapToken = P.sha256 drawn)
    (hashed : ∀ hash, l.hashed = some hash → (ls i).hashed = some hash ∨
      ∃ c, e = ⟨i, .hashPassword (requests i).password, c, some hash⟩)
    (rows : σ'.admins = σ.admins ∧ σ'.settings = σ.settings)
    (token : σ'.tokenSet = σ.tokenSet ∧ σ'.tokenHash = σ.tokenHash)
    (holder : ∀ j, (Function.update ls i l j).locked = true ↔ σ'.holder = some j)
    (txs : ∀ j, (Function.update ls i l j).tx = σ'.txs j) :
    Sound P requests times drawn made before (τ ++ [e]) σ' (Function.update ls i l) where
  identity j := by
    rw [update_field (f := Ledger.request) identity.1, update_field (f := Ledger.now) identity.2]
    exact h.identity j
  holder := holder
  txs := txs
  single := by
    rw [rows.1]
    exact h.single
  token := by
    rw [token.1, token.2]
    exact h.token
  presented j shown := by
    by_cases own : j = i
    · subst own
      rw [Function.update_self] at shown
      exact presented shown
    · rw [Function.update_of_ne own] at shown
      exact h.presented j shown
  stored j row := by
    rw [update_field (f := Ledger.committed) committed, rows.1, rows.2]
    exact h.stored j row
  fresh := by
    simp only [update_field (f := Ledger.committed) committed, rows.2]
    exact h.fresh
  once j k := by
    rw [update_field (f := Ledger.committed) committed, update_field (f := Ledger.committed) committed]
    exact h.once j k
  consumed j := by
    rw [update_field (f := Ledger.consumed) consumed, token.1]
    exact h.consumed j
  marked e' member mark := by
    rw [update_field (f := Ledger.committed) committed]
    rcases List.mem_append.mp member with old | new
    · exact h.marked e' old mark
    · rw [List.mem_singleton.mp new] at mark
      exact absurd mark unmarked
  hashed j hash known := by
    by_cases own : j = i
    · subst own
      rw [Function.update_self] at known
      rcases hashed hash known with old | ⟨c, new⟩
      · obtain ⟨c, member⟩ := h.hashed j hash old
        exact ⟨c, List.mem_append_left _ member⟩
      · exact ⟨c, List.mem_append_right _ (by rw [new]; exact List.mem_singleton_self _)⟩
    · rw [Function.update_of_ne own] at known
      obtain ⟨c, member⟩ := h.hashed j hash known
      exact ⟨c, List.mem_append_left _ member⟩

theorem Sound.same_holder (h : Sound P requests times drawn made before τ σ ls)
    (locked : l.locked = (ls i).locked) (same : σ'.holder = σ.holder) (j : Nat) :
    (Function.update ls i l j).locked = true ↔ σ'.holder = some j := by
  rw [update_field (f := Ledger.locked) locked, same]
  exact h.holder j

theorem Sound.same_txs (h : Sound P requests times drawn made before τ σ ls) {tx : Option Tx}
    (own : l.tx = tx) (same : σ'.txs = Function.update σ.txs i tx) (j : Nat) :
    (Function.update ls i l j).tx = σ'.txs j := by
  rw [same]
  by_cases mine : j = i
  · subst mine
    rw [Function.update_self, Function.update_self, own]
  · rw [Function.update_of_ne mine, Function.update_of_ne mine]
    exact h.txs j

theorem Sound.kept_txs (h : Sound P requests times drawn made before τ σ ls)
    (own : l.tx = (ls i).tx) (same : σ'.txs = σ.txs) (j : Nat) :
    (Function.update ls i l j).tx = σ'.txs j := by
  rw [update_field (f := Ledger.tx) own, same]
  exact h.txs j

/-- A step inside a transaction, or one that touches nothing shared. -/
theorem Sound.inside (h : Sound P requests times drawn made before τ σ ls) (unmarked : ¬ Marks e)
    {tx : Option Tx} (same : l = { ls i with tx := tx })
    (moved : σ' = σ.withTx i tx) :
    Sound P requests times drawn made before (τ ++ [e]) σ' (Function.update ls i l) := by
  subst same moved
  exact h.quiet unmarked ⟨rfl, rfl⟩ rfl rfl (h.presented i) (fun _ known => .inl known) ⟨rfl, rfl⟩
    ⟨rfl, rfl⟩ (h.same_holder rfl rfl) (h.same_txs rfl rfl)

theorem Sound.still (h : Sound P requests times drawn made before τ σ ls) (unmarked : ¬ Marks e) :
    Sound P requests times drawn made before (τ ++ [e]) σ (Function.update ls i (ls i)) :=
  h.quiet unmarked ⟨rfl, rfl⟩ rfl rfl (h.presented i) (fun _ known => .inl known) ⟨rfl, rfl⟩
    ⟨rfl, rfl⟩ (h.same_holder rfl rfl) (h.kept_txs rfl rfl)

/-- A commit: nobody has committed before, and the rows are the request's own. -/
theorem Sound.commit {admin : Auth.Admin} {preferences : Preferences} {c : Choice}
    (h : Sound P requests times drawn made before τ σ ls)
    (valid : (requests i).preferences (times i) = some preferences)
    (room : σ.admins = [])
    (record : l = { ls i with tx := none, committed := some (storedAdmin admin) }) :
    Sound P requests times drawn made before (τ ++ [⟨i, .commit, c, true⟩])
      ((σ.apply ⟨some 0, some (storedAdmin admin), some preferences⟩).withTx i none)
      (Function.update ls i l) := by
  have none : ∀ j, (ls j).committed = none := by
    intro j
    cases known : (ls j).committed with
    | none => rfl
    | some row =>
        have filled := (h.stored j row known).1
        rw [room] at filled
        cases filled
  have committed : ∀ j row, (Function.update ls i l j).committed = some row →
      j = i ∧ row = storedAdmin admin := by
    intro j row known
    by_cases own : j = i
    · subst own
      rw [Function.update_self, record] at known
      exact ⟨rfl, (Option.some.inj known).symm⟩
    · rw [Function.update_of_ne own, none j] at known
      cases known
  constructor
  · intro j
    rw [update_field (l := l) (f := Ledger.request) (by rw [record]), update_field (l := l) (f := Ledger.now) (by rw [record])]
    exact h.identity j
  · exact h.same_holder (by rw [record]) rfl
  · exact h.same_txs (by rw [record]) rfl
  · change (σ.admins ++ [storedAdmin admin]).length ≤ 1
    rw [room]
    exact Nat.le_refl _
  · exact h.token
  · intro j
    rw [update_field (l := l) (f := Ledger.presented) (by rw [record])]
    exact h.presented j
  · intro j row known
    obtain ⟨rfl, rfl⟩ := committed j row known
    refine ⟨?_, preferences, valid, ?_⟩
    · change σ.admins ++ [storedAdmin admin] = _
      rw [room]
      rfl
    · change { σ.settings with preferences := preferences } = _
      rw [h.fresh none]
  · intro all
    have here := all i
    rw [Function.update_self, record] at here
    cases here
  · intro j k first second
    obtain ⟨row, known⟩ := Option.ne_none_iff_exists'.mp first
    obtain ⟨row', known'⟩ := Option.ne_none_iff_exists'.mp second
    exact (committed j row known).1.trans (committed k row' known').1.symm
  · intro j
    rw [update_field (l := l) (f := Ledger.consumed) (by rw [record])]
    exact h.consumed j
  · intro e member mark
    rcases List.mem_append.mp member with old | new
    · exact absurd (none e.call) (h.marked e old mark)
    · rw [List.mem_singleton.mp new, Function.update_self, record]
      exact Option.some_ne_none _
  · intro j hash known
    rw [update_field (l := l) (f := Ledger.hashed) (by rw [record])] at known
    obtain ⟨c, member⟩ := h.hashed j hash known
    exact ⟨c, List.mem_append_left _ member⟩

/-- The token is given up after a commit. -/
theorem Sound.consume {c : Choice} (h : Sound P requests times drawn made before τ σ ls)
    (committed : (ls i).committed ≠ none) (record : l = { ls i with consumed := true }) :
    Sound P requests times drawn made before (τ ++ [⟨i, .consume, c, ()⟩])
      { σ with tokenHash := Vector.replicate 32 0, tokenSet := false } (Function.update ls i l) := by
  constructor
  · intro j
    rw [update_field (l := l) (f := Ledger.request) (by rw [record]), update_field (l := l) (f := Ledger.now) (by rw [record])]
    exact h.identity j
  · exact h.same_holder (by rw [record]) rfl
  · exact h.kept_txs (by rw [record]) rfl
  · exact h.single
  · intro set
    cases set
  · intro j
    rw [update_field (l := l) (f := Ledger.presented) (by rw [record])]
    exact h.presented j
  · intro j row
    rw [update_field (l := l) (f := Ledger.committed) (by rw [record])]
    exact h.stored j row
  · simp only [update_field (l := l) (f := Ledger.committed) (by rw [record])]
    exact h.fresh
  · intro j k
    rw [update_field (l := l) (f := Ledger.committed) (by rw [record]), update_field (l := l) (f := Ledger.committed) (by rw [record])]
    exact h.once j k
  · intro _ _
    rfl
  · intro e member mark
    rw [update_field (l := l) (f := Ledger.committed) (by rw [record])]
    rcases List.mem_append.mp member with old | new
    · exact h.marked e old mark
    · rw [List.mem_singleton.mp new]
      exact committed
  · intro j hash known
    rw [update_field (l := l) (f := Ledger.hashed) (by rw [record])] at known
    obtain ⟨c, member⟩ := h.hashed j hash known
    exact ⟨c, List.mem_append_left _ member⟩

/-- A commit that is tried: it takes effect or is refused. -/
theorem Sound.commits {admin : Auth.Admin} {preferences : Preferences} {c : Choice} {r : Bool}
    (h : Sound P requests times drawn made before τ σ ls)
    (valid : (requests i).preferences (times i) = some preferences)
    (known : (ls i).tx = some ⟨some 0, some (storedAdmin admin), some preferences⟩)
    (performed : State.perform i .commit .normal σ = some (r, σ')) :
    Sound P requests times drawn made before (τ ++ [⟨i, .commit, c, r⟩]) σ'
      (Function.update ls i ((ls i).record P .commit r)) := by
  have own := h.txs i
  rw [known] at own
  simp only [State.perform, ← own] at performed
  split at performed
  · rename_i serial
    cases performed
    have room : σ.admins = [] := by
      have seen : some 0 = some σ.admins.length := by
        simpa using (Bool.and_eq_true_iff.mp serial).1
      exact List.length_eq_zero_iff.mp (Option.some.inj seen).symm
    refine h.commit valid room ?_
    simp [Ledger.record, known]
  · cases performed
    exact h.inside id rfl rfl

/-- Every permitted step keeps what is so at every moment. -/
theorem Sound.step {a : Action} {c : Choice} {r : Response a}
    (h : Sound P requests times drawn made before τ σ ls) (permitted : (ls i).permits P a)
    (performed : State.perform i a c σ = some (r, σ')) :
    Ledger.reports P drawn a r ∧
      Sound P requests times drawn made before (τ ++ [⟨i, a, c, r⟩]) σ'
        (Function.update ls i ((ls i).record P a r)) := by
  cases a with
  | lock =>
      refine ⟨trivial, ?_⟩
      have free : σ.holder = none := by
        by_contra held
        rw [State.perform, if_neg held] at performed
        cases performed
      rw [State.perform, if_pos free] at performed
      cases performed
      refine h.quiet id ⟨rfl, rfl⟩ rfl rfl (h.presented i) (fun _ known => .inl known) ⟨rfl, rfl⟩
        ⟨rfl, rfl⟩ ?_ (h.kept_txs rfl rfl)
      intro j
      by_cases own : j = i
      · subst own
        rw [Function.update_self]
        simp [Ledger.record]
      · rw [Function.update_of_ne own, h.holder j, free]
        simp [Ne.symm own]
  | unlock =>
      refine ⟨trivial, ?_⟩
      have held : σ.holder = some i := (h.holder i).mp permitted.1
      cases performed
      refine h.quiet id ⟨rfl, rfl⟩ rfl rfl (h.presented i) (fun _ known => .inl known) ⟨rfl, rfl⟩
        ⟨rfl, rfl⟩ ?_ (h.kept_txs rfl rfl)
      intro j
      by_cases own : j = i
      · subst own
        rw [Function.update_self]
        simp [Ledger.record]
      · rw [Function.update_of_ne own, h.holder j, held]
        simp [Ne.symm own]
  | countAdmins =>
      cases c with
      | fault =>
          cases performed
          exact ⟨trivial, h.still id⟩
      | normal =>
          cases performed
          exact ⟨trivial, h.still id⟩
      | name text =>
          cases performed
          exact ⟨trivial, h.still id⟩
  | bootstrap =>
      cases performed
      refine ⟨fun set => (h.token set).2, ?_⟩
      refine h.quiet id ⟨rfl, rfl⟩ rfl rfl ?_ (fun _ known => .inl known) ⟨rfl, rfl⟩
        ⟨rfl, rfl⟩ (h.same_holder rfl rfl) (h.kept_txs rfl rfl)
      intro shown
      simp only [Ledger.record, Bool.and_eq_true, beq_iff_eq, (h.identity i).1] at shown
      exact ⟨(h.token shown.1).1, by rw [shown.2, (h.token shown.1).2]⟩
  | hashPassword password =>
      refine ⟨trivial, ?_⟩
      have own : password = (requests i).password := by rw [permitted.2, (h.identity i).1]
      subst own
      cases c with
      | fault =>
          cases performed
          exact h.quiet id ⟨rfl, rfl⟩ rfl rfl (h.presented i) (fun _ known => by cases known)
            ⟨rfl, rfl⟩ ⟨rfl, rfl⟩ (h.same_holder rfl rfl) (h.kept_txs rfl rfl)
      | normal => cases performed
      | name text =>
          cases performed
          refine h.quiet id ⟨rfl, rfl⟩ rfl rfl (h.presented i) ?_
            ⟨rfl, rfl⟩ ⟨rfl, rfl⟩ (h.same_holder rfl rfl) (h.kept_txs rfl rfl)
          intro hash known
          cases known
          exact .inr ⟨_, rfl⟩
  | newV7 =>
      cases c with
      | fault =>
          cases performed
          exact ⟨trivial, h.still id⟩
      | normal => cases performed
      | name text =>
          cases performed
          exact ⟨trivial, h.still id⟩
  | begin =>
      refine ⟨trivial, ?_⟩
      cases c with
      | fault =>
          cases performed
          exact h.still id
      | normal =>
          cases performed
          exact h.inside id rfl rfl
      | name text =>
          cases performed
          exact h.inside id rfl rfl
  | countInside =>
      refine ⟨trivial, ?_⟩
      cases c with
      | fault =>
          cases performed
          exact h.still id
      | normal =>
          cases performed
          exact h.inside id rfl (by rw [h.txs i])
      | name text =>
          cases performed
          exact h.inside id rfl (by rw [h.txs i])
  | insertAdmin admin =>
      refine ⟨trivial, ?_⟩
      obtain ⟨-, ⟨_, _, preferences⟩, known, rfl, rfl⟩ := permitted
      have own := h.txs i
      rw [known] at own
      cases c with
      | fault =>
          cases performed
          exact h.still id
      | normal =>
          simp only [State.perform, ← own] at performed
          cases performed
          exact h.inside id rfl (by rw [known]; rfl)
      | name text =>
          simp only [State.perform, ← own] at performed
          cases performed
          exact h.inside id rfl (by rw [known]; rfl)
  | updateSettings preferences =>
      refine ⟨trivial, ?_⟩
      cases c with
      | fault =>
          cases performed
          exact h.still id
      | normal =>
          cases performed
          exact h.inside id rfl (by rw [h.txs i])
      | name text =>
          cases performed
          exact h.inside id rfl (by rw [h.txs i])
  | commit =>
      refine ⟨trivial, ?_⟩
      obtain ⟨-, -, -, admin, hash, preferences, -, -, valid, known⟩ := permitted
      rw [(h.identity i).1, (h.identity i).2] at valid
      cases c with
      | fault =>
          cases performed
          exact h.inside id rfl rfl
      | normal => exact h.commits valid known performed
      | name text => exact h.commits valid known performed
  | rollback =>
      cases performed
      exact ⟨trivial, h.inside id rfl rfl⟩
  | consume =>
      cases performed
      exact ⟨trivial, h.consume permitted.2 rfl⟩

end Steps

section Runs

variable (P : Platform) (requests : Nat → Request) (times : Nat → Time) (drawn : GoString)

/-- Every call makes its request to one service. -/
def initializing : Setting machine (Except Error Auth.Admin) where
  start i := serviceInitialize P (requests i) (times i)
  aborted := .error .database
  Crashes := False
  Admits _ _ := True

def initial (admin : Option Auth.Admin) (settings : Settings) :
    World machine (Except Error Auth.Admin) :=
  ⟨(newService P admin.toList settings drawn).1, (initializing P requests times).start⟩

abbrev watch : Watch machine (Except Error Auth.Admin) where
  discipline := discipline P drawn
  begin i := .start (requests i) (times i)
  Final i result l := l.request = requests i ∧ l.now = times i ∧ l.tells P result

variable {P requests times drawn} {made : Prop} {before : Settings}

theorem sound_keeps : (watch P requests times drawn).Keeps (initializing P requests times)
    (Sound P requests times drawn made before) where
  call _ h _ permitted performed _ := h.step permitted performed
  environment := by
    rintro τ σ ls σ' h ⟨room, admin, rfl⟩
    have none : ∀ i, (ls i).committed = none := by
      intro i
      cases known : (ls i).committed with
      | none => rfl
      | some row =>
          have filled := (h.stored i row known).1
          rw [room] at filled
          cases filled
    refine { h with single := Nat.le_refl _, stored := ?_, fresh := h.fresh }
    intro i row known
    rw [none i] at known
    cases known
  crash impossible := impossible.elim

theorem Sound.begin (admin : Option Auth.Admin) (settings : Settings) :
    Sound P requests times drawn ((newService P admin.toList settings drawn).2 = some drawn) settings
      [] (newService P admin.toList settings drawn).1 fun i => .start (requests i) (times i) := by
  cases admin with
  | none =>
      constructor
      all_goals simp [newService, Ledger.start]
  | some admin =>
      constructor
      all_goals simp [newService, Ledger.start]

/-- An event without a mark leaves the rows and the token alone. -/
theorem unmarked_frame {e : Event machine} (unmarked : ¬ Marks e) {σ σ' : State}
    (performed : State.perform e.call e.action e.choice σ = some (e.response, σ')) :
    σ'.admins = σ.admins ∧ σ'.settings = σ.settings ∧ σ'.tokenSet = σ.tokenSet ∧
      σ'.tokenHash = σ.tokenHash := by
  obtain ⟨i, a, c, r⟩ := e
  simp only at performed
  cases a
  case consume => exact absurd trivial unmarked
  case commit =>
    have refused : r = false := by
      cases r with
      | false => rfl
      | true => exact absurd trivial unmarked
    subst refused
    cases c
    case fault =>
      cases performed
      exact ⟨rfl, rfl, rfl, rfl⟩
    all_goals
      simp only [State.perform] at performed
      split at performed
      · split at performed
        · cases performed
        · cases performed
          exact ⟨rfl, rfl, rfl, rfl⟩
      · cases performed
        exact ⟨rfl, rfl, rfl, rfl⟩
  case lock =>
    rw [State.perform] at performed
    split at performed
    · cases performed
      exact ⟨rfl, rfl, rfl, rfl⟩
    · cases performed
  case insertAdmin admin =>
    cases c
    case fault =>
      cases performed
      exact ⟨rfl, rfl, rfl, rfl⟩
    all_goals
      simp only [State.perform] at performed
      split at performed
      · split at performed
        · cases performed
          exact ⟨rfl, rfl, rfl, rfl⟩
        · cases performed
          exact ⟨rfl, rfl, rfl, rfl⟩
      · cases performed
        exact ⟨rfl, rfl, rfl, rfl⟩
  all_goals
    cases c
    all_goals
      cases performed
      try exact ⟨rfl, rfl, rfl, rfl⟩

/-- At most one administrator; a success presented the token and its values are stored; a failure
leaves rows and token alone; there is one success at most. -/
theorem setup_once (P : Platform) (requests : Nat → Request) (times : Nat → Time) (drawn : GoString)
    (admin : Option Auth.Admin) (settings : Settings) {τ : List (Event machine)}
    {w : World machine (Except Error Auth.Admin)}
    (run : Run (initializing P requests times) (initial P requests times drawn admin settings) τ w) :
    w.shared.admins.length ≤ 1 ∧
    (∀ i admin', w.calls i = .done (.ok admin') →
      (newService P admin.toList settings drawn).2 = some drawn ∧
      P.sha256 (requests i).bootstrapToken = P.sha256 drawn ∧
      (∃ hash c, (⟨i, .hashPassword (requests i).password, c, some hash⟩ : Event machine) ∈ τ ∧
        Asks P (requests i) (times i) hash admin') ∧
      w.shared.admins = [storedAdmin admin'] ∧
      (∃ preferences, (requests i).preferences (times i) = some preferences ∧
        w.shared.settings = { settings with preferences := preferences }) ∧
      w.shared.tokenSet = false) ∧
    (∀ i e, w.calls i = .done (.error e) → ∀ event ∈ τ, event.call = i → ∀ σ σ',
      State.perform event.call event.action event.choice σ = some (event.response, σ') →
      σ'.admins = σ.admins ∧ σ'.settings = σ.settings ∧ σ'.tokenSet = σ.tokenSet ∧
        σ'.tokenHash = σ.tokenHash) ∧
    ∀ i j first second, w.calls i = .done (.ok first) → w.calls j = .done (.ok second) → i = j := by
  obtain ⟨ls, obeyed, sound⟩ := run.held sound_keeps
    ⟨_, fun i => serviceInitialize_obeys (requests i) (times i), Sound.begin admin settings⟩
  have told : ∀ i result, w.calls i = .done result → (ls i).tells P result := by
    intro i result finished
    have here := obeyed i
    rw [finished] at here
    exact here.2.2
  refine ⟨sound.single, ?_, ?_, ?_⟩
  · intro i admin' finished
    obtain ⟨committed, consumed, presented, ⟨hash, hashed, asks⟩, preferences, valid⟩ :=
      told i _ finished
    rw [(sound.identity i).1, (sound.identity i).2] at asks
    obtain ⟨made, token⟩ := sound.presented i presented
    obtain ⟨stored, kept⟩ := sound.stored i _ committed
    obtain ⟨c, member⟩ := sound.hashed i hash hashed
    exact ⟨made, token, ⟨hash, c, member, asks⟩, stored, kept, sound.consumed i consumed⟩
  · intro i e finished event member own σ σ' performed
    refine unmarked_frame (fun mark => ?_) performed
    subst own
    exact sound.marked event member mark (told event.call _ finished)
  · intro i j first second one two
    have here := (told i _ one).1
    have there := (told j _ two).1
    exact sound.once i j (by rw [here]; exact Option.some_ne_none _)
      (by rw [there]; exact Option.some_ne_none _)

end Runs

section Sample

/-- A platform that takes every text for an address. -/
def mailingPlatform : Platform := { samplePlatform with parseAddress := some }

def sampleRequest : Request :=
  ⟨str "isb_token", str "Will", str "admin@example.com", str "a secure setup password",
    some .isPrivate, false, 85, 82, 6, false, 80, false⟩

def sampleSettings : Settings :=
  ⟨20971520, 20, 16000000, 3, ⟨.isPublic, false, 85, 82, 6, false, 82, false, 0⟩⟩

/-- One request that goes through. -/
def sampleSchedule : List (Nat × Choice) :=
  [(0, .normal), (0, .normal), (0, .normal), (0, .name (str "hash")), (0, .name (str "id")),
    (0, .normal), (0, .normal), (0, .normal), (0, .normal), (0, .normal), (0, .normal),
    (0, .normal), (0, .normal)]

theorem sample_runs : ∃ τ w admin,
    Run (initializing mailingPlatform (fun _ => sampleRequest) fun _ => 0)
      (initial mailingPlatform (fun _ => sampleRequest) (fun _ => 0) (str "isb_token") none
        sampleSettings) τ w ∧ w.calls 0 = .done (.ok admin) :=
  ⟨_, _, _, .of_execute sampleSchedule (fun _ _ _ _ _ => trivial) rfl, rfl⟩

theorem sample_stored : ∃ τ w admin,
    Run (initializing mailingPlatform (fun _ => sampleRequest) fun _ => 0)
      (initial mailingPlatform (fun _ => sampleRequest) (fun _ => 0) (str "isb_token") none
        sampleSettings) τ w ∧
      w.calls 0 = .done (.ok admin) ∧ w.shared.admins = [storedAdmin admin] ∧
      w.shared.tokenSet = false := by
  obtain ⟨τ, w, admin, run, finished⟩ := sample_runs
  obtain ⟨-, success, -, -⟩ := setup_once mailingPlatform (fun _ => sampleRequest) (fun _ => 0)
    (str "isb_token") none sampleSettings run
  obtain ⟨-, -, -, stored, -, consumed⟩ := success 0 admin finished
  exact ⟨τ, w, admin, run, finished, stored, consumed⟩

end Sample

end ImageSilo.Setup
