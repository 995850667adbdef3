import ImageSilo.Accounts.Clerks
import ImageSilo.Accounts.Mutexes
import ImageSilo.System.LockOrder

/-! A call takes a mutex while it holds nothing else, and takes no image lock and no path lock under one.
-/
namespace ImageSilo.Accounts

open Go Concurrent Publication

/-- The mutexes that a call holds, and its side of the rebuild lock. -/
structure Grip where
  hold : Hold
  credentials : Bool
  mutations : Bool

def Grip.open : Grip := ⟨.free, false, false⟩

structure Grip.Bare (g : Grip) : Prop where
  credentials : g.credentials = false
  mutations : g.mutations = false

def Grip.allowsSync (g : Grip) : Sync → Prop
  | .lockCredentials | .lockMutations => g.hold = .free ∧ g.Bare
  | .unlockCredentials => g.credentials = true
  | .unlockMutations => g.mutations = true
  | .lockImage _ | .lockAlias _ => g.Bare
  | _ => True

def Grip.permits (g : Grip) : Action → Prop
  | .sync s => g.allowsSync s
  | _ => True

def Grip.recordSync (g : Grip) : Sync → Grip
  | .lockCredentials => { g with credentials := true }
  | .unlockCredentials => { g with credentials := false }
  | .lockMutations => { g with mutations := true }
  | .unlockMutations => { g with mutations := false }
  | .beginChange => { g with hold := .shared }
  | .endChange => { g with hold := .free }
  | .announceRebuild => { g with hold := .waiting }
  | .beginRebuild => { g with hold := .exclusive }
  | .endRebuild => { g with hold := .free }
  | _ => g

def Grip.record (g : Grip) : Action → Grip
  | .sync s => g.recordSync s
  | _ => g

abbrev gripDiscipline : Discipline Action Response where
  Ledger := Grip
  Permits g a := g.permits a
  Reports _ _ _ := True
  record g a _ := g.record a

/-- From this grip the program takes its locks in order, and ends in `Q`. -/
abbrev Climbs {α : Type} (p : Call α) (g : Grip) (Q : α → Grip → Prop) : Prop :=
  p.Obeys gripDiscipline Q g

variable {P : Platform} {α β : Type} {g : Grip}

section Rules

theorem Unmutexed.climbs {p : Call α} (only : Unmutexed p) (bare : g.Bare) :
    Climbs p g fun _ g' => g'.Bare := by
  refine Program.Only.obeys (D := gripDiscipline) Grip.Bare only ?_ ?_ bare
  · intro g a bare other
    cases a with
    | sync s => cases s <;> trivial
    | _ => trivial
  · intro g a r bare other
    cases a with
    | sync s => cases s <;> first | exact bare | exact ⟨bare.1, bare.2⟩ | cases other
    | _ => exact bare

theorem Inner.climbs {p : Call α} (only : Inner p) : Climbs p g fun _ g' =>
    g'.credentials = g.credentials ∧ g'.mutations = g.mutations := by
  refine Program.Only.obeys (D := gripDiscipline)
    (fun g' => g'.credentials = g.credentials ∧ g'.mutations = g.mutations) only ?_ ?_ ⟨rfl, rfl⟩
  · intro g a bare other
    cases a with
    | sync s => cases s <;> first | trivial | simp [mutexed, keyed] at other
    | _ => trivial
  · intro g a r bare other
    cases a with
    | sync s => cases s <;> first | exact bare | simp [mutexed] at other
    | _ => exact bare

theorem Lockless.climbs {p : Call α} (only : Lockless p) : Climbs p g fun _ g' => g' = g := by
  refine Program.Only.obeys (D := gripDiscipline) (fun g' => g' = g) only ?_ ?_ rfl
  · rintro g a rfl other
    cases a with
    | sync s => cases other.1
    | _ => trivial
  · rintro g a r rfl other
    cases a with
    | sync s => cases other.1
    | _ => rfl

theorem Bystander.unmutexed {p : Call α} (aside : Bystander p) : Unmutexed p := by
  refine only_mono aside ?_
  intro a aside
  cases a with
  | sync s => cases s <;> first | rfl | cases aside
  | _ => rfl

/-- A program under the credentials mutex. -/
theorem credentials_climbs {p : Call α} (inner : Inner p) :
    Climbs (do sync .lockCredentials; let r ← p; sync .unlockCredentials; pure r) .open
      fun _ g => g.Bare := by
  refine (Program.obeys_bind ..).mpr ⟨⟨rfl, rfl, rfl⟩, fun _ _ => ?_⟩
  refine Program.Obeys.bind inner.climbs ?_
  rintro r g ⟨held, free⟩
  exact (Program.obeys_bind ..).mpr ⟨held, fun _ _ => ⟨rfl, free⟩⟩

end Rules

section Programs

/-- A mutation under the token mutex. -/
theorem mutation_climbs {q : Statement} {f : Except DatabaseError q.Value → Call α}
    {Q : α → Grip → Prop}
    (rest : ∀ r, Climbs (f r) ⟨.shared, false, true⟩ Q) :
    Climbs (do sync .lockMutations; beginChange; let r ← statement q; f r) .open Q := by
  refine (Program.obeys_bind ..).mpr ⟨⟨rfl, rfl, rfl⟩, fun _ _ => ?_⟩
  refine (Program.obeys_bind ..).mpr ⟨trivial, fun _ _ => ?_⟩
  exact (Program.obeys_bind ..).mpr ⟨trivial, fun r _ => rest r⟩

theorem endMutation_climbs {v : α} : Climbs (do endChange; sync .unlockMutations; pure v)
    ⟨.shared, false, true⟩ fun _ g => g.Bare :=
  (Program.obeys_bind ..).mpr ⟨trivial, fun _ _ =>
    (Program.obeys_bind ..).mpr ⟨rfl, fun _ _ => ⟨rfl, rfl⟩⟩⟩

theorem tokenStep_climbs {p : Call α} {s : ApiToken.IndexStep} {Q : α → Grip → Prop}
    (rest : Climbs p g Q) : Climbs (do tokenStep s; p) g Q :=
  (Program.obeys_bind ..).mpr ⟨trivial, fun _ _ => rest⟩

theorem revokeToken_climbs {id : GoString} : Climbs (revokeToken id) .open fun _ g => g.Bare := by
  refine mutation_climbs fun revoked => ?_
  split
  · exact endMutation_climbs
  · exact tokenStep_climbs endMutation_climbs

theorem generateToken_climbs {name : GoString} {scopes : List ApiToken.Scope}
    {expiresAt : Option Time} {now : Time} :
    Climbs (generateToken P name scopes expiresAt now) .open fun _ g => g.Bare := by
  refine Program.Obeys.bind newRandomToken_lockless.climbs ?_
  rintro drawn g rfl
  split
  · exact ⟨rfl, rfl⟩
  refine (Program.obeys_bind ..).mpr ⟨trivial, fun id _ => ?_⟩
  match id with
  | .error e => exact ⟨rfl, rfl⟩
  | .ok id =>
      refine mutation_climbs fun created => ?_
      split
      · exact endMutation_climbs
      · exact tokenStep_climbs endMutation_climbs

theorem createToken_climbs {name : GoString} {scopes : List (Option ApiToken.Scope)}
    {expiresAt : Option Time} {now : Time} :
    Climbs (createToken P name scopes expiresAt now) .open fun _ g => g.Bare := by
  unfold createToken
  dsimp only
  split
  · exact ⟨rfl, rfl⟩
  split
  · exact ⟨rfl, rfl⟩
  split
  · exact ⟨rfl, rfl⟩
  · exact generateToken_climbs

end Programs

theorem returning_climbs {p : Call α} {f : α → Result} (h : Climbs p .open fun _ g => g.Bare) :
    Climbs (returning p f) .open fun _ g => g.Bare :=
  (Program.obeys_bind ..).mpr (h.mono fun _ _ bare => bare)

/-- Every request takes the mutexes where the order has them, and gives them back. -/
theorem request_climbs (request : Request) :
    Climbs (request.program P) .open fun _ g => g.Bare := by
  have aside {β : Type} {p : Call β} {f : β → Result} (h : Bystander p) :
      Climbs (returning p f) .open fun _ g => g.Bare :=
    returning_climbs (h.unmutexed.climbs ⟨rfl, rfl⟩)
  have account {β : Type} {p : Call β} {f : β → Result} (h : Inner p) :
      Climbs (returning p f) .open fun _ g => g.Bare :=
    returning_climbs (h.unmutexed.climbs ⟨rfl, rfl⟩)
  cases request with
  | upload => exact aside upload_aside
  | importImage => exact aside importImage_aside
  | createAlias => exact aside createAlias_aside
  | deleteAlias => exact aside deleteAlias_aside
  | deleteImage => exact aside deleteImage_aside
  | changeVisibility => exact aside changeVisibility_aside
  | convertToWebP => exact aside convertToWebP_aside
  | inspect => exact aside inspect_aside
  | daily => exact aside daily_aside
  | serve => exact aside serve_aside
  | authenticateSession => exact aside authenticateSession_aside
  | authenticateToken => exact aside authenticateToken_aside
  | rebuild => exact account rebuild_inner
  | logout => exact account logout_inner
  | cleanupSessions => exact account cleanupSessions_inner
  | loadSessions => exact account loadSessions_inner
  | cleanupTokens => exact account cleanupTokens_inner
  | loadTokens => exact account loadTokens_inner
  | login => exact returning_climbs (credentials_climbs loginLocked_inner)
  | changePassword => exact returning_climbs (credentials_climbs changePasswordLocked_inner)
  | updateProfile =>
      refine returning_climbs ?_
      unfold updateProfile
      split
      · exact ⟨rfl, rfl⟩
      split
      · exact ⟨rfl, rfl⟩
      · exact credentials_climbs updateProfileLocked_inner
  | createToken => exact returning_climbs createToken_climbs
  | revokeToken => exact returning_climbs revokeToken_climbs

section Runs

variable {requests : Nat → Request} {σ σ' : State} {ls : Nat → Ledger} {gs : Nat → Grip} {i j : Nat}
  {a : Action} {c : Choice} {r : Response a} {l : Ledger}

variable (P) in
/-- The grips of all calls. -/
abbrev grips : Watch (machine P) Result where
  discipline := gripDiscipline
  begin _ := .open
  Final _ _ g := g.Bare

/-- The grips, next to the locks and to the ledgers of the same calls. -/
structure Gripped (σ : State) (ls : Nat → Ledger) (gs : Nat → Grip) : Prop where
  hold : ∀ j, (gs j).hold = (ls j).hold
  credentials : ∀ j, (gs j).credentials = true ↔ σ.locks.Owns j .credentials
  mutations : ∀ j, (gs j).mutations = true ↔ σ.locks.Owns j .mutations

theorem Gripped.begin (free : σ.locks = .free) :
    Gripped σ (fun j => Ledger.begin (requests j)) fun _ => .open where
  hold _ := rfl
  credentials := by simp [Grip.open, free, Locks.free, Locks.Owns]
  mutations := by simp [Grip.open, free, Locks.free, Locks.Owns]

theorem grip_hold (same : g.hold = l.hold) : (g.record a).hold = (l.record P a r).hold := by
  cases a with
  | sync s => cases s <;> first | exact same | rfl
  | statement q =>
      obtain ⟨_, _, _, _, _, _, _, _, _, _, _, _, _, _, eq⟩ :=
        Publication.recordStatement_frame (P := P) l q r
      rw [Ledger.record, eq]
      exact same
  | index s =>
      obtain ⟨_, _, _, _, eq⟩ := recordIndex_frame l s
      rw [Ledger.record, eq]
      exact same
  | file b =>
      obtain ⟨_, _, _, _, _, _, _, eq⟩ := recordFile_frame (P := P) l b r
      rw [Ledger.record, eq]
      exact same
  | newUUID => cases r <;> exact same
  | _ => exact same

/-- A mutex is held after an action by whoever has just taken it, or still holds it. -/
theorem grip_mutexes (g : Grip) (a : Action) :
    ((g.record a).credentials = true ↔ a.takes = some .credentials ∨
      g.credentials = true ∧ a.gives ≠ some .credentials) ∧
    ((g.record a).mutations = true ↔ a.takes = some .mutations ∨
      g.mutations = true ∧ a.gives ≠ some .mutations) := by
  cases a with
  | sync s =>
      cases s <;> simp [Grip.record, Grip.recordSync, Action.takes, Action.gives, Sync.takes, Sync.gives]
  | _ => simp [Grip.record, Action.takes, Action.gives]

theorem Gripped.step (h : Gripped σ ls gs) (performed : σ.perform P i a c = some (r, σ')) :
    Gripped σ' (Function.update ls i ((ls i).record P a r))
      (Function.update gs i ((gs i).record a)) := by
  constructor
  · intro j
    by_cases self : j = i
    · rw [self, Function.update_self, Function.update_self]
      exact grip_hold (h.hold i)
    · rw [Function.update_of_ne self, Function.update_of_ne self]
      exact h.hold j
  · intro j
    rw [perform_owns P performed]
    by_cases self : j = i
    · rw [self, if_pos rfl, Function.update_self, ← h.credentials]
      exact (grip_mutexes (gs i) a).1
    · rw [if_neg self, Function.update_of_ne self]
      exact h.credentials j
  · intro j
    rw [perform_owns P performed]
    by_cases self : j = i
    · rw [self, if_pos rfl, Function.update_self, ← h.mutations]
      exact (grip_mutexes (gs i) a).2
    · rw [if_neg self, Function.update_of_ne self]
      exact h.mutations j

theorem Gripped.environment (h : Gripped σ ls gs) (moved : σ.environment σ') : Gripped σ' ls gs := by
  obtain ⟨t, -, rfl⟩ := moved
  exact ⟨h.hold, h.credentials, h.mutations⟩

theorem Grip.open_bare : Grip.open.Bare := ⟨rfl, rfl⟩

/-- The locks that a ledger and a grip name. -/
def Carries (l : Ledger) (g : Grip) : Lock → Prop
  | .image id => l.image = some id
  | .path path => l.path = some path
  | .credentials => g.credentials = true
  | .mutations => g.mutations = true
  | .shared => l.hold = .shared
  | .announced => l.hold = .waiting
  | .exclusive => l.hold = .exclusive

theorem Gripped.owns (h : Gripped σ ls gs) (locks : Held σ.locks ls) (k : Lock) :
    σ.locks.Owns i k ↔ Carries (ls i) (gs i) k := by
  cases k with
  | image id => exact (locks.images i id).symm
  | path path => exact (locks.aliases i path).symm
  | credentials => exact (h.credentials i).symm
  | mutations => exact (h.mutations i).symm
  | shared => exact (locks.barrier.shared i).symm
  | announced => exact (locks.barrier.waiting i).symm
  | exclusive => exact (locks.barrier.exclusive i).symm

theorem carries_none (settled : Settled l) (bare : g.Bare) (k : Lock) : ¬ Carries l g k := by
  cases k <;> simp [Carries, settled.image, settled.path, settled.hold, bare.credentials, bare.mutations]

theorem carries_gives {s : Sync} (allowed : l.allowsSync s) (climbing : g.allowsSync s) {k : Lock}
    (gives : s.gives = some k) : Carries l g k := by
  cases s <;> cases gives
  · exact allowed.1
  · exact allowed.1
  · exact allowed
  · exact allowed
  · exact allowed
  · exact climbing
  · exact climbing

/-- Outside the rebuild lock a holder keeps out only who wants the same lock. -/
theorem excludes_level {wanted h : Lock} (excludes : wanted.Excludes h) (low : h.level < 3) :
    wanted.level = h.level := by
  cases wanted <;> cases h <;> simp_all [Lock.Excludes, Lock.level]

theorem carries_low {h : Lock} (free : l.hold = .free) (held : Carries l g h) : h.level < 3 := by
  cases h <;> simp [Carries, free] at held <;> simp [Lock.level]

theorem carries_keyed {h : Lock} (free : l.hold = .free) (bare : g.Bare) (held : Carries l g h) :
    h.level < 2 := by
  cases h <;> simp [Carries, free, bare.credentials, bare.mutations] at held <;> simp [Lock.level]

/-- Whatever a call already has, nobody waits for it at the level of the lock it takes next. -/
theorem carries_takes {s : Sync} (allowed : l.allowsSync s) (climbing : g.allowsSync s)
    (same : g.hold = l.hold) {k h wanted : Lock} (takes : s.takes = some k) (held : Carries l g h)
    (excludes : wanted.Excludes h) : wanted.level < k.level := by
  cases s <;> cases takes
  · obtain ⟨image, path, free⟩ := allowed
    cases h <;> simp [Carries, image, path, free, climbing.credentials, climbing.mutations] at held
  · obtain ⟨path, free⟩ := allowed
    rw [excludes_level excludes (carries_low free held)]
    cases h <;> simp [Carries, path, free, climbing.credentials, climbing.mutations] at held
    simp [Lock.level]
  · have low := carries_low allowed held
    rwa [excludes_level excludes low]
  · have low := carries_low allowed.2.2 held
    rwa [excludes_level excludes low]
  · -- the call waits for the changes that are under way, and has announced itself
    have waiting : l.hold = .waiting := allowed
    cases wanted <;> cases h <;> simp_all [Lock.Excludes, Lock.level, Carries]
  · have free : l.hold = .free := same.symm.trans climbing.1
    rw [excludes_level excludes (carries_low free held)]
    exact carries_keyed free climbing.2 held
  · have free : l.hold = .free := same.symm.trans climbing.1
    rw [excludes_level excludes (carries_low free held)]
    exact carries_keyed free climbing.2 held

variable {S : Setting (machine P) Result} {w : World (machine P) Result}
  {τ : List (Event (machine P))}

theorem gripped_beside (serves : Serves P requests S) :
    (watch P requests).KeepsBeside (grips P) S (fun _ σ ls => Sound P requests σ ls ∧ True)
      fun _ σ ls gs => Gripped σ ls gs where
  call := fun _ _ _ gripped _ _ _ performed _ => ⟨trivial, gripped.step performed⟩
  environment := fun _ gripped moved => gripped.environment moved
  crash := by
    rintro - τ σ ls gs σ' - - moved
    obtain ⟨t, -, rfl⟩ := moved
    refine ⟨.begin rfl, fun _ => Grip.open_bare, ?_⟩
    intro i
    rw [serves.start]
    exact request_climbs (requests i)

/-- In every state of every run each call takes its locks in order. -/
theorem locks_ordered (serves : Serves P requests S) (registered : Registered σ)
    (free : σ.locks = .free) (run : Run S (start P requests σ) τ w) : (locking P).Ordered w := by
  have sound : (watch P requests).Keeps S fun _ σ ls => Sound P requests σ ls ∧ True :=
    keeps serves (fun _ _ _ => True) (fun _ _ _ _ _ _ => trivial) (fun _ _ _ => trivial)
      fun _ _ _ _ _ _ _ _ => trivial
  obtain ⟨ls, gs, obeyed, climbing, ⟨sound', -⟩, gripped⟩ :=
    run.held_beside sound (gripped_beside serves) ⟨_, _, fun i => request_obeys (requests i),
      fun i => request_climbs (requests i), ⟨.begin registered free, trivial⟩, .begin free⟩
  intro i
  have here := obeyed i
  have here' := climbing i
  have own := gripped.owns (i := i) sound'.locks
  cases program : w.calls i with
  | done v =>
      rw [program] at here here'
      intro k held
      exact carries_none here.settled here' k ((own k).mp held)
  | act a next =>
      rw [program] at here here'
      cases a with
      | sync s =>
          obtain ⟨⟨-, allowed⟩, -⟩ := here
          refine ⟨?_, ?_⟩
          · intro k gives
            exact (own k).mpr (carries_gives allowed here'.1 gives)
          · intro k takes h held wanted excludes
            exact carries_takes allowed here'.1 (gripped.hold i) takes ((own h).mp held) excludes
      | _ =>
          refine ⟨?_, ?_⟩
          · intro k gives
            cases gives
          · intro k takes
            cases takes

end Runs

end ImageSilo.Accounts
