import ImageSilo.Concurrent.Latches
import ImageSilo.System.LockOrder
import ImageSilo.System.Requests

/-! The mutexes of the indexes, of the keyed lock tables and of the key derivation, around the atomic
actions. -/
namespace ImageSilo

open Go Concurrent

inductive Mutex
  | imageEntries
  | aliasEntries
  | delivery
  | sessions
  | tokens
  | passwordKDF
  deriving DecidableEq

abbrev FineCall := Program (Fine Action Mutex) (Fine.Reply Response)

def atomically (a : Action) : FineCall (Response a) := .act (Fine.base a) .done

def turn (m : Mutex) (t : Turn) : FineCall Unit := .act (Fine.latch m t) .done

/-- `RLock` and `RUnlock`. -/
def sharing {α : Type} (m : Mutex) (p : FineCall α) : FineCall α := do
  turn m .lockShared
  let value ← p
  turn m .unlockShared
  pure value

/-- `Lock` and `Unlock`, of a `Mutex` or of an `RWMutex`. -/
def exclusively {α : Type} (m : Mutex) (p : FineCall α) : FineCall α := do
  turn m .announce
  turn m .enter
  let value ← p
  turn m .unlock
  pure value

/-- `VerifyPassword` or `HashPassword`, after what has been read or drawn for it. -/
def derivingKey {ε α : Type} (derives : Except ε α → Bool) (p : FineCall (Except ε α)) :
    FineCall (Except ε α) := do
  let value ← p
  if derives value then exclusively .passwordKDF (pure ())
  pure value

/-- A login verifies a password for an address that is not known too. -/
def verifies : Except DatabaseError Auth.Admin → Bool
  | .ok _ | .error .noRows => true
  | _ => false

def around : (a : Action) → FineCall (Response a)
  | .index s => exclusively .delivery (atomically (.index s))
  | .getTarget id => sharing .delivery (atomically (.getTarget id))
  | .getAlias path => sharing .delivery (atomically (.getAlias path))
  | .indexLen => sharing .delivery (atomically .indexLen)
  | .aliasLen => sharing .delivery (atomically .aliasLen)
  | .sessionStep s => exclusively .sessions (atomically (.sessionStep s))
  | .getSession hash now => sharing .sessions (atomically (.getSession hash now))
  | .sessionLen => sharing .sessions (atomically .sessionLen)
  | .tokenStep s => exclusively .tokens (atomically (.tokenStep s))
  | .getToken hash now => sharing .tokens (atomically (.getToken hash now))
  | .tokenLen => sharing .tokens (atomically .tokenLen)
  | .sync (.lockImage id) => do
      exclusively .imageEntries (pure ())
      atomically (.sync (.lockImage id))
  | .sync (.lockAlias path) => do
      exclusively .aliasEntries (pure ())
      atomically (.sync (.lockAlias path))
  | .sync (.unlockImage id) => do
      atomically (.sync (.unlockImage id))
      exclusively .imageEntries (pure ())
  | .sync (.unlockAlias path) => do
      atomically (.sync (.unlockAlias path))
      exclusively .aliasEntries (pure ())
  | .statement (.findAdminByEmail email) =>
      derivingKey verifies (atomically (.statement (.findAdminByEmail email)))
  | .statement (.findAdminByID id) =>
      derivingKey Except.isOk (atomically (.statement (.findAdminByID id)))
  | .hashPassword password => derivingKey Except.isOk (atomically (.hashPassword password))
  | a => atomically a

section Sections

variable {α ε : Type}

theorem erase_sharing (m : Mutex) (p : FineCall α) : (sharing m p).erase = p.erase := by
  change (p.bind fun v => .act (Fine.latch m .unlockShared) fun _ => .done v).erase = _
  rw [Program.erase_bind]
  exact Program.bind_done p.erase

theorem erase_exclusively (m : Mutex) (p : FineCall α) : (exclusively m p).erase = p.erase := by
  change (p.bind fun v => .act (Fine.latch m .unlock) fun _ => .done v).erase = _
  rw [Program.erase_bind]
  exact Program.bind_done p.erase

theorem erase_derivingKey (derives : Except ε α → Bool) (p : FineCall (Except ε α)) :
    (derivingKey derives p).erase = p.erase := by
  unfold derivingKey
  change (p.bind _).erase = _
  rw [Program.erase_bind]
  refine Eq.trans (congrArg _ (funext fun value => ?_)) (Program.bind_done p.erase)
  cases derives value <;> rfl

/-- The sections disappear with the mutexes. -/
theorem erase_around (a : Action) : (around a).erase = Program.perform a := by
  cases a with
  | index s => exact erase_exclusively ..
  | getTarget id => exact erase_sharing ..
  | getAlias path => exact erase_sharing ..
  | indexLen => exact erase_sharing ..
  | aliasLen => exact erase_sharing ..
  | sessionStep s => exact erase_exclusively ..
  | getSession hash now => exact erase_sharing ..
  | sessionLen => exact erase_sharing ..
  | tokenStep s => exact erase_exclusively ..
  | getToken hash now => exact erase_sharing ..
  | tokenLen => exact erase_sharing ..
  | sync s => cases s <;> rfl
  | statement q => cases q <;> first | rfl | exact erase_derivingKey ..
  | hashPassword password => exact erase_derivingKey ..
  | _ => rfl

/-- From this latch the program takes one at a time, and ends in `Q`. -/
abbrev Bracketed {α : Type} (P : Platform) (p : FineCall α) (held : Option (Mutex × Side))
    (Q : α → Option (Mutex × Side) → Prop) : Prop :=
  p.Obeys (latchDiscipline Mutex (locking P)) Q held

variable {P : Platform} {held : Option (Mutex × Side)}

theorem atomically_bracketed {a : Action} (allowed : ∀ k ∈ a.takes, held = none) :
    Bracketed P (atomically a) held fun _ h => h = held := ⟨allowed, fun _ _ => rfl⟩

theorem exclusively_bracketed {m : Mutex} {p : FineCall α}
    (inside : Bracketed P p (some (m, .writes)) fun _ h => h = some (m, .writes)) :
    Bracketed P (exclusively m p) none fun _ h => h = none := by
  refine (Program.obeys_bind ..).mpr ⟨rfl, fun _ _ => ?_⟩
  refine (Program.obeys_bind ..).mpr ⟨rfl, fun _ _ => ?_⟩
  refine Program.Obeys.bind inside ?_
  rintro v _ rfl
  exact (Program.obeys_bind ..).mpr ⟨rfl, fun _ _ => rfl⟩

theorem sharing_bracketed {m : Mutex} {p : FineCall α}
    (inside : Bracketed P p (some (m, .reads)) fun _ h => h = some (m, .reads)) :
    Bracketed P (sharing m p) none fun _ h => h = none := by
  refine (Program.obeys_bind ..).mpr ⟨rfl, fun _ _ => ?_⟩
  refine Program.Obeys.bind inside ?_
  rintro v _ rfl
  exact (Program.obeys_bind ..).mpr ⟨rfl, fun _ _ => rfl⟩

theorem derivingKey_bracketed {derives : Except ε α → Bool} {p : FineCall (Except ε α)}
    (inside : Bracketed P p none fun _ h => h = none) :
    Bracketed P (derivingKey derives p) none fun _ h => h = none := by
  refine Program.Obeys.bind inside ?_
  rintro v _ rfl
  cases derives v with
  | false => exact rfl
  | true => exact Program.Obeys.bind (exclusively_bracketed rfl) fun _ _ same => same

theorem passing_bracketed {m : Mutex} :
    Bracketed P (exclusively m (pure ())) none fun _ h => h = none :=
  exclusively_bracketed rfl

/-- No section is inside another, and none is around a lock. -/
theorem around_bracketed (a : Action) : Bracketed P (around a) none fun _ h => h = none := by
  have inside {a : Action} {h : Option (Mutex × Side)} (lockless : a.takes = none) :
      Bracketed P (atomically a) h fun _ h' => h' = h := by
    refine atomically_bracketed ?_
    intro k takes
    rw [lockless] at takes
    cases takes
  have outside (a : Action) : Bracketed P (atomically a) none fun _ h => h = none :=
    atomically_bracketed fun _ _ => rfl
  have before {m : Mutex} {a : Action} : Bracketed P
      (do exclusively m (pure ()); atomically a) none fun _ h => h = none := by
    refine Program.Obeys.bind passing_bracketed ?_
    rintro _ _ rfl
    exact outside a
  have after {m : Mutex} {s : Sync} : Bracketed P
      (do atomically (.sync s); exclusively m (pure ())) none fun _ h => h = none := by
    refine Program.Obeys.bind (outside (.sync s)) ?_
    rintro _ _ rfl
    exact passing_bracketed
  cases a with
  | index s => exact exclusively_bracketed (inside rfl)
  | getTarget id => exact sharing_bracketed (inside rfl)
  | getAlias path => exact sharing_bracketed (inside rfl)
  | indexLen => exact sharing_bracketed (inside rfl)
  | aliasLen => exact sharing_bracketed (inside rfl)
  | sessionStep s => exact exclusively_bracketed (inside rfl)
  | getSession hash now => exact sharing_bracketed (inside rfl)
  | sessionLen => exact sharing_bracketed (inside rfl)
  | tokenStep s => exact exclusively_bracketed (inside rfl)
  | getToken hash now => exact sharing_bracketed (inside rfl)
  | tokenLen => exact sharing_bracketed (inside rfl)
  | sync s =>
      cases s with
      | lockImage id => exact before
      | lockAlias path => exact before
      | unlockImage id => exact after
      | unlockAlias path => exact after
      | _ => exact outside _
  | statement q =>
      cases q with
      | findAdminByEmail email => exact derivingKey_bracketed (outside _)
      | findAdminByID id => exact derivingKey_bracketed (outside _)
      | _ => exact outside _
  | hashPassword password => exact derivingKey_bracketed (outside _)
  | _ => exact outside _

end Sections

end ImageSilo
