import ImageSilo.Accounts.Passwords
import ImageSilo.Guarantees.Revocation

/-! Once a change of the password has succeeded, only its own session and the logins with a later hash
authenticate. -/
namespace ImageSilo.Accounts

open Go Concurrent Tables Publication

variable {P : Platform} {requests : Nat → Request} {σ σ' : State} {ls : Nat → Ledger}
  {ks : Nat → Docket} {i j : Nat} {a : Action} {c : Choice} {r : Response a} {kept : Digest}
  {τ τ' : List (Event (machine P))} {e : Event (machine P)} {w w' : World (machine P) Result}

/-- The database step of a change of the password that keeps this session. -/
def Changes (e : Event (machine P)) (i : Nat) (adminID : GoString) (kept : Digest) (now : Time) :
    Prop :=
  ∃ hash c, e = ⟨i, .statement (.changePassword adminID hash kept now), c, .ok ()⟩

/-- What every change of the password in the run has left behind. -/
structure Superseded (requests : Nat → Request) (τ : List (Event (machine P))) (σ : State)
    (ks : Nat → Docket) : Prop where
  since : ∀ before e after i adminID kept now, τ = before ++ e :: after →
    Changes e i adminID kept now → Since requests i kept (e :: after) σ ks
  changed : ∀ i, (ks i).changed = true → ∃ before e after identity token current new now,
    τ = before ++ e :: after ∧ requests i = .changePassword identity token current new now ∧
      Changes e i identity.adminID (P.sha256 token) now

/-- A cut of a longer trace is one of the trace before, or the last event. -/
theorem split_snoc {α : Type} {xs before after : List α} {x y : α}
    (same : xs ++ [x] = before ++ y :: after) :
    (after = [] ∧ x = y ∧ xs = before) ∨ ∃ rest, after = rest ++ [x] ∧ xs = before ++ y :: rest := by
  rcases List.eq_nil_or_concat after with rfl | ⟨rest, last, rfl⟩
  · obtain ⟨eq, last⟩ := List.append_inj' same rfl
    cases last
    exact .inl ⟨rfl, rfl, eq⟩
  · rw [List.concat_eq_append, ← List.cons_append, ← List.append_assoc] at same
    obtain ⟨eq, last⟩ := List.append_inj' same rfl
    cases last
    exact .inr ⟨rest, by simp, eq⟩

/-- A docket notes a change of the password after its database step alone. -/
theorem recorded_change (changed : ((ks i).record a r).changed = true) :
    (ks i).changed = true ∨ ∃ adminID hash kept now,
      (⟨a, r⟩ : Answer Response) = ⟨.statement (.changePassword adminID hash kept now), .ok ()⟩ := by
  cases a with
  | statement q =>
      unfold Docket.record Docket.recordStatement at changed
      dsimp only at changed
      split at changed
      case h_6 adminID hash kept now _ => exact .inr ⟨adminID, hash, kept, now, rfl⟩
      all_goals exact .inl changed
  | sync s => cases s <;> exact .inl changed
  | tokenStep s =>
      obtain ⟨_, eq⟩ := recordToken_frame (ks i) s
      rw [Docket.record, eq] at changed
      exact .inl changed
  | newToken text => cases r <;> exact .inl changed
  | _ => exact .inl changed

theorem Changes.since (filed : Filed requests σ ls ks) (sound : Sound P requests σ ls)
    (permitted : (ks i).permits P a)
    (performed : σ.perform P i a c = some (r, σ')) {adminID : GoString} {now : Time}
    (changes : Changes (⟨i, a, c, r⟩ : Event (machine P)) j adminID kept now) :
    Since requests j kept ([⟨i, a, c, r⟩] : List (Event (machine P))) σ'
      (Function.update ks i ((ks i).record a r)) := by
  obtain ⟨hash, c', eq⟩ := changes
  cases eq
  have amend := statement_amend (q := .changePassword adminID hash kept now) performed
  obtain ⟨db', rfl⟩ := statement_state (q := .changePassword adminID hash kept now) performed
  cases amend with
  | secured _ _ _ _ admin db' there own written sessions tokens =>
      exact .change filed sound permitted.2 there own written sessions
  | none _ _ _ leaving same => exact leaving.elim

theorem Superseded.step (h : Superseded requests τ σ ks) (filed : Filed requests σ ls ks)
    (sound : Sound P requests σ ls) (permitted : (ks i).permits P a)
    (performed : σ.perform P i a c = some (r, σ')) :
    Superseded requests (τ ++ [⟨i, a, c, r⟩]) σ' (Function.update ks i ((ks i).record a r)) := by
  constructor
  · intro before e after j adminID kept now split changes
    rcases split_snoc split with ⟨rfl, rfl, rfl⟩ | ⟨rest, rfl, rfl⟩
    · exact Changes.since filed sound permitted performed changes
    · exact (h.since before e rest j adminID kept now rfl changes).step filed permitted performed
  · intro j changed
    have earlier (changed : (ks j).changed = true) : ∃ before e after identity token current new now,
        τ ++ [⟨i, a, c, r⟩] = before ++ e :: after ∧
          requests j = .changePassword identity token current new now ∧
            Changes e j identity.adminID (P.sha256 token) now := by
      obtain ⟨before, e, after, identity, token, current, new, now, rfl, told⟩ := h.changed j changed
      exact ⟨before, e, after ++ [⟨i, a, c, r⟩], identity, token, current, new, now, by simp, told⟩
    by_cases self : j = i
    · subst self
      rw [Function.update_self] at changed
      rcases recorded_change changed with before | ⟨adminID, hash, kept, now, eq⟩
      · exact earlier before
      · cases eq
        obtain ⟨-, -, identity, token, current, new, asked, rfl, rfl⟩ := permitted.2
        rw [filed.made j] at asked
        exact ⟨τ, _, [], identity, token, current, new, now, rfl, asked, hash, c, rfl⟩
    · rw [Function.update_of_ne self] at changed
      exact earlier changed

theorem Superseded.begin : Superseded requests ([] : List (Event (machine P))) σ
    fun j => Docket.begin (requests j) where
  since before e after i adminID kept now split _ := by simp at split
  changed i changed := by cases changed

theorem superseded_kept : Kept P requests (serving P requests False fun _ _ => True)
    fun τ σ ks => Superseded requests τ σ ks where
  call := fun _ sound filed superseded permitted performed _ =>
    superseded.step filed sound permitted performed
  environment := by
    intro τ σ ks σ' superseded moved
    exact ⟨fun before e after i adminID kept now split changes =>
      (superseded.since before e after i adminID kept now split changes).environment moved,
      superseded.changed⟩

/-- What authenticates is in the index. -/
theorem authenticated_entry {plaintext : GoString} {now : Time} {choose : Action → Choice}
    {who : Auth.SessionIdentity}
    (known : (machine P).alone i choose (authenticateSession P plaintext now) σ = some (some who, σ')) :
    σ.sessions.lookup (P.sha256 plaintext) = some who := by
  unfold authenticateSession at known
  split at known
  · cases known
  · have found : Auth.getSession σ.sessions (P.sha256 plaintext) now = some who :=
      congrArg Prod.fst (Option.some.inj known)
    exact (Option.filter_eq_some_iff.mp found).1

/-- After a change of the password that has succeeded, every token that authenticates is the one that
was passed to it, or was made by a login that verified its password against a hash that this change or
a later one had written. -/
theorem password_change (registered : Registered σ) (free : σ.locks = .free)
    {identity : Auth.SessionIdentity} {token current new : GoString} {now : Time}
    (run : Run (serving P requests False fun _ _ => True) (start P requests σ) τ w)
    (later : Run (serving P requests False fun _ _ => True) w τ' w')
    (asked : requests i = .changePassword identity token current new now)
    (done : w.calls i = .done (.passwordChanged (.ok ()))) :
    ∃ before after hash c,
      τ = before ++
        ⟨i, .statement (.changePassword identity.adminID hash (P.sha256 token) now), c, .ok ()⟩ :: after ∧
      ∀ plaintext t j choose who σ'',
        (machine P).alone j choose (authenticateSession P plaintext t) w'.shared = some (some who, σ'') →
        P.sha256 plaintext = P.sha256 token ∨ Fresh requests
          (⟨i, .statement (.changePassword identity.adminID hash (P.sha256 token) now), c, .ok ()⟩ ::
            (after ++ τ')) (P.sha256 plaintext) := by
  -- the change has noted its database step by the time it returns
  obtain ⟨ls₁, ks₁, obeyed₁, -, filed₁, superseded₁⟩ :=
    docketed serving_serves id superseded_kept registered free .begin run
  have finished := obeyed₁ i
  rw [done] at finished
  have told : Docket.tells (ks₁ i) (requests i) (.passwordChanged (.ok ())) := finished.2
  rw [asked] at told
  obtain ⟨before, e, after, identity', token', current', new', now', rfl, asked', changes⟩ :=
    superseded₁.changed i (told rfl)
  rw [asked] at asked'
  cases asked'
  obtain ⟨hash, c, rfl⟩ := changes
  refine ⟨before, after, hash, c, rfl, ?_⟩
  intro plaintext t j choose who σ'' known
  -- since that step only these sessions are left, and the step of the index is done
  obtain ⟨ls, ks, obeyed, -, filed, superseded⟩ :=
    docketed serving_serves id superseded_kept registered free .begin (run.trans later)
  have since := superseded.since before _ (after ++ τ') i identity.adminID
    (P.sha256 token) now (by simp) ⟨hash, c, rfl⟩
  have ended := obeyed i
  rw [later.finished id done] at ended
  rcases since.entries _ _ (authenticated_entry known) with survives | owed
  · exact survives
  · rw [ended.1.session] at owed
    cases owed

/-- A platform on which a password verifies against the text that `encodedPassword` gives. -/
def encodedPassword (password : GoString) : GoString := str "$argon2id$" ++ password

def verifyingPlatform : Platform :=
  { samplePlatform with verifyPassword := fun password hash => some (hash == encodedPassword password) }

def verifiedAdmin : Auth.Admin :=
  { sampleAdmin with passwordHash := encodedPassword (str "first password") }

def verifiedState : State :=
  State.booted (Database.accounts verifiedAdmin [] List.nodup_nil List.nodup_nil)
    ⟨fun _ => ∅, ∅, fun _ => none, ∅⟩ 0

/-- A change of the password, and a login with the new one. -/
def passwordRequests : Nat → Request
  | 0 => .changePassword ⟨str "s", str "a", str "Ada", str "a@b.c", Vector.replicate 32 0, 0⟩
      (str "iss_kept") (str "first password") (str "second password") 0
  | _ => .login (str "a@b.c") (str "second password") 0

theorem password_change_sample : ∃ w : World (machine verifyingPlatform) Result,
    (w.shared.sessions.lookup (verifyingPlatform.sha256 (str "iss_other"))).isSome = true ∧
    ∃ τ : List (Event (machine verifyingPlatform)), ∀ plaintext t j choose who σ,
      (machine verifyingPlatform).alone j choose (authenticateSession verifyingPlatform plaintext t)
        w.shared = some (some who, σ) →
      verifyingPlatform.sha256 plaintext = verifyingPlatform.sha256 (str "iss_kept") ∨
        Fresh passwordRequests τ (verifyingPlatform.sha256 plaintext) := by
  obtain ⟨τ, w, τ', w', run, done, later, entered⟩ : ∃ τ w τ' w',
      Run (serving verifyingPlatform passwordRequests False fun _ _ => True)
        (start verifyingPlatform passwordRequests verifiedState) τ w ∧
      w.calls 0 = .done (.passwordChanged (.ok ())) ∧
      Run (serving verifyingPlatform passwordRequests False fun _ _ => True) w τ' w' ∧
      (w'.shared.sessions.lookup (verifyingPlatform.sha256 (str "iss_other"))).isSome = true := by
    refine ⟨_, _, _, _, .of_execute ([(0, .normal), (0, .normal),
      (0, .name (encodedPassword (str "second password")))] ++ List.replicate 5 (0, .normal))
      (fun _ _ _ _ _ => trivial) rfl, rfl, .of_execute ([(1, .normal), (1, .normal),
      (1, .name (str "iss_other")), (1, .name (str "isc_other")), (1, .name (str "b"))] ++
      List.replicate 5 (1, .normal)) (fun _ _ _ _ _ => trivial) rfl, ?_⟩
    rfl
  have registered : Registered verifiedState := booted_registered _ _ _
  obtain ⟨before, after, hash, c, -, told⟩ := password_change registered rfl run later rfl done
  exact ⟨w', entered, _, told⟩

end ImageSilo.Accounts
