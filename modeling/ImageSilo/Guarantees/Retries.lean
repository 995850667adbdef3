import ImageSilo.Accounts.Withdrawals
import ImageSilo.Guarantees.Revocation
import ImageSilo.Publication.Withdrawals

/-! Once a deletion or a revocation has returned success or the not-found error, its object is served no
more. -/
namespace ImageSilo.Accounts

open Go Concurrent Tables Publication

variable {P : Platform} {requests : Nat → Request} {σ σ' : State} {ls : Nat → Ledger}
  {ks : Nat → Docket} {i j : Nat} {a : Action} {c : Choice} {r : Response a}
  {τ τ' : List (Event (machine P))} {t₀ : Time} {w w' : World (machine P) Result}

/-- What is deleted or revoked. -/
inductive Subject
  | image (id : GoString)
  | mapping (m : Alias)
  | token (row : ApiToken.Row)

namespace Subject

def id : Subject → GoString
  | image id => id
  | mapping m => m.id
  | token row => row.token.id

/-- The object has its row. -/
def There (σ : State) : Subject → Prop
  | image id => ∃ v ∈ σ.database.images, v.id = id
  | mapping m => m ∈ σ.database.aliases
  | token row => row ∈ σ.database.tokens

def withdrawal : Subject → Request
  | image id => .deleteImage id
  | mapping m => .deleteAlias m.id
  | token row => .revokeToken row.token.id

/-- Success, or the not-found error. -/
def Ended : Subject → Result → Prop
  | image _, .imageDeleted r => (∃ v, r = .ok v) ∨ r = .error .imageNotFound
  | mapping _, .aliasDeleted r => r = .ok () ∨ r = .error .aliasNotFound
  | token _, .tokenRevoked r => r = .ok () ∨ r = .error .tokenNotFound
  | _, _ => False

/-- The path has been given to an alias in these events. -/
def Given (path : GoString) (τ : List (Event (machine P))) : Prop :=
  ∃ e ∈ τ, Assigns e.action e.response path

/-- The index has no entry for the object. A path may have been given to another alias since. -/
def Unserved (τ : List (Event (machine P))) (σ : State) : Subject → Prop
  | image id => σ.index.get id = none
  | mapping m => σ.index.getAlias m.path = none ∨ Given m.path τ
  | token row => Rejected P σ row.hash

/-- The alias is not missed while another call has deleted its row, or the image that its path leads to,
and has the step of the index still before it. -/
def Awaited : Subject → World (machine P) Result → Event (machine P) → Prop
  | mapping m, w, e => Misses e.action e.response m.id → ∀ j next,
      w.calls j ≠ .act (.index (.removeAlias m.path)) next ∧
        ∀ id, w.shared.index.aliases.lookup m.path = some id →
          w.calls j ≠ .act (.index (.removeImage id)) next
  | _, _, _ => True

end Subject

/-- A statement that is interrupted has changed nothing. -/
def Reported (w : World (machine P) Result) (e : Event (machine P)) : Prop :=
  ∀ q, e.action = .statement q → e.choice = .interrupted →
    (w.shared.database.execute q).2 = w.shared.database

variable (P requests) in
/-- Calls without crashes, in which deletions and revocations report what they did. -/
def reporting (subject : Subject) : Setting (machine P) Result :=
  serving P requests False fun w e => Reported w e ∧ subject.Awaited w e

/-- An interrupted statement that has changed nothing is one that has failed. -/
theorem Reported.plain (reported : Reported w (⟨i, a, c, r⟩ : Event (machine P)))
    (performed : State.perform P w.shared i a c = some (r, σ')) :
    ∃ c', State.perform P w.shared i a c' = some (r, σ') ∧ ∀ q, a = .statement q → c' ≠ .interrupted := by
  cases a with
  | statement q =>
      by_cases broken : c = .interrupted
      · subst broken
        have same := reported q rfl rfl
        refine ⟨.fault, ?_, by simp⟩
        change State.statement w.shared q .interrupted = _ at performed
        change State.statement w.shared q .fault = _
        unfold State.statement at performed ⊢
        dsimp only at performed ⊢
        split at performed
        · rw [← performed, same]
        · cases performed
      · exact ⟨c, performed, fun _ _ => broken⟩
  | _ => exact ⟨c, performed, by simp⟩

/-- A call none of whose steps is in the trace is as it has started. -/
def Unbegun {L : Type} (start : Nat → L) (τ : List (Event (machine P))) (ls : Nat → L) : Prop :=
  ∀ j, (∀ e ∈ τ, e.call ≠ j) → ls j = start j

theorem Unbegun.step {L : Type} {start : Nat → L} {ls : Nat → L} {l : L} {e : Event (machine P)}
    (h : Unbegun start τ ls) : Unbegun start (τ ++ [e]) (Function.update ls e.call l) := by
  intro j absent
  have other : j ≠ e.call := by
    rintro rfl
    exact absent e (List.mem_append_right _ (List.mem_singleton_self e)) rfl
  rw [Function.update_of_ne other]
  exact h j fun e' member => absent e' (List.mem_append_left _ member)

section Published

variable {subject : Subject}

/-- The rule for an invariant next to the agreement of index and tables. -/
theorem reporting_keeps (noDaily : ∀ i age, requests i ≠ .daily age)
    (noConversion : ∀ i id options, requests i ≠ .convertToWebP id options)
    {Extra : (watch P requests).Invariant}
    (call : ∀ {τ w ls i a c r σ'}, (watch P requests).Obeyed w ls → Sound P requests w.shared ls →
      Agreement P w.shared ls → Identities w.shared ls → Extra τ w.shared ls → (ls i).permits P a →
      State.perform P w.shared i a c = some (r, σ') → subject.Awaited w ⟨i, a, c, r⟩ →
      Extra (τ ++ [⟨i, a, c, r⟩]) σ' (Function.update ls i ((ls i).record P a r)))
    (environment : ∀ {τ σ ls σ'}, Extra τ σ ls → σ.environment σ' → Extra τ σ' ls) :
    (watch P requests).Keeps (reporting P requests subject) fun τ σ ls =>
      Sound P requests σ ls ∧ Agreement P σ ls ∧ Identities σ ls ∧ Extra τ σ ls where
  call := by
    rintro τ w ls i a next c r σ' obeyed ⟨sound, agreement, identities, extra⟩ - permitted performed
      ⟨reported, awaited⟩
    obtain ⟨c', performed', plain⟩ := reported.plain performed
    have mends : Mends w.shared a r := by
      unfold Mends
      split
      · obtain ⟨-, -, -, -, ⟨-, -, -, -, options, asked⟩, -⟩ := permitted
        rw [sound.made i] at asked
        exact absurd asked (noConversion i _ options)
      · trivial
    exact ⟨sound.reports permitted performed, sound.step permitted performed,
      agreement.step sound permitted performed' (.of_request sound (noDaily i)) plain mends,
      identities.step sound permitted performed,
      call obeyed sound agreement identities extra permitted performed awaited⟩
  environment := by
    rintro τ σ ls σ' ⟨sound, agreement, identities, extra⟩ moved
    refine ⟨sound.environment moved, agreement.environment moved, ?_, environment extra moved⟩
    obtain ⟨t, -, rfl⟩ := moved
    exact ⟨identities.unborn, identities.removed, identities.looked⟩
  crash := fun crashed => crashed.elim

/-- What is known of the calls when the object has its row. -/
theorem reporting_begun (begins : Begins P σ) (noDaily : ∀ i age, requests i ≠ .daily age)
    (noConversion : ∀ i id options, requests i ≠ .convertToWebP id options)
    (run : Run (reporting P requests subject) (start P requests σ) τ w) :
    (watch P requests).Held (fun τ σ ls => Sound P requests σ ls ∧ Agreement P σ ls ∧
      Identities σ ls ∧ Unbegun (fun j => Ledger.begin (requests j)) τ ls) τ w := by
  refine run.held (reporting_keeps noDaily noConversion ?_ ?_) ⟨_, fun i => request_obeys (requests i),
    .begin begins.registered begins.free, .begin begins.indexed, .begin, fun _ _ => rfl⟩
  · intro τ w ls i a c r σ' _ _ _ _ unbegun _ _ _
    exact unbegun.step
  · exact fun unbegun _ => unbegun

theorem image_unserved {id : GoString} (begins : Begins P σ)
    (noDaily : ∀ i age, requests i ≠ .daily age)
    (noConversion : ∀ i id options, requests i ≠ .convertToWebP id options)
    (run : Run (reporting P requests subject) (start P requests σ) τ w)
    (later : Run (reporting P requests subject) w τ' w')
    (there : ∃ v ∈ w.shared.database.images, v.id = id) (unbegun : ∀ e ∈ τ, e.call ≠ i)
    (canonical : P.isCanonicalUUID id = true) (asked : requests i = .deleteImage id)
    {answer : Except Error DeleteResult} (done : w'.calls i = .done (.imageDeleted answer))
    (told : (∃ v, answer = .ok v) ∨ answer = .error .imageNotFound) :
    w'.shared.index.get id = none := by
  obtain ⟨ls, obeyed, sound, agreement, identities, fresh⟩ :=
    reporting_begun begins noDaily noConversion run
  obtain ⟨v, member, rfl⟩ := there
  have ended : Ended i v.id w.shared ls :=
    .begin identities sound member (by rw [fresh i unbegun]; rfl)
  have keeps : (watch P requests).Keeps (reporting P requests subject) fun _ σ ls =>
      Sound P requests σ ls ∧ Agreement P σ ls ∧ Identities σ ls ∧ Ended i v.id σ ls := by
    refine reporting_keeps noDaily noConversion ?_ ?_
    · intro τ w ls i a c r σ' _ sound agreement identities ended permitted performed _
      exact ended.step identities agreement sound permitted performed
    · rintro τ σ ls σ' ended ⟨t, -, rfl⟩
      exact ⟨ended.spent, ended.unborn, ended.erased⟩
  obtain ⟨ls', obeyed', -, agreement', -, ended'⟩ :=
    later.held keeps ⟨ls, obeyed, sound, agreement, identities, ended⟩
  have finished := obeyed' i
  rw [done] at finished
  have tells := Finished.told finished
  rw [asked] at tells
  exact ended'.missing agreement' (tells told canonical)

theorem mapping_unserved {m : Alias} (begins : Begins P σ)
    (noDaily : ∀ i age, requests i ≠ .daily age)
    (noConversion : ∀ i id options, requests i ≠ .convertToWebP id options)
    (run : Run (reporting P requests (.mapping m)) (start P requests σ) τ w)
    (later : Run (reporting P requests (.mapping m)) w τ' w')
    (there : m ∈ w.shared.database.aliases) (unbegun : ∀ e ∈ τ, e.call ≠ i)
    (canonical : P.isCanonicalUUID m.id = true) (asked : requests i = .deleteAlias m.id)
    {answer : Except Error Unit} (done : w'.calls i = .done (.aliasDeleted answer))
    (told : answer = .ok () ∨ answer = .error .aliasNotFound) :
    w'.shared.index.getAlias m.path = none ∨ Subject.Given m.path τ' := by
  obtain ⟨ls, obeyed, sound, agreement, identities, fresh⟩ :=
    reporting_begun begins noDaily noConversion run
  have unlinked : Unlinked i m w.shared ls :=
    .begin sound there (by rw [fresh i unbegun]; rfl) (by rw [fresh i unbegun]; rfl)
  have keeps : (watch P requests).Keeps (reporting P requests (.mapping m)) fun τ σ ls =>
      Sound P requests σ ls ∧ Agreement P σ ls ∧ Identities σ ls ∧
        (Subject.Given m.path τ ∨ Unlinked i m σ ls) := by
    refine reporting_keeps noDaily noConversion ?_ ?_
    · intro τ w ls k a c r σ' obeyed sound agreement identities inv permitted performed awaited
      rcases inv with ⟨e, member, given⟩ | unlinked
      · exact .inl ⟨e, List.mem_append_left _ member, given⟩
      by_cases assigned : Assigns a r m.path
      · exact .inl ⟨_, List.mem_append_right _ (List.mem_singleton_self _), assigned⟩
      refine .inr (unlinked.step identities agreement sound permitted performed assigned ?_)
      intro misses k' withdrawing
      obtain ⟨next, before⟩ := withdrawing.before (agreement.orderly k') obeyed
      rcases before with program | ⟨id, leads, program⟩
      · exact (awaited misses k' next).1 program
      · exact (awaited misses k' next).2 id leads program
    · rintro τ σ ls σ' inv ⟨t, -, rfl⟩
      exact inv.imp_right fun unlinked =>
        ⟨unlinked.spent, unlinked.sole, unlinked.mapping, unlinked.gone⟩
  obtain ⟨ls', obeyed', -, -, -, inv⟩ :=
    later.held keeps ⟨ls, obeyed, sound, agreement, identities, .inr unlinked⟩
  have finished := obeyed' i
  rw [done] at finished
  have tells := Finished.told finished
  rw [asked] at tells
  rcases inv with given | unlinked'
  · exact .inr given
  · refine .inl ?_
    change (w'.shared.index.aliases.lookup m.path).bind _ = none
    rw [(unlinked'.gone (tells told canonical)).2]
    rfl

end Published

section Revoked

variable {subject : Subject}

theorem Tokens.reported (h : Tokens t₀ τ w.shared ks) (filed : Filed requests w.shared ls ks)
    (sound : Sound P requests w.shared ls) (permitted : (ks i).permits P a)
    (reported : Reported w (⟨i, a, c, r⟩ : Event (machine P)))
    (performed : State.perform P w.shared i a c = some (r, σ')) :
    Tokens t₀ (τ ++ [⟨i, a, c, r⟩]) σ' (Function.update ks i ((ks i).record a r)) := by
  obtain ⟨c', performed', plain⟩ := reported.plain performed
  have stepped := h.step filed sound permitted (by rintro ⟨q, rfl⟩; exact plain q rfl) performed'
  exact stepped.retimed rfl

theorem revocations_kept : Kept P requests (reporting P requests subject) fun τ σ ks =>
    Tokens t₀ τ σ ks ∧ Unbegun (fun j => Docket.begin (requests j)) τ ks where
  call := by
    rintro τ w ls ks i a c r σ' _ sound filed ⟨tokens, unbegun⟩ permitted performed ⟨reported, -⟩
    exact ⟨tokens.reported filed sound permitted reported performed, unbegun.step⟩
  environment := fun inv moved => ⟨inv.1.environment moved, inv.2⟩

theorem barred_kept {row : ApiToken.Row} : Kept P requests (reporting P requests subject)
    fun τ' σ ks => Tokens t₀ (τ ++ τ') σ ks ∧ Barred i row σ ks where
  call := by
    rintro τ' w ls ks j a c r σ' _ sound filed ⟨tokens, barred⟩ permitted performed ⟨reported, -⟩
    refine ⟨?_, barred.step filed permitted performed⟩
    rw [← List.append_assoc]
    exact tokens.reported filed sound permitted reported performed
  environment := by
    rintro τ' σ ks σ' ⟨tokens, barred⟩ moved
    refine ⟨tokens.environment moved, ?_⟩
    obtain ⟨t, -, rfl⟩ := moved
    exact ⟨barred.there, barred.missed⟩

theorem token_unserved {row : ApiToken.Row} (registered : Registered σ) (free : σ.locks = .free)
    (loaded : Lists σ.database (fun row => Database.tokenUnexpired t₀ row = true) σ.tokens)
    (run : Run (reporting P requests subject) (start P requests σ) τ w)
    (later : Run (reporting P requests subject) w τ' w')
    (there : row ∈ w.shared.database.tokens) (unbegun : ∀ e ∈ τ, e.call ≠ i)
    (asked : requests i = .revokeToken row.token.id) {answer : Except Error Unit}
    (done : w'.calls i = .done (.tokenRevoked answer))
    (told : answer = .ok () ∨ answer = .error .tokenNotFound) :
    Rejected P w'.shared row.hash := by
  have sound : (watch P requests).Keeps (reporting P requests subject)
      fun _ σ ls => Sound P requests σ ls ∧ True :=
    keeps serving_serves (fun _ _ _ => True) (fun _ _ _ _ _ _ => trivial) (fun _ _ _ => trivial)
      fun crashes => crashes.elim
  have kept : Kept P requests (reporting P requests subject) fun τ σ ks =>
      Tokens t₀ τ σ ks ∧ Unbegun (fun j => Docket.begin (requests j)) τ ks := revocations_kept
  have kept' : Kept P requests (reporting P requests subject) fun τ' σ ks =>
      Tokens t₀ (τ ++ τ') σ ks ∧ Barred i row σ ks := barred_kept
  obtain ⟨ls, ks, obeyed, obeyed', sound₁, filed, tokens, fresh⟩ := run.held_beside sound
    (kept.beside id) ⟨_, _, fun i => request_obeys (requests i),
      fun i => docket_obeys (requests i), ⟨.begin registered free, trivial⟩, .begin free,
      .begin loaded, fun _ _ => rfl⟩
  have barred : Barred i row w.shared ks := .begin there (by rw [fresh i unbegun]; rfl)
  obtain ⟨-, ks', -, obeyed'', -, -, tokens', barred'⟩ := later.held_beside sound
    (kept'.beside id) ⟨ls, ks, obeyed, obeyed', sound₁, filed, by rwa [List.append_nil], barred⟩
  have finished := obeyed'' i
  rw [done] at finished
  have tells : Docket.tells (ks' i) (requests i) (.tokenRevoked answer) := finished.2
  rw [asked] at tells
  refine rejected_of_absent ?_
  rcases told with success | missing
  · obtain ⟨known, member, own, -, absent⟩ := tokens'.gone i _ (tells.1 success)
    obtain ⟨known', member', own', hash⟩ := barred'.there
    obtain rfl := w'.shared.database.tokenIDs.eq member member' (own.trans own'.symm)
    rwa [← hash]
  · exact barred'.absent tokens' (tells.2 missing)

end Revoked

/-- Once a deletion or a revocation of an object that had its row has returned success or the not-found
error, the object is served no more, whatever other calls do. -/
theorem retries_safe (begins : Begins P σ)
    (loaded : Lists σ.database (fun row => Database.tokenUnexpired t₀ row = true) σ.tokens)
    (noDaily : ∀ i age, requests i ≠ .daily age)
    (noConversion : ∀ i id options, requests i ≠ .convertToWebP id options) {subject : Subject}
    (run : Run (reporting P requests subject) (start P requests σ) τ w)
    (later : Run (reporting P requests subject) w τ' w') (there : subject.There w.shared)
    (unbegun : ∀ e ∈ τ, e.call ≠ i) (canonical : P.isCanonicalUUID subject.id = true)
    (asked : requests i = subject.withdrawal) {result : Result} (done : w'.calls i = .done result)
    (ended : subject.Ended result) : subject.Unserved τ' w'.shared := by
  cases subject with
  | image id =>
      cases result with
      | imageDeleted answer =>
          exact image_unserved begins noDaily noConversion run later there unbegun canonical asked done
            ended
      | _ => exact ended.elim
  | mapping m =>
      cases result with
      | aliasDeleted answer =>
          exact mapping_unserved begins noDaily noConversion run later there unbegun canonical asked
            done ended
      | _ => exact ended.elim
  | token row =>
      cases result with
      | tokenRevoked answer =>
          exact token_unserved begins.registered begins.free loaded run later there unbegun asked done
            ended
      | _ => exact ended.elim

/-- Two revocations of the same token. -/
def sampleRevocation : Request := .revokeToken (str "a")

theorem tokenState_begins : Begins samplePlatform tokenState :=
  ⟨tokenState_registered, rfl, _, rfl, rfl⟩

theorem retries_safe_sample : ∃ w : World (machine samplePlatform) Result,
    w.calls 1 = .done (.tokenRevoked (.error .tokenNotFound)) ∧
      (Subject.token (sampleToken (str "ist_x"))).Unserved ([] : List (Event (machine samplePlatform)))
        w.shared := by
  obtain ⟨τ, w, run, done⟩ : ∃ τ w,
      Run (reporting samplePlatform (fun _ => sampleRevocation) (.token (sampleToken (str "ist_x"))))
        (start samplePlatform (fun _ => sampleRevocation) tokenState) τ w ∧
      w.calls 1 = .done (.tokenRevoked (.error .tokenNotFound)) := by
    refine ⟨_, _, .of_execute (List.replicate 6 (0, .normal) ++ List.replicate 5 (1, .normal)) ?_ rfl,
      rfl⟩
    intro w w' e member _
    refine ⟨?_, trivial⟩
    intro q _ interrupted
    rw [interrupted] at member
    simp at member
  have unserved := retries_safe (i := 1) tokenState_begins tokenState_loaded
    (by simp [sampleRevocation]) (by simp [sampleRevocation]) .refl run (List.mem_singleton_self _)
    (by simp) rfl rfl done (.inr rfl)
  exact ⟨w, done, unserved⟩

/-- A rejected plaintext is not found. -/
theorem Rejected.notFound {plaintext : GoString} (rejected : Rejected P σ (P.sha256 plaintext))
    (marked : hasPrefix plaintext (str "ist_") = true) (now : Time) :
    ApiToken.getToken σ.tokens (P.sha256 plaintext) now = none := by
  have answered := rejected plaintext now 0 (fun _ => .normal) rfl
  unfold authenticateToken at answered
  rw [if_neg (by simp [marked])] at answered
  exact congrArg Prod.fst (Option.some.inj answered)

/-- A revocation that is interrupted after it has taken effect leaves the token in the index, and the
next one does not find it any more. -/
theorem interrupted_revocation : ¬ ∀ (P : Platform) (requests : Nat → Request) (σ : State) (t₀ : Time)
    (subject : Subject) (τ τ' : List (Event (machine P))) (w w' : World (machine P) Result) (i : Nat)
    (result : Result), Begins P σ →
    Lists σ.database (fun row => Database.tokenUnexpired t₀ row = true) σ.tokens →
    (∀ i age, requests i ≠ .daily age) → (∀ i id options, requests i ≠ .convertToWebP id options) →
    Run (serving P requests False fun _ _ => True) (start P requests σ) τ w →
    Run (serving P requests False fun _ _ => True) w τ' w' → subject.There w.shared →
    (∀ e ∈ τ, e.call ≠ i) → P.isCanonicalUUID subject.id = true → requests i = subject.withdrawal →
    w'.calls i = .done result → subject.Ended result → subject.Unserved τ' w'.shared := by
  intro claim
  obtain ⟨τ, w, run, done, served⟩ : ∃ τ w,
      Run (serving samplePlatform (fun _ => sampleRevocation) False fun _ _ => True)
        (start samplePlatform (fun _ => sampleRevocation) tokenState) τ w ∧
      w.calls 1 = .done (.tokenRevoked (.error .tokenNotFound)) ∧
      (ApiToken.getToken w.shared.tokens (samplePlatform.sha256 (str "ist_x")) 0).isSome = true := by
    refine ⟨_, _, .of_execute ([(0, .normal), (0, .normal), (0, .interrupted), (0, .normal),
      (0, .normal)] ++ List.replicate 5 (1, .normal)) (fun _ _ _ _ _ => trivial) rfl, rfl, rfl⟩
  have unserved := claim samplePlatform _ tokenState 0 (.token (sampleToken (str "ist_x"))) [] τ _ w 1
    _ tokenState_begins tokenState_loaded (by simp [sampleRevocation]) (by simp [sampleRevocation])
    .refl run (List.mem_singleton_self _) (by simp) rfl rfl done (.inr rfl)
  rw [Rejected.notFound unserved rfl 0] at served
  cases served

end ImageSilo.Accounts
