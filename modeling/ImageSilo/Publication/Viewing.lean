import ImageSilo.Concurrent.Traces
import ImageSilo.System.Requests

/-! A request opens files of targets it has looked up, private ones only for a credential that was
accepted. -/
namespace ImageSilo.Publication

open Go Concurrent Storage

/-- What a call has been answered, the last answer first. -/
abbrev History := List (Answer Response)

/-- The request has shown a credential that lets it read private images. -/
def Admitted (P : Platform) (r : ImageRequest) (h : History) : Prop :=
  (∃ cookie now identity, r.sessionCookie = some cookie ∧
    ⟨.getSession (P.sha256 cookie) now, some identity⟩ ∈ h) ∨
  ∃ plaintext now identity, bearerToken r.authorization = some plaintext ∧
    ⟨.getToken (P.sha256 plaintext) now, some identity⟩ ∈ h ∧
    identity.hasScope .imagesReadPrivate = true

/-- The index has shown the target. -/
def Found (h : History) (t : Delivery.Target) : Prop :=
  (∃ id, ⟨.getTarget id, some t⟩ ∈ h) ∨ ∃ path, ⟨.getAlias path, some t⟩ ∈ h

structure View where
  request : ImageRequest
  history : History

variable (P : Platform)

def View.permits (v : View) : Action → Prop
  | .file (.openImage key) => ∃ t, Found v.history t ∧ key = t.storageKey ∧
      (t.visibility = .isPrivate → Admitted P v.request v.history)
  | _ => True

abbrev viewDiscipline : Discipline Action Response where
  Ledger := View
  Permits v a := v.permits P a
  Reports _ _ _ := True
  record v a r := ⟨v.request, ⟨a, r⟩ :: v.history⟩

/-- What is sent as the content of an image is what the call has read from the file of its target. -/
def View.explains (v : View) : Reply → Prop
  | .content t bytes => ⟨.file (.openImage t.storageKey), .ok bytes⟩ ∈ v.history
  | _ => True

abbrev Watches {α : Type} (p : Call α) (v : View) (Q : α → View → Prop) : Prop :=
  p.Obeys (viewDiscipline P) Q v

variable {P} {α : Type} {v : View}

theorem Admitted.later {r : ImageRequest} {h h' : History} (admitted : Admitted P r h)
    (sub : h ⊆ h') : Admitted P r h' := by
  rcases admitted with ⟨cookie, now, s, carries, known⟩ | ⟨plaintext, now, t, carries, known, scope⟩
  · exact .inl ⟨cookie, now, s, carries, sub known⟩
  · exact .inr ⟨plaintext, now, t, carries, sub known, scope⟩

theorem Found.later {t : Delivery.Target} {h h' : History} (found : Found h t) (sub : h ⊆ h') :
    Found h' t := by
  rcases found with ⟨id, known⟩ | ⟨path, known⟩
  · exact .inl ⟨id, sub known⟩
  · exact .inr ⟨path, sub known⟩

/-- The same request with more answers. -/
def View.Extends (v' v : View) : Prop := v'.request = v.request ∧ v.history ⊆ v'.history

theorem View.Extends.refl (v : View) : v.Extends v := ⟨rfl, List.Subset.refl _⟩

theorem View.Extends.trans {v v' v'' : View} (h : v''.Extends v') (h' : v'.Extends v) :
    v''.Extends v := ⟨h.1.trans h'.1, List.Subset.trans h'.2 h.2⟩

theorem View.extends_record (v : View) (a : Action) (r : Response a) :
    View.Extends ⟨v.request, ⟨a, r⟩ :: v.history⟩ v := ⟨rfl, List.subset_cons_self _ _⟩

theorem tokenAccess_watches {authorization : GoString}
    (carries : v.request.authorization = authorization) :
    Watches P (tokenAccess P authorization) v fun access v' => v'.Extends v ∧
      (access = .allowed → Admitted P v'.request v'.history) := by
  unfold tokenAccess
  split
  · exact ⟨.refl v, nofun⟩
  rename_i plaintext bearer
  refine (Program.obeys_bind ..).mpr ⟨trivial, fun now _ => ?_⟩
  unfold authenticateToken
  split
  · exact ⟨v.extends_record .now now, nofun⟩
  refine (Program.obeys_bind ..).mpr ⟨trivial, fun identity _ => ?_⟩
  have extended := (View.extends_record ⟨v.request, ⟨.now, now⟩ :: v.history⟩
    (.getToken (P.sha256 plaintext) now) identity).trans (v.extends_record .now now)
  match identity with
  | none => exact ⟨extended, nofun⟩
  | some identity =>
      refine ⟨extended, fun allowed => ?_⟩
      have scope : identity.hasScope .imagesReadPrivate = true := by
        by_contra absent
        rw [if_neg absent] at allowed
        cases allowed
      exact .inr ⟨plaintext, now, identity, carries ▸ bearer, List.mem_cons_self, scope⟩

theorem authenticateSession_watches {cookie : GoString} {now : Time} :
    Watches P (authenticateSession P cookie now) v fun identity v' => v'.Extends v ∧
      (identity.isSome → ∃ s, ⟨.getSession (P.sha256 cookie) now, some s⟩ ∈ v'.history) := by
  unfold authenticateSession
  split
  · exact ⟨.refl v, nofun⟩
  refine ⟨trivial, fun identity _ => ⟨v.extends_record _ identity, fun known => ?_⟩⟩
  obtain ⟨s, rfl⟩ := Option.isSome_iff_exists.mp known
  exact ⟨s, List.mem_cons_self⟩

theorem privateImageAccess_watches :
    Watches P (privateImageAccess P v.request) v fun access v' => v'.Extends v ∧
      (access = .allowed → Admitted P v'.request v'.history) := by
  unfold privateImageAccess
  split
  · exact tokenAccess_watches rfl
  rename_i cookie carries
  refine (Program.obeys_bind ..).mpr ⟨trivial, fun now _ => ?_⟩
  refine Program.Obeys.bind authenticateSession_watches ?_
  rintro identity v' ⟨extended, known⟩
  have extended := extended.trans (v.extends_record .now now)
  match identity with
  | some _ =>
      obtain ⟨s, member⟩ := known rfl
      exact ⟨extended, fun _ => .inl ⟨cookie, now, s, extended.1 ▸ carries, member⟩⟩
  | none =>
      refine (tokenAccess_watches (congrArg ImageRequest.authorization extended.1)).mono ?_
      rintro access v'' ⟨later, admitted⟩
      exact ⟨later.trans extended, admitted⟩

theorem serveFile_watches {t : Delivery.Target} (found : Found v.history t)
    (access : t.visibility = .isPrivate → Admitted P v.request v.history) :
    Watches P (serveFile t) v fun reply v' => v'.explains reply := by
  unfold serveFile openImage
  split
  · exact trivial
  refine (Program.obeys_bind ..).mpr ⟨⟨t, found, rfl, access⟩, fun opened _ => ?_⟩
  match opened with
  | .error e => exact trivial
  | .ok bytes => exact List.mem_cons_self

theorem serveTarget_watches {t : Delivery.Target} (found : Found v.history t) :
    Watches P (serveTarget P v.request t) v fun reply v' => v'.explains reply := by
  unfold serveTarget
  split
  · refine Program.Obeys.bind privateImageAccess_watches ?_
    rintro access v' ⟨extended, admitted⟩
    match access with
    | .insufficientScope => exact trivial
    | .denied => exact trivial
    | .allowed => exact serveFile_watches (found.later extended.2) fun _ => admitted rfl
  · rename_i shown
    exact serveFile_watches found fun hidden => absurd hidden shown

theorem serveMigration_watches {path : GoString} :
    Watches P (serveMigration path) v fun reply v' => v'.explains reply := by
  unfold serveMigration
  split
  · exact trivial
  refine (Program.obeys_bind ..).mpr ⟨trivial, fun opened _ => ?_⟩
  match opened with
  | none => exact trivial
  | some image => exact trivial

theorem serveAliasUnlocked_watches :
    Watches P (serveAliasUnlocked P v.request) v fun reply v' => v'.explains reply := by
  unfold serveAliasUnlocked
  split
  · exact trivial
  split
  · exact trivial
  rename_i path normal
  refine (Program.obeys_bind ..).mpr ⟨trivial, fun target _ => ?_⟩
  match target with
  | some t =>
      exact serveTarget_watches (v := ⟨v.request, ⟨.getAlias path, some t⟩ :: v.history⟩)
        (.inr ⟨path, List.mem_cons_self⟩)
  | none => exact serveMigration_watches

theorem serve_watches (r : ImageRequest) :
    Watches P (serve P r) ⟨r, []⟩ fun reply v' => v'.explains reply := by
  unfold serve
  split
  · rename_i rawID routed
    unfold serveUnlocked
    split
    · exact trivial
    split
    · exact serveAliasUnlocked_watches (v := ⟨r, []⟩)
    refine (Program.obeys_bind ..).mpr ⟨trivial, fun target _ => ?_⟩
    match target with
    | none => exact trivial
    | some t =>
        exact serveTarget_watches (v := ⟨r, [⟨.getTarget rawID, some t⟩]⟩)
          (.inl ⟨rawID, List.mem_cons_self⟩)
  · exact serveAliasUnlocked_watches (v := ⟨r, []⟩)

end ImageSilo.Publication
