import ImageSilo.Delivery.Spelling
import ImageSilo.Publication.Index

/-! Which spelling of a path resolves, and that stored alias rows never make `Build` fail. -/
namespace ImageSilo.Publication

open Go Concurrent Tables Delivery

variable {P : Platform}

/-- The minimal spelling of an accepted path leads to the same lookup, and on to the same file, exactly
when the path is not a mixture; a mixture is refused. -/
theorem minimal_spelling_resolves {decoded canonical : GoString} (r : ImageRequest)
    (plain : percent ∉ decoded) (accepted : normalizeAliasPath P decoded = .ok canonical)
    (spelled : r.escapedPath = minimalSpelling decoded)
    (aliased : r.imageID.filter P.isCanonicalUUID = none) (clear : rejectURLToken r = false) :
    (normalizeAliasPath P (minimalSpelling decoded) = .ok canonical ↔ Unmixed decoded) ∧
      (r.lookup P = some (.byAlias canonical) ↔ Unmixed decoded) ∧
      pathUnescape canonical = some decoded := by
  have resolves : normalizeAliasPath P (minimalSpelling decoded) = .ok canonical ↔
      Unmixed decoded := by
    refine ⟨?_, resolves_unmixed plain accepted⟩
    intro resolved
    by_contra mixed
    obtain ⟨e, refused⟩ := refuses_mixed plain accepted mixed
    rw [resolved] at refused
    cases refused
  refine ⟨resolves, ?_, unescape_canonical accepted (pathUnescape_self plain)⟩
  rw [← resolves]
  unfold ImageRequest.lookup
  rw [clear, aliased, spelled]
  cases normalizeAliasPath P (minimalSpelling decoded) with
  | error e => simp
  | ok path => simp

/-- An unmixed path with a blank in it. -/
theorem blank_resolves :
    normalizeAliasPath samplePlatform (minimalSpelling (str "/a b")) = .ok (str "/a%20b") :=
  (@minimal_spelling_resolves samplePlatform (str "/a b") _
    ⟨none, str "/a%20b", [], none, []⟩ (by decide) (by decide +kernel) (by decide) rfl
    rfl).1.mpr (.inr (by decide +kernel))

/-- A blank and an exclamation mark: the spelling that clients send is refused. -/
theorem mixed_path_is_refused : ¬ ∀ (P : Platform) (decoded canonical : GoString),
    percent ∉ decoded → normalizeAliasPath P decoded = .ok canonical →
    (minimalSpelling decoded).length ≤ maxAliasPathBytes →
    normalizeAliasPath P (minimalSpelling decoded) = .ok canonical := by
  intro claim
  have refused : normalizeAliasPath samplePlatform (minimalSpelling (str "/a b!")) =
      .error .invalidAliasPath := by decide +kernel
  have resolved := claim samplePlatform (str "/a b!") (str "/a%20b%21") (by decide)
    (by decide +kernel) (by decide)
  rw [refused] at resolved
  cases resolved

section Table

variable {requests : Nat → Request} {σ σ' : State} {ls : Nat → Ledger} {i : Nat} {a : Action}
  {c : Choice} {r : Response a}

/-- Every path in the alias table is a canonical one. -/
def Canonical (P : Platform) (db : Database) : Prop :=
  ∀ m ∈ db.aliases, normalizeAliasPath P m.path = .ok m.path

theorem Canonical.step (h : Canonical P σ.database) (permitted : (ls i).permits P a)
    (performed : σ.perform P i a c = some (r, σ')) : Canonical P σ'.database := by
  cases a with
  | statement q =>
      have permitted := permitted.2
      have change := statement_change performed
      generalize σ'.database = db' at change
      cases change with
      | created v db' stored =>
          unfold Canonical
          rw [(insertImage_some stored).2.1]
          exact h
      | imported v m db₁ db₂ stored mapped =>
          unfold Canonical
          rw [(insertAlias_some mapped).2.1, (insertImage_some stored).2.1]
          intro m' member
          rcases List.mem_append.mp member with old | new
          · exact h m' old
          · obtain rfl := List.mem_singleton.mp new
            exact permitted.2.2.2.2.2.2.2.2
      | erased id row found => exact fun m member => h m (List.mem_of_mem_filter member)
      | erasedUnseen id row found => exact fun m member => h m (List.mem_of_mem_filter member)
      | shown id visibility row db' found replaced =>
          unfold Canonical
          rw [(replaceImage_some replaced).2]
          exact h
      | replaced v row db' found replaced =>
          unfold Canonical
          rw [(replaceImage_some replaced).2]
          exact h
      | aliased m db' present mapped =>
          unfold Canonical
          rw [(insertAlias_some mapped).2.1]
          intro m' member
          rcases List.mem_append.mp member with old | new
          · exact h m' old
          · obtain rfl := List.mem_singleton.mp new
            exact permitted.2.2.2.2
      | unaliased id row found => exact fun m member => h m (List.mem_of_mem_filter member)
      | unaliasedUnseen id row found => exact fun m member => h m (List.mem_of_mem_filter member)
      | none q r db' reading images aliases =>
          unfold Canonical
          rw [aliases]
          exact h
  | _ =>
      rw [(perform_frame performed).database (by simp)]
      exact h

theorem canonical_keeps : (watch P requests).Keeps (anything P requests)
    fun _ σ ls => Sound P requests σ ls ∧ Canonical P σ.database := by
  refine keeps serving_serves (fun _ σ _ => Canonical P σ.database) ?_ ?_ ?_
  · exact fun _ h permitted performed _ _ => h.step permitted performed
  · rintro τ σ ls σ' - h ⟨t, -, rfl⟩
    exact h
  · rintro - τ σ ls σ' - h ⟨t, -, rfl⟩
    exact h

/-- Results are accepted as they stand, spellings agree exactly when they decode alike, and over a
table that creations and imports have filled `Build` never fails on an alias. -/
theorem stored_aliases_load {w : World (machine P) Result} {τ : List (Event (machine P))}
    (registered : Registered σ) (free : σ.locks = .free) (empty : σ.database.aliases = [])
    (run : Run (anything P requests) (start P requests σ) τ w) :
    (∀ raw canonical, normalizeAliasPath P raw = .ok canonical →
      normalizeAliasPath P canonical = .ok canonical) ∧
    (∀ raw raw' canonical canonical', normalizeAliasPath P raw = .ok canonical →
      normalizeAliasPath P raw' = .ok canonical' →
        (canonical = canonical' ↔ pathUnescape raw = pathUnescape raw')) ∧
    ∀ e, w.shared.built P = .error e →
      e ≠ .invalidAlias ∧ e ≠ .aliasNotCanonical ∧ e ≠ .duplicateAlias := by
  refine ⟨fun _ _ => normalizeAliasPath_idempotent, fun _ _ _ _ => canonical_unique, ?_⟩
  intro e failed
  obtain ⟨ls, -, -, canonical⟩ := followed canonical_keeps registered free
    (by unfold Canonical; simp [empty]) run
  obtain ⟨rfl, -⟩ := built_error (fun m member _ => canonical m member) failed
  exact ⟨by simp, by simp, by simp⟩

/-- One alias is created for the sample image. -/
theorem created_alias_loads : ∃ w : World (machine samplePlatform) Result,
    w.shared.database.aliases.map Alias.path = [str "/x"] ∧
      ∀ e, w.shared.built samplePlatform = .error e →
        e ≠ .invalidAlias ∧ e ≠ .aliasNotCanonical ∧ e ≠ .duplicateAlias := by
  have run := scheduled samplePlatform (fun _ => .createAlias (str "/x") (str "a") (str "me") 0)
    (sampleState Processor.pngSignature (str "image/png") .isPublic (by decide))
    [(0, .name (str "b")), (0, .normal), (0, .normal), (0, .normal), (0, .normal), (0, .normal),
      (0, .normal), (0, .normal), (0, .normal)] rfl
  exact ⟨_, rfl, (stored_aliases_load sample_begins.registered sample_begins.free rfl run).2.2⟩

end Table

end ImageSilo.Publication
