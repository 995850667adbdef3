import ImageSilo.HttpApi.Router
import ImageSilo.System.Boot
import Mathlib.Data.List.Lex
import Mathlib.Data.List.MinMax

/-! A path that `normalizeAliasPath` returns is not reserved, and every route of another handler is under
a path that is. -/
namespace ImageSilo

open Go Delivery Concurrent

variable {P : Platform} {find : List Route → Method → GoString → Option (Handler × List GoString)}

/-- A request that reaches the lookup of an alias path. -/
def Queries (P : Platform) (r : ImageRequest) (path : GoString) : Prop :=
  serve P r = do
    let target : Option Delivery.Target ← request (.getAlias path)
    match target with
    | some target => serveTarget P r target
    | none => serveMigration path

theorem queries_alias {r : ImageRequest} {path : GoString}
    (aliased : r.imageID.all fun id => !P.isCanonicalUUID id) (clear : rejectURLToken r = false)
    (accepted : normalizeAliasPath P r.escapedPath = .ok path) : Queries P r path := by
  have unlocked : serve P r = serveAliasUnlocked P r := by
    unfold serve
    cases given : r.imageID with
    | none => rfl
    | some rawID =>
        have refused : (!P.isCanonicalUUID rawID) = true := by simpa [given] using aliased
        simp only [serveUnlocked, clear, refused, Bool.false_eq_true, if_false, if_true]
  rw [Queries, unlocked]
  unfold serveAliasUnlocked
  rw [if_neg (by simp [clear])]
  split
  · rename_i e refused
    rw [accepted] at refused
    cases refused
  · rename_i found taken
    rw [accepted] at taken
    cases taken
    rfl

/-- An accepted path is the target of a request as it stands: its raw form is the default encoding. -/
theorem parseTarget_accepted {raw path : GoString}
    (accepted : normalizeAliasPath P raw = .ok path) :
    ∃ rest, parseTarget path = some ⟨slash :: rest, []⟩ ∧ path = escapedPath (slash :: rest) ∧
      isReservedAliasPath P (escapedPath (slash :: rest)) = false := by
  obtain ⟨rawAccepted, decoded, unescaped, -, rfl, -, unreserved⟩ := normalizeAliasPath_ok accepted
  obtain ⟨rest, rfl⟩ := decoded_slash rawAccepted unescaped
  refine ⟨rest, ?_, rfl, unreserved⟩
  rw [parseTarget, pathUnescape_escapedPath, Option.map_some, if_pos rfl]

theorem matched_image {d : GoString} {values : List GoString}
    (matched : matchSegments [.static [], .static (str "image"), .param] (split slash d) =
      some values) :
    ∃ id, values = [id] ∧ d = str "/image/" ++ id := by
  have joined := join_split d
  generalize split slash d = segments at matched joined
  obtain ⟨tail, rfl, -⟩ := matchSegments_static (by rw [matched]; rfl)
  rw [matchSegments, if_pos rfl] at matched
  obtain ⟨tail', rfl, -⟩ := matchSegments_static (by rw [matched]; rfl)
  rw [matchSegments, if_pos rfl] at matched
  cases tail' with
  | nil => simp [matchSegments] at matched
  | cons id others =>
      cases others with
      | nil =>
          rw [matchSegments] at matched
          split at matched
          · cases matched
          · refine ⟨id, by simpa [matchSegments, eq_comm] using matched, ?_⟩
            rw [← joined]
            rfl
      | cons s t => simp [matchSegments] at matched

/-- The parameter of the image route is no UUID when the path is not reserved. -/
theorem unreserved_image {id : GoString}
    (unreserved : reservedDecoded P (str "/image/" ++ id) = false) :
    P.isCanonicalUUID id = false := by
  have front : hasPrefix (str "/image/" ++ id) (str "/image/") = true :=
    List.isPrefixOf_iff_prefix.mpr (List.prefix_append _ _)
  have rest : trimPrefix (str "/image/" ++ id) (str "/image/") = id := by
    rw [trimPrefix, if_pos front, List.drop_left]
  rw [reservedDecoded_eq, rest] at unreserved
  simp only [front, Bool.true_and, Bool.or_eq_false_iff] at unreserved
  have unparsed : P.parseUUID id = none := by simpa using unreserved.2
  rw [Platform.isCanonicalUUID, unparsed]
  rfl

/-- The routes that an unreserved path can match. -/
theorem unreserved_route {route : Route} {method : Method} {d : GoString} {values : List GoString}
    (listed : route ∈ routes) (matched : route.matches method d = some values)
    (unreserved : reservedDecoded P d = false) :
    (route.handler = .serveAlias ∧ values = []) ∨
      (route.handler = .serve ∧ ∃ id, values = [id] ∧ P.isCanonicalUUID id = false) := by
  have matched : matchSegments route.pattern (split slash d) = some values := by
    unfold Route.matches at matched
    split at matched
    · exact matched
    · cases matched
  rcases routes_guarded route listed with guarded | ⟨handler, pattern⟩ | ⟨handler, pattern⟩
  · rw [guarded_reserved P guarded (by rw [matched]; rfl)] at unreserved
    cases unreserved
  · rw [pattern] at matched
    obtain ⟨id, rfl, rfl⟩ := matched_image matched
    exact .inr ⟨handler, id, rfl, unreserved_image unreserved⟩
  · refine .inl ⟨handler, ?_⟩
    rw [pattern] at matched
    obtain ⟨tail, segments, -⟩ := matchSegments_static (by rw [matched]; rfl)
    rw [segments, matchSegments, if_pos rfl] at matched
    cases tail with
    | nil => simp [matchSegments] at matched
    | cons s t => simpa [matchSegments, eq_comm] using matched

theorem routed_somewhere (chi : Chi find) {method : Method} (reading : method = .get ∨ method = .head)
    (rest : GoString) : (find routes method (slash :: rest)).isSome := by
  have catchAll : (matchSegments (pattern "/*") (split slash (slash :: rest))).isSome := by
    rw [split_slash]
    cases segments : split slash rest with
    | nil => exact absurd segments (split_ne_nil rest)
    | cons s t => rfl
  refine chi.finds ⟨⟨[method], pattern "/*", .serveAlias⟩, ?_, ?_⟩
  · rcases reading with rfl | rfl <;> decide
  · rw [Route.matches, if_pos (List.mem_singleton_self method)]
    exact catchAll

/-- A request for a canonical path goes to the handlers of images, which query the index with exactly
this path; and what the other handlers of GET and HEAD are registered for is refused as a path. -/
theorem alias_is_not_shadowed (chi : Chi find) :
    (∀ raw path method, (method = .get ∨ method = .head) → normalizeAliasPath P raw = .ok path →
      ∃ u handler values, parseTarget path = some u ∧ u.rawPath = [] ∧
        find routes method u.routePath = some (handler, values) ∧
        ((handler = .serveAlias ∧ values = []) ∨
          (handler = .serve ∧ ∃ id, values = [id] ∧ P.isCanonicalUUID id = false)) ∧
        ∀ sessionCookie authorization,
          Queries P (deliveryRequest u values sessionCookie authorization) path) ∧
    ∀ route ∈ routes, (.get ∈ route.methods ∨ .head ∈ route.methods) →
      (∃ name, route.handler = .other name) → ∀ decoded,
        (matchSegments route.pattern (split slash decoded)).isSome →
          ∀ raw, pathUnescape raw = some decoded → ∃ e, normalizeAliasPath P raw = .error e := by
  constructor
  · intro raw path method reading accepted
    obtain ⟨rest, parsed, spelled, unreserved⟩ := parseTarget_accepted accepted
    have found := routed_somewhere chi reading rest
    cases routed : find routes method (slash :: rest) with
    | none => simp [routed] at found
    | some target =>
        obtain ⟨handler, values⟩ := target
        obtain ⟨route, listed, rfl, matched, -⟩ := chi.found routed
        have kinds := unreserved_route listed matched unreserved
        refine ⟨⟨slash :: rest, []⟩, route.handler, values, parsed, rfl, routed, kinds, ?_⟩
        intro sessionCookie authorization
        refine queries_alias ?_ rfl ?_
        · rcases kinds with ⟨-, none⟩ | ⟨-, id, one, refused⟩
          · simp [deliveryRequest, none]
          · simp [deliveryRequest, one, refused]
        · have spelling : (deliveryRequest ⟨slash :: rest, []⟩ values sessionCookie
              authorization).escapedPath = path := by
            simp [deliveryRequest, RequestURL.escapedPath, spelled]
          rw [spelling]
          exact normalizeAliasPath_idempotent accepted
  · intro route listed reading ⟨name, handler⟩ decoded matched raw unescaped
    cases resolved : normalizeAliasPath P raw with
    | error e => exact ⟨e, rfl⟩
    | ok path =>
        obtain ⟨-, d, same, -, rfl, -, unreserved⟩ := normalizeAliasPath_ok resolved
        obtain rfl : d = decoded := Option.some.inj (same.symm.trans unescaped)
        rcases routes_guarded route listed with guarded | ⟨serve, -⟩ | ⟨serve, -⟩
        · rw [show isReservedAliasPath P (escapedPath d) = true from
            guarded_reserved P guarded matched] at unreserved
          cases unreserved
        · rw [handler] at serve
          cases serve
        · rw [handler] at serve
          cases serve

section Sample

/-- A router that takes the first of the matching routes that no other one comes before. -/
def firstRoute (table : List Route) (method : Method) (path : GoString) :
    Option (Handler × List GoString) :=
  let matching := table.filter fun route => (route.matches method path).isSome
  (matching.argmin fun route => route.pattern.map Segment.rank).bind fun route =>
    (route.matches method path).map fun values => (route.handler, values)

theorem firstRoute_chi : Chi firstRoute where
  found := by
    intro table method path handler values found
    obtain ⟨route, least, answer⟩ := Option.bind_eq_some_iff.mp found
    obtain ⟨values', matched, same⟩ := Option.map_eq_some_iff.mp answer
    cases same
    have there := List.argmin_mem (Option.mem_def.mpr least)
    refine ⟨route, (List.mem_filter.mp there).1, rfl, matched, ?_⟩
    intro other listed matching earlier
    exact List.not_lt_of_mem_argmin (List.mem_filter.mpr ⟨listed, matching⟩)
      (Option.mem_def.mpr least) earlier
  finds := by
    rintro table method path ⟨route, listed, matching⟩
    unfold firstRoute
    cases least : (table.filter fun route => (route.matches method path).isSome).argmin
        fun route => route.pattern.map Segment.rank with
    | none =>
        rw [List.argmin_eq_none] at least
        have there : route ∈ table.filter fun route => (route.matches method path).isSome :=
          List.mem_filter.mpr ⟨listed, matching⟩
        rw [least] at there
        cases there
    | some first =>
        have there := (List.mem_filter.mp (List.argmin_mem (Option.mem_def.mpr least))).2
        simpa [least] using there

/-- A path below `/image` whose last element is no UUID. -/
theorem image_alias_is_served : ∃ u handler values,
    parseTarget (str "/image/cat") = some u ∧
      firstRoute routes .get u.routePath = some (handler, values) ∧
      Queries { samplePlatform with parseUUID := fun _ => none }
        (deliveryRequest u values none []) (str "/image/cat") := by
  have accepted : normalizeAliasPath { samplePlatform with parseUUID := fun _ => none }
      (str "/image/cat") = .ok (str "/image/cat") := by decide +kernel
  obtain ⟨u, handler, values, parsed, -, routed, -, queries⟩ :=
    (alias_is_not_shadowed firstRoute_chi).1 (str "/image/cat") (str "/image/cat") .get (.inl rfl)
      accepted
  exact ⟨u, handler, values, parsed, routed, queries none []⟩

end Sample

end ImageSilo
