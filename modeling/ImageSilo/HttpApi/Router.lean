import ImageSilo.Delivery.Path
import ImageSilo.HttpApi.Delivery

/-! `routes` is the table that `NewRouter` registers when every dependency is there. -/
namespace ImageSilo

open Go

inductive Method
  | get
  | head
  | post
  | patch
  | delete
  deriving DecidableEq

inductive Segment
  | static (text : GoString)
  | param
  | catchAll
  deriving DecidableEq

inductive Handler
  | serve
  | serveAlias
  | other (name : String)
  deriving DecidableEq

structure Route where
  methods : List Method
  pattern : List Segment
  handler : Handler
  deriving DecidableEq

def Segment.of (text : GoString) : Segment :=
  if text = str "*" then .catchAll
  else if hasPrefix text (str "\x7b") then .param
  else .static text

/-- A pattern as it is written in the program. -/
def pattern (text : String) : List Segment := (split slash (str text)).map Segment.of

def allMethods : List Method := [.get, .head, .post, .patch, .delete]

def routes : List Route :=
  [⟨[.get], pattern "/healthz", .other "health"⟩,
    ⟨[.get], pattern "/readyz", .other "ready"⟩,
    ⟨[.post], pattern "/api/v1/auth/login", .other "auth.login"⟩,
    ⟨[.get], pattern "/api/v1/auth/session", .other "auth.current"⟩,
    ⟨[.post], pattern "/api/v1/auth/logout", .other "auth.logout"⟩,
    ⟨[.post], pattern "/api/v1/auth/password", .other "auth.changePassword"⟩,
    ⟨[.patch], pattern "/api/v1/auth/profile", .other "auth.updateProfile"⟩,
    ⟨[.get], pattern "/api/v1/setup/status", .other "setup.status"⟩,
    ⟨[.post], pattern "/api/v1/setup", .other "setup.initialize"⟩,
    ⟨[.get], pattern "/api/v1/api-tokens", .other "tokens.list"⟩,
    ⟨[.post], pattern "/api/v1/api-tokens", .other "tokens.create"⟩,
    ⟨[.delete], pattern "/api/v1/api-tokens/\x7btokenID\x7d", .other "tokens.revoke"⟩,
    ⟨[.get], pattern "/api/v1/aliases", .other "aliases.list"⟩,
    ⟨[.get], pattern "/api/v1/aliases/resolve", .other "aliases.resolve"⟩,
    ⟨[.post], pattern "/api/v1/aliases", .other "aliases.create"⟩,
    ⟨[.delete], pattern "/api/v1/aliases/\x7baliasID\x7d", .other "aliases.delete"⟩,
    ⟨[.get], pattern "/api/v1/images", .other "images.list"⟩,
    ⟨[.post], pattern "/api/v1/images", .other "images.upload"⟩,
    ⟨[.post], pattern "/api/v1/images/batch-delete", .other "images.batchDelete"⟩,
    ⟨[.patch], pattern "/api/v1/images/batch-visibility", .other "images.batchVisibility"⟩,
    ⟨[.get], pattern "/api/v1/images/\x7bimageID\x7d", .other "images.detail"⟩,
    ⟨[.delete], pattern "/api/v1/images/\x7bimageID\x7d", .other "images.delete"⟩,
    ⟨[.get], pattern "/api/v1/images/\x7bimageID\x7d/thumbnail", .other "images.thumbnail"⟩,
    ⟨[.patch], pattern "/api/v1/images/\x7bimageID\x7d/visibility",
      .other "images.changeVisibility"⟩,
    ⟨[.post], pattern "/api/v1/images/\x7bimageID\x7d/convert-webp",
      .other "images.convertToWebP"⟩,
    ⟨[.post], pattern "/api/v1/imports", .other "imports.create"⟩,
    ⟨[.get], pattern "/api/v1/settings", .other "settings.get"⟩,
    ⟨[.patch], pattern "/api/v1/settings/default-visibility",
      .other "settings.updateDefaultVisibility"⟩,
    ⟨[.patch], pattern "/api/v1/settings/processing", .other "settings.updateProcessing"⟩,
    ⟨[.get], pattern "/api/v1/system", .other "system.get"⟩,
    ⟨[.get], pattern "/api/v1/overview", .other "maintenance.overview"⟩,
    ⟨[.post], pattern "/api/v1/maintenance/rebuild", .other "maintenance.rebuild"⟩,
    ⟨[.post], pattern "/api/v1/maintenance/inspect", .other "maintenance.inspect"⟩,
    ⟨[.get], pattern "/api/v1/migration-images", .other "migrations.list"⟩,
    ⟨[.post], pattern "/api/v1/migration-images/refresh", .other "migrations.refresh"⟩,
    ⟨[.post], pattern "/api/v1/migration-images/batch-delete", .other "migrations.batchDelete"⟩,
    ⟨[.get], pattern "/image/\x7bimageID\x7d", .serve⟩,
    ⟨[.head], pattern "/image/\x7bimageID\x7d", .serve⟩,
    ⟨[.get], pattern "/", .other "redirect"⟩,
    ⟨allMethods, pattern "/assets/*", .other "assets"⟩,
    ⟨allMethods, pattern "/brand/*", .other "assets"⟩,
    ⟨[.get], pattern "/admin", .other "index"⟩,
    ⟨[.get], pattern "/admin/*", .other "index"⟩,
    ⟨[.get], pattern "/*", .serveAlias⟩,
    ⟨[.head], pattern "/*", .serveAlias⟩]

/-- Whether a pattern matches the segments of a path, and the values of its parameters. A catch-all
takes what is left, also an empty segment; a parameter does not take an empty segment at the end. -/
def matchSegments : List Segment → List GoString → Option (List GoString)
  | [], [] => some []
  | .static text :: pattern, segment :: path =>
      if text = segment then matchSegments pattern path else none
  | .param :: pattern, segment :: path =>
      if segment = [] ∧ path = [] then none else (matchSegments pattern path).map (segment :: ·)
  | [.catchAll], _ :: _ => some []
  | _, _ => none

def Route.matches (route : Route) (method : Method) (path : GoString) : Option (List GoString) :=
  if method ∈ route.methods then matchSegments route.pattern (split slash path) else none

def Segment.rank : Segment → Nat
  | .static _ => 0
  | .param => 1
  | .catchAll => 2

/-- The order in which the router tries patterns that match the same path. -/
def before (p q : List Segment) : Prop := List.Lex (· < ·) (p.map Segment.rank) (q.map Segment.rank)

/-- What is relied on of the router package. -/
structure Chi (find : List Route → Method → GoString → Option (Handler × List GoString)) : Prop where
  found : ∀ {table method path handler values}, find table method path = some (handler, values) →
    ∃ route ∈ table, route.handler = handler ∧ route.matches method path = some values ∧
      ∀ other ∈ table, (other.matches method path).isSome → ¬ before other.pattern route.pattern
  finds : ∀ {table method path}, (∃ route ∈ table, (route.matches method path).isSome) →
    (find table method path).isSome

/-- A URL as far as the handlers look at it. -/
structure RequestURL where
  path : GoString
  rawPath : GoString

/-- `URL.setPath`: the raw path is only kept where it is not the default encoding. -/
def parseTarget (target : GoString) : Option RequestURL :=
  (pathUnescape target).map fun path => ⟨path, if escapedPath path = target then [] else target⟩

/-- The path that the router matches on. -/
def RequestURL.routePath (u : RequestURL) : GoString :=
  if u.rawPath ≠ [] then u.rawPath else if u.path = [] then str "/" else u.path

/-- `validEncoded` in the mode for a path. -/
def validEncoded (path : GoString) : Bool :=
  path.all fun c => (str "!$&'()*+,;=:@[]%").contains c || !shouldEscape c

def RequestURL.escapedPath (u : RequestURL) : GoString :=
  if u.rawPath ≠ [] ∧ validEncoded u.rawPath ∧ pathUnescape u.rawPath = some u.path then u.rawPath
  else Go.escapedPath u.path

/-- The request that the handler of the route sees, without a query. -/
def deliveryRequest (u : RequestURL) (values : List GoString) (sessionCookie : Option GoString)
    (authorization : GoString) : ImageRequest :=
  ⟨values.head?, u.escapedPath, [], sessionCookie, authorization⟩

section Matching

theorem matchSegments_static {text : GoString} {rest : List Segment} {path : List GoString}
    (matched : (matchSegments (.static text :: rest) path).isSome) :
    ∃ tail, path = text :: tail ∧ (matchSegments rest tail).isSome := by
  cases path with
  | nil => simp [matchSegments] at matched
  | cons segment tail =>
      unfold matchSegments at matched
      split at matched
      · rename_i same
        exact ⟨tail, by rw [same], matched⟩
      · cases matched

/-- A path whose first segments are known is their path or lies below it. -/
theorem below_of_split {p : GoString} {first rest : List GoString} (front : first ≠ [])
    (segments : split slash p = first ++ rest) :
    p = join slash first ∨ hasPrefix p (join slash first ++ str "/") = true := by
  have joined := join_split p
  rw [segments] at joined
  cases rest with
  | nil =>
      rw [List.append_nil] at joined
      exact .inl joined.symm
  | cons s t =>
      rw [join_append front (by simp)] at joined
      refine .inr ?_
      rw [← joined]
      exact List.isPrefixOf_iff_prefix.mpr ⟨join slash (s :: t), by simp [str, slash]⟩

theorem matchSegments_statics (texts : List GoString) {rest : List Segment}
    {path : List GoString}
    (matched : (matchSegments (texts.map .static ++ rest) path).isSome) :
    ∃ tail, path = texts ++ tail ∧ (matchSegments rest tail).isSome := by
  induction texts generalizing path with
  | nil => exact ⟨path, rfl, matched⟩
  | cons text texts ih =>
      obtain ⟨tail, rfl, later⟩ := matchSegments_static matched
      obtain ⟨tail', rfl, last⟩ := ih later
      exact ⟨tail', rfl, last⟩

end Matching

section Guarded

/-- What the reservation of paths knows about: three single paths and four prefixes. -/
def guardedPaths : List String := ["/", "/healthz", "/readyz"]

def guardedPrefixes : List String := ["/api/v1", "/admin", "/assets", "/brand"]

def Route.guarded (route : Route) : Bool :=
  guardedPaths.any (fun text => route.pattern == (split slash (str text)).map Segment.static) ||
    guardedPrefixes.any fun text =>
      ((split slash (str text)).map Segment.static).isPrefixOf route.pattern

/-- Every route of another handler is under a path that is reserved. -/
theorem routes_guarded : ∀ route ∈ routes, route.guarded = true ∨
    (route.handler = .serve ∧ route.pattern = [.static [], .static (str "image"), .param]) ∨
    (route.handler = .serveAlias ∧ route.pattern = [.static [], .catchAll]) := by
  decide +kernel

def reservedDecoded (P : Platform) (d : GoString) : Bool :=
  Delivery.isReservedAliasPath P (Go.escapedPath d)

theorem reservedDecoded_eq (P : Platform) (d : GoString) : reservedDecoded P d =
    (d == str "/" ||
      [str "/api/v1", str "/admin", str "/assets", str "/brand"].any (fun p =>
        d == p || hasPrefix d (p ++ str "/")) ||
      d == str "/healthz" || d == str "/readyz" ||
      (hasPrefix d (str "/image/") && (P.parseUUID (trimPrefix d (str "/image/"))).isSome)) := by
  unfold reservedDecoded Delivery.isReservedAliasPath
  rw [pathUnescape_escapedPath]

theorem guarded_reserved (P : Platform) {route : Route} {d : GoString}
    (guarded : route.guarded = true)
    (matched : (matchSegments route.pattern (split slash d)).isSome) :
    reservedDecoded P d = true := by
  rw [reservedDecoded_eq]
  simp only [Route.guarded, Bool.or_eq_true, List.any_eq_true] at guarded
  rcases guarded with ⟨text, listed, exact⟩ | ⟨text, listed, front⟩
  · rw [beq_iff_eq] at exact
    rw [exact, ← List.append_nil ((split slash (str text)).map Segment.static)] at matched
    obtain ⟨tail, segments, ended⟩ := matchSegments_statics _ matched
    have single : d = str text := by
      have joined := join_split d
      cases tail with
      | nil => rw [← joined, segments, List.append_nil, join_split]
      | cons s t => simp [matchSegments] at ended
    subst single
    simp only [guardedPaths, List.mem_cons, List.not_mem_nil, or_false] at listed
    rcases listed with rfl | rfl | rfl <;> simp
  · obtain ⟨rest, split⟩ := List.isPrefixOf_iff_prefix.mp front
    rw [← split] at matched
    obtain ⟨tail, segments, -⟩ := matchSegments_statics _ matched
    have below := below_of_split (split_ne_nil (str text)) segments
    rw [join_split] at below
    simp only [guardedPrefixes, List.mem_cons, List.not_mem_nil, or_false] at listed
    have member : str text ∈ [str "/api/v1", str "/admin", str "/assets", str "/brand"] := by
      rcases listed with rfl | rfl | rfl | rfl <;> simp
    have any : [str "/api/v1", str "/admin", str "/assets", str "/brand"].any (fun p =>
        d == p || hasPrefix d (p ++ str "/")) = true := by
      refine List.any_eq_true.mpr ⟨str text, member, ?_⟩
      rcases below with same | under
      · simp [same]
      · simp [under]
    simp [any]

end Guarded

end ImageSilo
