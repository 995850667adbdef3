import ImageSilo.Go.Text

/-! `filepath.Join` and `filepath.Dir` on Unix, on stacks of elements. -/
namespace Go

/-- `filepath.Join`. -/
def filepathJoin (elements : List GoString) : GoString :=
  match elements.dropWhile fun element => element == [] with
  | [] => []
  | element :: rest => clean (join slash (element :: rest))

/-- `filepath.Dir`. -/
def filepathDir (p : GoString) : GoString := clean (p.reverse.dropWhile fun c => c != slash).reverse

section Stacks

def isRooted (p : GoString) : Bool := hasPrefix p (str "/")

/-- The elements of a path that cleaning keeps, innermost first. -/
def stackOf (p : GoString) : List GoString := (split slash p).foldl (cleanStep (isRooted p)) []

/-- What stands before the first element. -/
def rootOf (rooted : Bool) : GoString := if rooted then [slash] else []

def rendered (rooted : Bool) (stack : List GoString) : GoString :=
  if rootOf rooted ++ join slash stack.reverse = [] then str "."
  else rootOf rooted ++ join slash stack.reverse

theorem clean_eq (p : GoString) : clean p = rendered (isRooted p) (stackOf p) := by
  have written : (if isRooted p then slash :: join slash (stackOf p).reverse
      else join slash (stackOf p).reverse) =
        rootOf (isRooted p) ++ join slash (stackOf p).reverse := by
    cases isRooted p <;> rfl
  unfold rendered
  rw [← written]
  rfl

/-- A name of one element. -/
def IsElement (e : GoString) : Prop := e ≠ [] ∧ e ≠ str "." ∧ slash ∉ e

/-- Cleaning leaves the stack alone: an element that leads upwards stands below none but its like, and
not below a root. -/
def SettledStack (rooted : Bool) : List GoString → Prop
  | [] => True
  | e :: below => IsElement e ∧
      (e = str ".." → rooted = false ∧ ∀ d ∈ below, d = str "..") ∧ SettledStack rooted below

theorem SettledStack.elements {rooted : Bool} {stack : List GoString} (settled : SettledStack rooted stack) :
    ∀ e ∈ stack, IsElement e := by
  induction stack with
  | nil => simp
  | cons e below ih =>
      intro d member
      rcases List.mem_cons.mp member with rfl | there
      · exact settled.1
      · exact ih settled.2.2 d there

theorem cleanStep_settled {rooted : Bool} {stack : List GoString} {e : GoString}
    (settled : SettledStack rooted stack) (plain : slash ∉ e) :
    SettledStack rooted (cleanStep rooted stack e) := by
  unfold cleanStep
  split
  · exact settled
  rename_i present
  obtain ⟨nonempty, dotless⟩ := not_or.mp present
  split
  · rename_i upwards
    cases stack with
    | nil =>
        cases rooted with
        | true => trivial
        | false => exact ⟨⟨nonempty, dotless, plain⟩, fun _ => ⟨rfl, by simp⟩, trivial⟩
    | cons top below =>
        dsimp only
        split
        · rename_i same
          obtain ⟨free, all⟩ := settled.2.1 same
          refine ⟨⟨nonempty, dotless, plain⟩, fun _ => ⟨free, ?_⟩, settled⟩
          intro d member
          rcases List.mem_cons.mp member with rfl | there
          · exact same
          · exact all d there
        · exact settled.2.2
  · rename_i ordinary
    exact ⟨⟨nonempty, dotless, plain⟩, fun upwards => absurd upwards ordinary, settled⟩

theorem foldl_settled {rooted : Bool} {elements stack : List GoString}
    (settled : SettledStack rooted stack) (plain : ∀ e ∈ elements, slash ∉ e) :
    SettledStack rooted (elements.foldl (cleanStep rooted) stack) := by
  induction elements generalizing stack with
  | nil => exact settled
  | cons e elements ih =>
      exact ih (cleanStep_settled settled (plain e List.mem_cons_self))
        fun d member => plain d (List.mem_cons_of_mem e member)

theorem stackOf_settled (p : GoString) : SettledStack (isRooted p) (stackOf p) :=
  foldl_settled trivial fun _ member => split_plain_members member

/-- The top of a settled stack is pushed on what is below it. -/
theorem cleanStep_top {rooted : Bool} {e : GoString} {below : List GoString}
    (settled : SettledStack rooted (e :: below)) : cleanStep rooted below e = e :: below := by
  obtain ⟨⟨nonempty, dotless, -⟩, upwards, -⟩ := settled
  unfold cleanStep
  rw [if_neg (not_or.mpr ⟨nonempty, dotless⟩)]
  split
  · rename_i same
    obtain ⟨free, all⟩ := upwards same
    cases below with
    | nil => rw [free]; rfl
    | cons top below =>
        dsimp only
        rw [if_pos (all top List.mem_cons_self)]
  · rfl

theorem foldl_reverse {rooted : Bool} {stack : List GoString} (settled : SettledStack rooted stack) :
    stack.reverse.foldl (cleanStep rooted) [] = stack := by
  induction stack with
  | nil => rfl
  | cons e below ih =>
      rw [List.reverse_cons, List.foldl_append, ih settled.2.2]
      exact cleanStep_top settled

end Stacks

section Rendering

variable {rooted : Bool} {stack : List GoString} {key : GoString}

theorem cleanStep_nil (rooted : Bool) (stack : List GoString) : cleanStep rooted stack [] = stack := by
  unfold cleanStep
  rw [if_pos (.inl rfl)]

theorem split_append (p q : GoString) :
    split slash (p ++ slash :: q) = split slash p ++ split slash q := by
  induction p with
  | nil => exact split_slash q
  | cons c p ih =>
      rw [List.cons_append, split, ih, split]
      cases segments : split slash p with
      | nil => exact absurd segments (split_ne_nil p)
      | cons segment later =>
          rw [List.cons_append]
          dsimp only
          split <;> rfl

theorem isRooted_append {p : GoString} (nonempty : p ≠ []) (q : GoString) :
    isRooted (p ++ q) = isRooted p := by
  cases p with
  | nil => exact absurd rfl nonempty
  | cons c p => rfl

theorem stackOf_append {p : GoString} (nonempty : p ≠ []) (q : GoString) :
    stackOf (p ++ slash :: q) = (split slash q).foldl (cleanStep (isRooted p)) (stackOf p) := by
  unfold stackOf
  rw [isRooted_append nonempty, split_append, List.foldl_append]

/-- The elements of a settled stack, written out, are read back. -/
theorem stackOf_written (settled : SettledStack rooted stack)
    (written : rootOf rooted ++ join slash stack.reverse ≠ []) :
    isRooted (rootOf rooted ++ join slash stack.reverse) = rooted ∧
      stackOf (rootOf rooted ++ join slash stack.reverse) = stack := by
  have elements := settled.elements
  have plain : ∀ e ∈ stack.reverse, slash ∉ e := fun e member =>
    (elements e (List.mem_reverse.mp member)).2.2
  cases rooted with
  | true =>
      refine ⟨rfl, ?_⟩
      unfold stackOf
      change (split slash (slash :: join slash stack.reverse)).foldl (cleanStep true) [] = stack
      rw [split_slash, List.foldl_cons, cleanStep_nil]
      by_cases none : stack.reverse = []
      · rw [none]
        obtain rfl : stack = [] := by simpa using none
        rfl
      · rw [split_join none plain, foldl_reverse settled]
  | false =>
      have shape : rootOf false ++ join slash stack.reverse = join slash stack.reverse := rfl
      rw [shape] at written ⊢
      have none : stack.reverse ≠ [] := by
        intro empty
        rw [empty] at written
        exact written rfl
      have relative : isRooted (join slash stack.reverse) = false := by
        cases reversed : stack.reverse with
        | nil => exact absurd reversed none
        | cons e later =>
            have here := elements e (List.mem_reverse.mp (by rw [reversed]; exact List.mem_cons_self))
            obtain ⟨c, tail, rfl⟩ := List.exists_cons_of_ne_nil here.1
            have differs : (slash == c) = false := by
              rw [beq_eq_false_iff_ne]
              rintro rfl
              exact here.2.2 List.mem_cons_self
            cases later with
            | nil =>
                change (slash == c && true) = false
                rw [differs]
                rfl
            | cons next later =>
                change (slash == c && true) = false
                rw [differs]
                rfl
      refine ⟨relative, ?_⟩
      unfold stackOf
      rw [relative, split_join none plain, foldl_reverse settled]

theorem rendered_ne_nil (rooted : Bool) (stack : List GoString) : rendered rooted stack ≠ [] := by
  unfold rendered
  split
  · decide
  · rename_i written
    exact written

theorem stackOf_rendered (settled : SettledStack rooted stack) :
    isRooted (rendered rooted stack) = rooted ∧ stackOf (rendered rooted stack) = stack := by
  unfold rendered
  split
  · rename_i empty
    cases rooted with
    | true => cases empty
    | false =>
        cases stack with
        | nil => exact ⟨rfl, rfl⟩
        | cons e below =>
            exfalso
            have nonempty := (settled.elements e List.mem_cons_self).1
            have last : join slash (e :: below).reverse ≠ [] := by
              rw [List.reverse_cons]
              by_cases alone : below.reverse = []
              · rw [alone]
                exact nonempty
              · rw [join_append alone (by simp)]
                simp
            exact last empty
  · rename_i written
    exact stackOf_written settled written

end Rendering

section Children

variable {p key : GoString}

/-- A name that is no way upwards. -/
def IsName (key : GoString) : Prop := IsElement key ∧ key ≠ str ".."

theorem cleanStep_name (name : IsName key) (rooted : Bool) (stack : List GoString) :
    cleanStep rooted stack key = key :: stack := by
  unfold cleanStep
  rw [if_neg (not_or.mpr ⟨name.1.1, name.1.2.1⟩), if_neg name.2]

/-- A name joined to a path goes on its stack. -/
theorem clean_child (nonempty : p ≠ []) (name : IsName key) :
    clean (p ++ slash :: key) = rendered (isRooted p) (key :: stackOf p) := by
  rw [clean_eq, isRooted_append nonempty, stackOf_append nonempty, split_plain name.1.2.2]
  exact congrArg _ (cleanStep_name name _ _)

theorem filepathJoin_pair (nonempty : p ≠ []) (key : GoString) :
    filepathJoin [p, key] = clean (p ++ slash :: key) := by
  have kept : (p == []) = false := beq_false_of_ne nonempty
  unfold filepathJoin
  rw [List.dropWhile_cons_of_neg (by rw [kept]; decide)]
  rfl

theorem settled_child (name : IsName key) (p : GoString) : SettledStack (isRooted p) (key :: stackOf p) :=
  ⟨name.1, fun upwards => absurd upwards name.2, stackOf_settled p⟩

/-- What stands before the last element of a path. -/
def leading (rooted : Bool) (stack : List GoString) : GoString :=
  if stack = [] then rootOf rooted else rootOf rooted ++ join slash stack.reverse ++ [slash]

theorem rendered_child (nonempty : key ≠ []) (rooted : Bool) (stack : List GoString) :
    rendered rooted (key :: stack) = leading rooted stack ++ key := by
  have written : rootOf rooted ++ join slash (key :: stack).reverse = leading rooted stack ++ key := by
    unfold leading
    rw [List.reverse_cons]
    by_cases empty : stack = []
    · subst empty
      rfl
    · rw [if_neg empty, join_append (by simpa using empty) (by simp)]
      simp [join]
  unfold rendered
  rw [written, if_neg]
  intro empty
  exact nonempty (List.append_eq_nil_iff.mp empty).2

theorem leading_ends (rooted : Bool) (stack : List GoString) :
    leading rooted stack = [] ∨ ∃ front, leading rooted stack = front ++ [slash] := by
  unfold leading
  split
  · cases rooted with
    | false => exact .inl rfl
    | true => exact .inr ⟨[], rfl⟩
  · exact .inr ⟨_, rfl⟩

theorem dropWhile_name {front : GoString} (plain : slash ∉ key)
    (ends : front = [] ∨ ∃ rest, front = rest ++ [slash]) :
    ((front ++ key).reverse.dropWhile fun c => c != slash) = front.reverse := by
  have all : ∀ c ∈ key.reverse, (c != slash) = true := by
    intro c member
    rw [bne_iff_ne]
    rintro rfl
    exact plain (List.mem_reverse.mp member)
  rw [List.reverse_append, List.dropWhile_append_of_pos all]
  rcases ends with rfl | ⟨rest, rfl⟩
  · rfl
  · rw [List.reverse_append, List.reverse_singleton, List.singleton_append,
      List.dropWhile_cons_of_neg (by simp)]

theorem base_append {front : GoString} (name : IsElement key)
    (ends : front = [] ∨ ∃ rest, front = rest ++ [slash]) : base (front ++ key) = key := by
  obtain ⟨nonempty, -, plain⟩ := name
  rcases ends with rfl | ⟨rest, rfl⟩
  · exact base_of_slashless nonempty plain
  have reversed : (rest ++ [slash] ++ key).reverse = key.reverse ++ slash :: rest.reverse := by simp
  have all : ∀ c ∈ key.reverse, (c != slash) = true := by
    intro c member
    rw [bne_iff_ne]
    rintro rfl
    exact plain (List.mem_reverse.mp member)
  have stripped : ((rest ++ [slash] ++ key).reverse.dropWhile fun c => c == slash) =
      (rest ++ [slash] ++ key).reverse := by
    rw [reversed]
    cases shape : key.reverse with
    | nil => exact absurd (by simpa using shape) nonempty
    | cons c tail =>
        have here := all c (by rw [shape]; exact List.mem_cons_self)
        rw [List.cons_append, List.dropWhile_cons_of_neg]
        simpa using here
  have taken : ((rest ++ [slash] ++ key).reverse.takeWhile fun c => c != slash) = key.reverse := by
    rw [reversed, List.takeWhile_append_of_pos all, List.takeWhile_cons_of_neg (by simp),
      List.append_nil]
  unfold base
  rw [stripped, List.reverse_reverse, if_neg (by simp)]
  dsimp only
  rw [if_neg (by simp), taken, List.reverse_reverse]

theorem clean_leading {rooted : Bool} {stack : List GoString} (settled : SettledStack rooted stack) :
    clean (leading rooted stack) = rendered rooted stack := by
  unfold leading
  split
  · rename_i empty
    subst empty
    cases rooted <;> rfl
  · rename_i some
    have written : rootOf rooted ++ join slash stack.reverse ≠ [] := by
      intro empty
      have joined := (List.append_eq_nil_iff.mp empty).2
      have segments := congrArg (split slash) joined
      rw [split_join (by simpa using some) fun e member =>
        (settled.elements e (List.mem_reverse.mp member)).2.2] at segments
      have member : [] ∈ stack := by
        rw [← List.mem_reverse, segments]
        exact List.mem_singleton_self _
      exact (settled.elements [] member).1 rfl
    obtain ⟨root, elements⟩ := stackOf_written settled written
    rw [clean_eq, isRooted_append written, stackOf_append written, root, elements]
    exact congrArg (rendered rooted) (cleanStep_nil rooted stack)

/-- The directory of a name in a cleaned directory, and its last element. -/
theorem filepathDir_child (name : IsName key) (p : GoString) :
    filepathDir (filepathJoin [clean p, key]) = clean p ∧ base (filepathJoin [clean p, key]) = key := by
  have settled := stackOf_settled p
  have nonempty : clean p ≠ [] := by
    rw [clean_eq]
    exact rendered_ne_nil _ _
  obtain ⟨root, elements⟩ := stackOf_rendered settled
  rw [filepathJoin_pair nonempty, clean_child nonempty name, clean_eq p, root, elements,
    rendered_child name.1.1]
  constructor
  · unfold filepathDir
    rw [dropWhile_name name.1.2.2 (leading_ends _ _), List.reverse_reverse, clean_leading settled]
  · exact base_append name.1 (leading_ends _ _)

/-- A name in a directory is not the directory. -/
theorem child_ne (name : IsName key) (p : GoString) : filepathJoin [clean p, key] ≠ clean p := by
  have settled := stackOf_settled p
  have nonempty : clean p ≠ [] := by
    rw [clean_eq]
    exact rendered_ne_nil _ _
  obtain ⟨root, elements⟩ := stackOf_rendered settled
  rw [filepathJoin_pair nonempty, clean_child nonempty name, clean_eq p, root, elements]
  intro same
  have heights := congrArg stackOf same
  rw [elements, (stackOf_rendered (settled_child name p)).2] at heights
  exact absurd (congrArg List.length heights) (by simp)

/-- A dot is the directory itself. -/
theorem filepathJoin_dot (p : GoString) : filepathJoin [clean p, str "."] = clean p := by
  have nonempty : clean p ≠ [] := by
    rw [clean_eq]
    exact rendered_ne_nil _ _
  obtain ⟨root, elements⟩ := stackOf_rendered (stackOf_settled p)
  rw [filepathJoin_pair nonempty, clean_eq (clean p ++ _), isRooted_append nonempty,
    stackOf_append nonempty, clean_eq p, root, elements]
  rfl

end Children

end Go
