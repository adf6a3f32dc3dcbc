import Mathlib.Data.List.DropRight

/-!
# File paths

Paths of a Unix system as their characters: joining, and the components of a path as the standard
library of Rust lists them. Empty parts and parts that are one dot disappear, but for a dot in front.
-/

namespace BasicNext.Lib

theorem mem_splitOnP {α : Type*} {p : α → Bool} {text part : List α} (member : part ∈ text.splitOnP p) :
    (∀ a ∈ part, p a = false) ∧ ∀ a ∈ part, a ∈ text := by
  induction text generalizing part with
  | nil =>
    rw [List.splitOnP_nil, List.mem_singleton] at member
    subst member
    exact ⟨fun _ here => (nomatch here), fun _ here => nomatch here⟩
  | cons first rest ih =>
    rw [List.splitOnP_cons_eq_if_modifyHead] at member
    split at member
    · rcases List.mem_cons.1 member with rfl | later
      · exact ⟨fun _ here => (nomatch here), fun _ here => nomatch here⟩
      · exact ⟨(ih later).1, fun a here => List.mem_cons_of_mem _ ((ih later).2 a here)⟩
    · next plain =>
      cases parts : rest.splitOnP p with
      | nil => exact absurd parts (List.splitOnP_ne_nil p rest)
      | cons head tail =>
        rw [parts, List.modifyHead_cons] at member
        rcases List.mem_cons.1 member with rfl | later
        · obtain ⟨noSeparator, inside⟩ := ih (parts ▸ List.mem_cons_self)
          refine ⟨List.forall_mem_cons.2 ⟨by simpa using plain, noSeparator⟩, fun a here => ?_⟩
          rcases List.mem_cons.1 here with rfl | here
          · exact List.mem_cons_self
          · exact List.mem_cons_of_mem _ (inside a here)
        · obtain ⟨noSeparator, inside⟩ := ih (parts ▸ List.mem_cons_of_mem _ later)
          exact ⟨noSeparator, fun a here => List.mem_cons_of_mem _ (inside a here)⟩

namespace UnixPath

abbrev Path := List Char

inductive Component where
  | rootDir
  | curDir
  | parentDir
  | normal (name : List Char)
deriving DecidableEq, Repr

/-- A part between separators, as a component. -/
def part (name : List Char) : Option Component :=
  if name = [] ∨ name = ['.'] then none
  else if name = ['.', '.'] then some .parentDir
  else some (.normal name)

def isAbsolute (path : Path) : Bool := path.head? == some '/'

/-- The root, or a dot in front. -/
def start (path : Path) : List Component :=
  if isAbsolute path then [.rootDir]
  else if (path.splitOn '/').head? = some ['.'] then [.curDir]
  else []

def components (path : Path) : List Component := start path ++ (path.splitOn '/').filterMap part

/-- Appends a path; an absolute one replaces what was there. -/
def push (path child : Path) : Path :=
  if isAbsolute child then child
  else if path = [] ∨ path.getLast? = some '/' then path ++ child
  else path ++ '/' :: child

/-- The components of the base come first. -/
def startsWith (path base : Path) : Bool := (components base).isPrefixOf (components path)

/-- A part that is no component. -/
def skipped (name : List Char) : Bool := name = [] ∨ name = ['.']

/-- The path without its last component, unless that is the root or there is none. -/
def parent (path : Path) : Option Path :=
  let parts := path.splitOn '/'
  let front := if isAbsolute path then [[]] else if parts.head? = some ['.'] then [['.']] else []
  let body := (parts.drop front.length).rdropWhile skipped
  if body = [] then if front = [['.']] then some [] else none
  else
    let rest := body.dropLast.rdropWhile skipped
    some (if isAbsolute path ∧ rest = [] then ['/'] else ['/'].intercalate (front ++ rest))

/-- A name that is a component of its own. -/
def IsName (name : List Char) : Prop := part name = some (.normal name) ∧ '/' ∉ name

variable {name : List Char}

theorem IsName.ne_nil (isName : IsName name) : name ≠ [] := by
  rintro rfl
  exact absurd isName.1 (by decide)

theorem IsName.not_isAbsolute (isName : IsName name) : isAbsolute name = false := by
  cases name with
  | nil => rfl
  | cons first rest =>
    have apart : first ≠ '/' := fun same => isName.2 (same ▸ List.mem_cons_self)
    simpa [isAbsolute] using apart

theorem IsName.getLast? (isName : IsName name) : name.getLast? ≠ some '/' :=
  fun last => isName.2 (List.mem_of_getLast? last)

/-- Names joined by separators. -/
def ofNames (names : List (List Char)) : Path := ['/'].intercalate names

variable {names : List (List Char)}

theorem splitOn_ofNames (nonempty : names ≠ [])
    (isName : ∀ name ∈ names, IsName name) : (ofNames names).splitOn '/' = names :=
  List.splitOn_intercalate '/' (fun name member => (isName name member).2) nonempty

theorem head?_splitOn_eq_nil {path : Path} (absolute : isAbsolute path = true) : (path.splitOn '/').head? = some [] := by
  cases path with
  | nil => cases absolute
  | cons first rest =>
    have slash : first = '/' := by simpa [isAbsolute] using absolute
    rw [slash, show '/' :: rest = [] ++ '/' :: rest from rfl, List.splitOn_append_cons_self, List.splitOn_nil]
    rfl

theorem ofNames_not_isAbsolute (nonempty : names ≠ [])
    (isName : ∀ name ∈ names, IsName name) : isAbsolute (ofNames names) = false := by
  cases absolute : isAbsolute (ofNames names) with
  | false => rfl
  | true =>
    have empty := head?_splitOn_eq_nil absolute
    rw [splitOn_ofNames nonempty isName] at empty
    exact absurd rfl (isName [] (List.mem_of_head? empty)).ne_nil

theorem filterMap_part (isName : ∀ name ∈ names, IsName name) :
    names.filterMap part = names.map .normal := by
  induction names with
  | nil => rfl
  | cons name names ih =>
    rw [List.filterMap_cons, (isName name List.mem_cons_self).1, List.map_cons,
      ih fun other member => isName other (List.mem_cons_of_mem _ member)]

theorem head_ne_dot (isName : ∀ name ∈ names, IsName name) :
    names.head? ≠ some ['.'] := by
  intro dot
  exact absurd (isName ['.'] (List.mem_of_head? dot)).1 (by decide)

theorem components_ofNames (nonempty : names ≠ [])
    (isName : ∀ name ∈ names, IsName name) : components (ofNames names) = names.map .normal := by
  rw [components, start, ofNames_not_isAbsolute nonempty isName, splitOn_ofNames nonempty isName,
    if_neg (by decide), if_neg (head_ne_dot isName), filterMap_part isName]
  rfl

/-! ### Joining -/

theorem ofNames_concat (nonempty : names ≠ []) :
    ofNames (names ++ [name]) = ofNames names ++ '/' :: name := by
  rw [ofNames, ofNames]
  induction names with
  | nil => exact absurd rfl nonempty
  | cons first rest ih =>
    cases rest with
    | nil => simp [List.intercalate, List.intersperse]
    | cons second rest =>
      have later := ih (List.cons_ne_nil second rest)
      simp only [List.intercalate, List.cons_append, List.intersperse_cons_cons, List.flatten_cons] at later ⊢
      rw [later]
      simp

theorem ofNames_ne_nil (nonempty : names ≠ []) (isName : ∀ name ∈ names, IsName name) : ofNames names ≠ [] := by
  intro empty
  have parts := splitOn_ofNames nonempty isName
  rw [empty, List.splitOn_nil] at parts
  exact (isName [] (parts ▸ List.mem_singleton_self [])).ne_nil rfl

theorem getLast?_ofNames (isName : ∀ name ∈ names, IsName name) : (ofNames names).getLast? ≠ some '/' := by
  cases names using List.reverseRecOn with
  | nil => simp [ofNames]
  | append_singleton names name =>
    have last := isName name (List.mem_append_right _ (List.mem_singleton_self name))
    have here : ∀ before, (before ++ name).getLast? ≠ some '/' := by
      intro before
      have ends := last.getLast?
      rw [List.getLast?_eq_some_getLast last.ne_nil] at ends
      rw [List.getLast?_append, List.getLast?_eq_some_getLast last.ne_nil, Option.some_or]
      exact ends
    by_cases empty : names = []
    · subst empty
      have single : ofNames ([] ++ [name]) = [] ++ name := by simp [ofNames, List.intercalate]
      rw [single]
      exact here []
    · rw [ofNames_concat empty, show ofNames names ++ '/' :: name = (ofNames names ++ ['/']) ++ name by simp]
      exact here _

theorem push_ofNames (isName : ∀ name ∈ names, IsName name) (last : IsName name) :
    push (ofNames names) name = ofNames (names ++ [name]) := by
  rw [push, last.not_isAbsolute, if_neg (by decide)]
  by_cases empty : names = []
  · subst empty
    simp [ofNames, List.intercalate]
  · rw [if_neg (not_or.2 ⟨ofNames_ne_nil empty isName, getLast?_ofNames isName⟩), ofNames_concat empty]

theorem start_append (path rest : Path) (nonempty : path ≠ []) :
    start (path ++ '/' :: rest) = start path := by
  have first : (path ++ '/' :: rest).head? = path.head? := by
    cases path with
    | nil => exact absurd rfl nonempty
    | cons => rfl
  have parts : ((path ++ '/' :: rest).splitOn '/').head? = (path.splitOn '/').head? := by
    rw [List.splitOn_append_cons_self]
    cases split : path.splitOn '/' with
    | nil => exact absurd split (List.splitOn_ne_nil '/' path)
    | cons => rfl
  rw [start, start, isAbsolute, isAbsolute, first, parts]

theorem components_push {directory child : Path} (relative : isAbsolute child = false)
    (noDot : (child.splitOn '/').head? ≠ some ['.']) :
    components (push directory child) = components directory ++ (child.splitOn '/').filterMap part := by
  rw [push, relative, if_neg (by decide)]
  cases directory using List.reverseRecOn with
  | nil =>
    rw [if_pos (.inl rfl), List.nil_append, components, start, relative, if_neg (by decide), if_neg noDot]
    rfl
  | append_singleton before last =>
    by_cases slash : last = '/'
    · subst slash
      rw [if_pos (.inr List.getLast?_concat), List.append_assoc, List.singleton_append, components,
        components, List.splitOn_append_cons_self, List.filterMap_append, List.splitOn_append_cons_self,
        List.filterMap_append, List.splitOn_nil]
      by_cases root : before = []
      · subst root
        simp [start, isAbsolute, part]
      · rw [start_append _ _ root, start_append _ _ root]
        simp [part]
    · have open_end : ¬(before ++ [last] = [] ∨ (before ++ [last]).getLast? = some '/') := by
        simp [slash]
      rw [if_neg open_end, components, components, start_append _ _ (by simp),
        List.splitOn_append_cons_self, List.filterMap_append, List.append_assoc]

theorem components_push_ofNames {directory : Path} (nonempty : names ≠ []) (isName : ∀ name ∈ names, IsName name) :
    components (push directory (ofNames names)) = components directory ++ names.map .normal := by
  have parts := splitOn_ofNames nonempty isName
  rw [components_push (ofNames_not_isAbsolute nonempty isName) (by rw [parts]; exact head_ne_dot isName),
    parts, filterMap_part isName]

end UnixPath

end BasicNext.Lib
