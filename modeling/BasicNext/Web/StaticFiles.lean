import BasicNext.Web.Target
import BasicNext.Lib.UnixPath

/-!
# Static files

The sanitizer of the path under a static mount (`web::static_files`), and what it lets through: names of
files below the mount, whatever the request spelled.
-/

namespace BasicNext.Web

open Lib Lib.UnixPath

inductive SanitizationError where
  | badRequest (message : String)
  | notFound
deriving DecidableEq, Repr

/-- Spellings of a separator or of NUL that the raw target must not contain. -/
def encodedSeparators : List (List Char) :=
  [['%', '2', 'f'], ['%', '2', 'F'], ['%', '5', 'c'], ['%', '5', 'C'], ['\x00'], ['%', '0', '0']]

def isSeparator (ch : Char) : Bool := ch == '/' || ch == '\\'

/-- The loop over the segments of a subpath, with the path so far. -/
def pushSegments : List (List Char) → Path → Except SanitizationError Path
  | [], clean => .ok clean
  | segment :: rest, clean =>
    if segment = [] then pushSegments rest clean
    else if segment = ['.', '.'] then .error (.badRequest "path traversal is rejected")
    else if segment = ['.'] then pushSegments rest clean
    else if segment.head? = some '.' then .error .notFound
    else if ':' ∈ segment then .error (.badRequest "invalid path segment")
    else pushSegments rest (push clean segment)

def indexFile : Path := "index.html".toList

def sanitizeSubpath (rawTarget subpath : String) : Except SanitizationError Path :=
  if encodedSeparators.any fun spelled => decide (spelled <:+: rawTarget.toList) then
    .error (.badRequest "encoded separator or NUL is rejected")
  else
    let trimmed := subpath.toList.dropWhile (· = '/')
    if trimmed = [] then .ok indexFile
    else do
      let clean ← pushSegments (trimmed.splitOnP isSeparator) []
      pure (if clean = [] then indexFile else clean)

/-! ### What is let through -/

/-- A file name that is not hidden, and no separator of any system. -/
structure NormalName (name : List Char) : Prop where
  notEmpty : name ≠ []
  notDot : name ≠ ['.']
  notParent : name ≠ ['.', '.']
  notHidden : name.head? ≠ some '.'
  noSlash : '/' ∉ name
  noBackslash : '\\' ∉ name
  noNul : '\x00' ∉ name

theorem NormalName.isName {name : List Char} (normal : NormalName name) : IsName name := by
  refine ⟨?_, normal.noSlash⟩
  rw [part, if_neg (not_or.2 ⟨normal.notEmpty, normal.notDot⟩), if_neg normal.notParent]

theorem indexFile_normal : NormalName indexFile := by
  constructor <;> decide

theorem pushSegments_names {segments names : List (List Char)} {clean : Path}
    (plain : ∀ segment ∈ segments, '/' ∉ segment ∧ '\\' ∉ segment ∧ '\x00' ∉ segment)
    (before : ∀ name ∈ names, NormalName name)
    (pushed : pushSegments segments (ofNames names) = .ok clean) :
    ∃ names', clean = ofNames names' ∧ ∀ name ∈ names', NormalName name := by
  induction segments generalizing names with
  | nil =>
    cases pushed
    exact ⟨names, rfl, before⟩
  | cons segment rest ih =>
    obtain ⟨here, later⟩ := List.forall_mem_cons.1 plain
    rw [pushSegments] at pushed
    split at pushed
    · exact ih later before pushed
    · next notEmpty =>
      split at pushed
      · cases pushed
      · next notParent =>
        split at pushed
        · exact ih later before pushed
        · next notDot =>
          split at pushed
          · cases pushed
          · next notHidden =>
            split at pushed
            · cases pushed
            · have normal : NormalName segment :=
                ⟨notEmpty, notDot, notParent, notHidden, here.1, here.2.1, here.2.2⟩
              rw [push_ofNames (fun name member => (before name member).isName) normal.isName] at pushed
              refine ih later (fun name member => ?_) pushed
              rcases List.mem_append.1 member with old | new
              · exact before name old
              · obtain rfl := List.mem_singleton.1 new
                exact normal

/-- A subpath of a canonical path that the sanitizer accepts is a relative path of normal names, and
joining it to a directory adds these names to the components of the directory. -/
theorem sanitizeSubpath_normal {maxTargetBytes : Nat} {rawTarget subpath : String} {target : Target}
    {clean : Path} (accepted : canonicalTarget maxTargetBytes rawTarget = .ok target)
    (suffix : subpath.toList <:+ target.path.toList)
    (sanitized : sanitizeSubpath rawTarget subpath = .ok clean) :
    isAbsolute clean = false ∧ ∃ names, names ≠ [] ∧ (∀ name ∈ names, NormalName name) ∧
        components clean = names.map .normal ∧
        ∀ directory, components (push directory clean) = components directory ++ names.map .normal := by
  obtain ⟨names, rfl, nonempty, normal⟩ :
      ∃ names, clean = ofNames names ∧ names ≠ [] ∧ ∀ name ∈ names, NormalName name := by
    have index : ∃ names, indexFile = ofNames names ∧ names ≠ [] ∧ ∀ name ∈ names, NormalName name :=
      ⟨[indexFile], by simp [ofNames, List.intercalate], List.cons_ne_nil _ _,
        fun name member => List.mem_singleton.1 member ▸ indexFile_normal⟩
    rw [sanitizeSubpath] at sanitized
    split at sanitized
    · cases sanitized
    · dsimp only at sanitized
      split at sanitized
      · cases sanitized
        exact index
      · obtain ⟨pushed, walked, chosen⟩ := bind_eq_ok.1 sanitized
        obtain rfl := pure_eq_ok.1 chosen
        have plain : ∀ segment ∈ (subpath.toList.dropWhile (· = '/')).splitOnP isSeparator,
            '/' ∉ segment ∧ '\\' ∉ segment ∧ '\x00' ∉ segment := by
          intro segment member
          obtain ⟨apart, inside⟩ := mem_splitOnP member
          refine ⟨fun slash => ?_, fun backslash => ?_, fun nul => ?_⟩
          · exact absurd (apart '/' slash) (by decide)
          · exact absurd (apart '\\' backslash) (by decide)
          · have here := (List.dropWhile_suffix _).subset (inside _ nul)
            exact absurd (canonicalTarget_plain accepted _ (suffix.subset here)) (by decide)
        rw [show ([] : Path) = ofNames [] from rfl] at walked
        obtain ⟨names, rfl, normal⟩ := pushSegments_names plain (by simp) walked
        split
        · exact index
        · next nonempty =>
          refine ⟨names, rfl, fun empty => ?_, normal⟩
          subst empty
          exact nonempty rfl
  have isName : ∀ name ∈ names, IsName name := fun name member => (normal name member).isName
  exact ⟨ofNames_not_isAbsolute nonempty isName, names, nonempty, normal,
    components_ofNames nonempty isName, fun directory => components_push_ofNames nonempty isName⟩

/-- Encoded dots are still dots after decoding; an encoded percent sign is not decoded twice. -/
theorem sanitizeSubpath_normal_decoded :
    isAbsolute "a%2f/b.txt".toList = false ∧ ∃ names, names ≠ [] ∧ (∀ name ∈ names, NormalName name) ∧
        components "a%2f/b.txt".toList = names.map .normal ∧
        ∀ directory, components (push directory "a%2f/b.txt".toList) = components directory ++ names.map .normal :=
  sanitizeSubpath_normal
    (show canonicalTarget 8192 "/static/%61%252f//b%2etxt?v=1" = .ok ⟨"/static/a%2f//b.txt", "v=1"⟩ by
      decide)
    (show "/a%2f//b.txt".toList <:+ "/static/a%2f//b.txt".toList by decide)
    (show sanitizeSubpath "/static/%61%252f//b%2etxt?v=1" "/a%2f//b.txt" = .ok _ by decide)

end BasicNext.Web
