import BasicNext.Lib.SplitOnce
import Mathlib.Data.List.TakeWhile
import Mathlib.Data.UInt

/-!
# References to resources

The five parts of a reference, as the expression of RFC 3986 (appendix B) takes them, the resolution of a reference
against a base (section 5.2.2, strict, and without the removal of dot segments) and the text of the parts (5.3).
-/

namespace BasicNext.Lib

structure UriReference where
  scheme : Option (List Char)
  authority : Option (List Char)
  path : List Char
  query : Option (List Char)
  fragment : Option (List Char)
deriving DecidableEq, Repr

namespace UriReference

variable {scheme authority : Option (List Char)} {text rest : List Char}

/-! ### Parts of a text -/

def endsScheme (ch : Char) : Bool := ch == ':' || ch == '/' || ch == '?' || ch == '#'

def endsAuthority (ch : Char) : Bool := ch == '/' || ch == '?' || ch == '#'

def endsPath (ch : Char) : Bool := ch == '?' || ch == '#'

/-- A scheme is not empty. -/
def takeScheme (text : List Char) : Option (List Char) × List Char :=
  if text.takeWhile (!endsScheme ·) = [] then (none, text)
  else
    match text.dropWhile (!endsScheme ·) with
    | ':' :: rest => (some (text.takeWhile (!endsScheme ·)), rest)
    | _ => (none, text)

def takeAuthority : List Char → Option (List Char) × List Char
  | '/' :: '/' :: rest => (some (rest.takeWhile (!endsAuthority ·)), rest.dropWhile (!endsAuthority ·))
  | text => (none, text)

/-- A part behind its mark. -/
def takeMarked (mark : Char) (ends : Char → Bool) : List Char → Option (List Char) × List Char
  | [] => (none, [])
  | head :: rest =>
    if head = mark then (some (rest.takeWhile (!ends ·)), rest.dropWhile (!ends ·)) else (none, head :: rest)

def ofPath (scheme authority : Option (List Char)) (text : List Char) : UriReference :=
  let query := takeMarked '?' (· == '#') (text.dropWhile (!endsPath ·))
  { scheme, authority
    path := text.takeWhile (!endsPath ·)
    query := query.1
    fragment := (takeMarked '#' (fun _ => false) query.2).1 }

def parse (text : List Char) : UriReference :=
  let scheme := takeScheme text
  let authority := takeAuthority scheme.2
  ofPath scheme.1 authority.1 authority.2

/-! ### The text of the parts -/

def marked (mark : Char) (part : Option (List Char)) : List Char := (part.map (mark :: ·)).getD []

def schemeText (scheme : Option (List Char)) : List Char := (scheme.map (· ++ [':'])).getD []

def authorityText (authority : Option (List Char)) : List Char := (authority.map ('/' :: '/' :: ·)).getD []

def composePath (reference : UriReference) : List Char :=
  reference.path ++ (marked '?' reference.query ++ marked '#' reference.fragment)

def compose (reference : UriReference) : List Char :=
  schemeText reference.scheme ++ (authorityText reference.authority ++ reference.composePath)

/-! ### Resolution -/

/-- A path in the place of the last segment of the base's. -/
def merge (base : UriReference) (path : List Char) : List Char :=
  if base.authority.isSome ∧ base.path = [] then '/' :: path
  else ((rsplitOnce '/' base.path).map (·.1 ++ ['/'])).getD [] ++ path

def resolve (base reference : UriReference) : UriReference :=
  if reference.scheme.isSome then reference
  else if reference.authority.isSome then { reference with scheme := base.scheme }
  else if reference.path = [] then
    { base with query := reference.query.or base.query, fragment := reference.fragment }
  else if reference.path.head? = some '/' then
    { reference with scheme := base.scheme, authority := base.authority }
  else { reference with scheme := base.scheme, authority := base.authority, path := base.merge reference.path }

/-! ### The parts are the text -/

theorem takeScheme_append (text : List Char) : schemeText (takeScheme text).1 ++ (takeScheme text).2 = text := by
  unfold takeScheme
  split
  · rfl
  · split
    · next rest colon =>
      have same := @List.takeWhile_append_dropWhile _ (!endsScheme ·) text
      rw [colon] at same
      simpa [schemeText] using same
    · rfl

theorem takeAuthority_append (text : List Char) :
    authorityText (takeAuthority text).1 ++ (takeAuthority text).2 = text := by
  unfold takeAuthority
  split
  · simp [authorityText]
  · rfl

theorem takeMarked_append (mark : Char) (ends : Char → Bool) (text : List Char) :
    marked mark (takeMarked mark ends text).1 ++ (takeMarked mark ends text).2 = text := by
  cases text with
  | nil => rfl
  | cons head rest =>
    rw [takeMarked]
    split
    · next here => simp [marked, here]
    · rfl

theorem takeMarked_all {mark : Char} (starts : ∀ ch ∈ text.head?, ch = mark) :
    marked mark (takeMarked mark (fun _ => false) text).1 = text := by
  cases text with
  | nil => rfl
  | cons head rest =>
    have here : head = mark := starts head rfl
    simp [takeMarked, marked, here, List.takeWhile_eq_self_iff]

theorem head_takeMarked_query (starts : ∀ ch ∈ text.head?, endsPath ch = true) :
    ∀ ch ∈ (takeMarked '?' (· == '#') text).2.head?, ch = '#' := by
  cases text with
  | nil => simp [takeMarked]
  | cons head rest =>
    intro ch first
    rw [takeMarked] at first
    split at first
    · have stop := List.head?_dropWhile_not (fun ch => !(ch == '#')) rest
      rw [Option.mem_def.1 first] at stop
      simpa using stop
    · next other =>
      obtain rfl : head = ch := by simpa using first
      have ends := starts head rfl
      simp only [endsPath, Bool.or_eq_true, beq_iff_eq] at ends
      exact ends.resolve_left other

theorem head_dropWhile {ends : Char → Bool} : ∀ ch ∈ (text.dropWhile (!ends ·)).head?, ends ch = true := by
  intro ch first
  have stop := List.head?_dropWhile_not (!ends ·) text
  rw [Option.mem_def.1 first] at stop
  simpa using stop

theorem composePath_ofPath : (ofPath scheme authority text).composePath = text := by
  have starts := @head_takeMarked_query (text.dropWhile (!endsPath ·)) head_dropWhile
  simp only [composePath, ofPath]
  rw [takeMarked_all starts, takeMarked_append, List.takeWhile_append_dropWhile]

@[simp] theorem scheme_ofPath : (ofPath scheme authority text).scheme = scheme := rfl

@[simp] theorem authority_ofPath : (ofPath scheme authority text).authority = authority := rfl

@[simp] theorem path_ofPath : (ofPath scheme authority text).path = text.takeWhile (!endsPath ·) := rfl

theorem compose_ofPath :
    (ofPath scheme authority text).compose = schemeText scheme ++ (authorityText authority ++ text) := by
  rw [compose, composePath_ofPath, scheme_ofPath, authority_ofPath]

theorem compose_withScheme (reference : UriReference) : compose { reference with scheme } =
    schemeText scheme ++ (authorityText reference.authority ++ reference.composePath) := rfl

theorem compose_withAuthority (reference : UriReference) : compose { reference with scheme, authority } =
    schemeText scheme ++ (authorityText authority ++ reference.composePath) := rfl

theorem compose_parse (text : List Char) : (parse text).compose = text := by
  rw [parse, compose_ofPath, takeAuthority_append, takeScheme_append]

/-! ### Kinds of references -/

theorem takeScheme_of_head (starts : ∀ ch ∈ text.head?, endsScheme ch = true) : takeScheme text = (none, text) := by
  rw [takeScheme, if_pos]
  cases text with
  | nil => rfl
  | cons head rest => rw [List.takeWhile_cons_of_neg (by simp [starts head rfl])]

theorem takeScheme_eq {name : List Char} (nonempty : name ≠ []) (plain : name.all (!endsScheme ·) = true) :
    takeScheme (name ++ ':' :: rest) = (some name, rest) := by
  have inside := List.all_eq_true.1 plain
  have stop : (':' :: rest).takeWhile (!endsScheme ·) = [] := List.takeWhile_cons_of_neg (by decide)
  have stays : (':' :: rest).dropWhile (!endsScheme ·) = ':' :: rest := List.dropWhile_cons_of_neg (by decide)
  rw [takeScheme, List.takeWhile_append_of_pos inside, stop, List.append_nil, List.dropWhile_append_of_pos inside,
    stays, if_neg nonempty]
  rfl

theorem parse_hierarchical {name : List Char} (nonempty : name ≠ []) (plain : name.all (!endsScheme ·) = true) :
    parse (name ++ ':' :: '/' :: '/' :: rest) =
      ofPath (some name) (some (rest.takeWhile (!endsAuthority ·))) (rest.dropWhile (!endsAuthority ·)) := by
  rw [parse, takeScheme_eq nonempty plain, takeAuthority]

theorem takeScheme_none (relative : (parse text).scheme = none) : takeScheme text = (none, text) := by
  have same := takeScheme_append text
  have none : (takeScheme text).1 = none := relative
  rw [none] at same
  exact Prod.ext none same

theorem takeAuthority_of_path (path : ¬"//".toList <+: text) : takeAuthority text = (none, text) := by
  unfold takeAuthority
  split
  · next rest => exact absurd (List.prefix_append "//".toList rest) path
  · rfl

theorem parse_path (relative : (parse text).scheme = none) (path : ¬"//".toList <+: text) :
    parse text = ofPath none none text := by
  rw [parse, takeScheme_none relative, takeAuthority_of_path path]

theorem scheme_of_head (starts : ∀ ch ∈ text.head?, endsScheme ch = true) : (parse text).scheme = none :=
  congrArg Prod.fst (takeScheme_of_head starts)

variable {base : UriReference}

theorem compose_resolve_of_scheme (absolute : (parse text).scheme ≠ none) : (base.resolve (parse text)).compose = text := by
  rw [resolve, if_pos (Option.isSome_iff_ne_none.2 absolute), compose_parse]

theorem compose_resolve_of_authority (network : "//".toList <+: text) :
    (base.resolve (parse text)).compose = schemeText base.scheme ++ text := by
  obtain ⟨rest, rfl⟩ := network
  have relative : takeScheme ("//".toList ++ rest) = (none, "//".toList ++ rest) :=
    takeScheme_of_head (by simp [endsScheme])
  have parsed : parse ("//".toList ++ rest) =
      ofPath none (some (rest.takeWhile (!endsAuthority ·))) (rest.dropWhile (!endsAuthority ·)) := by
    rw [parse, relative]
    rfl
  rw [parsed, resolve, if_neg (by simp), if_pos (by simp), compose_withScheme, authority_ofPath, composePath_ofPath]
  exact congrArg (schemeText base.scheme ++ ·) (takeAuthority_append ("//".toList ++ rest))

theorem compose_resolve_of_root (path : ¬"//".toList <+: text) (root : text.head? = some '/') :
    (base.resolve (parse text)).compose = schemeText base.scheme ++ (authorityText base.authority ++ text) := by
  have relative : (parse text).scheme = none := scheme_of_head (by simp [root, endsScheme])
  rw [parse_path relative path]
  cases text with
  | nil => cases root
  | cons head rest =>
    obtain rfl : head = '/' := by simpa using root
    have first : ('/' :: rest).takeWhile (!endsPath ·) = '/' :: rest.takeWhile (!endsPath ·) :=
      List.takeWhile_cons_of_pos (by decide)
    rw [resolve, if_neg (by simp), if_neg (by simp), path_ofPath, first, if_neg (by simp), if_pos (by rfl)]
    rw [← first, ← path_ofPath, compose_withAuthority, composePath_ofPath]

theorem compose_resolve_of_query (query : text.head? = some '?') : (base.resolve (parse text)).compose =
      schemeText base.scheme ++ (authorityText base.authority ++ (base.path ++ text)) := by
  cases text with
  | nil => cases query
  | cons head rest =>
    obtain rfl : head = '?' := by simpa using query
    have path : ¬"//".toList <+: '?' :: rest := by simp
    rw [parse_path (scheme_of_head (by simp [endsScheme])) path]
    have stop : ('?' :: rest).takeWhile (!endsPath ·) = [] := List.takeWhile_cons_of_neg (by decide)
    have stays : ('?' :: rest).dropWhile (!endsPath ·) = '?' :: rest := List.dropWhile_cons_of_neg (by decide)
    have given : (ofPath none none ('?' :: rest)).query.or base.query = (ofPath none none ('?' :: rest)).query := by
      simp [ofPath, stays, takeMarked]
    have same := @composePath_ofPath none none ('?' :: rest)
    rw [composePath, path_ofPath, stop, List.nil_append] at same
    rw [resolve, if_neg (by simp), if_neg (by simp), path_ofPath, stop, if_pos rfl, given]
    change schemeText _ ++ (authorityText _ ++ (base.path ++ (marked '?' _ ++ marked '#' _))) = _
    rw [same]

theorem compose_resolve_nil : (base.resolve (parse [])).compose =
    schemeText base.scheme ++ (authorityText base.authority ++ (base.path ++ marked '?' base.query)) := by
  simp [parse, takeScheme, takeAuthority, ofPath, takeMarked, resolve, compose, composePath, marked]

theorem compose_resolve_of_path (relative : (parse text).scheme = none)
    (starts : ∃ ch ∈ text.head?, endsAuthority ch = false) :
    (base.resolve (parse text)).compose = schemeText base.scheme ++ (authorityText base.authority ++ base.merge text) := by
  obtain ⟨ch, first, plain⟩ := starts
  cases text with
  | nil => cases first
  | cons head rest =>
    obtain rfl : head = ch := by simpa using first
    simp only [endsAuthority, Bool.or_eq_false_iff, beq_eq_false_iff_ne] at plain
    obtain ⟨⟨slash, question⟩, hash⟩ := plain
    have path : ¬"//".toList <+: head :: rest := by simp [Ne.symm slash]
    have taken : (head :: rest).takeWhile (!endsPath ·) = head :: rest.takeWhile (!endsPath ·) :=
      List.takeWhile_cons_of_pos (by simp [endsPath, question, hash])
    rw [parse_path relative path, resolve, if_neg (by simp), if_neg (by simp), path_ofPath, taken, if_neg (by simp),
      if_neg (by simpa using slash), ← taken]
    have same := @composePath_ofPath none none (head :: rest)
    rw [composePath, path_ofPath] at same
    change schemeText _ ++ (authorityText _ ++ (base.merge _ ++ (marked '?' _ ++ marked '#' _))) = _
    rw [merge, merge]
    split
    · rw [List.cons_append, same]
    · rw [List.append_assoc, same]

end UriReference

end BasicNext.Lib

/-!
## Percent-decoding

The bytes that a percent-encoded text stands for: an escape is one byte, and every other byte is itself. A text is
decoded in at most one way.
-/

namespace BasicNext.Lib

/-- The value of a hexadecimal digit, in either case. -/
def HexDigit (byte : UInt8) (value : Nat) : Prop :=
  48 ≤ byte.toNat ∧ byte.toNat ≤ 57 ∧ value + 48 = byte.toNat
    ∨ 97 ≤ byte.toNat ∧ byte.toNat ≤ 102 ∧ value + 87 = byte.toNat
    ∨ 65 ≤ byte.toNat ∧ byte.toNat ≤ 70 ∧ value + 55 = byte.toNat

/-- The second list is the first one, decoded once. -/
inductive PercentDecodes : List UInt8 → List UInt8 → Prop where
  | nil : PercentDecodes [] []
  | plain {byte : UInt8} {bytes decoded : List UInt8} (other : byte ≠ 0x25) (rest : PercentDecodes bytes decoded) :
    PercentDecodes (byte :: bytes) (byte :: decoded)
  | escape {first second byte : UInt8} {high low : Nat} {bytes decoded : List UInt8} (upper : HexDigit first high)
    (lower : HexDigit second low) (same : byte.toNat = 16 * high + low) (rest : PercentDecodes bytes decoded) :
    PercentDecodes (0x25 :: first :: second :: bytes) (byte :: decoded)

variable {byte : UInt8} {value other : Nat} {bytes first second : List UInt8}

theorem HexDigit.unique (one : HexDigit byte value) (two : HexDigit byte other) : value = other := by
  unfold HexDigit at one two
  omega

theorem HexDigit.lt (digit : HexDigit byte value) : value < 16 := by
  unfold HexDigit at digit
  omega

theorem PercentDecodes.unique (one : PercentDecodes bytes first) (two : PercentDecodes bytes second) :
    first = second := by
  induction one generalizing second with
  | nil =>
    cases two
    rfl
  | plain other rest ih =>
    cases two with
    | plain _ rest' => rw [ih rest']
    | escape => exact absurd rfl other
  | escape upper lower same rest ih =>
    cases two with
    | plain other => exact absurd rfl other
    | escape upper' lower' same' rest' =>
      have high := upper.unique upper'
      have low := lower.unique lower'
      rw [ih rest', UInt8.toNat_inj.1 (same.trans (by rw [high, low, same']))]

end BasicNext.Lib
