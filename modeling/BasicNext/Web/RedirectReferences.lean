import BasicNext.Lib.UriReference
import BasicNext.Web.EgressHolds

/-!
# Redirects as references

`resolve_redirect` cuts its base at the places of characters. What it returns is compared with the resolution of the
`Location` as a reference, for every base a request can be sent to.
-/

namespace BasicNext.Web

open Lib

namespace Client

variable {base location resolved : Text} {destination : Destination}

def restOf (url : Text) : Text := ((splitOnce schemeEnd url).map (·.2)).getD []

def authorityOf (url : Text) : Text := (restOf url).takeWhile (!endsAuthority ·)

def pathOf (url : Text) : Text := ((restOf url).dropWhile (!endsAuthority ·)).takeWhile (· ≠ '?')

/-- The path in front of its last segment. -/
def directoryOf (url : Text) : Text := ((rsplitOnce '/' (pathOf url)).map (·.1)).getD []

def redirectPath (base location : Text) : Text :=
  if location.head? = some '/' then location
  else if location.head? = some '?' then pathOf base ++ location
  else ((rsplitOnce '/' (pathOf base)).map (·.1)).getD ['/'] ++ '/' :: location

/-- A character that no redirect may have in its authority. -/
def refusedInAuthority (ch : Char) : Bool := ch.toNat < 0x21 || ch.toNat == 0x7f || ch == '#'

def ResolvesAsReference (base location : Text) : Prop := ∀ resolved, resolveRedirect base location = .ok resolved →
  resolved = ((UriReference.parse base).resolve (UriReference.parse location)).compose

/-- The bases and locations whose redirect is refused or leads where the reference does. -/
inductive Resolvable (base location : Text) : Prop where
  | invalid (invalid : '#' ∈ location ∨ '\n' ∈ location ∨ '\r' ∈ location)
  | absolute (absolute : http ++ schemeEnd <+: location ∨ https ++ schemeEnd <+: location)
  | authority (refused : (authorityOf base).any refusedInAuthority = true)
  | root (starts : location.head? = some '/') (path : ¬"//".toList <+: location)
  | query (starts : location.head? = some '?')
  | directory (relative : ∀ ch ∈ location.head?, endsAuthority ch = false) (refused : '#' ∈ directoryOf base)
  | path (relative : ∃ ch ∈ location.head?, endsAuthority ch = false)
      (noScheme : (UriReference.parse location).scheme = none) (hasPath : pathOf base ≠ [])
  | empty (empty : location = []) (ends : (UriReference.parse base).path.getLast? = some '/')
      (noQuery : (UriReference.parse base).query = none)

/-! ### The base -/

/-- A base whose parts a redirect keeps. -/
structure Based (base : Text) (scheme : Text) : Prop where
  known : scheme = http ∨ scheme = https
  same : base = scheme ++ (schemeEnd ++ restOf base)
  nonempty : authorityOf base ≠ []
  noUser : '@' ∉ authorityOf base
  split : splitOnce schemeEnd base = some (scheme, restOf base)

theorem based_of_destination (found : Client.destination base = .ok destination) : Based base destination.scheme := by
  obtain ⟨rest, split, known, authority, parsed⟩ := destination_ok found
  have rests : restOf base = rest := by simp [restOf, split]
  have plain : ¬(destination.authority = [] ∨ '@' ∈ destination.authority) := by
    intro refused
    unfold parseAuthorityWithDefault at parsed
    rw [if_pos refused] at parsed
    cases parsed
  rw [authority, ← rests, ← authorityOf, not_or] at plain
  rw [← rests] at split
  exact ⟨known, splitOnce_some split, plain.1, plain.2, split⟩

theorem authority_plain : ∀ ch ∈ authorityOf base, endsAuthority ch = false := (split_authority (restOf base)).2

theorem pathOf_cons {head : Char} {rest : Text} (path : pathOf base = head :: rest) : head = '/' := by
  have starts := (split_authority (restOf base)).1
  unfold pathOf at path
  cases target : (restOf base).dropWhile (!endsAuthority ·) with
  | nil => simp [target] at path
  | cons first rest =>
    rw [target] at starts path
    have ends := starts first rfl
    simp only [endsAuthority, Bool.or_eq_true, beq_iff_eq] at ends
    rcases ends with rfl | rfl
    · simpa [eq_comm] using (List.cons.inj path).1
    · simp at path

theorem pathOf_cases : pathOf base = [] ∨ ∃ before after, pathOf base = before ++ '/' :: after ∧ '/' ∉ after ∧
    directoryOf base = before := by
  unfold directoryOf
  cases split : rsplitOnce '/' (pathOf base) with
  | none =>
    left
    cases path : pathOf base with
    | nil => rfl
    | cons head rest =>
      exact absurd (rsplitOnce_none split) (by simp [path, pathOf_cons path])
  | some parts =>
    obtain ⟨same, last⟩ := rsplitOnce_some split
    exact .inr ⟨parts.1, parts.2, same, last, rfl⟩

theorem parse_base {scheme : Text} (based : Based base scheme) (sound : (authorityOf base).any refusedInAuthority = false) :
    UriReference.parse base =
      .ofPath (some scheme) (some (authorityOf base)) ((restOf base).dropWhile (!endsAuthority ·)) := by
  have inside : ∀ ch ∈ authorityOf base, (!UriReference.endsAuthority ch) = true := by
    intro ch member
    have plain := authority_plain ch member
    have kept := List.any_eq_false.1 sound ch member
    simp_all [endsAuthority, UriReference.endsAuthority, refusedInAuthority]
  have nonempty : scheme ≠ [] := by rcases based.known with rfl | rfl <;> decide
  have plain : scheme.all (!UriReference.endsScheme ·) = true := by rcases based.known with rfl | rfl <;> decide
  have stop : ((restOf base).dropWhile (!endsAuthority ·)).takeWhile (!UriReference.endsAuthority ·) = [] ∧
      ((restOf base).dropWhile (!endsAuthority ·)).dropWhile (!UriReference.endsAuthority ·) =
        (restOf base).dropWhile (!endsAuthority ·) := by
    have starts := (split_authority (restOf base)).1
    cases target : (restOf base).dropWhile (!endsAuthority ·) with
    | nil => exact ⟨rfl, rfl⟩
    | cons head rest =>
      rw [target] at starts
      have ends := starts head rfl
      have ends : UriReference.endsAuthority head = true := by
        simp only [endsAuthority, UriReference.endsAuthority] at ends ⊢
        rw [ends, Bool.true_or]
      exact ⟨List.takeWhile_cons_of_neg (by simp [ends]), List.dropWhile_cons_of_neg (by simp [ends])⟩
  have cut : restOf base = authorityOf base ++ (restOf base).dropWhile (!endsAuthority ·) :=
    List.takeWhile_append_dropWhile.symm
  have text : base = scheme ++ ':' :: '/' :: '/' :: restOf base := based.same
  nth_rewrite 1 [text]
  rw [UriReference.parse_hierarchical nonempty plain]
  nth_rewrite 1 2 [cut]
  rw [List.takeWhile_append_of_pos inside, List.dropWhile_append_of_pos inside, stop.1, stop.2, List.append_nil]

theorem path_parse_base {scheme : Text} (based : Based base scheme)
    (sound : (authorityOf base).any refusedInAuthority = false) :
    (UriReference.parse base).path = (pathOf base).takeWhile (· ≠ '#') := by
  rw [parse_base based sound, UriReference.path_ofPath, pathOf, List.takeWhile_takeWhile]
  congr 1
  funext ch
  rw [Bool.eq_iff_iff]
  simp [UriReference.endsPath, and_comm]

theorem path_parse_base_of_directory {scheme before after : Text} (based : Based base scheme)
    (sound : (authorityOf base).any refusedInAuthority = false) (path : pathOf base = before ++ '/' :: after)
    (kept : '#' ∉ before) : (UriReference.parse base).path = before ++ '/' :: after.takeWhile (· ≠ '#') := by
  have inside : ∀ ch ∈ before, decide (ch ≠ '#') = true := by
    intro ch member
    have apart : ch ≠ '#' := fun same => kept (same ▸ member)
    simpa using apart
  rw [path_parse_base based sound, path, List.takeWhile_append_of_pos inside, List.takeWhile_cons_of_pos (by decide)]

/-! ### Redirects -/

theorem validateClientUrl_ok {scheme path : Text} (based : Based base scheme)
    (starts : ∃ ch ∈ path.head?, endsAuthority ch = true) :
    validateClientUrl (scheme ++ (schemeEnd ++ (authorityOf base ++ path))) = .ok () ↔
      (authorityOf base).any refusedInAuthority = false ∧ '#' ∉ path := by
  have inside : ∀ ch ∈ authorityOf base, (!endsAuthority ch) = true := by
    intro ch member
    rw [authority_plain ch member]
    rfl
  have taken : (authorityOf base ++ path).takeWhile (!endsAuthority ·) = authorityOf base := by
    obtain ⟨ch, first, ends⟩ := starts
    cases path with
    | nil => cases first
    | cons head rest =>
      obtain rfl : head = ch := by simpa using first
      rw [List.takeWhile_append_of_pos inside, List.takeWhile_cons_of_neg (by simp [ends]), List.append_nil]
  have known : ¬(scheme ≠ http ∧ scheme ≠ https) := by
    rcases based.known with rfl | rfl <;> simp
  have marks : (authorityOf base).any refusedInAuthority = true ↔
      '#' ∈ authorityOf base ∨ (authorityOf base).any (fun ch => ch.toNat < 0x21 || ch.toNat == 0x7f) = true := by
    simp only [List.any_eq_true, refusedInAuthority, Bool.or_eq_true, beq_iff_eq]
    constructor
    · rintro ⟨ch, member, control | rfl⟩
      · exact .inr ⟨ch, member, control⟩
      · exact .inl member
    · rintro (hash | ⟨ch, member, control⟩)
      · exact ⟨_, hash, .inr rfl⟩
      · exact ⟨ch, member, .inl control⟩
  unfold validateClientUrl
  rw [splitOnce_scheme based.known]
  dsimp only
  rw [taken, ← Bool.not_eq_true, marks]
  by_cases hash : '#' ∈ authorityOf base ∨ '#' ∈ path
  · rw [if_pos (by simp [hash])]
    simp only [reduceCtorEq, false_iff]
    tauto
  · rw [if_neg (by simp [known, based.nonempty, hash])]
    rw [not_or] at hash
    simp only [based.nonempty, based.noUser, hash.1, hash.2, false_or, not_false_iff, and_true]
    split <;> simp_all

section

variable (relative : ∀ ch ∈ location.head?, endsAuthority ch = false)

include relative

theorem redirectPath_relative : redirectPath base location =
    ((rsplitOnce '/' (pathOf base)).map (·.1)).getD ['/'] ++ '/' :: location := by
  have root : location.head? ≠ some '/' := fun first => absurd (relative '/' first) (by decide)
  have query : location.head? ≠ some '?' := fun first => absurd (relative '?' first) (by decide)
  rw [redirectPath, if_neg root, if_neg query]

theorem redirectPath_bare (bare : pathOf base = []) : redirectPath base location = '/' :: '/' :: location := by
  rw [redirectPath_relative relative, bare]
  rfl

theorem redirectPath_directory {before after : Text} (path : pathOf base = before ++ '/' :: after) (last : '/' ∉ after) :
    redirectPath base location = before ++ '/' :: location := by
  rw [redirectPath_relative relative, path, rsplitOnce_append last]
  rfl

end

theorem redirectPath_starts : ∃ ch ∈ (redirectPath base location).head?, endsAuthority ch = true := by
  by_cases root : location.head? = some '/'
  · rw [redirectPath, if_pos root]
    exact ⟨'/', root, rfl⟩
  by_cases query : location.head? = some '?'
  · rw [redirectPath, if_neg root, if_pos query]
    cases path : pathOf base with
    | nil => exact ⟨'?', query, rfl⟩
    | cons head rest => exact ⟨head, rfl, by rw [pathOf_cons path]; rfl⟩
  have relative : ∀ ch ∈ location.head?, endsAuthority ch = false := by
    intro ch first
    rw [Option.mem_def.1 first, Option.some.injEq] at root query
    simp [endsAuthority, root, query]
  rcases @pathOf_cases base with bare | ⟨before, after, path, last, -⟩
  · exact ⟨'/', by rw [redirectPath_bare relative bare]; rfl, rfl⟩
  · rw [redirectPath_directory relative path last]
    cases before with
    | nil => exact ⟨'/', rfl, rfl⟩
    | cons head before => exact ⟨head, rfl, by rw [pathOf_cons path]; rfl⟩

theorem resolveRedirect_eq_ok {scheme : Text} (based : Based base scheme)
    (valid : ¬('#' ∈ location ∨ '\n' ∈ location ∨ '\r' ∈ location))
    (relative : ¬(http ++ schemeEnd <+: location ∨ https ++ schemeEnd <+: location)) :
    resolveRedirect base location = .ok resolved ↔
      ((authorityOf base).any refusedInAuthority = false ∧ '#' ∉ redirectPath base location) ∧
        scheme ++ (schemeEnd ++ (authorityOf base ++ redirectPath base location)) = resolved := by
  have checks := validateClientUrl_ok based (@redirectPath_starts base location)
  unfold resolveRedirect
  rw [if_neg valid, if_neg relative, based.split]
  change (validateClientUrl (scheme ++ (schemeEnd ++ (authorityOf base ++ redirectPath base location))) >>=
    fun _ => pure (scheme ++ (schemeEnd ++ (authorityOf base ++ redirectPath base location)))) = Except.ok resolved ↔ _
  rw [bind_eq_ok, ← checks]
  constructor
  · rintro ⟨⟨⟩, passed, same⟩
    exact ⟨passed, pure_eq_ok.1 same⟩
  · rintro ⟨passed, same⟩
    exact ⟨(), passed, pure_eq_ok.2 same⟩

/-! ### Kinds of locations -/

/-- A base that is not refused, and a relative location. -/
structure Redirects (base location scheme : Text) : Prop extends Based base scheme where
  sound : (authorityOf base).any refusedInAuthority = false
  valid : ¬('#' ∈ location ∨ '\n' ∈ location ∨ '\r' ∈ location)
  notAbsolute : ¬(http ++ schemeEnd <+: location ∨ https ++ schemeEnd <+: location)

variable {scheme rest : Text}

theorem text_base (redirects : Redirects base location scheme) (path : Text) :
    UriReference.schemeText (UriReference.parse base).scheme ++
        (UriReference.authorityText (UriReference.parse base).authority ++ path) =
      scheme ++ (schemeEnd ++ (authorityOf base ++ path)) := by
  rw [parse_base redirects.toBased redirects.sound]
  simp [UriReference.schemeText, UriReference.authorityText, schemeEnd]

theorem resolves_iff (redirects : Redirects base location scheme) : ResolvesAsReference base location ↔
    ('#' ∉ redirectPath base location → scheme ++ (schemeEnd ++ (authorityOf base ++ redirectPath base location)) =
        ((UriReference.parse base).resolve (UriReference.parse location)).compose) := by
  have spec := fun resolved =>
    @resolveRedirect_eq_ok base location resolved scheme redirects.toBased redirects.valid redirects.notAbsolute
  constructor
  · intro resolves plain
    exact resolves _ ((spec _).2 ⟨⟨redirects.sound, plain⟩, rfl⟩)
  · intro same resolved ok
    obtain ⟨⟨-, plain⟩, rfl⟩ := (spec _).1 ok
    exact same plain

theorem resolves_iff_path (redirects : Redirects base location scheme) {path : Text}
    (reference : ((UriReference.parse base).resolve (UriReference.parse location)).compose =
      UriReference.schemeText (UriReference.parse base).scheme ++
        (UriReference.authorityText (UriReference.parse base).authority ++ path)) :
    ResolvesAsReference base location ↔ ('#' ∉ redirectPath base location → redirectPath base location = path) := by
  rw [resolves_iff redirects, reference, text_base redirects]
  simp only [List.append_cancel_left_eq]

theorem hash_redirectPath (redirects : Redirects base location scheme)
    (relative : ∀ ch ∈ location.head?, endsAuthority ch = false) :
    '#' ∈ redirectPath base location ↔ '#' ∈ directoryOf base := by
  have plain : '#' ∉ location := fun hash => redirects.valid (.inl hash)
  rcases @pathOf_cases base with bare | ⟨before, after, path, last, directory⟩
  · rw [redirectPath_bare relative bare, directoryOf, bare]
    simp [plain, rsplitOnce]
  · rw [redirectPath_directory relative path last, directory]
    simp [plain]

theorem resolves_root (redirects : Redirects base location scheme) (root : location.head? = some '/')
    (path : ¬"//".toList <+: location) : ResolvesAsReference base location := by
  rw [resolves_iff_path redirects (UriReference.compose_resolve_of_root path root), redirectPath, if_pos root]
  exact fun _ => rfl

theorem not_resolves_network (redirects : Redirects base location scheme) (network : "//".toList <+: location) :
    ¬ResolvesAsReference base location := by
  have root : location.head? = some '/' := by
    obtain ⟨rest, rfl⟩ := network
    rfl
  have plain : '#' ∉ location := fun hash => redirects.valid (.inl hash)
  rw [resolves_iff redirects, UriReference.compose_resolve_of_authority network, redirectPath, if_pos root,
    parse_base redirects.toBased redirects.sound]
  intro same
  have lengths := congrArg List.length (same plain)
  have some := List.length_pos_iff.2 redirects.nonempty
  simp [UriReference.schemeText, schemeEnd] at lengths
  omega

theorem resolves_query (redirects : Redirects base location scheme) (query : location.head? = some '?') :
    ResolvesAsReference base location := by
  have other : location.head? ≠ some '/' := by simp [query]
  rw [resolves_iff_path redirects (UriReference.compose_resolve_of_query query), redirectPath, if_neg other, if_pos query,
    path_parse_base redirects.toBased redirects.sound]
  intro plain
  rw [List.mem_append, not_or] at plain
  have all : (pathOf base).takeWhile (· ≠ '#') = pathOf base := by
    rw [List.takeWhile_eq_self_iff]
    intro ch member
    have apart : ch ≠ '#' := fun same => plain.1 (same ▸ member)
    simpa using apart
  rw [all]

theorem resolves_scheme (redirects : Redirects base location scheme)
    (relative : ∀ ch ∈ location.head?, endsAuthority ch = false)
    (absolute : (UriReference.parse location).scheme ≠ none) :
    ResolvesAsReference base location ↔ '#' ∈ directoryOf base := by
  rw [resolves_iff redirects, UriReference.compose_resolve_of_scheme absolute, hash_redirectPath redirects relative]
  constructor
  · intro same
    by_contra plain
    have lengths := congrArg List.length (same plain)
    have some := List.length_pos_iff.2 redirects.nonempty
    rw [redirectPath_relative relative] at lengths
    simp at lengths
    omega
  · exact fun refused plain => absurd refused plain

theorem path_parse_base_bare (redirects : Redirects base location scheme) (bare : pathOf base = []) :
    (UriReference.parse base).path = [] := by
  rw [path_parse_base redirects.toBased redirects.sound, bare]
  rfl

theorem resolves_path (redirects : Redirects base location scheme)
    (relative : ∃ ch ∈ location.head?, endsAuthority ch = false)
    (noScheme : (UriReference.parse location).scheme = none) :
    ResolvesAsReference base location ↔ '#' ∈ directoryOf base ∨ pathOf base ≠ [] := by
  obtain ⟨ch, first, plain⟩ := relative
  have relative : ∀ ch ∈ location.head?, endsAuthority ch = false := by
    intro other head
    rwa [Option.mem_unique head first]
  have starts : ∃ ch ∈ location.head?, UriReference.endsAuthority ch = false := by
    have noHash : ch ≠ '#' := fun same => redirects.valid (.inl (same ▸ List.mem_of_head? first))
    refine ⟨ch, first, ?_⟩
    simp only [endsAuthority, UriReference.endsAuthority] at plain ⊢
    simp [plain, noHash]
  have authority : (UriReference.parse base).authority = some (authorityOf base) := by
    rw [parse_base redirects.toBased redirects.sound, UriReference.authority_ofPath]
  rw [resolves_iff_path redirects (UriReference.compose_resolve_of_path noScheme starts),
    hash_redirectPath redirects relative, UriReference.merge, authority]
  rcases @pathOf_cases base with bare | ⟨before, after, path, last, directory⟩
  · rw [path_parse_base_bare redirects bare, redirectPath_bare relative bare, directoryOf, bare]
    simp [rsplitOnce]
  · have hasPath : pathOf base ≠ [] := by simp [path]
    simp only [hasPath, ne_eq, not_false_eq_true, or_true, iff_true]
    intro kept
    rw [directory] at kept
    rw [path_parse_base_of_directory redirects.toBased redirects.sound path kept, if_neg (by simp),
      rsplitOnce_append fun slash => last (List.takeWhile_subset _ slash), redirectPath_directory relative path last]
    simp

theorem getLast?_eq_slash {before after : Text} (last : '/' ∉ after) :
    (before ++ '/' :: after).getLast? = some '/' ↔ after = [] := by
  constructor
  · intro ends
    by_contra some
    rw [show before ++ '/' :: after = before ++ ['/'] ++ after by simp, List.getLast?_append_of_ne_nil _ some] at ends
    exact last (List.mem_of_getLast? ends)
  · rintro rfl
    simp

theorem resolves_nil (redirects : Redirects base [] scheme) : ResolvesAsReference base [] ↔ '#' ∈ directoryOf base ∨
    (UriReference.parse base).path.getLast? = some '/' ∧ (UriReference.parse base).query = none := by
  have relative : ∀ ch ∈ ([] : Text).head?, endsAuthority ch = false := by simp
  rw [resolves_iff_path redirects UriReference.compose_resolve_nil, hash_redirectPath redirects relative]
  rcases @pathOf_cases base with bare | ⟨before, after, path, last, directory⟩
  · rw [path_parse_base_bare redirects bare, redirectPath_bare relative bare, directoryOf, bare]
    cases (UriReference.parse base).query <;> simp [rsplitOnce, UriReference.marked]
  · rw [directory]
    by_cases refused : '#' ∈ before
    · simp [refused]
    · have lastKept : '/' ∉ after.takeWhile (· ≠ '#') := fun slash => last (List.takeWhile_subset _ slash)
      rw [path_parse_base_of_directory redirects.toBased redirects.sound path refused, getLast?_eq_slash lastKept,
        redirectPath_directory relative path last]
      cases (UriReference.parse base).query <;> simp [refused, UriReference.marked, @eq_comm _ []]

/-! ### The whole -/

theorem resolves_invalid (invalid : '#' ∈ location ∨ '\n' ∈ location ∨ '\r' ∈ location) :
    ResolvesAsReference base location := by
  intro resolved ok
  rw [resolveRedirect, if_pos invalid] at ok
  cases ok

theorem scheme_parse_absolute (absolute : http ++ schemeEnd <+: location ∨ https ++ schemeEnd <+: location) :
    (UriReference.parse location).scheme ≠ none := by
  rcases absolute with ⟨rest, rfl⟩ | ⟨rest, rfl⟩
  · have parsed := @UriReference.parse_hierarchical rest http (by decide) (by decide)
    have text : http ++ schemeEnd ++ rest = http ++ ':' :: '/' :: '/' :: rest := by simp [schemeEnd]
    rw [text, parsed]
    exact Option.some_ne_none _
  · have parsed := @UriReference.parse_hierarchical rest https (by decide) (by decide)
    have text : https ++ schemeEnd ++ rest = https ++ ':' :: '/' :: '/' :: rest := by simp [schemeEnd]
    rw [text, parsed]
    exact Option.some_ne_none _

theorem resolves_absolute (absolute : http ++ schemeEnd <+: location ∨ https ++ schemeEnd <+: location) :
    ResolvesAsReference base location := by
  intro resolved ok
  rw [UriReference.compose_resolve_of_scheme (scheme_parse_absolute absolute)]
  unfold resolveRedirect at ok
  split at ok
  · cases ok
  · obtain ⟨-, -, ok⟩ := bind_eq_ok.1 ok
    exact (pure_eq_ok.1 ok).symm

theorem Redirects.resolves_iff_resolvable (redirects : Redirects base location scheme) :
    ResolvesAsReference base location ↔ Resolvable base location := by
  constructor
  · intro resolves
    cases location with
    | nil =>
      rcases (resolves_nil redirects).1 resolves with refused | ⟨ends, noQuery⟩
      · exact .directory (by simp) refused
      · exact .empty rfl ends noQuery
    | cons head rest =>
      by_cases ends : endsAuthority head = true
      · simp only [endsAuthority, Bool.or_eq_true, beq_iff_eq] at ends
        rcases ends with rfl | rfl
        · exact .root rfl fun network => not_resolves_network redirects network resolves
        · exact .query rfl
      · have relative : ∀ ch ∈ (head :: rest).head?, endsAuthority ch = false := by simpa using ends
        by_cases noScheme : (UriReference.parse (head :: rest)).scheme = none
        · rcases (resolves_path redirects ⟨head, rfl, relative head rfl⟩ noScheme).1 resolves with refused | hasPath
          · exact .directory relative refused
          · exact .path ⟨head, rfl, relative head rfl⟩ noScheme hasPath
        · exact .directory relative ((resolves_scheme redirects relative noScheme).1 resolves)
  · rintro (invalid | absolute | refused | ⟨root, path⟩ | query | ⟨relative, refused⟩ |
      ⟨relative, noScheme, hasPath⟩ | ⟨rfl, ends, noQuery⟩)
    · exact resolves_invalid invalid
    · exact resolves_absolute absolute
    · rw [redirects.sound] at refused
      cases refused
    · exact resolves_root redirects root path
    · exact resolves_query redirects query
    · rw [resolves_iff redirects, hash_redirectPath redirects relative]
      exact fun plain => absurd refused plain
    · exact (resolves_path redirects relative noScheme).2 (.inr hasPath)
    · exact (resolves_nil redirects).2 (.inr ⟨ends, noQuery⟩)

/-- For every base a request can be sent to. -/
theorem resolveRedirect_iff (found : Client.destination base = .ok destination) :
    ResolvesAsReference base location ↔ Resolvable base location := by
  by_cases invalid : '#' ∈ location ∨ '\n' ∈ location ∨ '\r' ∈ location
  · exact iff_of_true (resolves_invalid invalid) (.invalid invalid)
  by_cases absolute : http ++ schemeEnd <+: location ∨ https ++ schemeEnd <+: location
  · exact iff_of_true (resolves_absolute absolute) (.absolute absolute)
  have based := based_of_destination found
  cases sound : (authorityOf base).any refusedInAuthority with
  | false => exact Redirects.resolves_iff_resolvable ⟨based, sound, invalid, absolute⟩
  | true =>
    refine iff_of_true (fun resolved ok => ?_) (.authority sound)
    have refused := ((resolveRedirect_eq_ok based invalid absolute).1 ok).1.1
    rw [sound] at refused
    cases refused

theorem resolveRedirect_iff_relative :
    ResolvesAsReference "http://example.test/dir/a".toList "next".toList ↔
      Resolvable "http://example.test/dir/a".toList "next".toList :=
  @resolveRedirect_iff _ _
    ⟨http, "example.test".toList, "/dir/a".toList, "example.test".toList, 80⟩ (by decide)

/-- A reference to another authority becomes a path. -/
theorem not_resolvesAsReference : ¬∀ base location destination, Client.destination base = .ok destination →
    ResolvesAsReference base location := by
  intro all
  have same := all "http://example.test/dir/a".toList "//cdn.example.test/b".toList
    ⟨http, "example.test".toList, "/dir/a".toList, "example.test".toList, 80⟩ (by decide)
    "http://example.test//cdn.example.test/b".toList (by decide)
  exact absurd same (by decide)

end Client

end BasicNext.Web
