import BasicNext.Lib.UriReference
import BasicNext.Web.Target

/-!
# The segments of a canonical target

The decoder reads bytes at indexes, and no index is past the end. The canonical path has the segments of the raw
path, each decoded once: no segment gains a separator or becomes a step up, so splitting and decoding commute.
-/

namespace BasicNext.Web

open Lib

variable {bytes output : List UInt8} {raw : String} {maxTargetBytes : Nat}

/-! ### The loop over indexes -/

/-- An index past the end of a slice. -/
inductive OutOfBounds where
  | index (index : Nat)
deriving DecidableEq, Repr

/-- `bytes[index]` -/
def byteAt (bytes : List UInt8) (index : Nat) : Except OutOfBounds UInt8 :=
  match bytes[index]? with
  | some byte => .ok byte
  | none => .error (.index index)

def decodeLoop (bytes : List UInt8) (index : Nat) (output : List UInt8) :
    Except OutOfBounds (Except String (List UInt8)) :=
  if index < bytes.length then do
    let byte ← byteAt bytes index
    if byte = 0x25 then
      if bytes.length ≤ index + 2 then return .error "malformed percent escape"
      else
        let first ← byteAt bytes (index + 1)
        match hex first with
        | none => return .error "malformed percent escape"
        | some high =>
          let second ← byteAt bytes (index + 2)
          match hex second with
          | none => return .error "malformed percent escape"
          | some low => decodeLoop bytes (index + 3) (output ++ [(high <<< 4) ||| low])
    else decodeLoop bytes (index + 1) (output ++ [byte])
  else return .ok output
termination_by bytes.length - index

theorem byteAt_eq {index : Nat} (inside : index < bytes.length) : byteAt bytes index = .ok bytes[index] := by
  rw [byteAt, List.getElem?_eq_getElem inside]

theorem decodeBytes_plain {byte : UInt8} (other : byte ≠ 0x25) :
    decodeBytes (byte :: bytes) = (decodeBytes bytes).map (byte :: ·) := by
  rcases bytes with _ | ⟨first, _ | ⟨second, rest⟩⟩
  · simp only [decodeBytes, if_neg other]
    rfl
  · simp only [decodeBytes, if_neg other]
    split_ifs <;> rfl
  · rw [decodeBytes, if_neg other]
    cases decodeBytes (first :: second :: rest) <;> rfl

theorem decodeBytes_short (short : bytes.length < 2) :
    decodeBytes (0x25 :: bytes) = .error "malformed percent escape" := by
  rcases bytes with _ | ⟨first, _ | ⟨second, rest⟩⟩
  · rfl
  · rfl
  · rw [List.length_cons, List.length_cons] at short
    omega

theorem decodeBytes_escape {first second : UInt8} : decodeBytes (0x25 :: first :: second :: bytes) = match hex first with
    | none => .error "malformed percent escape"
    | some high =>
      match hex second with
      | none => .error "malformed percent escape"
      | some low => (decodeBytes bytes).map (((high <<< 4) ||| low) :: ·) := by
  rw [decodeBytes, if_pos rfl]
  cases hex first with
  | none => rfl
  | some high =>
    cases hex second with
    | none => rfl
    | some low =>
      dsimp only
      cases decodeBytes bytes <;> rfl

theorem map_append_cons (decoded : Except String (List UInt8)) (output : List UInt8) (byte : UInt8) :
    decoded.map (output ++ [byte] ++ ·) = (decoded.map (byte :: ·)).map (output ++ ·) := by
  cases decoded with
  | error message => rfl
  | ok found => simp [Except.map]

theorem decodeLoop_eq (bytes : List UInt8) (index : Nat) (output : List UInt8) :
    decodeLoop bytes index output = .ok ((decodeBytes (bytes.drop index)).map (output ++ ·)) := by
  induction left : bytes.length - index using Nat.strongRecOn generalizing index output with
  | ind left ih =>
    rw [decodeLoop]
    by_cases inside : index < bytes.length
    · have here := List.drop_eq_getElem_cons inside
      rw [if_pos inside, byteAt_eq inside, here]
      simp only [bind, Except.bind]
      by_cases percent : bytes[index] = 0x25
      · rw [if_pos percent, percent]
        by_cases short : bytes.length ≤ index + 2
        · rw [if_pos short, decodeBytes_short (by rw [List.length_drop]; omega)]
          rfl
        · have next := List.drop_eq_getElem_cons (show index + 1 < bytes.length by omega)
          have last := List.drop_eq_getElem_cons (show index + 1 + 1 < bytes.length by omega)
          rw [if_neg short, byteAt_eq (by omega), byteAt_eq (by omega), next, last, decodeBytes_escape]
          dsimp only
          cases hex bytes[index + 1] with
          | none => rfl
          | some high =>
            cases hex bytes[index + 2] with
            | none => rfl
            | some low =>
              dsimp only
              rw [ih (bytes.length - (index + 3)) (by omega) (index + 3) _ rfl, map_append_cons]
      · rw [if_neg percent, decodeBytes_plain percent,
          ih (bytes.length - (index + 1)) (by omega) (index + 1) _ rfl, map_append_cons]
    · rw [if_neg inside, List.drop_eq_nil_of_le (by omega)]
      simp [decodeBytes, Except.map, pure, Except.pure]

/-! ### Decoding once -/

theorem hex_eq_some {byte value : UInt8} (found : hex byte = some value) : HexDigit byte value.toNat := by
  unfold hex at found
  unfold HexDigit
  split_ifs at found with decimal lower upper
  · obtain rfl := Option.some.inj found
    rw [UInt8.toNat_sub_of_le _ _ decimal.1]
    simp only [UInt8.le_iff_toNat_le, UInt8.reduceToNat] at decimal ⊢
    omega
  · obtain rfl := Option.some.inj found
    rw [UInt8.toNat_add, UInt8.toNat_sub_of_le _ _ lower.1]
    simp only [UInt8.le_iff_toNat_le, UInt8.reduceToNat] at lower ⊢
    omega
  · obtain rfl := Option.some.inj found
    rw [UInt8.toNat_add, UInt8.toNat_sub_of_le _ _ upper.1]
    simp only [UInt8.le_iff_toNat_le, UInt8.reduceToNat] at upper ⊢
    omega

theorem toNat_nibbles {high low : UInt8} (first : high.toNat < 16) (second : low.toNat < 16) :
    ((high <<< 4) ||| low).toNat = 16 * high.toNat + low.toNat := by
  have all : ∀ high < 16, ∀ low < 16, ((UInt8.ofNat high <<< 4) ||| UInt8.ofNat low).toNat = 16 * high + low := by decide
  have same := all high.toNat first low.toNat second
  rwa [UInt8.ofNat_toNat, UInt8.ofNat_toNat] at same

theorem percentDecodes_of_decodeBytes (decoded : decodeBytes bytes = .ok output) : PercentDecodes bytes output := by
  induction length : bytes.length using Nat.strongRecOn generalizing bytes output with
  | ind length ih =>
    cases bytes with
    | nil =>
      rw [decodeBytes] at decoded
      cases decoded
      exact .nil
    | cons byte rest =>
      rw [List.length_cons] at length
      by_cases percent : byte = 0x25
      · subst percent
        rcases rest with _ | ⟨first, _ | ⟨second, rest⟩⟩
        · cases decoded
        · cases decoded
        · rw [decodeBytes_escape] at decoded
          cases upper : hex first with
          | none =>
            rw [upper] at decoded
            cases decoded
          | some high =>
            cases lower : hex second with
            | none =>
              rw [upper, lower] at decoded
              cases decoded
            | some low =>
              rw [upper, lower] at decoded
              dsimp only at decoded
              obtain ⟨found, rest', rfl⟩ := map_eq_ok.1 decoded
              have first' := hex_eq_some upper
              have second' := hex_eq_some lower
              refine .escape first' second' (toNat_nibbles first'.lt second'.lt) ?_
              exact ih rest.length (by simp at length; omega) rest' rfl
      · rw [decodeBytes_plain percent] at decoded
        obtain ⟨found, rest', rfl⟩ := map_eq_ok.1 decoded
        exact .plain percent (ih rest.length (by omega) rest' rfl)

/-! ### Segments -/

/-- The second list is what the first one decodes to, and nothing else is. -/
def DecodesOnce (bytes decoded : List UInt8) : Prop := ∀ other, PercentDecodes bytes other ↔ other = decoded

def utf8 (text : List Char) : List UInt8 := (String.ofList text).toUTF8.data.toList

/-- A segment of a canonical path. -/
structure Segment (segment : List Char) : Prop where
  notHere : segment ≠ ['.']
  notUp : segment ≠ ['.', '.']
  slash : '/' ∉ segment
  backslash : '\\' ∉ segment
  plain : ∀ c ∈ segment, isControl c = false

theorem decodeComponent_eq_ok {segment : List Char} {decoded : String}
    (found : decodeComponent (String.ofList segment) = .ok decoded) :
    DecodesOnce (utf8 segment) (utf8 decoded.toList) := by
  unfold decodeComponent at found
  obtain ⟨bytes, read, found⟩ := bind_eq_ok.1 found
  unfold String.fromUTF8? at found
  split_ifs at found with valid
  dsimp only at found
  obtain rfl := pure_eq_ok.1 found
  have once := percentDecodes_of_decodeBytes read
  rw [utf8, utf8, String.ofList_toList]
  intro other
  constructor
  · intro decodes
    exact decodes.unique once
  · rintro rfl
    exact once

theorem decodeSegments_eq_ok {rawSegments : List (List Char)} {index : Nat} {before path : String}
    (decoded : decodeSegments rawSegments index before = .ok path) :
    ∃ segments : List (List Char), List.Forall₂ (fun part segment => DecodesOnce (utf8 part) (utf8 segment)) rawSegments segments
      ∧ (∀ segment ∈ segments, Segment segment)
      ∧ path.toList = before.toList
        ++ (if index > 0 then segments.flatMap ('/' :: ·) else segments.head?.getD [] ++ segments.tail.flatMap ('/' :: ·)) := by
  induction rawSegments generalizing index before with
  | nil =>
    cases decoded
    exact ⟨[], .nil, by simp, by simp⟩
  | cons raw rest ih =>
    rw [decodeSegments] at decoded
    obtain ⟨found, component, decoded⟩ := bind_eq_ok.1 decoded
    split at decoded
    · cases decoded
    · next accepted =>
      simp only [Bool.or_eq_true, not_or, Bool.not_eq_true, List.any_eq_false, beq_eq_false_iff_ne] at accepted
      obtain ⟨segments, each, good, same⟩ := ih decoded
      refine ⟨found.toList :: segments, .cons (decodeComponent_eq_ok component) each, ?_, ?_⟩
      · rw [List.forall_mem_cons]
        refine ⟨?_, good⟩
        obtain ⟨⟨⟨⟨plain, here⟩, up⟩, slash⟩, backslash⟩ := accepted
        refine ⟨fun same => here (String.toList_inj.1 same), fun same => up (String.toList_inj.1 same), ?_, ?_, ?_⟩
        · simpa using slash
        · simpa using backslash
        · simpa using plain
      · rw [same, if_pos (show index + 1 > 0 by omega), String.toList_append]
        split_ifs <;> simp

theorem splitOn_segments {first : List Char} {rest : List (List Char)} (slash : ∀ segment ∈ first :: rest, '/' ∉ segment) :
    (first ++ rest.flatMap ('/' :: ·)).splitOn '/' = first :: rest := by
  induction rest generalizing first with
  | nil =>
    rw [List.flatMap_nil, List.append_nil, List.splitOn_eq_splitOnP, List.splitOnP_eq_singleton]
    intro c member
    rw [beq_eq_false_iff_ne]
    rintro rfl
    exact slash first List.mem_cons_self member
  | cons second rest ih =>
    rw [List.forall_mem_cons] at slash
    rw [List.flatMap_cons, List.cons_append, List.splitOn_eq_splitOnP, List.splitOnP_append_cons_of_forall_mem,
      ← List.splitOn_eq_splitOnP, ih slash.2]
    · intro c member
      rw [beq_eq_false_iff_ne]
      rintro rfl
      exact slash.1 member
    · exact beq_self_eq_true _

/-! ### The function on indexes -/

def decodeComponentAt (input : String) : Except OutOfBounds (Except String String) := do
  let output ← decodeLoop input.toUTF8.data.toList 0 []
  return do
    let output ← output
    match String.fromUTF8? ⟨output.toArray⟩ with
    | some decoded => pure decoded
    | none => .error "invalid UTF-8 in target"

def decodeSegmentsAt : List (List Char) → Nat → String → Except OutOfBounds (Except String String)
  | [], _, path => return .ok path
  | segment :: rest, index, path => do
    let path := if index > 0 then path.push '/' else path
    match ← decodeComponentAt (String.ofList segment) with
    | .error message => return .error message
    | .ok decoded =>
      if decoded.toList.any isControl || decoded == "." || decoded == ".." || decoded.toList.contains '/'
          || decoded.toList.contains '\\' then return .error "ambiguous path segment"
      else decodeSegmentsAt rest (index + 1) (path ++ decoded)

def canonicalTargetAt (maxTargetBytes : Nat) (raw : String) : Except OutOfBounds (Except String Target) :=
  if raw.isEmpty || raw.utf8ByteSize > maxTargetBytes
      || raw.toList.any (fun ch => ch == '\\' || isControl ch) then return .error "invalid request target"
  else do
    match ← decodeSegmentsAt ((splitQuery raw).1.splitOn '/') 0 "" with
    | .error message => return .error message
    | .ok path =>
      if path.toList.head? ≠ some '/' then return .error "request target must be an origin-form path"
      else return .ok ⟨path, (splitQuery raw).2⟩

theorem decodeComponentAt_eq (input : String) : decodeComponentAt input = .ok (decodeComponent input) := by
  unfold decodeComponentAt decodeComponent
  rw [decodeLoop_eq, List.drop_zero]
  have same : (decodeBytes input.toUTF8.data.toList).map ([] ++ ·) = decodeBytes input.toUTF8.data.toList := by
    cases decodeBytes input.toUTF8.data.toList <;> rfl
  rw [same]
  rfl

theorem decodeSegmentsAt_eq (rawSegments : List (List Char)) (index : Nat) (path : String) :
    decodeSegmentsAt rawSegments index path = .ok (decodeSegments rawSegments index path) := by
  induction rawSegments generalizing index path with
  | nil => rfl
  | cons segment rest ih =>
    rw [decodeSegmentsAt, decodeSegments, decodeComponentAt_eq]
    cases decodeComponent (String.ofList segment) with
    | error message => rfl
    | ok decoded =>
      simp only [bind, Except.bind, ih]
      split_ifs <;> rfl

theorem canonicalTargetAt_eq (maxTargetBytes : Nat) (raw : String) :
    canonicalTargetAt maxTargetBytes raw = .ok (canonicalTarget maxTargetBytes raw) := by
  unfold canonicalTargetAt canonicalTarget
  rw [decodeSegmentsAt_eq]
  cases decodeSegments ((splitQuery raw).1.splitOn '/') 0 "" with
  | error message => split_ifs <;> rfl
  | ok path =>
    simp only [bind, Except.bind]
    split_ifs <;> rfl

/-- The path of a raw target: the characters before the first question mark. -/
def rawPath (raw : String) : List Char := raw.toList.takeWhile (· ≠ '?')

/-- The function reads no byte past the end of a component, and the path of a target that it accepts has the segments
of the raw path, each decoded once, none of them a step, a separator or a control character. -/
theorem canonicalTarget_segments (maxTargetBytes : Nat) (raw : String) :
    canonicalTargetAt maxTargetBytes raw = .ok (canonicalTarget maxTargetBytes raw)
      ∧ ∀ target, canonicalTarget maxTargetBytes raw = .ok target →
        (target.path.toList.splitOn '/').length = ((rawPath raw).splitOn '/').length
          ∧ List.Forall₂ (fun part segment => DecodesOnce (utf8 part) (utf8 segment)) ((rawPath raw).splitOn '/')
            (target.path.toList.splitOn '/')
          ∧ ∀ segment ∈ target.path.toList.splitOn '/', Segment segment := by
  refine ⟨canonicalTargetAt_eq maxTargetBytes raw, ?_⟩
  intro target accepted
  rw [canonicalTarget] at accepted
  split at accepted
  · cases accepted
  obtain ⟨path, decoded, accepted⟩ := bind_eq_ok.1 accepted
  split at accepted
  · cases accepted
  obtain rfl := pure_eq_ok.1 accepted
  have isPath : (splitQuery raw).1 = rawPath raw := rfl
  rw [isPath] at decoded
  obtain ⟨segments, each, good, same⟩ := decodeSegments_eq_ok decoded
  have some : segments ≠ [] := by
    rintro rfl
    have none := each.length_eq
    rw [List.length_nil, List.length_eq_zero_iff] at none
    exact absurd none (List.splitOn_ne_nil _ _)
  obtain ⟨first, rest, rfl⟩ := List.exists_cons_of_ne_nil some
  have split : path.toList.splitOn '/' = first :: rest := by
    rw [same, if_neg (by omega), List.head?_cons, Option.getD_some, List.tail_cons, String.toList_empty, List.nil_append]
    exact splitOn_segments fun segment member => (good segment member).slash
  rw [split]
  exact ⟨each.length_eq.symm, each, good⟩

/-- The escape in `/a%2Eb/c?d=/` is one of a dot. -/
theorem canonicalTarget_segments_escape : canonicalTarget 64 "/a%2Eb/c?d=/" = .ok ⟨"/a.b/c", "d=/"⟩ ∧
    List.Forall₂ (fun part segment => DecodesOnce (utf8 part) (utf8 segment)) [[], ['a', '%', '2', 'E', 'b'], ['c']]
      [[], ['a', '.', 'b'], ['c']] := by
  have accepted : canonicalTarget 64 "/a%2Eb/c?d=/" = .ok ⟨"/a.b/c", "d=/"⟩ := by decide
  exact ⟨accepted, ((canonicalTarget_segments 64 "/a%2Eb/c?d=/").2 _ accepted).2.1⟩

end BasicNext.Web
