import BasicNext.Lib.Except
import Mathlib.Data.UInt

/-!
# Request targets

Percent decoding and the canonical target of a request (`bn_web::web`).
-/

namespace BasicNext.Web

open Lib

def isControl (ch : Char) : Bool := ch.toNat < 0x20 || ch.toNat == 0x7f

def hex (byte : UInt8) : Option UInt8 :=
  if 0x30 ≤ byte ∧ byte ≤ 0x39 then some (byte - 0x30)
  else if 0x61 ≤ byte ∧ byte ≤ 0x66 then some (byte - 0x61 + 10)
  else if 0x41 ≤ byte ∧ byte ≤ 0x46 then some (byte - 0x41 + 10)
  else none

/-- The loop over the bytes of a component; `0x25` is the percent sign. -/
def decodeBytes : List UInt8 → Except String (List UInt8)
  | [] => .ok []
  | [byte] => if byte = 0x25 then .error "malformed percent escape" else .ok [byte]
  | [byte, next] =>
    if byte = 0x25 then .error "malformed percent escape"
    else do
      let rest ← decodeBytes [next]
      pure (byte :: rest)
  | byte :: first :: second :: rest =>
    if byte = 0x25 then
      match hex first, hex second with
      | some high, some low => do
        let rest ← decodeBytes rest
        pure (((high <<< 4) ||| low) :: rest)
      | _, _ => .error "malformed percent escape"
    else do
      let rest ← decodeBytes (first :: second :: rest)
      pure (byte :: rest)

def decodeComponent (input : String) : Except String String := do
  let output ← decodeBytes input.toUTF8.data.toList
  match String.fromUTF8? ⟨output.toArray⟩ with
  | some decoded => pure decoded
  | none => .error "invalid UTF-8 in target"

structure Target where
  path : String
  query : String
deriving DecidableEq, Repr

/-- The loop over the segments of the raw path, with the index and the path so far. -/
def decodeSegments : List (List Char) → Nat → String → Except String String
  | [], _, path => .ok path
  | segment :: rest, index, path => do
    let path := if index > 0 then path.push '/' else path
    let decoded ← decodeComponent (String.ofList segment)
    if decoded.toList.any isControl || decoded == "." || decoded == ".." || decoded.toList.contains '/'
        || decoded.toList.contains '\\' then .error "ambiguous path segment"
    else decodeSegments rest (index + 1) (path ++ decoded)

/-- `raw.split_once('?')`, with an empty query when there is none. -/
def splitQuery (raw : String) : List Char × String :=
  (raw.toList.takeWhile (· ≠ '?'), String.ofList ((raw.toList.dropWhile (· ≠ '?')).drop 1))

def canonicalTarget (maxTargetBytes : Nat) (raw : String) : Except String Target :=
  if raw.isEmpty || raw.utf8ByteSize > maxTargetBytes
      || raw.toList.any (fun ch => ch == '\\' || isControl ch) then .error "invalid request target"
  else do
    let path ← decodeSegments ((splitQuery raw).1.splitOn '/') 0 ""
    if path.toList.head? ≠ some '/' then .error "request target must be an origin-form path"
    else pure ⟨path, (splitQuery raw).2⟩

/-! The characters of a decoded path. -/

theorem decodeSegments_plain {rawSegments : List (List Char)} {index : Nat} {before path : String}
    (plain : ∀ ch ∈ before.toList, isControl ch = false)
    (decoded : decodeSegments rawSegments index before = .ok path) :
    ∀ ch ∈ path.toList, isControl ch = false := by
  induction rawSegments generalizing index before with
  | nil =>
    cases decoded
    exact plain
  | cons segment rest ih =>
    rw [decodeSegments] at decoded
    obtain ⟨found, -, decoded⟩ := bind_eq_ok.1 decoded
    split at decoded
    · cases decoded
    · next accepted =>
      simp only [Bool.or_eq_true, not_or, Bool.not_eq_true, List.any_eq_false] at accepted
      refine ih (fun ch member => ?_) decoded
      rw [String.toList_append] at member
      rcases List.mem_append.1 member with old | new
      · split at old
        · rw [String.toList_push] at old
          rcases List.mem_append.1 old with old | slash
          · exact plain ch old
          · obtain rfl := List.mem_singleton.1 slash
            rfl
        · exact plain ch old
      · exact accepted.1.1.1.1 ch new

theorem canonicalTarget_plain {maxTargetBytes : Nat} {raw : String} {target : Target}
    (accepted : canonicalTarget maxTargetBytes raw = .ok target) :
    ∀ ch ∈ target.path.toList, isControl ch = false := by
  rw [canonicalTarget] at accepted
  split at accepted
  · cases accepted
  · obtain ⟨path, decoded, accepted⟩ := bind_eq_ok.1 accepted
    split at accepted
    · cases accepted
    · obtain rfl := pure_eq_ok.1 accepted
      exact decodeSegments_plain (by simp) decoded

end BasicNext.Web
