import BasicNext.Text.TemporalSlices
import BasicNext.Lib.Digits

/-!
# Hexadecimal texts

`decode_hex` and `encode_hex` of `bn_core_compress`. The decoder hands each two bytes to the integer parser,
which takes a plus sign in front of the digits.
-/

namespace BasicNext.Compress.Hex

open Lib Text

/-- `text.get(start..stop)`. -/
def get (text : List UInt8) (start stop : Nat) : Option (List UInt8) :=
  if start ≤ stop ∧ isCharBoundary text start ∧ isCharBoundary text stop then some ((text.take stop).drop start)
  else none

/-- `char::to_digit(16)` of a byte. -/
def toDigit (byte : UInt8) : Option Nat :=
  if byteOf '0' ≤ byte ∧ byte ≤ byteOf '9' then some (byte.toNat - 48)
  else if byteOf 'a' ≤ byte ∧ byte ≤ byteOf 'f' then some (byte.toNat - 87)
  else if byteOf 'A' ≤ byte ∧ byte ≤ byteOf 'F' then some (byte.toNat - 55)
  else none

/-- The digits of a number that must fit a byte, with the value so far. -/
def readDigits : List UInt8 → Nat → Option UInt8
  | [], value => some value.toUInt8
  | digit :: rest, value =>
    match toDigit digit with
    | none => none
    | some digit => if value * 16 + digit < 256 then readDigits rest (value * 16 + digit) else none

/-- `u8::from_str_radix(text, 16)`. -/
def fromStrRadix (text : List UInt8) : Option UInt8 :=
  if text = [] ∨ text = [byteOf '+'] ∨ text = [byteOf '-'] then none
  else if text.head? = some (byteOf '+') then readDigits text.tail 0
  else readDigits text 0

def decodeHex (text : String) : Option (List UInt8) :=
  let bytes := asBytes text
  if bytes.length % 2 ≠ 0 then none
  else (List.range' 0 (bytes.length / 2) 2).mapM fun i => (get bytes i (i + 2)).bind fromStrRadix

def encodeHex (bytes : List UInt8) : String :=
  bytes.foldl (fun out byte => out ++ String.ofList (paddedDigits 16 2 byte.toNat)) ""

/-! ### Pairs of bytes -/

/-- The decoder without positions. -/
def decodePairs : List UInt8 → Option (List UInt8)
  | [] => some []
  | [_] => none
  | first :: second :: rest => do
    let byte ← fromStrRadix [first, second]
    let bytes ← decodePairs rest
    return byte :: bytes

variable {first second byte : UInt8} {text : String} {bytes rest : List UInt8}

theorem toDigit_of_not_ascii (high : ¬ byte < 0x80) : toDigit byte = none ∧ byte ≠ byteOf '+' := by
  simp only [UInt8.lt_iff_toNat_lt, UInt8.reduceToNat] at high
  unfold toDigit
  simp only [UInt8.le_iff_toNat_le, toNat_byteOf, Char.reduceToNat]
  refine ⟨?_, ?_⟩
  · rw [if_neg (by omega), if_neg (by omega), if_neg (by omega)]
  · intro plus
    rw [plus, toNat_byteOf] at high
    simp at high

theorem toDigit_lt {digit : Nat} (found : toDigit byte = some digit) : digit < 16 := by
  unfold toDigit at found
  simp only [UInt8.le_iff_toNat_le, toNat_byteOf, Char.reduceToNat] at found
  split_ifs at found with decimal lower upper <;> simp only [Option.some.injEq] at found <;> omega

theorem fromStrRadix_pair : fromStrRadix [first, second] = if first = byteOf '+' then (toDigit second).map Nat.toUInt8
    else (toDigit first).bind fun high => (toDigit second).map fun low => (high * 16 + low).toUInt8 := by
  simp only [fromStrRadix, List.cons_ne_nil, List.cons.injEq, and_false, or_self, if_false, List.head?_cons,
    Option.some.injEq, List.tail_cons, readDigits]
  by_cases plus : first = byteOf '+'
  · rw [if_pos plus, if_pos plus]
    cases low : toDigit second with
    | none => rfl
    | some low =>
      have := toDigit_lt low
      simp; omega
  · rw [if_neg plus, if_neg plus]
    cases high : toDigit first with
    | none => rfl
    | some high' =>
      have := toDigit_lt high
      cases low : toDigit second with
      | none => simp
      | some low =>
        have := toDigit_lt low
        simp; omega

theorem fromStrRadix_of_not_ascii (high : ¬ first < 0x80) : fromStrRadix [first, second] = none := by
  obtain ⟨noDigit, noPlus⟩ := toDigit_of_not_ascii high
  rw [fromStrRadix_pair, if_neg noPlus, noDigit]
  rfl

theorem decodePairs_of_not_ascii (high : ¬ first < 0x80) : decodePairs (first :: rest) = none := by
  cases rest with
  | nil => rfl
  | cons second rest =>
    rw [decodePairs, fromStrRadix_of_not_ascii high]
    rfl

theorem mapM_get (count : Nat) : ∀ (start : Nat), isCharBoundary bytes start = true →
    (bytes.drop start).length = 2 * count →
      (List.range' start count 2).mapM (fun i => (get bytes i (i + 2)).bind fromStrRadix) = decodePairs (bytes.drop start) := by
  induction count with
  | zero =>
    intro start _ length
    rw [List.eq_nil_of_length_eq_zero length]
    rfl
  | succ count ih =>
    intro start boundary length
    obtain ⟨first, second, rest, pair⟩ : ∃ first second rest, bytes.drop start = first :: second :: rest := by
      cases cut : bytes.drop start with
      | nil => simp [cut] at length
      | cons first rest =>
        cases rest with
        | nil => simp [cut] at length; omega
        | cons second rest => exact ⟨first, second, rest, rfl⟩
    have later : bytes.drop (start + 2) = rest := by
      rw [← List.drop_drop, pair]
      rfl
    rw [List.range'_succ, List.mapM_cons, pair, decodePairs]
    by_cases next : isCharBoundary bytes (start + 2) = true
    · have got : get bytes start (start + 2) = some [first, second] := by
        rw [get, if_pos ⟨by omega, boundary, next⟩, List.drop_take, pair]
        simp
      have others := ih (start + 2) next (by rw [List.length_drop] at length ⊢; omega)
      rw [later] at others
      rw [got, others]
      rfl
    · have got : get bytes start (start + 2) = none := if_neg fun all => next all.2.2
      have nothing : decodePairs rest = none := by
        cases rest with
        | nil =>
          rw [pair] at length
          have ends : start + 2 = bytes.length := by
            have := congrArg List.length pair
            simp at this
            omega
          rw [ends] at next
          exact absurd isCharBoundary_length next
        | cons third rest =>
          apply decodePairs_of_not_ascii
          intro ascii
          have there : bytes[start + 2]? = some third := by
            have := congrArg List.head? later
            rwa [List.head?_drop] at this
          exact next (isCharBoundary_at there ascii)
      rw [got, nothing]
      cases fromStrRadix [first, second] <;> rfl

theorem decodePairs_of_odd (odd : bytes.length % 2 ≠ 0) : decodePairs bytes = none := by
  induction bytes using decodePairs.induct with
  | case1 => simp at odd
  | case2 => rfl
  | case3 first second rest ih =>
    rw [decodePairs, ih (by simp at odd; omega)]
    cases fromStrRadix [first, second] <;> rfl

theorem decodeHex_eq : decodeHex text = decodePairs (asBytes text) := by
  unfold decodeHex
  dsimp only
  split_ifs with odd
  · exact (decodePairs_of_odd odd).symm
  · exact mapM_get _ 0 isCharBoundary_zero (by simp; omega)

/-! ### Texts -/

def isHexDigit (c : Char) : Bool := c.isDigit || ('a' ≤ c && c ≤ 'f') || ('A' ≤ c && c ≤ 'F')

/-- The texts that the decoder takes: pairs of a digit or a plus sign, and a digit. -/
def pairs : List Char → Bool
  | [] => true
  | [_] => false
  | first :: second :: rest => (isHexDigit first || first == '+') && isHexDigit second && pairs rest

variable {c : Char} {characters : List Char}

theorem isHexDigit_lt (hex : isHexDigit c = true) : c.toNat < 128 := by
  simp only [isHexDigit, Char.isDigit, Bool.or_eq_true, Bool.and_eq_true, decide_eq_true_eq, Char.le_def,
    UInt32.le_iff_toNat_le] at hex
  have value : c.val.toNat = c.toNat := rfl
  have bounds : '9'.val.toNat = 57 ∧ 'f'.val.toNat = 102 ∧ 'F'.val.toNat = 70 := ⟨rfl, rfl, rfl⟩
  omega

theorem toDigit_byteOf (ascii : c.toNat < 128) : (toDigit (byteOf c)).isSome = isHexDigit c
    ∧ (byteOf c = byteOf '+' ↔ c = '+')
    ∧ ∀ digit, toDigit (byteOf c) = some digit → Nat.digitChar digit = c.toLower := by
  have all : ∀ n < 128, (toDigit (byteOf (Char.ofNat n))).isSome = isHexDigit (Char.ofNat n)
      ∧ (byteOf (Char.ofNat n) = byteOf '+' ↔ Char.ofNat n = '+')
      ∧ ∀ digit ∈ toDigit (byteOf (Char.ofNat n)), Nat.digitChar digit = (Char.ofNat n).toLower := by decide
  have here := all c.toNat ascii
  rw [Char.ofNat_toNat] at here
  exact here

theorem utf8EncodeChar_other (other : ¬ c.toNat < 128) :
    ∃ first rest, String.utf8EncodeChar c = first :: rest ∧ ¬ first < 0x80 := by
  obtain ⟨first, rest, encoded, -, bytes⟩ := utf8EncodeChar_cases c
  refine ⟨first, rest, encoded, ?_⟩
  rcases bytes with ⟨-, same⟩ | ⟨high, -⟩
  · rw [UInt8.lt_iff_toNat_lt, same]
    exact other
  · exact high

theorem decodePairs_characters {first second : Char} :
    decodePairs ((first :: second :: characters).flatMap String.utf8EncodeChar) =
      if first.toNat < 128 ∧ second.toNat < 128 then do
        let byte ← fromStrRadix [byteOf first, byteOf second]
        let bytes ← decodePairs (characters.flatMap String.utf8EncodeChar)
        return byte :: bytes
      else none := by
  by_cases ascii : first.toNat < 128
  · rw [List.flatMap_cons, utf8EncodeChar_ascii ascii, List.flatMap_cons]
    by_cases ascii' : second.toNat < 128
    · rw [utf8EncodeChar_ascii ascii', if_pos ⟨ascii, ascii'⟩]
      rfl
    · obtain ⟨byte, rest, encoded, high⟩ := utf8EncodeChar_other ascii'
      rw [encoded, if_neg (fun both => ascii' both.2)]
      have nothing : fromStrRadix [byteOf first, byte] = none := by
        rw [fromStrRadix_pair, (toDigit_of_not_ascii high).1]
        split_ifs
        · rfl
        · cases toDigit (byteOf first) <;> rfl
      simp [decodePairs, nothing]
  · obtain ⟨byte, rest, encoded, high⟩ := utf8EncodeChar_other ascii
    rw [List.flatMap_cons, encoded, if_neg (fun both => ascii both.1)]
    exact decodePairs_of_not_ascii high

theorem isSome_decodePairs (characters : List Char) :
    (decodePairs (characters.flatMap String.utf8EncodeChar)).isSome = pairs characters := by
  induction characters using pairs.induct with
  | case1 => rfl
  | case2 c =>
    obtain ⟨first, rest, encoded, -, bytes⟩ := utf8EncodeChar_cases c
    rw [List.flatMap_cons, encoded]
    rcases bytes with ⟨rfl, -⟩ | ⟨high, -⟩
    · rfl
    · rw [List.cons_append, decodePairs_of_not_ascii high]
      rfl
  | case3 first second rest ih =>
    rw [decodePairs_characters, pairs, ← ih]
    by_cases ascii : first.toNat < 128 ∧ second.toNat < 128
    · obtain ⟨digit, plus, -⟩ := toDigit_byteOf ascii.1
      obtain ⟨digit', -, -⟩ := toDigit_byteOf ascii.2
      rw [if_pos ascii, ← digit, ← digit', fromStrRadix_pair]
      by_cases sign : byteOf first = byteOf '+'
      · rw [if_pos sign, plus.1 sign]
        cases toDigit (byteOf second) <;> cases decodePairs (rest.flatMap String.utf8EncodeChar) <;> rfl
      · have noSign : (first == '+') = false := by simpa using fun same => sign (plus.2 same)
        rw [if_neg sign, noSign]
        cases toDigit (byteOf first) <;> cases toDigit (byteOf second) <;>
          cases decodePairs (rest.flatMap String.utf8EncodeChar) <;> rfl
    · rw [if_neg ascii]
      rcases not_and_or.1 ascii with other | other
      · have notHex : isHexDigit first = false := by
          by_contra hex
          exact other (isHexDigit_lt (by simpa using hex))
        have notSign : (first == '+') = false := by
          rw [beq_eq_false_iff_ne]
          rintro rfl
          exact other (by decide)
        simp [notHex, notSign]
      · have notHex : isHexDigit second = false := by
          by_contra hex
          exact other (isHexDigit_lt (by simpa using hex))
        simp [notHex]

theorem isSome_decodeHex : (decodeHex text).isSome = pairs text.toList := by
  rw [decodeHex_eq]
  exact isSome_decodePairs text.toList

/-- Pairs of hexadecimal digits. -/
def IsHex (text : String) : Prop := text.length % 2 = 0 ∧ ∀ c ∈ text.toList, isHexDigit c = true

theorem pairs_iff : (pairs characters = true ∧ '+' ∉ characters) ↔
    characters.length % 2 = 0 ∧ ∀ c ∈ characters, isHexDigit c = true := by
  induction characters using pairs.induct with
  | case1 => simp [pairs]
  | case2 c => simp [pairs]
  | case3 first second rest ih =>
    have noPlus : isHexDigit '+' = false := by decide
    simp only [pairs, Bool.and_eq_true, Bool.or_eq_true, beq_iff_eq, List.mem_cons, not_or, List.length_cons,
      forall_eq_or_imp]
    constructor
    · rintro ⟨⟨⟨digit | sign, digit'⟩, others⟩, noSign, noSign', noSigns⟩
      · obtain ⟨even, all⟩ := ih.1 ⟨others, noSigns⟩
        exact ⟨by omega, digit, digit', all⟩
      · exact absurd sign.symm noSign
    · rintro ⟨even, digit, digit', all⟩
      obtain ⟨others, noSigns⟩ := ih.2 ⟨by omega, all⟩
      refine ⟨⟨⟨.inl digit, digit'⟩, others⟩, ?_, ?_, noSigns⟩
      · rintro rfl
        rw [noPlus] at digit
        cases digit
      · rintro rfl
        rw [noPlus] at digit'
        cases digit'

/-! ### Encoding -/

theorem paddedDigits_byte (byte : UInt8) :
    paddedDigits 16 2 byte.toNat = [Nat.digitChar (byte.toNat / 16), Nat.digitChar (byte.toNat % 16)] := by
  have small := byte.toNat_lt
  rw [paddedDigits_succ (by omega), paddedDigits_one (by omega)]
  rfl

theorem toList_encodeHex (bytes : List UInt8) :
    (encodeHex bytes).toList = bytes.flatMap fun byte => paddedDigits 16 2 byte.toNat := by
  have general : ∀ (bytes : List UInt8) (out : String),
      (bytes.foldl (fun out byte => out ++ String.ofList (paddedDigits 16 2 byte.toNat)) out).toList =
        out.toList ++ bytes.flatMap fun byte => paddedDigits 16 2 byte.toNat := by
    intro bytes
    induction bytes with
    | nil => simp
    | cons byte bytes ih =>
      intro out
      rw [List.foldl_cons, ih]
      simp
  exact (general bytes "").trans (List.nil_append _)

theorem digitChar_facts : ∀ digit < 16, (Nat.digitChar digit).toNat < 128
    ∧ toDigit (byteOf (Nat.digitChar digit)) = some digit ∧ byteOf (Nat.digitChar digit) ≠ byteOf '+' := by decide

theorem decodeHex_encodeHex (bytes : List UInt8) : decodeHex (encodeHex bytes) = some bytes := by
  rw [decodeHex_eq, asBytes, toList_encodeHex]
  induction bytes with
  | nil => rfl
  | cons byte bytes ih =>
    have small := byte.toNat_lt
    obtain ⟨ascii, digit, noPlus⟩ := digitChar_facts (byte.toNat / 16) (by omega)
    obtain ⟨ascii', digit', -⟩ := digitChar_facts (byte.toNat % 16) (by omega)
    have value : (byte.toNat / 16 * 16 + byte.toNat % 16).toUInt8 = byte := by
      rw [Nat.div_add_mod']
      exact UInt8.ofNat_toNat
    rw [List.flatMap_cons, paddedDigits_byte, List.cons_append, List.cons_append, List.nil_append,
      decodePairs_characters, if_pos ⟨ascii, ascii'⟩, ih, fromStrRadix_pair, if_neg noPlus, digit, digit',
      Option.bind_some, Option.map_some, value]
    rfl

theorem encodeHex_decodePairs (hex : ∀ c ∈ characters, isHexDigit c = true)
    (decoded : decodePairs (characters.flatMap String.utf8EncodeChar) = some bytes) :
    (encodeHex bytes).toList = characters.map Char.toLower := by
  rw [toList_encodeHex]
  induction characters using pairs.induct generalizing bytes with
  | case1 =>
    cases decoded
    rfl
  | case2 c =>
    have ascii := isHexDigit_lt (hex c (by simp))
    rw [List.flatMap_cons, utf8EncodeChar_ascii ascii] at decoded
    cases decoded
  | case3 first second rest ih =>
    simp only [List.forall_mem_cons] at hex
    obtain ⟨digit, digit', others⟩ := hex
    have ascii := isHexDigit_lt digit
    have ascii' := isHexDigit_lt digit'
    obtain ⟨some', plus, lower⟩ := toDigit_byteOf ascii
    obtain ⟨some'', -, lower'⟩ := toDigit_byteOf ascii'
    obtain ⟨high, found⟩ := Option.isSome_iff_exists.1 (some'.trans digit)
    obtain ⟨low, found'⟩ := Option.isSome_iff_exists.1 (some''.trans digit')
    have noPlus : byteOf first ≠ byteOf '+' := by
      intro same
      rw [plus.1 same] at digit
      exact absurd digit (by decide)
    rw [decodePairs_characters, if_pos ⟨ascii, ascii'⟩, fromStrRadix_pair, if_neg noPlus, found, found'] at decoded
    cases later : decodePairs (rest.flatMap String.utf8EncodeChar) with
    | none => simp [later] at decoded
    | some bytes' =>
      simp only [later, Option.bind_some, Option.map_some, Option.pure_def, Option.bind_eq_bind,
        Option.some.injEq] at decoded
      have small := toDigit_lt found
      have small' := toDigit_lt found'
      have value : (high * 16 + low).toUInt8.toNat = high * 16 + low := by
        simp; omega
      rw [← decoded, List.flatMap_cons, paddedDigits_byte, value, ih others later, List.map_cons, List.map_cons,
        ← lower high found, ← lower' low found', show (high * 16 + low) / 16 = high by omega,
        show (high * 16 + low) % 16 = low by omega]
      rfl

/-- The text decodes if and only if it is pairs of hexadecimal digits, and then its bytes spell it in lower case. -/
structure DecodesExactly (text : String) : Prop where
  accepted : (decodeHex text).isSome ↔ IsHex text
  spelled : ∀ bytes, decodeHex text = some bytes → (encodeHex bytes).toList = text.toList.map Char.toLower

theorem DecodesExactly.iff_unsigned : DecodesExactly text ↔ ¬ (pairs text.toList = true ∧ '+' ∈ text.toList) := by
  refine ⟨?_, fun unsigned => ⟨?_, ?_⟩⟩
  · rintro ⟨accepted, -⟩ ⟨all, sign⟩
    obtain ⟨-, hex⟩ := accepted.1 (isSome_decodeHex.trans all)
    exact absurd (hex _ sign) (by decide)
  · rw [isSome_decodeHex, IsHex, ← String.length_toList, ← pairs_iff]
    exact ⟨fun all => ⟨all, fun sign => unsigned ⟨all, sign⟩⟩, fun both => both.1⟩
  · intro bytes decoded
    have all : pairs text.toList = true := by
      rw [← isSome_decodeHex, decoded]
      rfl
    have hex := (pairs_iff.1 ⟨all, fun sign => unsigned ⟨all, sign⟩⟩).2
    rw [decodeHex_eq] at decoded
    exact encodeHex_decodePairs hex decoded

/-- Decoding inverts encoding; a text decodes exactly unless a plus sign stands for the first digit of a pair. -/
theorem decodesExactly_iff (text : String) : (∀ bytes, decodeHex (encodeHex bytes) = some bytes)
    ∧ (DecodesExactly text ↔ ¬ (pairs text.toList = true ∧ '+' ∈ text.toList)) :=
  ⟨decodeHex_encodeHex, DecodesExactly.iff_unsigned⟩

/-- `+f` decodes to the byte 15. -/
theorem not_decodesExactly : ¬ ∀ text, DecodesExactly text := by
  intro all
  exact DecodesExactly.iff_unsigned.1 (all "+f") (by decide)

end BasicNext.Compress.Hex
