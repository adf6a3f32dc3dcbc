import BasicNext.Lib.Utf8Order
import BasicNext.Native.Alternatives
import BasicNext.Native.Casts

/-!
# The strings of the native runtime

A `STRING` of native code is a pointer behind whose header the bytes of a text lie (`bn_rt::string`). The header counts the
bytes, so a NUL is a character as any other, and a `STRING` with more bytes than an `INTEGER` counts is not read. The
functions that compare, measure, index and join such pointers.
-/

namespace BasicNext.Native.Strings

open Lib Lib.Llvm

/-! ### Memory -/

def i32Max : Nat := 2 ^ 31 - 1

def immortalRefCount : BitVec 64 := -1

def maxStringRefCount : Nat := 2 ^ 63 - 1

/-- What lies at the address of a payload, with the header before it. -/
abbrev Memory := Address → Option StringObject

def headerMut (memory : Memory) (ptr : Address) : Option StringObject :=
  if ptr = 0 ∨ ptr.toNat % 8 ≠ 0 then none
  else do
    let object ← memory ptr
    if maxStringRefCount < object.count.toNat ∧ object.count ≠ immortalRefCount then none
    else if i32Max < object.length.toNat then none
    else some object

/-- The bytes that the header counts. -/
def sliceFromRaw (memory : Memory) (ptr : Address) : Option (List UInt8) :=
  (headerMut memory ptr).map fun object => object.payload.take object.length.toNat

/-- `c_string_from_bytes` -/
def newString (bytes : List UInt8) : StringObject := ⟨1, BitVec.ofNat 64 bytes.length, bytes ++ [0]⟩

/-! ### The functions of the runtime -/

def strConcat (memory : Memory) (left right : Address) : StringObject :=
  newString ((sliceFromRaw memory left).getD [] ++ (sliceFromRaw memory right).getD [])

def strCmp (memory : Memory) (left right : Address) : BitVec 32 :=
  if left = right then 0
  else
    let left := (sliceFromRaw memory left).getD []
    let right := (sliceFromRaw memory right).getD []
    if left < right then -1 else if left = right then 0 else 1

def strEq (memory : Memory) (left right : Address) : BitVec 32 :=
  if left = right then 1
  else
    match sliceFromRaw memory left, sliceFromRaw memory right with
    | some left, some right => if left = right then 1 else 0
    | _, _ => 0

def strLen (memory : Memory) (text : Address) : BitVec 32 :=
  match (sliceFromRaw memory text).bind fromUtf8 with
  | some valid => BitVec.ofNat 32 (min valid.toList.length i32Max)
  | none => 0

/-- One character in eight bytes, in their order in memory. -/
def packUtf8 (character : Char) : List UInt8 :=
  let text := String.utf8EncodeChar character
  text ++ List.replicate (8 - text.length) 0

def strFromPacked (packed : List UInt8) : StringObject :=
  if packed.all (· == 0) then newString [0] else newString (packed.takeWhile (· != 0))

/-- The character at an index, or the two facts of the failure: the index and the count of characters. -/
def strIndexUtf8 (memory : Memory) (text : Address) (index : BitVec 32) : Except (Int × Int) (List UInt8) :=
  let valid := ((sliceFromRaw memory text).bind fromUtf8).getD ""
  let character := if index.toInt < 0 then none else valid.toList[index.toNat]?
  match character with
  | some character => .ok (packUtf8 character)
  | none => .error (index.toInt, valid.toList.length)

/-- `string_text`: the text of a `STRING`. -/
def stringText (object : StringObject) : Option String := (sliceFromRaw (fun _ => some object) 8).bind fromUtf8

/-! ### Texts in memory -/

/-- A pointer to a `STRING` with this text, held by as many as a count may say or by none that is counted. -/
structure Holds (memory : Memory) (ptr : Address) (text : String) : Prop where
  notNull : ptr ≠ 0
  aligned : ptr.toNat % 8 = 0
  object : ∃ count : BitVec 64, (count.toNat ≤ maxStringRefCount ∨ count = immortalRefCount) ∧
    memory ptr = some (stringObject count text)
  -- No text has more bytes than there are addresses.
  addressable : text.utf8ByteSize < 2 ^ 64

variable {memory : Memory} {ptr left right : Address} {text first second : String}

theorem stringBytes_eq (text : String) : stringBytes text = utf8Bytes text.toList := rfl

theorem length_stringBytes (text : String) : (stringBytes text).length = text.utf8ByteSize := length_utf8Bytes text

theorem length_stringObject (addressable : text.utf8ByteSize < 2 ^ 64) (count : BitVec 64) :
    (stringObject count text).length.toNat = text.utf8ByteSize := by
  rw [stringObject, BitVec.toNat_ofNat, length_stringBytes, Nat.mod_eq_of_lt addressable]

theorem Holds.slice (holds : Holds memory ptr text) :
    sliceFromRaw memory ptr = if text.utf8ByteSize ≤ i32Max then some (stringBytes text) else none := by
  obtain ⟨count, live, found⟩ := holds.object
  have length := length_stringObject holds.addressable count
  have counted : ¬(maxStringRefCount < (stringObject count text).count.toNat ∧
      (stringObject count text).count ≠ immortalRefCount) := by
    rintro ⟨above, mortal⟩
    rcases live with within | immortal
    · exact absurd within (Nat.not_le.2 above)
    · exact mortal immortal
  rw [sliceFromRaw, headerMut, if_neg (not_or.2 ⟨holds.notNull, fun apart => apart holds.aligned⟩), found]
  show Option.map _ (if _ then _ else _) = _
  rw [if_neg counted, length]
  by_cases fits : text.utf8ByteSize ≤ i32Max
  · rw [if_neg (Nat.not_lt.2 fits), if_pos fits]
    show some ((stringBytes text ++ [0]).take (stringObject count text).length.toNat) = _
    rw [length, ← length_stringBytes, List.take_left]
  · rw [if_pos (Nat.not_le.1 fits), if_neg fits]
    rfl

theorem Holds.slice_of_le (holds : Holds memory ptr text) (fits : text.utf8ByteSize ≤ i32Max) :
    sliceFromRaw memory ptr = some (stringBytes text) := by
  rw [holds.slice, if_pos fits]

theorem Holds.slice_of_lt (holds : Holds memory ptr text) (long : i32Max < text.utf8ByteSize) :
    sliceFromRaw memory ptr = none := by
  rw [holds.slice, if_neg (Nat.not_le.2 long)]

theorem fromUtf8_stringBytes (text : String) : fromUtf8 (stringBytes text) = some text := fromUtf8_utf8Bytes text

theorem Holds.unique (one : Holds memory ptr first) (other : Holds memory ptr second) : stringBytes first = stringBytes second := by
  obtain ⟨_, _, found⟩ := one.object
  obtain ⟨_, _, found'⟩ := other.object
  have same := congrArg StringObject.payload (Option.some.inj (found.symm.trans found'))
  exact List.append_cancel_right same

/-! ### Texts that are read -/

theorem stringBytes_lt_iff : stringBytes first < stringBytes second ↔ first < second := utf8Bytes_lt_iff

theorem stringBytes_inj : stringBytes first = stringBytes second ↔ first = second := by
  constructor
  · intro same
    exact String.toList_inj.1 (utf8Bytes_injective same)
  · exact congrArg stringBytes

theorem strCmp_eq (one : Holds memory left first) (other : Holds memory right second) (fits : first.utf8ByteSize ≤ i32Max)
    (fits' : second.utf8ByteSize ≤ i32Max) :
    strCmp memory left right = if first < second then -1 else if first = second then 0 else 1 := by
  rw [strCmp, one.slice_of_le fits, other.slice_of_le fits']
  by_cases same : left = right
  · subst same
    have equal := stringBytes_inj.1 (one.unique other)
    rw [if_pos rfl, equal, if_neg (String.lt_irrefl second), if_pos rfl]
  · rw [if_neg same]
    simp only [Option.getD_some, stringBytes_lt_iff, stringBytes_inj]

theorem strEq_eq (one : Holds memory left first) (other : Holds memory right second) (fits : first.utf8ByteSize ≤ i32Max)
    (fits' : second.utf8ByteSize ≤ i32Max) : strEq memory left right = if first = second then 1 else 0 := by
  rw [strEq, one.slice_of_le fits, other.slice_of_le fits']
  by_cases same : left = right
  · subst same
    rw [if_pos rfl, if_pos (stringBytes_inj.1 (one.unique other))]
  · rw [if_neg same]
    simp only [stringBytes_inj]

theorem strLen_eq (holds : Holds memory ptr text) (fits : text.utf8ByteSize ≤ i32Max) :
    strLen memory ptr = BitVec.ofNat 32 text.toList.length := by
  have fewer := length_toList_le_utf8ByteSize text
  rw [strLen, holds.slice_of_le fits, Option.bind_some, fromUtf8_stringBytes]
  dsimp only
  rw [Nat.min_eq_left (fewer.trans fits)]

theorem strLen_of_lt (holds : Holds memory ptr text) (long : i32Max < text.utf8ByteSize) : strLen memory ptr = 0 := by
  rw [strLen, holds.slice_of_lt long]
  rfl

theorem Holds.valid (holds : Holds memory ptr text) : ((sliceFromRaw memory ptr).bind fromUtf8).getD "" =
    if text.utf8ByteSize ≤ i32Max then text else "" := by
  rw [holds.slice]
  split
  · rw [Option.bind_some, fromUtf8_stringBytes, Option.getD_some]
  · rfl

/-! ### Packed characters -/

theorem utf8EncodeChar_ne_zero {c : Char} (some : c ≠ nul) : ∀ byte ∈ String.utf8EncodeChar c, byte ≠ 0 := by
  have positive : 0 < c.val.toNat := by
    apply Nat.pos_of_ne_zero
    intro zero
    apply some
    rw [← Char.val_inj, ← UInt32.toNat_inj]
    exact zero
  have bound : c.val.toNat < 0x110000 := by
    have valid := c.valid
    simp only [UInt32.isValidChar, Nat.isValidChar] at valid
    omega
  intro byte member
  rw [String.utf8EncodeChar] at member
  generalize c.val.toNat = n at *
  split at member
  · rw [List.mem_singleton.1 member]
    exact byte_ne_zero positive (by omega)
  · split at member
    · simp only [List.mem_cons, List.not_mem_nil, or_false] at member
      rcases member with rfl | rfl <;> exact byte_ne_zero (by omega) (by omega)
    · split at member
      · simp only [List.mem_cons, List.not_mem_nil, or_false] at member
        rcases member with rfl | rfl | rfl <;> exact byte_ne_zero (by omega) (by omega)
      · simp only [List.mem_cons, List.not_mem_nil, or_false] at member
        rcases member with rfl | rfl | rfl | rfl <;> exact byte_ne_zero (by omega) (by omega)

theorem strFromPacked_packUtf8 (c : Char) : strFromPacked (packUtf8 c) = newString (String.utf8EncodeChar c) := by
  by_cases zero : c = nul
  · subst zero
    rfl
  · have bytes := utf8EncodeChar_ne_zero zero
    obtain ⟨first, rest, encoded⟩ := List.exists_cons_of_ne_nil (String.utf8EncodeChar_ne_nil (c := c))
    have notAll : (packUtf8 c).all (· == 0) = false := by
      rw [List.all_eq_false]
      refine ⟨first, ?_, ?_⟩
      · simp [packUtf8, encoded]
      · have apart := bytes first (by simp [encoded])
        simpa using apart
    rw [strFromPacked, notAll, if_neg Bool.false_ne_true, packUtf8]
    rw [List.takeWhile_append_of_pos fun byte member => by simpa using bytes byte member]
    simp

theorem stringText_newString (fits : text.utf8ByteSize ≤ i32Max) : stringText (newString (stringBytes text)) = some text := by
  have holds : Holds (fun _ => some (newString (stringBytes text))) 8 text := by
    refine ⟨by decide, by decide, ⟨1, .inl (by decide), rfl⟩, ?_⟩
    exact fits.trans_lt (by decide)
  rw [stringText, holds.slice_of_le fits, Option.bind_some, fromUtf8_stringBytes]

theorem stringText_newString_of_lt (long : i32Max < text.utf8ByteSize) (addressable : text.utf8ByteSize < 2 ^ 64) :
    stringText (newString (stringBytes text)) = none := by
  have holds : Holds (fun _ => some (newString (stringBytes text))) 8 text :=
    ⟨by decide, by decide, ⟨1, .inl (by decide), rfl⟩, addressable⟩
  rw [stringText, holds.slice_of_lt long]
  rfl

end BasicNext.Native.Strings
