import Mathlib.Data.Char
import Mathlib.Data.List.Lex

/-!
# The order of UTF-8 texts

The bytes of two texts are ordered as their characters: the first bytes of different characters, or the next ones, differ
in the order of the characters. So a text is known by its bytes.
-/

namespace BasicNext.Lib

def utf8Bytes (characters : List Char) : List UInt8 := characters.flatMap String.utf8EncodeChar

variable {c d : Char} {cs ds : List Char}

theorem utf8Bytes_cons (c : Char) (cs : List Char) : utf8Bytes (c :: cs) = String.utf8EncodeChar c ++ utf8Bytes cs :=
  List.flatMap_cons

theorem sixBits_lt {n m : Nat} (less : n < m) :
    n / 64 / 64 / 64 < m / 64 / 64 / 64 ∨ n / 64 / 64 / 64 = m / 64 / 64 / 64 ∧
      (n / 64 / 64 % 64 < m / 64 / 64 % 64 ∨ n / 64 / 64 % 64 = m / 64 / 64 % 64 ∧
        (n / 64 % 64 < m / 64 % 64 ∨ n / 64 % 64 = m / 64 % 64 ∧ n % 64 < m % 64)) := by
  have step (x y : Nat) (below : x < y) : x / 64 < y / 64 ∨ x / 64 = y / 64 ∧ x % 64 < y % 64 := by omega
  rcases step n m less with one | ⟨one, last⟩
  · rcases step _ _ one with two | ⟨two, last⟩
    · rcases step _ _ two with three | ⟨three, last⟩
      · exact .inl three
      · exact .inr ⟨three, .inl last⟩
    · exact .inr ⟨by rw [two], .inr ⟨by rw [two], .inl last⟩⟩
  · exact .inr ⟨by rw [one], .inr ⟨by rw [one], .inr ⟨by rw [one], last⟩⟩⟩

theorem utf8EncodeChar_append_lt (less : c < d) (xs ys : List UInt8) :
    String.utf8EncodeChar c ++ xs < String.utf8EncodeChar d ++ ys := by
  have less : c.val.toNat < d.val.toNat := less
  have bound : d.val.toNat < 0x110000 := by
    have valid := d.valid
    simp only [UInt32.isValidChar, Nat.isValidChar] at valid
    omega
  simp only [String.utf8EncodeChar]
  generalize c.val.toNat = n at *
  generalize d.val.toNat = m at *
  have groups := sixBits_lt less
  have twice (n : Nat) : n / 4096 = n / 64 / 64 := by omega
  have thrice (n : Nat) : n / 262144 = n / 64 / 64 / 64 := by omega
  have below : m / 64 / 64 / 64 < 8 := by omega
  split_ifs <;>
    simp only [twice, thrice, List.cons_append, List.nil_append, List.cons_lt_cons_iff, UInt8.lt_iff_toNat_lt,
      ← UInt8.toNat_inj, UInt8.toNat_ofNat', Nat.reducePow]
  case neg =>
    have small (x : Nat) : x % 64 < 64 := Nat.mod_lt x (by decide)
    have n₀ := small n
    have n₁ := small (n / 64)
    have n₂ := small (n / 64 / 64)
    have m₀ := small m
    have m₁ := small (m / 64)
    have m₂ := small (m / 64 / 64)
    clear twice thrice small
    generalize n / 64 / 64 / 64 = n₃ at *
    generalize m / 64 / 64 / 64 = m₃ at *
    generalize n / 64 / 64 % 64 = r₂ at *
    generalize m / 64 / 64 % 64 = s₂ at *
    generalize n / 64 % 64 = r₁ at *
    generalize m / 64 % 64 = s₁ at *
    generalize n % 64 = r₀ at *
    generalize m % 64 = s₀ at *
    omega
  all_goals omega

theorem utf8Bytes_lt (less : cs < ds) : utf8Bytes cs < utf8Bytes ds := by
  induction ds generalizing cs with
  | nil => exact absurd less (List.not_lt_nil cs)
  | cons d ds ih =>
    cases cs with
    | nil =>
      obtain ⟨first, rest, encoded⟩ := List.exists_cons_of_ne_nil (String.utf8EncodeChar_ne_nil (c := d))
      rw [utf8Bytes_cons, encoded]
      exact List.Lex.nil
    | cons c cs =>
      rw [utf8Bytes_cons, utf8Bytes_cons]
      rcases List.cons_lt_cons_iff.1 less with here | ⟨rfl, later⟩
      · exact utf8EncodeChar_append_lt here _ _
      · exact List.append_left_lt (ih later)

theorem utf8Bytes_lt_iff : utf8Bytes cs < utf8Bytes ds ↔ cs < ds := by
  constructor
  · intro less
    rcases lt_trichotomy cs ds with before | rfl | behind
    · exact before
    · exact absurd less (List.lt_irrefl _)
    · exact absurd less (List.lt_asymm (utf8Bytes_lt behind))
  · exact utf8Bytes_lt

theorem utf8Bytes_injective (same : utf8Bytes cs = utf8Bytes ds) : cs = ds := by
  rcases lt_trichotomy cs ds with before | equal | behind
  · exact absurd (same ▸ utf8Bytes_lt before) (List.lt_irrefl _)
  · exact equal
  · exact absurd (same ▸ utf8Bytes_lt behind) (List.lt_irrefl _)

/-! ### Texts -/

theorem utf8Bytes_toList (text : String) : utf8Bytes text.toList = text.toByteArray.data.toList := by
  rw [← String.utf8Encode_toList, List.utf8Encode]
  simp [utf8Bytes]

theorem length_utf8Bytes (text : String) : (utf8Bytes text.toList).length = text.utf8ByteSize := by
  rw [utf8Bytes_toList]
  rfl

/-- The text of which these are the bytes. -/
def fromUtf8 (bytes : List UInt8) : Option String := String.fromUTF8? ⟨bytes.toArray⟩

theorem fromUtf8_utf8Bytes (text : String) : fromUtf8 (utf8Bytes text.toList) = some text := by
  rw [fromUtf8, utf8Bytes_toList, Array.toArray_toList, String.fromUTF8?, dif_pos text.isValidUTF8]
  rfl

theorem length_le_length_utf8Bytes (cs : List Char) : cs.length ≤ (utf8Bytes cs).length := by
  induction cs with
  | nil => exact Nat.zero_le 0
  | cons c cs ih =>
    have some : 0 < (String.utf8EncodeChar c).length := List.length_pos_iff.2 String.utf8EncodeChar_ne_nil
    rw [utf8Bytes_cons, List.length_cons, List.length_append]
    omega

theorem length_toList_le_utf8ByteSize (text : String) : text.toList.length ≤ text.utf8ByteSize := by
  rw [← length_utf8Bytes]
  exact length_le_length_utf8Bytes text.toList

theorem length_utf8Bytes_of_ascii (ascii : ∀ c ∈ cs, c.toNat < 128) : (utf8Bytes cs).length = cs.length := by
  induction cs with
  | nil => rfl
  | cons c cs ih =>
    have low : c.val.toNat ≤ 127 := Nat.le_of_lt_succ (ascii c List.mem_cons_self)
    have one : (String.utf8EncodeChar c).length = 1 := by
      rw [String.utf8EncodeChar, if_pos low]
      rfl
    rw [utf8Bytes_cons, List.length_append, one, ih fun c member => ascii c (List.mem_cons_of_mem _ member),
      List.length_cons, Nat.add_comm]

end BasicNext.Lib
