import BasicNext.Lib.SplitOnce
import BasicNext.Web.Egress
import Mathlib.Order.CompletePartialOrder

/-!
# CIDR texts

`HOST.Net.CIDR`: what the parser accepts, and the addresses of a block.
-/

namespace BasicNext.Lib

theorem covers_iff_getMsbD {w length : Nat} (fits : length ≤ w) (network address : BitVec w) :
    Covers network length address ↔ ∀ i < length, address.getMsbD i = network.getMsbD i := by
  have shifted (word : BitVec w) : word.toNat / 2 ^ (w - length) = (word >>> (w - length)).toNat := by
    rw [BitVec.toNat_ushiftRight, Nat.shiftRight_eq_div_pow]
  unfold Covers
  rw [shifted, shifted, BitVec.toNat_inj]
  constructor
  · intro same i inside
    have bit := congrArg (BitVec.getLsbD · (length - 1 - i)) same
    simp only [BitVec.getLsbD_ushiftRight] at bit
    have index : w - length + (length - 1 - i) = w - 1 - i := by omega
    rw [index] at bit
    rw [BitVec.getMsbD, BitVec.getMsbD, bit]
  · intro agrees
    apply BitVec.eq_of_getLsbD_eq
    intro i inside
    rw [BitVec.getLsbD_ushiftRight, BitVec.getLsbD_ushiftRight]
    by_cases high : i < length
    · have bit := agrees (length - 1 - i) (by omega)
      have index : w - 1 - (length - 1 - i) = w - length + i := by omega
      have within : length - 1 - i < w := by omega
      rw [BitVec.getMsbD, BitVec.getMsbD, index, decide_eq_true within, Bool.true_and, Bool.true_and] at bit
      exact bit
    · rw [BitVec.getLsbD_of_ge _ _ (by omega), BitVec.getLsbD_of_ge _ _ (by omega)]

namespace IpAddr

def isIpv4 : IpAddr → Bool
  | v4 _ => true
  | v6 _ => false

/-- A bit of an address, counted from its first one. -/
def bit : IpAddr → Nat → Bool
  | v4 address, i => address.getMsbD i
  | v6 address, i => address.getMsbD i

end IpAddr

end BasicNext.Lib

namespace BasicNext.Web.Cidr

open Lib Lib.InetText

/-! ### Texts -/

/-- `u8::from_str` -/
def parseU8 (text : List Char) : Option Nat :=
  let digits := if text.head? = some '+' then text.drop 1 else text
  if digits ≠ [] ∧ digits.all Char.isDigit then
    (some (Nat.ofDigitChars 10 digits 0)).filter fun value => value < 256
  else none

/-- Decimal digits without a sign and without a leading zero. -/
def isCanonical (text : List Char) : Bool :=
  !text.isEmpty && text.all Char.isDigit && (text == ['0'] || text.head? != some '0')

/-- `Cidr::parse` -/
def parse (text : String) : Except String Cidr :=
  match splitOnce ['/'] text.toList with
  | none => .error "CIDR requires '/'"
  | some (address, length) =>
    match parseIpAddr address with
    | none => .error "invalid address"
    | some address =>
      match (parseU8 length).filter fun _ => isCanonical length with
      | none => .error "invalid prefix"
      | some length =>
        if wider : address.width < length then .error "prefix is wider than address family"
        else if network : address.mask length = address then
          .ok { network := address, prefixLength := length, fits := Nat.le_of_not_lt wider, canonical := network }
        else .error "address has bits past the prefix"

theorem parse_eq_ok {text : String} {block : Cidr} :
    parse text = .ok block ↔ ∃ address length, splitOnce ['/'] text.toList = some (address, length) ∧
      parseIpAddr address = some block.network ∧ isCanonical length = true ∧
      parseU8 length = some block.prefixLength := by
  constructor
  · intro accepted
    unfold parse at accepted
    split at accepted
    next => cases accepted
    next address length parts =>
      split at accepted
      next => cases accepted
      next network read =>
        split at accepted
        next => cases accepted
        next number counted =>
          obtain ⟨number_, plain⟩ := Option.filter_eq_some_iff.1 counted
          split at accepted
          next => cases accepted
          next fits =>
            split at accepted
            next canonical =>
              cases accepted
              exact ⟨address, length, parts, read, plain, number_⟩
            next => cases accepted
  · rintro ⟨address, length, parts, read, plain, number⟩
    have counted : (parseU8 length).filter (fun _ => isCanonical length) = some block.prefixLength :=
      Option.filter_eq_some_iff.2 ⟨number, plain⟩
    simp only [parse, parts, read, counted]
    rw [dif_neg (Nat.not_lt.2 block.fits), dif_pos block.canonical]

theorem parseU8_toDigits {n : Nat} (small : n < 256) :
    parseU8 (Nat.toDigits 10 n) = some n ∧ isCanonical (Nat.toDigits 10 n) = true := by
  have ne : Nat.toDigits 10 n ≠ [] := Nat.toDigits_ne_nil
  have all (digit : Char) (member : digit ∈ Nat.toDigits 10 n) : digit.isDigit = true :=
    Nat.isDigit_of_mem_toDigits (by omega) (by omega) member
  have unsigned : (Nat.toDigits 10 n).head? ≠ some '+' := by
    intro signed
    exact absurd (all '+' (List.mem_of_head? signed)) (by decide)
  constructor
  · unfold parseU8
    dsimp only
    rw [if_neg unsigned, if_pos ⟨ne, List.all_eq_true.2 all⟩, Nat.ofDigitChars_toDigits (by omega) (by omega)]
    exact Option.filter_some_pos (decide_eq_true small)
  · unfold isCanonical
    rw [List.isEmpty_eq_false_iff.2 ne, List.all_eq_true.2 all, Bool.not_false, Bool.true_and, Bool.true_and]
    rcases Nat.eq_zero_or_pos n with rfl | positive
    · rfl
    · rw [bne_iff_ne.2 (head?_toDigits positive), Bool.or_true]

/-! ### Addresses -/

def addresses (block : Cidr) : Set IpAddr := {address | block.contains address = true}

theorem contains_iff_bits (block : Cidr) (address : IpAddr) :
    block.contains address = true ↔ address.isIpv4 = block.network.isIpv4 ∧
      ∀ i < block.prefixLength, address.bit i = block.network.bit i := by
  rw [contains_iff]
  obtain ⟨network, length, fits, canonical⟩ := block
  cases network with
  | v4 network =>
    cases address with
    | v4 address =>
      have covers := covers_iff_getMsbD (show length ≤ 32 from fits) network address
      simp only [Holds, IpAddr.v4.injEq, exists_eq_left', covers, IpAddr.isIpv4, IpAddr.bit, true_and]
    | v6 address => simp [Holds, IpAddr.isIpv4]
  | v6 network =>
    cases address with
    | v4 address => simp [Holds, IpAddr.isIpv4]
    | v6 address =>
      have covers := covers_iff_getMsbD (show length ≤ 128 from fits) network address
      simp only [Holds, IpAddr.v6.injEq, exists_eq_left', covers, IpAddr.isIpv4, IpAddr.bit, true_and]

theorem addresses_subset {outer inner : Cidr} {shared : IpAddr} (shorter : outer.prefixLength ≤ inner.prefixLength)
    (inOuter : shared ∈ outer.addresses) (inInner : shared ∈ inner.addresses) :
    inner.addresses ⊆ outer.addresses := by
  obtain ⟨familyOuter, bitsOuter⟩ := (contains_iff_bits outer shared).1 inOuter
  obtain ⟨familyInner, bitsInner⟩ := (contains_iff_bits inner shared).1 inInner
  intro address member
  obtain ⟨family, bits⟩ := (contains_iff_bits inner address).1 member
  apply (contains_iff_bits outer address).2
  refine ⟨?_, fun i inside => ?_⟩
  · rw [family, ← familyInner, familyOuter]
  · have further : i < inner.prefixLength := by omega
    rw [bits i further, ← bitsInner i further, bitsOuter i inside]

theorem nested_or_disjoint (block block' : Cidr) :
    block.addresses ⊆ block'.addresses ∨ block'.addresses ⊆ block.addresses ∨
      Disjoint block.addresses block'.addresses := by
  by_cases apart : Disjoint block.addresses block'.addresses
  · exact .inr (.inr apart)
  · obtain ⟨shared, inFirst, inSecond⟩ := Set.not_disjoint_iff.1 apart
    rcases Nat.le_total block.prefixLength block'.prefixLength with shorter | shorter
    · exact .inr (.inl (addresses_subset shorter inFirst inSecond))
    · exact .inl (addresses_subset shorter inSecond inFirst)

theorem parse_dotted (a b c d : BitVec 8) (block : Cidr) (network : block.network = .v4 (.new a b c d)) :
    parse (String.ofList (dotted a b c d ++ '/' :: Nat.toDigits 10 block.prefixLength)) = .ok block := by
  have fits : block.prefixLength ≤ 32 := by
    have bound := block.fits
    rw [network] at bound
    exact bound
  obtain ⟨number, plain⟩ := parseU8_toDigits (n := block.prefixLength) (by omega)
  apply parse_eq_ok.2
  refine ⟨dotted a b c d, _, ?_, ?_, plain, number⟩
  · rw [String.toList_ofList]
    apply splitOnce_append
    intro slash
    rcases mem_dotted slash with digit | dot
    · exact absurd digit (by decide)
    · exact absurd dot (by decide)
  · rw [parseIpAddr_dotted, network]

/-- The blocks that the parser accepts: each is the one that its text names and contains the addresses of its family
that have the first bits of its network, and any two are nested or disjoint. -/
theorem parse_laminar {text : String} {block : Cidr} (accepted : parse text = .ok block) :
    (∃ address length, text.toList = address ++ '/' :: length ∧ parseIpAddr address = some block.network ∧
      parseU8 length = some block.prefixLength) ∧
    (∀ address, block.contains address = true ↔ address.isIpv4 = block.network.isIpv4 ∧
      ∀ i < block.prefixLength, address.bit i = block.network.bit i) ∧
    ∀ text' block', parse text' = .ok block' → block.addresses ⊆ block'.addresses ∨
      block'.addresses ⊆ block.addresses ∨ Disjoint block.addresses block'.addresses := by
  obtain ⟨address, length, parts, read, -, number⟩ := parse_eq_ok.1 accepted
  refine ⟨⟨address, length, splitOnce_some parts, read, number⟩, contains_iff_bits block, ?_⟩
  intro text' block' _
  exact nested_or_disjoint block block'

/-- `10.0.0.0/8` -/
def tenNetwork : Cidr := ⟨.v4 (.new 10 0 0 0), 8, by decide, by decide⟩

/-- `10.1.0.0/16` -/
def tenOneNetwork : Cidr := ⟨.v4 (.new 10 1 0 0), 16, by decide, by decide⟩

theorem parse_laminar_ten : parse "10.0.0.0/8" = .ok tenNetwork ∧ tenNetwork.contains (.v4 (.new 10 1 2 3)) = true ∧
    (tenNetwork.addresses ⊆ tenOneNetwork.addresses ∨ tenOneNetwork.addresses ⊆ tenNetwork.addresses ∨
      Disjoint tenNetwork.addresses tenOneNetwork.addresses) := by
  have accepted : parse "10.0.0.0/8" = .ok tenNetwork := parse_dotted 10 0 0 0 tenNetwork rfl
  have accepted' : parse "10.1.0.0/16" = .ok tenOneNetwork := parse_dotted 10 1 0 0 tenOneNetwork rfl
  obtain ⟨-, contains, nests⟩ := parse_laminar accepted
  refine ⟨accepted, (contains _).2 ⟨rfl, ?_⟩, nests _ _ accepted'⟩
  decide

end BasicNext.Web.Cidr
