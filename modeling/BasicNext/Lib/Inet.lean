import Mathlib.Data.List.Basic
import Mathlib.Data.Nat.Bitwise
import Mathlib.Tactic.IntervalCases

/-!
# Internet addresses

IPv4 and IPv6 addresses as words, their octets and segments, the IPv6 forms that carry an IPv4 address, and networks:
all addresses that agree with one in their first bits. A network can be tested with a mask, or by a comparison of the
numbers without their last bits.
-/

namespace BasicNext.Lib

abbrev Ipv4Addr := BitVec 32

abbrev Ipv6Addr := BitVec 128

inductive IpAddr where
  | v4 (address : Ipv4Addr)
  | v6 (address : Ipv6Addr)
deriving DecidableEq, Repr

/-! ### Words that are put together -/

theorem toNat_append_add {v w : Nat} (high : BitVec v) (low : BitVec w) :
    (high ++ low).toNat = high.toNat * 2 ^ w + low.toNat := by
  rw [BitVec.toNat_append, ← Nat.shiftLeft_add_eq_or_of_lt low.isLt, Nat.shiftLeft_eq]

theorem append_eq {v w : Nat} (word : BitVec (v + w)) {high : Nat} (same : word.toNat / 2 ^ w = high) :
    word = BitVec.ofNat v high ++ word.setWidth w := by
  apply BitVec.eq_of_toNat_eq
  have bound : high < 2 ^ v := by
    rw [← same]
    apply Nat.div_lt_of_lt_mul
    rw [Nat.mul_comm, ← Nat.pow_add]
    exact word.isLt
  rw [toNat_append_add, BitVec.toNat_ofNat, BitVec.toNat_setWidth, Nat.mod_eq_of_lt bound, ← same]
  exact (Nat.div_add_mod' word.toNat (2 ^ w)).symm

/-! ### Octets and segments -/

namespace Ipv4Addr

/-- `Ipv4Addr::new` -/
def new (a b c d : BitVec 8) : Ipv4Addr := a ++ (b ++ (c ++ d))

def octet (address : Ipv4Addr) (index : Nat) : Nat := address.toNat / 256 ^ (3 - index) % 256

variable (address : Ipv4Addr)

def isPrivate : Bool :=
  address.octet 0 == 10 || (address.octet 0 == 172 && decide (16 ≤ address.octet 1 ∧ address.octet 1 ≤ 31))
    || (address.octet 0 == 192 && address.octet 1 == 168)

def isLoopback : Bool := address.octet 0 == 127

def isLinkLocal : Bool := address.octet 0 == 169 && address.octet 1 == 254

def isMulticast : Bool := decide (224 ≤ address.octet 0 ∧ address.octet 0 ≤ 239)

def isUnspecified : Bool := address == 0

end Ipv4Addr

namespace Ipv6Addr

def segment (address : Ipv6Addr) (index : Nat) : Nat := address.toNat / 65536 ^ (7 - index) % 65536

variable (address : Ipv6Addr)

/-- `to_ipv4`: the address of a mapped or compatible form. -/
def toIpv4 : Option Ipv4Addr :=
  if address.segment 0 = 0 ∧ address.segment 1 = 0 ∧ address.segment 2 = 0 ∧ address.segment 3 = 0 ∧ address.segment 4 = 0
      ∧ (address.segment 5 = 0 ∨ address.segment 5 = 0xffff) then some (address.setWidth 32)
  else none

def isLoopback : Bool := address == 1

def isUnspecified : Bool := address == 0

def isMulticast : Bool := address.segment 0 &&& 0xff00 == 0xff00

def isUnicastLinkLocal : Bool := address.segment 0 &&& 0xffc0 == 0xfe80

def isUniqueLocal : Bool := address.segment 0 &&& 0xfe00 == 0xfc00

end Ipv6Addr

/-- The IPv6 forms of an IPv4 address. -/
inductive Embeds : Ipv6Addr → Ipv4Addr → Prop
  | mapped (address : Ipv4Addr) : Embeds (0xffff#96 ++ address) address
  | compatible (address : Ipv4Addr) : Embeds (0#96 ++ address) address
  | sixToFour (address : Ipv4Addr) (rest : BitVec 80) : Embeds (0x2002#16 ++ (address ++ rest)) address
  | nat64 (address : Ipv4Addr) : Embeds (0x64ff9b0000000000000000#96 ++ address) address

/-- The forms of a tunnel or a translator. -/
inductive Tunnels : Ipv6Addr → Ipv4Addr → Prop
  | sixToFour (address : Ipv4Addr) (rest : BitVec 80) : Tunnels (0x2002#16 ++ (address ++ rest)) address
  | nat64 (address : Ipv4Addr) : Tunnels (0x64ff9b0000000000000000#96 ++ address) address

theorem toIpv4_eq_some {address : Ipv6Addr} {embedded : Ipv4Addr} :
    address.toIpv4 = some embedded ↔ address = 0xffff#96 ++ embedded ∨ address = 0#96 ++ embedded := by
  have bound := address.isLt
  have low := embedded.isLt
  constructor
  · intro found
    unfold Ipv6Addr.toIpv4 Ipv6Addr.segment at found
    split at found
    · next zero =>
      simp only [Option.some.injEq] at found
      subst found
      have high : address.toNat / 2 ^ 32 = 0xffff ∨ address.toNat / 2 ^ 32 = 0 := by omega
      exact high.imp (append_eq (v := 96) (w := 32) address) (append_eq (v := 96) (w := 32) address)
    · cases found
  · intro form
    have number : address.toNat = 0xffff * 2 ^ 32 + embedded.toNat ∨ address.toNat = embedded.toNat := by
      apply form.imp <;> rintro rfl <;> rw [toNat_append_add] <;> simp
    unfold Ipv6Addr.toIpv4 Ipv6Addr.segment
    rw [if_pos (by omega)]
    congr 1
    apply BitVec.eq_of_toNat_eq
    rw [BitVec.toNat_setWidth]
    omega

theorem embeds_iff {address : Ipv6Addr} {embedded : Ipv4Addr} :
    Embeds address embedded ↔ address.toIpv4 = some embedded ∨ Tunnels address embedded := by
  rw [toIpv4_eq_some]
  constructor
  · rintro (_ | _ | ⟨_, rest⟩ | _)
    · exact .inl (.inl rfl)
    · exact .inl (.inr rfl)
    · exact .inr (.sixToFour embedded rest)
    · exact .inr (.nat64 embedded)
  · rintro ((rfl | rfl) | (⟨_, rest⟩ | _))
    · exact .mapped embedded
    · exact .compatible embedded
    · exact .sixToFour embedded rest
    · exact .nat64 embedded

/-! ### Networks -/

/-- `network` and all words that have the same first bits, `length` of them. -/
def Covers {w : Nat} (network : BitVec w) (length : Nat) (address : BitVec w) : Prop :=
  address.toNat / 2 ^ (w - length) = network.toNat / 2 ^ (w - length)

instance {w : Nat} (network : BitVec w) (length : Nat) (address : BitVec w) : Decidable (Covers network length address) :=
  inferInstanceAs (Decidable (_ = _))

/-- The word without the bits past the prefix. -/
def mask {w : Nat} (address : BitVec w) (length : Nat) : BitVec w :=
  address &&& if length = 0 then 0 else BitVec.allOnes w <<< (w - length)

theorem getLsbD_mask {w : Nat} (address : BitVec w) (length i : Nat) :
    (mask address length).getLsbD i = (address.getLsbD i && decide (i < w ∧ w - length ≤ i)) := by
  unfold mask
  split
  · next zero =>
    by_cases inside : i < w
    · simp [zero]
    · simp [inside]
  · by_cases inside : i < w
    · by_cases high : w - length ≤ i
      · have low : ¬i < w - length := by omega
        simp [inside, low]
        omega
      · have low : i < w - length := by omega
        simp [inside, low]
        omega
    · simp [inside]

theorem mask_eq_iff {w length : Nat} {network address : BitVec w} (canonical : mask network length = network) :
    network = mask address length ↔ Covers network length address := by
  have shifted (word : BitVec w) : word.toNat / 2 ^ (w - length) = (word >>> (w - length)).toNat := by
    rw [BitVec.toNat_ushiftRight, Nat.shiftRight_eq_div_pow]
  unfold Covers
  rw [shifted, shifted, BitVec.toNat_inj]
  constructor
  · intro same
    rw [same]
    apply BitVec.eq_of_getLsbD_eq
    intro i inside
    rw [BitVec.getLsbD_ushiftRight, BitVec.getLsbD_ushiftRight, getLsbD_mask]
    by_cases in' : w - length + i < w
    · simp [in']
    · simp [BitVec.getLsbD_of_ge address _ (Nat.le_of_not_lt in')]
  · intro same
    rw [← canonical]
    apply BitVec.eq_of_getLsbD_eq
    intro i inside
    rw [getLsbD_mask, getLsbD_mask]
    by_cases high : w - length ≤ i
    · have bit := congrArg (BitVec.getLsbD · (i - (w - length))) same
      simp only [BitVec.getLsbD_ushiftRight, Nat.add_sub_cancel' high] at bit
      rw [bit]
    · simp [high]

namespace IpAddr

def width : IpAddr → Nat
  | v4 _ => 32
  | v6 _ => 128

def mask : IpAddr → Nat → IpAddr
  | v4 value, length => v4 (Lib.mask value length)
  | v6 value, length => v6 (Lib.mask value length)

end IpAddr

end BasicNext.Lib

/-!
## Texts of Internet addresses

The parser that the standard library of Rust has for them. Each reader takes a text and leaves the rest of it; a
reader that fails has read nothing.
-/

namespace BasicNext.Lib.InetText

/-- `char::to_digit` -/
def toDigit (radix : Nat) (digit : Char) : Option Nat :=
  let value :=
    if digit.isDigit then some (digit.toNat - '0'.toNat)
    else if 'a' ≤ digit ∧ digit ≤ 'z' then some (digit.toNat - 'a'.toNat + 10)
    else if 'A' ≤ digit ∧ digit ≤ 'Z' then some (digit.toNat - 'A'.toNat + 10)
    else none
  value.filter fun value => value < radix

def ofDigits (radix : Nat) (digits : List Char) : Nat :=
  digits.foldl (fun value digit => value * radix + (toDigit radix digit).getD 0) 0

/-- `read_number`: some digits, at most `most` of them, that write a number below `bound`. -/
def readNumber (radix most : Nat) (allowZeroPrefix : Bool) (bound : Nat) (text : List Char) : Option (Nat × List Char) :=
  let digits := text.takeWhile fun digit => (toDigit radix digit).isSome
  let rest := text.dropWhile fun digit => (toDigit radix digit).isSome
  if digits.length = 0 ∨ most < digits.length then none
  else if !allowZeroPrefix && digits.head? == some '0' && decide (1 < digits.length) then none
  else if ofDigits radix digits < bound then some (ofDigits radix digits, rest)
  else none

/-- `read_separator`: all readings but the first one begin behind a separator. -/
def readSeparator {α : Type} (separator : Char) (first : Bool) (inner : List Char → Option (α × List Char))
    (text : List Char) : Option (α × List Char) :=
  if first then inner text
  else
    match text with
    | [] => none
    | next :: rest => if next = separator then inner rest else none

/-- A part of an IPv4 address. -/
def readOctet (first : Bool) : List Char → Option (Nat × List Char) := readSeparator '.' first (readNumber 10 3 false 256)

def readIpv4Addr (text : List Char) : Option (Ipv4Addr × List Char) := do
  let (a, text) ← readOctet true text
  let (b, text) ← readOctet false text
  let (c, text) ← readOctet false text
  let (d, text) ← readOctet false text
  some (.new (.ofNat 8 a) (.ofNat 8 b) (.ofNat 8 c) (.ofNat 8 d), text)

/-- `read_groups`, where there is room for a number of groups, and whether the last two are an IPv4 address. -/
def readGroups (first : Bool) : Nat → List Char → List (BitVec 16) × Bool × List Char
  | 0, text => ([], false, text)
  | room + 1, text =>
    match if 0 < room then readSeparator ':' first readIpv4Addr text else none with
    | some (address, rest) => ([address.extractLsb' 16 16, address.extractLsb' 0 16], true, rest)
    | none =>
      match readSeparator ':' first (readNumber 16 4 true 65536) text with
      | some (group, rest) =>
        let (groups, embedded, rest) := readGroups false room rest
        (.ofNat 16 group :: groups, embedded, rest)
      | none => ([], false, text)

def ofGroups (groups : List (BitVec 16)) : Ipv6Addr :=
  .ofNat 128 (groups.foldl (fun value group => value * 65536 + group.toNat) 0)

/-- Eight groups, or fewer with a `::` that stands for one group of zeros or more. -/
def readIpv6Addr (text : List Char) : Option (Ipv6Addr × List Char) :=
  let (head, embedded, rest) := readGroups true 8 text
  if head.length = 8 then some (ofGroups head, rest)
  else if embedded then none
  else
    match rest with
    | ':' :: ':' :: rest =>
      let (tail, _, rest) := readGroups true (7 - head.length) rest
      some (ofGroups (head ++ List.replicate (8 - head.length - tail.length) 0 ++ tail), rest)
    | _ => none

/-- `IpAddr::from_str` -/
def parseIpAddr (text : List Char) : Option IpAddr :=
  match readIpv4Addr text with
  | some (address, rest) => if rest = [] then some (.v4 address) else none
  | none =>
    match readIpv6Addr text with
    | some (address, rest) => if rest = [] then some (.v6 address) else none
    | none => none

/-! ### Dotted quads -/

/-- How an IPv4 address is printed. -/
def dotted (a b c d : BitVec 8) : List Char :=
  Nat.toDigits 10 a.toNat ++ '.' :: (Nat.toDigits 10 b.toNat ++ '.' :: (Nat.toDigits 10 c.toNat ++ '.' ::
    Nat.toDigits 10 d.toNat))

theorem toDigit_of_isDigit {digit : Char} (isDigit : digit.isDigit = true) :
    toDigit 10 digit = some (digit.toNat - '0'.toNat) := by
  have high : digit.toNat ≤ 57 := by
    have bounds := isDigit
    rw [Char.isDigit, Bool.and_eq_true, decide_eq_true_eq, decide_eq_true_eq] at bounds
    exact UInt32.le_iff_toNat_le.1 bounds.2
  have small : digit.toNat - '0'.toNat < 10 := by
    have zero : '0'.toNat = 48 := rfl
    omega
  unfold toDigit
  rw [if_pos isDigit]
  exact Option.filter_some_pos (decide_eq_true small)

theorem ofDigits_eq {digits : List Char} (all : ∀ digit ∈ digits, digit.isDigit = true) :
    ofDigits 10 digits = Nat.ofDigitChars 10 digits 0 := by
  unfold ofDigits Nat.ofDigitChars
  apply List.foldl_ext
  intro value digit member
  rw [toDigit_of_isDigit (all digit member), Nat.mul_comm]
  rfl

theorem head?_toDigits {n : Nat} (positive : 0 < n) : (Nat.toDigits 10 n).head? ≠ some '0' := by
  induction n using Nat.strongRecOn with
  | ind n ih =>
    by_cases small : n < 10
    · rw [Nat.toDigits_of_lt_base small]
      interval_cases n <;> decide
    · have shorter := ih (n / 10) (by omega) (by omega)
      have ne : Nat.toDigits 10 (n / 10) ≠ [] := Nat.toDigits_ne_nil
      rw [Nat.toDigits_of_base_le (by omega) (by omega), List.head?_append_of_ne_nil _ ne]
      exact shorter

theorem readNumber_toDigits {n : Nat} (small : n < 256) {rest : List Char}
    (stops : ∀ next ∈ rest.head?, toDigit 10 next = none) :
    readNumber 10 3 false 256 (Nat.toDigits 10 n ++ rest) = some (n, rest) := by
  have all (digit : Char) (member : digit ∈ Nat.toDigits 10 n) : digit.isDigit = true :=
    Nat.isDigit_of_mem_toDigits (by omega) (by omega) member
  have digit (digit : Char) (member : digit ∈ Nat.toDigits 10 n) : (toDigit 10 digit).isSome = true := by
    rw [toDigit_of_isDigit (all digit member)]
    rfl
  have stopped : rest.takeWhile (fun digit => (toDigit 10 digit).isSome) = [] ∧
      rest.dropWhile (fun digit => (toDigit 10 digit).isSome) = rest := by
    cases rest with
    | nil => exact ⟨rfl, rfl⟩
    | cons next rest =>
      have none_ := stops next rfl
      simp [none_]
  have taken : (Nat.toDigits 10 n ++ rest).takeWhile (fun digit => (toDigit 10 digit).isSome) = Nat.toDigits 10 n := by
    rw [List.takeWhile_append_of_pos digit, stopped.1, List.append_nil]
  have left : (Nat.toDigits 10 n ++ rest).dropWhile (fun digit => (toDigit 10 digit).isSome) = rest := by
    rw [List.dropWhile_append_of_pos digit, stopped.2]
  have short : (Nat.toDigits 10 n).length ≤ 3 := (Nat.length_toDigits_le_iff (by omega) (by omega)).2 (by omega)
  have some_ : 0 < (Nat.toDigits 10 n).length := List.length_pos_iff.2 Nat.toDigits_ne_nil
  have value : ofDigits 10 (Nat.toDigits 10 n) = n := by
    rw [ofDigits_eq all, Nat.ofDigitChars_toDigits (by omega) (by omega)]
  have plain : ((Nat.toDigits 10 n).head? == some '0' && decide (1 < (Nat.toDigits 10 n).length)) = false := by
    rcases Nat.eq_zero_or_pos n with rfl | positive
    · rfl
    · rw [beq_eq_false_iff_ne.2 (head?_toDigits positive), Bool.false_and]
  unfold readNumber
  rw [taken, left]
  dsimp only
  rw [value, if_neg (by omega), Bool.not_false, Bool.true_and, plain, if_neg nofun, if_pos small]

theorem readOctet_toDigits (part : BitVec 8) {rest : List Char} (stops : ∀ next ∈ rest.head?, toDigit 10 next = none) :
    readOctet true (Nat.toDigits 10 part.toNat ++ rest) = some (part.toNat, rest) ∧
      readOctet false ('.' :: (Nat.toDigits 10 part.toNat ++ rest)) = some (part.toNat, rest) :=
  ⟨readNumber_toDigits part.isLt stops, readNumber_toDigits part.isLt stops⟩

theorem mem_dotted {a b c d : BitVec 8} {character : Char} (member : character ∈ dotted a b c d) :
    character.isDigit = true ∨ character = '.' := by
  have digit (n : Nat) (member : character ∈ Nat.toDigits 10 n) : character.isDigit = true :=
    Nat.isDigit_of_mem_toDigits (by omega) (by omega) member
  simp only [dotted, List.mem_append, List.mem_cons] at member
  rcases member with inA | dot | inB | dot | inC | dot | inD
  · exact .inl (digit _ inA)
  · exact .inr dot
  · exact .inl (digit _ inB)
  · exact .inr dot
  · exact .inl (digit _ inC)
  · exact .inr dot
  · exact .inl (digit _ inD)

theorem parseIpAddr_dotted (a b c d : BitVec 8) : parseIpAddr (dotted a b c d) = some (.v4 (.new a b c d)) := by
  have dot (rest : List Char) : ∀ next ∈ ('.' :: rest).head?, toDigit 10 next = none := by
    intro next member
    cases member
    rfl
  have last : readOctet false ('.' :: Nat.toDigits 10 d.toNat) = some (d.toNat, []) := by
    rw [← List.append_nil (Nat.toDigits 10 d.toNat)]
    apply (readOctet_toDigits d _).2
    intro next member
    cases member
  have read : readIpv4Addr (dotted a b c d) = some (.new a b c d, []) := by
    unfold readIpv4Addr dotted
    rw [(readOctet_toDigits a (dot _)).1]
    dsimp only [Option.bind_eq_bind, Option.bind_some]
    rw [(readOctet_toDigits b (dot _)).2]
    dsimp only [Option.bind_some]
    rw [(readOctet_toDigits c (dot _)).2]
    dsimp only [Option.bind_some]
    rw [last]
    simp only [Option.bind_some, BitVec.ofNat_toNat, BitVec.setWidth_eq]
  rw [parseIpAddr, read]
  rfl

example : parseIpAddr "2001:db8::1".toList = some (.v6 0x20010db8000000000000000000000001#128) := by decide

end BasicNext.Lib.InetText
