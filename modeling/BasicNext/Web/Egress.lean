import BasicNext.Lib.Inet

/-!
# The egress policy

Which addresses an outbound request may connect to: the addresses that are refused to every program
(`validate_ssrf_destinations`), and the lists of a policy (`EgressPolicy`). The refused ranges are also given as
networks, and the tests on octets and segments agree with them.
-/

namespace BasicNext.Web

open Lib

/-! ### Networks -/

/-- `bn_core_net::Cidr`, as its parser leaves it. -/
structure Cidr where
  network : IpAddr
  prefixLength : Nat
  fits : prefixLength ≤ network.width
  canonical : network.mask prefixLength = network

namespace Cidr

variable (cidr : Cidr)

def contains (address : IpAddr) : Bool := cidr.network == address.mask cidr.prefixLength

/-- The address is of the family of the network and agrees with it in the bits of the prefix. -/
def Holds : IpAddr → Prop
  | .v4 address => ∃ network, cidr.network = .v4 network ∧ Covers network cidr.prefixLength address
  | .v6 address => ∃ network, cidr.network = .v6 network ∧ Covers network cidr.prefixLength address

theorem contains_iff (address : IpAddr) : cidr.contains address = true ↔ cidr.Holds address := by
  obtain ⟨network, length, fits, canonical⟩ := cidr
  unfold contains Holds
  rw [beq_iff_eq]
  cases network with
  | v4 network =>
    cases address with
    | v4 address =>
      simp only [IpAddr.mask, IpAddr.v4.injEq] at canonical ⊢
      rw [mask_eq_iff canonical]
      simp
    | v6 address => simp [IpAddr.mask]
  | v6 network =>
    cases address with
    | v4 address => simp [IpAddr.mask]
    | v6 address =>
      simp only [IpAddr.mask, IpAddr.v6.injEq] at canonical ⊢
      rw [mask_eq_iff canonical]
      simp

end Cidr

/-! ### Refused addresses -/

def isSensitiveIpv4 (address : Ipv4Addr) : Bool :=
  let first := address.octet 0
  let second := address.octet 1
  address.isPrivate || address.isLoopback || address.isLinkLocal || address.isMulticast || address.isUnspecified
    || (first == 100 && decide (64 ≤ second ∧ second ≤ 127))
    || (first == 192 && second == 0 && address.octet 2 == 2)
    || (first == 198 && second == 51 && address.octet 2 == 100)
    || (first == 203 && second == 0 && address.octet 2 == 113)
    || (first == 198 && decide (18 ≤ second ∧ second ≤ 19))

/-- The test of one address in `validate_ssrf_destinations`. -/
def isSensitive : IpAddr → Bool
  | .v4 address => isSensitiveIpv4 address
  | .v6 address =>
    address.toIpv4.any isSensitiveIpv4 || address.isLoopback || address.isUnicastLinkLocal || address.isMulticast
      || address.isUnspecified || address.isUniqueLocal

def validateSsrfDestinations (addresses : List IpAddr) (allowPrivate : Bool) : Except String Unit :=
  if allowPrivate then .ok ()
  else if addresses.isEmpty then .error "URL resolved to no addresses"
  else if addresses.any isSensitive then .error "private or local destination requires explicit opt-in"
  else .ok ()

/-- Private use, loopback, link-local, multicast, unspecified, shared, documentation and benchmark addresses. -/
def refusedIpv4 : List (Ipv4Addr × Nat) :=
  [(.new 10 0 0 0, 8), (.new 172 16 0 0, 12), (.new 192 168 0 0, 16), (.new 127 0 0 0, 8), (.new 169 254 0 0, 16),
    (.new 224 0 0 0, 4), (.new 0 0 0 0, 32), (.new 100 64 0 0, 10), (.new 192 0 2 0, 24), (.new 198 51 100 0, 24),
    (.new 203 0 113 0, 24), (.new 198 18 0 0, 15)]

/-- Unspecified, loopback, link-local, multicast and unique local addresses. -/
def refusedIpv6 : List (Ipv6Addr × Nat) :=
  [(0, 128), (1, 128), (0xfe80#16 ++ 0#112, 10), (0xff00#16 ++ 0#112, 8), (0xfc00#16 ++ 0#112, 7)]

def RefusedIpv4 (address : Ipv4Addr) : Prop := ∃ range ∈ refusedIpv4, Covers range.1 range.2 address

def Refused : IpAddr → Prop
  | .v4 address => RefusedIpv4 address
  | .v6 address =>
    (∃ range ∈ refusedIpv6, Covers range.1 range.2 address) ∨ ∃ embedded, Embeds address embedded ∧ RefusedIpv4 embedded

def TunnelsRefused : IpAddr → Prop
  | .v4 _ => False
  | .v6 address => ∃ embedded, Tunnels address embedded ∧ RefusedIpv4 embedded

theorem toNat_octets (address : Ipv4Addr) :
    address.toNat = address.octet 0 * 2 ^ 24 + address.octet 1 * 2 ^ 16 + address.octet 2 * 2 ^ 8 + address.octet 3 := by
  have bound := address.isLt
  unfold Ipv4Addr.octet
  omega

theorem toNat_new (a b c d : BitVec 8) :
    (Ipv4Addr.new a b c d).toNat = a.toNat * 2 ^ 24 + b.toNat * 2 ^ 16 + c.toNat * 2 ^ 8 + d.toNat := by
  unfold Ipv4Addr.new
  rw [toNat_append_add, toNat_append_add, toNat_append_add]
  omega

theorem octet_lt (address : Ipv4Addr) (index : Nat) : address.octet index < 256 := Nat.mod_lt _ (by omega)

theorem isSensitiveIpv4_iff (address : Ipv4Addr) : isSensitiveIpv4 address = true ↔ RefusedIpv4 address := by
  have number := toNat_octets address
  have first := octet_lt address 0
  have second := octet_lt address 1
  have third := octet_lt address 2
  have fourth := octet_lt address 3
  -- Each range in terms of the octets.
  have inRange (network : Ipv4Addr) (length : Nat) :
      Covers network length address ↔ address.toNat / 2 ^ (32 - length) = network.toNat / 2 ^ (32 - length) := Iff.rfl
  have one (a : BitVec 8) : Covers (Ipv4Addr.new a 0 0 0) 8 address ↔ address.octet 0 = a.toNat := by
    rw [inRange, toNat_new]
    simp
    omega
  have two (a b : BitVec 8) : Covers (Ipv4Addr.new a b 0 0) 16 address ↔ address.octet 0 = a.toNat ∧ address.octet 1 = b.toNat := by
    rw [inRange, toNat_new]
    simp
    omega
  have three (a b c : BitVec 8) : Covers (Ipv4Addr.new a b c 0) 24 address ↔
      address.octet 0 = a.toNat ∧ address.octet 1 = b.toNat ∧ address.octet 2 = c.toNat := by
    rw [inRange, toNat_new]
    simp
    omega
  have multicast : Covers (Ipv4Addr.new 224 0 0 0) 4 address ↔ 224 ≤ address.octet 0 ∧ address.octet 0 ≤ 239 := by
    rw [inRange, toNat_new]
    simp
    omega
  have private12 : Covers (Ipv4Addr.new 172 16 0 0) 12 address ↔
      address.octet 0 = 172 ∧ 16 ≤ address.octet 1 ∧ address.octet 1 ≤ 31 := by
    rw [inRange, toNat_new]
    simp
    omega
  have shared : Covers (Ipv4Addr.new 100 64 0 0) 10 address ↔
      address.octet 0 = 100 ∧ 64 ≤ address.octet 1 ∧ address.octet 1 ≤ 127 := by
    rw [inRange, toNat_new]
    simp
    omega
  have benchmark : Covers (Ipv4Addr.new 198 18 0 0) 15 address ↔
      address.octet 0 = 198 ∧ 18 ≤ address.octet 1 ∧ address.octet 1 ≤ 19 := by
    rw [inRange, toNat_new]
    simp
    omega
  have unspecified : Covers (Ipv4Addr.new 0 0 0 0) 32 address ↔ address = 0 := by
    rw [inRange, toNat_new, ← BitVec.toNat_inj]
    simp
  unfold RefusedIpv4 refusedIpv4 isSensitiveIpv4 Ipv4Addr.isPrivate Ipv4Addr.isLoopback Ipv4Addr.isLinkLocal
    Ipv4Addr.isMulticast Ipv4Addr.isUnspecified
  simp only [Bool.or_eq_true, Bool.and_eq_true, beq_iff_eq, decide_eq_true_eq, List.mem_cons, List.not_mem_nil, or_false,
    exists_eq_or_imp, exists_eq_left, one, two, three, multicast, private12, shared, benchmark, unspecified, or_assoc,
    and_assoc, BitVec.reduceToNat]

theorem and_high {value bits : Nat} (low : Nat) (small : value < 2 ^ bits) :
    value &&& (2 ^ (bits - low) - 1) <<< low = value / 2 ^ low * 2 ^ low := by
  rw [← Nat.shiftRight_eq_div_pow, ← Nat.shiftLeft_eq]
  apply Nat.eq_of_testBit_eq
  intro i
  simp only [Nat.testBit_and, Nat.testBit_shiftLeft, Nat.testBit_shiftRight, Nat.testBit_two_pow_sub_one]
  by_cases high : low ≤ i
  · by_cases inside : i < bits
    · have here : i - low < bits - low := by omega
      simp [high, here]
    · have none : value.testBit i = false := Nat.testBit_lt_two_pow (lt_of_lt_of_le small (Nat.pow_le_pow_right (by omega) (by omega)))
      simp [high, none]
  · simp [high]

theorem isSensitive_v6 (address : Ipv6Addr) :
    isSensitive (.v6 address) = true ↔ (∃ embedded, address.toIpv4 = some embedded ∧ RefusedIpv4 embedded) ∨
      ∃ range ∈ refusedIpv6, Covers range.1 range.2 address := by
  have bound := address.isLt
  have segment : address.segment 0 = address.toNat / 2 ^ 112 := by
    unfold Ipv6Addr.segment
    omega
  have small : address.segment 0 < 2 ^ 16 := by omega
  have linkLocal := and_high 6 small
  have multicast := and_high 8 small
  have uniqueLocal := and_high 9 small
  have loopback : address = 1 ↔ address.toNat = 1 := by
    rw [← BitVec.toNat_inj]
    rfl
  have unspecified : address = 0 ↔ address.toNat = 0 := by
    rw [← BitVec.toNat_inj]
    rfl
  have covers (network : Ipv6Addr) (length : Nat) :
      Covers network length address ↔ address.toNat / 2 ^ (128 - length) = network.toNat / 2 ^ (128 - length) := Iff.rfl
  unfold isSensitive refusedIpv6 Ipv6Addr.isLoopback Ipv6Addr.isUnicastLinkLocal Ipv6Addr.isMulticast
    Ipv6Addr.isUnspecified Ipv6Addr.isUniqueLocal
  simp only [Bool.or_eq_true, Option.any_eq_true, isSensitiveIpv4_iff, beq_iff_eq, unspecified, loopback, List.mem_cons,
    List.not_mem_nil, or_false, exists_eq_or_imp, exists_eq_left, covers, toNat_append_add, or_assoc]
  apply or_congr Iff.rfl
  simp at linkLocal multicast uniqueLocal
  rw [linkLocal, multicast, uniqueLocal, segment]
  simp
  omega

theorem refused_iff (address : IpAddr) : Refused address ↔ isSensitive address = true ∨ TunnelsRefused address := by
  cases address with
  | v4 address =>
    simp only [Refused, isSensitive, TunnelsRefused, or_false]
    exact (isSensitiveIpv4_iff address).symm
  | v6 address =>
    rw [isSensitive_v6]
    simp only [Refused, TunnelsRefused, embeds_iff, or_and_right, exists_or]
    rw [← or_assoc, or_comm (a := ∃ range ∈ refusedIpv6, _)]

/-! ### Policies -/

structure EgressPolicy where
  schemes : Option (List (List Char))
  cidrs : Option (List Cidr)
  ports : Option (List Nat)
  maxRedirects : Nat
  totalDeadlineMs : Nat

namespace EgressPolicy

/-- `EgressPolicy::default` -/
def standard : EgressPolicy where
  schemes := none
  cidrs := none
  ports := none
  maxRedirects := 10
  totalDeadlineMs := 120000

variable (policy : EgressPolicy)

/-- A mapped or compatible address is looked up as the IPv4 address it carries. -/
def normalized : IpAddr → IpAddr
  | .v4 address => .v4 address
  | .v6 address => (address.toIpv4.map IpAddr.v4).getD (.v6 address)

def allowsCandidate (address : IpAddr) : Bool :=
  match validateSsrfDestinations [address] false with
  | .error _ => false
  | .ok () =>
    match policy.cidrs with
    | none => true
    -- The address is printed and parsed again before the lookup, which gives the same address.
    | some cidrs => !cidrs.isEmpty && cidrs.any fun cidr => cidr.contains (normalized address)

def filterAllowedAddresses (scheme : List Char) (port : Nat) (addresses : List IpAddr) : Except String (List IpAddr) :=
  if policy.schemes.any (fun values => !values.contains scheme) || policy.ports.any (fun values => !values.contains port) then
    .error "destination is outside the egress policy"
  else if addresses.isEmpty then .error "URL resolved to no addresses"
  else
    let allowed := addresses.filter policy.allowsCandidate
    if allowed.isEmpty then .error "destination is outside the egress policy" else .ok allowed

/-- The lists of schemes and ports, where there are any, have the destination. -/
def Permits (scheme : List Char) (port : Nat) : Prop :=
  (∀ values, policy.schemes = some values → scheme ∈ values) ∧ ∀ values, policy.ports = some values → port ∈ values

/-- The list of networks, where there is one, has the address. -/
def Lists (address : IpAddr) : Prop := ∀ cidrs, policy.cidrs = some cidrs → ∃ cidr ∈ cidrs, cidr.Holds (normalized address)

theorem allowsCandidate_iff (address : IpAddr) :
    policy.allowsCandidate address = true ↔ isSensitive address = false ∧ policy.Lists address := by
  unfold allowsCandidate validateSsrfDestinations Lists
  cases sensitive : isSensitive address with
  | true => simp [sensitive]
  | false =>
    cases policy.cidrs with
    | none => simp [sensitive]
    | some cidrs =>
      simp [sensitive, Cidr.contains_iff]
      rintro cidr listed holds rfl
      cases listed

theorem permits_iff {scheme : List Char} {port : Nat} :
    (policy.schemes.any (fun values => !values.contains scheme) || policy.ports.any (fun values => !values.contains port)) =
      false ↔ policy.Permits scheme port := by
  unfold Permits
  cases policy.schemes <;> cases policy.ports <;> simp

theorem filterAllowedAddresses_ok {scheme : List Char} {port : Nat} {addresses allowed : List IpAddr} :
    policy.filterAllowedAddresses scheme port addresses = .ok allowed ↔
      policy.Permits scheme port ∧ allowed = addresses.filter policy.allowsCandidate ∧ allowed ≠ [] := by
  unfold filterAllowedAddresses
  rw [← permits_iff]
  split
  · next outside =>
    refine iff_of_false (fun ok => by cases ok) fun permitted => ?_
    rw [outside] at permitted
    cases permitted.1
  · next inside =>
    rw [Bool.not_eq_true] at inside
    split
    · next empty =>
      rw [List.isEmpty_iff] at empty
      simp [empty]
    · dsimp only
      split
      · next none =>
        rw [List.isEmpty_iff] at none
        simp [none]
      · next some =>
        rw [List.isEmpty_iff] at some
        constructor
        · rintro ⟨⟩
          exact ⟨inside, rfl, some⟩
        · rintro ⟨-, rfl, -⟩
          rfl

end EgressPolicy

end BasicNext.Web
