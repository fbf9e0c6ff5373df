import FerrumGate.Proto.Text

/-!
# Where the HTTP adapter may connect to

`is_forbidden_destination_ip`, `is_forbidden_ipv4` and the `EgressResolver` of
`ferrum-adapter-http/src/lib.rs`, with the address predicates of the standard library they call.
An IPv4 address is refused by its octets; an IPv6 address that maps an IPv4 address is refused with
it, and any other one by five ranges of its own.

* **`carried_refused_iff`** : of the IPv6 addresses that carry a forbidden IPv4 address (mapped,
  compatible, 6to4, or behind the well-known prefix of NAT64), exactly the mapped ones, `::1` and
  `::` are refused.
* `nat64_of_private_resolves` : an answer behind the NAT64 prefix of a private address goes through.

The lookup itself is an arbitrary function.
-/

namespace FerrumGate.Egress

/-! ## Addresses -/

/-- `Ipv4Addr`, by its octets. -/
structure Ipv4Addr where
  a : UInt8
  b : UInt8
  c : UInt8
  d : UInt8
  deriving DecidableEq

/-- `Ipv6Addr`, by its octets. -/
structure Ipv6Addr where
  octets : Vector UInt8 16
  deriving DecidableEq

inductive IpAddr where
  | v4 (addr : Ipv4Addr)
  | v6 (addr : Ipv6Addr)
  deriving DecidableEq

namespace Ipv4Addr

def isUnspecified (ip : Ipv4Addr) : Bool := ip = ⟨0, 0, 0, 0⟩

def isLoopback (ip : Ipv4Addr) : Bool := ip.a = 127

def isPrivate (ip : Ipv4Addr) : Bool :=
  ip.a = 10 || (ip.a = 172 && 16 ≤ ip.b && ip.b ≤ 31) || (ip.a = 192 && ip.b = 168)

def isLinkLocal (ip : Ipv4Addr) : Bool := ip.a = 169 && ip.b = 254

def isMulticast (ip : Ipv4Addr) : Bool := 224 ≤ ip.a && ip.a ≤ 239

def isBroadcast (ip : Ipv4Addr) : Bool := ip = ⟨255, 255, 255, 255⟩

def isDocumentation (ip : Ipv4Addr) : Bool :=
  (ip.a = 192 && ip.b = 0 && ip.c = 2) || (ip.a = 198 && ip.b = 51 && ip.c = 100) ||
    (ip.a = 203 && ip.b = 0 && ip.c = 113)

end Ipv4Addr

namespace Ipv6Addr

/-- The first of the eight segments. -/
def segment0 (ip : Ipv6Addr) : UInt16 := ip.octets[0].toUInt16 <<< 8 ||| ip.octets[1].toUInt16

/-- `::` -/
def unspecified : Ipv6Addr := ⟨#v[0, 0, 0, 0, 0, 0, 0, 0, 0, 0, 0, 0, 0, 0, 0, 0]⟩

/-- `::1` -/
def localhost : Ipv6Addr := ⟨#v[0, 0, 0, 0, 0, 0, 0, 0, 0, 0, 0, 0, 0, 0, 0, 1]⟩

def isUnspecified (ip : Ipv6Addr) : Bool := ip = unspecified

def isLoopback (ip : Ipv6Addr) : Bool := ip = localhost

def isMulticast (ip : Ipv6Addr) : Bool := ip.octets[0] = 0xff

def isUniqueLocal (ip : Ipv6Addr) : Bool := ip.segment0 &&& 0xfe00 = 0xfc00

def isUnicastLinkLocal (ip : Ipv6Addr) : Bool := ip.segment0 &&& 0xffc0 = 0xfe80

/-- The last four octets. -/
def low (ip : Ipv6Addr) : Ipv4Addr :=
  ⟨ip.octets[12], ip.octets[13], ip.octets[14], ip.octets[15]⟩

/-- `to_ipv4_mapped`: `::ffff:a.b.c.d`. -/
def toIpv4Mapped (ip : Ipv6Addr) : Option Ipv4Addr :=
  if ip.octets.toList.take 12 = [0, 0, 0, 0, 0, 0, 0, 0, 0, 0, 0xff, 0xff] then some ip.low else none

end Ipv6Addr

/-! ## The filter -/

/-- 0.0.0.0/8 -/
def isThisNetwork (ip : Ipv4Addr) : Bool := ip.a = 0

/-- 100.64.0.0/10 -/
def isSharedAddressSpace (ip : Ipv4Addr) : Bool := ip.a = 100 && ip.b &&& 0xC0 = 0x40

/-- 198.18.0.0/15 -/
def isBenchmarking (ip : Ipv4Addr) : Bool := ip.a = 198 && ip.b &&& 0xFE = 0x12

/-- 240.0.0.0/4 -/
def isReservedFutureUse (ip : Ipv4Addr) : Bool := 240 ≤ ip.a

/-- 192.0.0.0/24 -/
def isIetfProtocolAssignments (ip : Ipv4Addr) : Bool := ip.a = 192 && ip.b = 0 && ip.c = 0

/-- 192.88.99.0/24 -/
def is6to4RelayAnycast (ip : Ipv4Addr) : Bool := ip.a = 192 && ip.b = 88 && ip.c = 99

/-- **`is_forbidden_ipv4`** -/
def isForbiddenIpv4 (ip : Ipv4Addr) : Bool :=
  ip.isLoopback || ip.isPrivate || ip.isLinkLocal || ip.isBroadcast || ip.isDocumentation ||
    ip.isUnspecified || ip.isMulticast || isThisNetwork ip || isSharedAddressSpace ip ||
    isBenchmarking ip || isReservedFutureUse ip || isIetfProtocolAssignments ip ||
    is6to4RelayAnycast ip

/-- **`is_forbidden_destination_ip`** -/
def isForbiddenDestinationIp : IpAddr → Bool
  | .v4 addr => isForbiddenIpv4 addr
  | .v6 addr =>
    match addr.toIpv4Mapped with
    | some v4 => isForbiddenIpv4 v4
    | none =>
      addr.isLoopback || addr.isUnspecified || addr.isMulticast || addr.isUniqueLocal ||
        addr.isUnicastLinkLocal

/-! ## The resolver -/

/-- `canonical_host`: trimmed, without dots at the end, in ASCII lower case. -/
def canonicalHost (host : String) : String :=
  String.ofList (((trimmed host.toList).reverse.dropWhile (· = '.')).reverse.map Char.toLower)

inductive EgressError where
  | notAllowed (host : String)
  | lookup (host : String)
  | noAnswers (host : String)
  | forbiddenAddress (host : String) (ip : IpAddr)
  deriving DecidableEq

structure EgressResolver where
  allowedHosts : List String
  allowPrivateNetworks : Bool
  /-- The name service, or the records of a test. -/
  lookup : String → Option (List IpAddr)

/-- **`resolve`**: the addresses to connect to. -/
def EgressResolver.resolve (resolver : EgressResolver) (name : String) :
    Except EgressError (List IpAddr) :=
  let host := canonicalHost name
  if !resolver.allowedHosts.contains host then .error (.notAllowed host)
  else
    match resolver.lookup host with
    | none => .error (.lookup host)
    | some [] => .error (.noAnswers host)
    | some ips =>
      if resolver.allowPrivateNetworks then .ok ips
      else
        match ips.find? isForbiddenDestinationIp with
        | some ip => .error (.forbiddenAddress host ip)
        | none => .ok ips

/-! ## IPv4 addresses inside IPv6 addresses -/

namespace Ipv4Addr

/-- `::ffff:a.b.c.d` -/
def mapped (ip : Ipv4Addr) : Ipv6Addr :=
  ⟨#v[0, 0, 0, 0, 0, 0, 0, 0, 0, 0, 0xff, 0xff, ip.a, ip.b, ip.c, ip.d]⟩

/-- `::a.b.c.d` -/
def compatible (ip : Ipv4Addr) : Ipv6Addr :=
  ⟨#v[0, 0, 0, 0, 0, 0, 0, 0, 0, 0, 0, 0, ip.a, ip.b, ip.c, ip.d]⟩

/-- `2002:aabb:ccdd::/48`, with a subnet and an interface. -/
def sixToFour (ip : Ipv4Addr) (host : Vector UInt8 10) : Ipv6Addr :=
  ⟨#v[0x20, 0x02, ip.a, ip.b, ip.c, ip.d, host[0], host[1], host[2], host[3], host[4], host[5],
    host[6], host[7], host[8], host[9]]⟩

/-- `64:ff9b::a.b.c.d` -/
def nat64 (ip : Ipv4Addr) : Ipv6Addr :=
  ⟨#v[0, 0x64, 0xff, 0x9b, 0, 0, 0, 0, 0, 0, 0, 0, ip.a, ip.b, ip.c, ip.d]⟩

end Ipv4Addr

/-- The IPv6 address stands for the IPv4 address. -/
inductive Carries : Ipv6Addr → Ipv4Addr → Prop
  | mapped (ip : Ipv4Addr) : Carries ip.mapped ip
  | compatible (ip : Ipv4Addr) : Carries ip.compatible ip
  | sixToFour (ip : Ipv4Addr) (host : Vector UInt8 10) : Carries (ip.sixToFour host) ip
  | nat64 (ip : Ipv4Addr) : Carries ip.nat64 ip

section Carried

variable {ip : Ipv4Addr} {addr : Ipv6Addr}

/-- An address that maps nothing and begins outside of the ranges. -/
theorem forbidden_iff_of_plain (high low : UInt8) (hmapped : addr.toIpv4Mapped = none)
    (hhigh : addr.octets[0] = high) (hlow : addr.octets[1] = low)
    (hplain : high ≠ 0xff ∧ (high.toUInt16 <<< 8 ||| low.toUInt16) &&& 0xfe00 ≠ 0xfc00 ∧
      (high.toUInt16 <<< 8 ||| low.toUInt16) &&& 0xffc0 ≠ 0xfe80) :
    isForbiddenDestinationIp (.v6 addr) = true ↔ addr = .localhost ∨ addr = .unspecified := by
  subst hhigh hlow
  obtain ⟨hmulticast, hunique, hlink⟩ := hplain
  simp only [isForbiddenDestinationIp, hmapped, Ipv6Addr.isLoopback, Ipv6Addr.isUnspecified,
    Ipv6Addr.isMulticast, Ipv6Addr.isUniqueLocal, Ipv6Addr.isUnicastLinkLocal, Ipv6Addr.segment0,
    hmulticast, hunique, hlink, decide_false, Bool.or_false, Bool.or_eq_true, decide_eq_true_eq]

/-- What is carried in another way than mapped is refused at two addresses only. -/
theorem forbidden_iff_of_carries (h : Carries addr ip) (hne : addr ≠ ip.mapped) :
    isForbiddenDestinationIp (.v6 addr) = true ↔ addr = .localhost ∨ addr = .unspecified := by
  cases h with
  | mapped => exact absurd rfl hne
  | compatible => exact forbidden_iff_of_plain 0 0 rfl rfl rfl (by decide)
  | sixToFour host => exact forbidden_iff_of_plain 0x20 0x02 rfl rfl rfl (by decide)
  | nat64 => exact forbidden_iff_of_plain 0 0x64 rfl rfl rfl (by decide)

/-- **Which of the carried addresses are refused.** -/
theorem carried_refused_iff (hforbidden : isForbiddenIpv4 ip = true) (hcarries : Carries addr ip) :
    isForbiddenDestinationIp (.v6 addr) = true ↔
      addr = ip.mapped ∨ addr = .localhost ∨ addr = .unspecified := by
  by_cases hmapped : addr = ip.mapped
  · subst hmapped
    exact iff_of_true hforbidden (.inl rfl)
  · rw [forbidden_iff_of_carries hcarries hmapped, or_iff_right hmapped]

end Carried

/-- 10.0.0.1 -/
def privateHost : Ipv4Addr := ⟨10, 0, 0, 1⟩

theorem carried_refused_mapped :
    isForbiddenIpv4 privateHost = true ∧ Carries privateHost.mapped privateHost ∧
      isForbiddenDestinationIp (.v6 privateHost.mapped) = true := by
  have hforbidden : isForbiddenIpv4 privateHost = true := rfl
  exact ⟨hforbidden, .mapped _, (carried_refused_iff hforbidden (.mapped _)).mpr (.inl rfl)⟩

/-- `64:ff9b::10.0.0.1` is an answer the resolver lets through; so are the compatible address, and
the 6to4 address with any host part. -/
theorem nat64_of_private_resolves :
    isForbiddenIpv4 privateHost = true ∧
    EgressResolver.resolve ⟨["shop.local"], false, fun _ => some [.v6 privateHost.nat64]⟩
      "shop.local" = .ok [.v6 privateHost.nat64] ∧
    isForbiddenDestinationIp (.v6 privateHost.compatible) = false ∧
    ∀ host, isForbiddenDestinationIp (.v6 (privateHost.sixToFour host)) = false := by
  have hpass {addr : Ipv6Addr} (h : Carries addr privateHost) (hmapped : addr ≠ privateHost.mapped)
      (hlocal : addr ≠ .localhost) (hzero : addr ≠ .unspecified) :
      isForbiddenDestinationIp (.v6 addr) = false := by
    rw [← Bool.not_eq_true, forbidden_iff_of_carries h hmapped]
    exact not_or_intro hlocal hzero
  refine ⟨rfl, by decide, hpass (.compatible _) (by decide) (by decide) (by decide), fun host => ?_⟩
  have hfirst {other : Ipv6Addr} (h : other.octets[0] ≠ 0x20) : privateHost.sixToFour host ≠ other :=
    fun heq => h (congrArg (·.octets[0]) heq).symm
  exact hpass (.sixToFour _ _) (hfirst (by decide)) (hfirst (by decide)) (hfirst (by decide))

end FerrumGate.Egress
