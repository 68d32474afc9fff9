import Wireplug.Foundation.Postcard
import Mathlib.Data.List.Induction

namespace Wireplug

open Foundation Postcard

structure Ipv4Addr where
  octets : Vector UInt8 4
  deriving DecidableEq

def Ipv4Addr.new (a b c d : UInt8) : Ipv4Addr := ⟨#v[a, b, c, d]⟩

structure Ipv6Addr where
  octets : Vector UInt8 16
  deriving DecidableEq

inductive IpAddr where
  | v4 (ip : Ipv4Addr)
  | v6 (ip : Ipv6Addr)
  deriving DecidableEq

inductive SocketAddr where
  | v4 (ip : Ipv4Addr) (port : UInt16)
  | v6 (ip : Ipv6Addr) (port : UInt16) (flowinfo scopeId : UInt32)
  deriving DecidableEq

def SocketAddr.new : IpAddr → UInt16 → SocketAddr
  | .v4 ip, port => .v4 ip port
  | .v6 ip, port => .v6 ip port 0 0

def SocketAddr.ip : SocketAddr → IpAddr
  | .v4 ip _ => .v4 ip
  | .v6 ip _ _ _ => .v6 ip

def SocketAddr.port : SocketAddr → UInt16
  | .v4 _ port => port
  | .v6 _ port _ _ => port

@[simp] theorem SocketAddr.ip_new (ip : IpAddr) (port : UInt16) :
    (SocketAddr.new ip port).ip = ip := by cases ip <;> rfl

@[simp] theorem SocketAddr.port_new (ip : IpAddr) (port : UInt16) :
    (SocketAddr.new ip port).port = port := by cases ip <;> rfl

/-- An address as a number, first octet first. -/
def toNumber (octets : List UInt8) : ℕ := octets.foldl (fun n b ↦ n * 256 + b.toNat) 0

theorem toNumber_snoc (octets : List UInt8) (b : UInt8) :
    toNumber (octets ++ [b]) = toNumber octets * 256 + b.toNat := by
  rw [toNumber, List.foldl_append]
  rfl

theorem toNumber_injective {octets octets' : List UInt8}
    (hlength : octets.length = octets'.length) (h : toNumber octets = toNumber octets') :
    octets = octets' := by
  induction octets using List.reverseRecOn generalizing octets' with
  | nil => exact (List.length_eq_zero_iff.mp hlength.symm).symm
  | append_singleton octets b ih =>
    rcases List.eq_nil_or_concat octets' with rfl | ⟨octets', b', rfl⟩
    · simp at hlength
    · rw [List.concat_eq_append] at h hlength ⊢
      rw [toNumber_snoc, toNumber_snoc] at h
      rw [List.length_append, List.length_append] at hlength
      have hb := b.toNat_lt
      have hb' := b'.toNat_lt
      have hoctets : toNumber octets = toNumber octets' := by omega
      have hlast : b.toNat = b'.toNat := by omega
      rw [ih (Nat.add_right_cancel hlength) hoctets, UInt8.toNat_inj.mp hlast]

theorem toNumber_lt (octets : List UInt8) : toNumber octets < 256 ^ octets.length := by
  induction octets using List.reverseRecOn with
  | nil => exact Nat.one_pos
  | append_singleton octets b ih =>
    have hb := b.toNat_lt
    rw [toNumber_snoc, List.length_append, List.length_singleton, Nat.pow_succ]
    omega

theorem toNumber_append (octets rest : List UInt8) :
    toNumber (octets ++ rest) = toNumber octets * 256 ^ rest.length + toNumber rest := by
  induction rest using List.reverseRecOn with
  | nil => simp [toNumber]
  | append_singleton rest b ih =>
    rw [← List.append_assoc, toNumber_snoc, ih, toNumber_snoc, List.length_append,
      List.length_singleton, Nat.pow_succ, Nat.add_mul, Nat.mul_assoc, Nat.add_assoc]

theorem toNumber_append_div (octets rest : List UInt8) :
    toNumber (octets ++ rest) / 2 ^ (8 * rest.length) = toNumber octets := by
  rw [toNumber_append, Nat.pow_mul]
  exact Nat.div_eq_of_lt_le (Nat.le_add_right _ _)
    (by rw [Nat.succ_mul]; exact Nat.add_lt_add_left (toNumber_lt rest) _)

/-- An interface address with the length of its network prefix. The host bits of
the address are kept. -/
structure Ipv4Net where
  addr : Ipv4Addr
  prefixLen : UInt8
  bounded : prefixLen ≤ 32
  deriving DecidableEq

def Ipv4Net.slash24 (addr : Ipv4Addr) : Ipv4Net := ⟨addr, 24, by decide⟩

structure Ipv6Net where
  addr : Ipv6Addr
  prefixLen : UInt8
  bounded : prefixLen ≤ 128
  deriving DecidableEq

def Ipv4Net.new (addr : Ipv4Addr) (prefixLen : UInt8) : Option Ipv4Net :=
  if h : prefixLen ≤ 32 then some ⟨addr, prefixLen, h⟩ else none

def Ipv6Net.new (addr : Ipv6Addr) (prefixLen : UInt8) : Option Ipv6Net :=
  if h : prefixLen ≤ 128 then some ⟨addr, prefixLen, h⟩ else none

/-- `other` lies between the first and the last address of the network of
`addr` whose prefix leaves `hostBits` free. -/
def inNetwork (addr hostBits other : ℕ) : Bool :=
  let network := addr / 2 ^ hostBits * 2 ^ hostBits
  network ≤ other && other ≤ network + 2 ^ hostBits - 1

theorem inNetwork_iff (addr hostBits other : ℕ) :
    inNetwork addr hostBits other = true ↔ other / 2 ^ hostBits = addr / 2 ^ hostBits := by
  have hpos : 0 < 2 ^ hostBits := Nat.two_pow_pos hostBits
  have hlast : other ≤ addr / 2 ^ hostBits * 2 ^ hostBits + 2 ^ hostBits - 1 ↔
      other / 2 ^ hostBits ≤ addr / 2 ^ hostBits := by
    rw [← Nat.lt_succ_iff, ← Nat.lt_succ_iff, Nat.div_lt_iff_lt_mul hpos, Nat.succ_mul]
    omega
  rw [inNetwork, Bool.and_eq_true, decide_eq_true_eq, decide_eq_true_eq,
    ← Nat.le_div_iff_mul_le hpos, hlast, le_antisymm_iff, and_comm]

inductive IpNet where
  | v4 (net : Ipv4Net)
  | v6 (net : Ipv6Net)
  deriving DecidableEq

def IpNet.addr : IpNet → IpAddr
  | .v4 net => .v4 net.addr
  | .v6 net => .v6 net.addr

def IpNet.contains : IpNet → IpAddr → Bool
  | .v4 net, .v4 ip =>
    inNetwork (toNumber net.addr.octets.toList) (32 - net.prefixLen.toNat)
      (toNumber ip.octets.toList)
  | .v6 net, .v6 ip =>
    inNetwork (toNumber net.addr.octets.toList) (128 - net.prefixLen.toNat)
      (toNumber ip.octets.toList)
  | _, _ => false

def encodeIpv4Addr (ip : Ipv4Addr) : Bytes := encodeArray ip.octets

def decodeIpv4Addr : Decoder Ipv4Addr := do
  let octets ← array 4
  pure ⟨octets⟩

theorem roundTrips_ipv4Addr : RoundTrips decodeIpv4Addr encodeIpv4Addr :=
  fun ip h ↦ (roundTrips_array 4 ip.octets h).map Ipv4Addr.mk

def encodeIpv6Addr (ip : Ipv6Addr) : Bytes := encodeArray ip.octets

def decodeIpv6Addr : Decoder Ipv6Addr := do
  let octets ← array 16
  pure ⟨octets⟩

theorem roundTrips_ipv6Addr : RoundTrips decodeIpv6Addr encodeIpv6Addr :=
  fun ip h ↦ (roundTrips_array 16 ip.octets h).map Ipv6Addr.mk

def encodeIpv4Net (net : Ipv4Net) : Bytes := encodeIpv4Addr net.addr ++ encodeU8 net.prefixLen

def decodeIpv4Net : Decoder Ipv4Net := do
  let addr ← decodeIpv4Addr
  let prefixLen ← Decoder.byte
  Decoder.ofOption (Ipv4Net.new addr prefixLen)

theorem roundTrips_ipv4Net : RoundTrips decodeIpv4Net encodeIpv4Net := by
  intro net h
  rw [encodeIpv4Net, List.length_append] at h
  have hnew : Ipv4Net.new net.addr net.prefixLen = some net := dif_pos net.bounded
  exact (roundTrips_ipv4Addr net.addr (by omega)).bind
    ((roundTrips_u8 net.prefixLen (by omega)).check hnew)

def encodeIpv6Net (net : Ipv6Net) : Bytes := encodeIpv6Addr net.addr ++ encodeU8 net.prefixLen

def decodeIpv6Net : Decoder Ipv6Net := do
  let addr ← decodeIpv6Addr
  let prefixLen ← Decoder.byte
  Decoder.ofOption (Ipv6Net.new addr prefixLen)

theorem roundTrips_ipv6Net : RoundTrips decodeIpv6Net encodeIpv6Net := by
  intro net h
  rw [encodeIpv6Net, List.length_append] at h
  have hnew : Ipv6Net.new net.addr net.prefixLen = some net := dif_pos net.bounded
  exact (roundTrips_ipv6Addr net.addr (by omega)).bind
    ((roundTrips_u8 net.prefixLen (by omega)).check hnew)

def encodeIpNet : IpNet → Bytes
  | .v4 net => encodeVariant 0 ++ encodeIpv4Net net
  | .v6 net => encodeVariant 1 ++ encodeIpv6Net net

def decodeIpNet : Decoder IpNet := do
  match ← variant with
  | 0 => do
    let net ← decodeIpv4Net
    pure (.v4 net)
  | 1 => do
    let net ← decodeIpv6Net
    pure (.v6 net)
  | _ => Decoder.fail

theorem consumes_ipNet : decodeIpNet.Consumes := (consumes_varint 32).bind _

theorem roundTrips_ipNet : RoundTrips decodeIpNet encodeIpNet := by
  intro net h
  cases net with
  | v4 net =>
    rw [encodeIpNet, List.length_append] at h
    exact (decodes_variant (by omega)).bind ((roundTrips_ipv4Net net (by omega)).map IpNet.v4)
  | v6 net =>
    rw [encodeIpNet, List.length_append] at h
    exact (decodes_variant (by omega)).bind ((roundTrips_ipv6Net net (by omega)).map IpNet.v6)

def IpNet.size : IpNet → ℕ
  | .v4 _ => 6
  | .v6 _ => 18

theorem encodeIpNet_length (net : IpNet) : (encodeIpNet net).length = net.size := by
  cases net with
  | v4 net =>
    rw [encodeIpNet, encodeIpv4Net, encodeIpv4Addr, List.length_append, List.length_append,
      encodeArray_length]
    rfl
  | v6 net =>
    rw [encodeIpNet, encodeIpv6Net, encodeIpv6Addr, List.length_append, List.length_append,
      encodeArray_length]
    rfl

theorem encodeIpNet_ne_nil (net : IpNet) : encodeIpNet net ≠ [] := by
  rw [← List.length_pos_iff, encodeIpNet_length]
  cases net <;> exact Nat.succ_pos _

end Wireplug
