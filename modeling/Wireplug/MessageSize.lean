import Wireplug.Key

namespace Wireplug

open Foundation Postcard

/-- An announcement of `peers` keys. A key takes 45 bytes, its length included. -/
def announcementSize (peers : ℕ) (ipv6 : Option Ipv6Addr) (wgPort : UInt16)
    (lanAddrs : List IpNet) : ℕ :=
  45 + (varintSize 64 peers + 45 * peers) + (if ipv6.isSome then 17 else 1) +
    varintSize 16 wgPort.toNat + (varintSize 64 lanAddrs.length + (lanAddrs.map IpNet.size).sum) + 1

def WireplugEndpoint.size : WireplugEndpoint → ℕ
  | .unknown => 1
  | .localNetwork ipv6 lanAddrs wgPort =>
    1 + (if ipv6.isSome then 17 else 1) +
      (varintSize 64 lanAddrs.length + (lanAddrs.map IpNet.size).sum) + varintSize 16 wgPort.toNat
  | .remoteNetwork ipv4 ipv6 wgPort =>
    1 + (if ipv4.isSome then 5 else 1) + (if ipv6.isSome then 17 else 1) +
      varintSize 16 wgPort.toNat
  | .relay id port => 1 + varintSize 64 id.toNat + varintSize 16 port.toNat

def responseSize (m : HashMap String WireplugEndpoint) : ℕ :=
  varintSize 64 m.entries.length + (m.entries.map fun p ↦ 45 + p.2.size).sum

theorem encodeIpv6Addr_length (ip : Ipv6Addr) : (encodeIpv6Addr ip).length = 16 :=
  encodeArray_length ip.octets

theorem encodeIpv4Addr_length (ip : Ipv4Addr) : (encodeIpv4Addr ip).length = 4 :=
  encodeArray_length ip.octets

theorem encodeU16_length (n : UInt16) : (encodeU16 n).length = varintSize 16 n.toNat :=
  encodeVarint_length _ _

theorem encodeVariant_length {n : ℕ} (hn : n < 128) : (encodeVariant n).length = 1 := by
  rw [encodeVariant, encodeVarint_length, varintSize, Nat.log_of_lt hn]
  rfl

theorem encodeKey_length {s : String} (h : s.utf8ByteSize = 44) : (encodeString s).length = 45 := by
  rw [encodeString_length, h, varintSize, Nat.log_of_lt (by decide)]
  rfl

theorem encodeLanAddrs_length (lanAddrs : List IpNet) : (encodeSeq encodeIpNet lanAddrs).length =
    varintSize 64 lanAddrs.length + (lanAddrs.map IpNet.size).sum := by
  rw [encodeSeq_length]
  simp only [encodeIpNet_length]

theorem encodeKeys_length {keys : List String} (h : ∀ k ∈ keys, k.utf8ByteSize = 44) :
    (encodeSeq encodeString keys).length = varintSize 64 keys.length + 45 * keys.length := by
  have hsum : (keys.map fun k ↦ (encodeString k).length).sum = (keys.map fun _ ↦ 45).sum := by
    congr 1
    exact List.map_congr_left fun k hk ↦ encodeKey_length (h k hk)
  rw [encodeSeq_length, hsum, List.map_const',
    List.sum_replicate_nat, Nat.mul_comm]

theorem encodeAnnouncement_length {a : WireplugAnnouncement}
    (hinitiator : a.initiatorPubkey.utf8ByteSize = 44)
    (hpeers : ∀ p ∈ a.peerPubkeys, p.utf8ByteSize = 44) : (encodeAnnouncement a).length =
      announcementSize a.peerPubkeys.length a.ipv6 a.wgPort a.lanAddrs := by
  simp only [encodeAnnouncement, List.length_append]
  rw [encodeKey_length hinitiator, encodeKeys_length hpeers,
    encodeOption_length encodeIpv6Addr_length, encodeU16_length, encodeLanAddrs_length,
    announcementSize]
  rfl

theorem encodeEndpoint_length (e : WireplugEndpoint) : (encodeEndpoint e).length = e.size := by
  cases e with
  | unknown => exact encodeVariant_length (by decide)
  | localNetwork ipv6 lanAddrs wgPort =>
    simp only [encodeEndpoint, List.length_append]
    rw [encodeVariant_length (by decide), encodeOption_length encodeIpv6Addr_length,
      encodeLanAddrs_length, encodeU16_length, WireplugEndpoint.size]
  | remoteNetwork ipv4 ipv6 wgPort =>
    simp only [encodeEndpoint, List.length_append]
    rw [encodeVariant_length (by decide), encodeOption_length encodeIpv4Addr_length,
      encodeOption_length encodeIpv6Addr_length, encodeU16_length, WireplugEndpoint.size]
  | relay id port =>
    simp only [encodeEndpoint, List.length_append]
    rw [encodeVariant_length (by decide), encodeUsize, encodeVarint_length, encodeU16_length,
      WireplugEndpoint.size]

theorem encodeResponse_length {m : HashMap String WireplugEndpoint}
    (hkeys : ∀ k ∈ m.keys, k.utf8ByteSize = 44) :
    (encodeResponse ⟨m⟩).length = responseSize m := by
  rw [encodeResponse, encodeSeq_length, responseSize]
  congr 2
  refine List.map_congr_left fun p hp ↦ ?_
  have hkey := hkeys p.1 (List.mem_map_of_mem hp)
  rw [encodePair, List.length_append, encodeKey_length hkey, encodeEndpoint_length]

theorem utf8ByteSize_of_isValidWgkey {s : String} (h : isValidWgkey s = true) :
    s.utf8ByteSize = 44 := by
  by_contra hne
  rw [isValidWgkey, if_pos hne] at h
  cases h

theorem encodeAnnouncement_length_of_valid {a : WireplugAnnouncement} (h : a.valid = true) :
    (encodeAnnouncement a).length =
      announcementSize a.peerPubkeys.length a.ipv6 a.wgPort a.lanAddrs := by
  simp only [WireplugAnnouncement.valid, Bool.and_eq_true, List.all_eq_true] at h
  obtain ⟨⟨hinitiator, hpeers⟩, -⟩ := h
  exact encodeAnnouncement_length (utf8ByteSize_of_isValidWgkey hinitiator)
    fun p hp ↦ utf8ByteSize_of_isValidWgkey (hpeers p hp)

theorem bareAnnouncement_length (initiator peer : Key) :
    (encodeAnnouncement (bareAnnouncement initiator peer)).length = 97 := by
  rw [encodeAnnouncement_length_of_valid (bareAnnouncement_valid initiator peer)]
  change announcementSize 1 none 51820 [] = 97
  decide +kernel

end Wireplug
