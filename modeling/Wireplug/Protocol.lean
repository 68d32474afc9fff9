import Wireplug.Address
import Wireplug.Foundation.HashMap

namespace Wireplug

open Foundation Postcard

def wireplugProtocolMagic : Bytes := [0xFD, 0xAC, 0xAF]
def wireplugProtocolVersion : Bytes := [0x1]
def maxMessageSize : ℕ := 4096

def isValidWgkey (s : String) : Bool :=
  if s.utf8ByteSize ≠ 44 then false
  else s.toList.all fun c ↦ c.isAlphanum || c = '+' || c = '/' || c = '='

structure WireplugAnnouncement where
  initiatorPubkey : String
  peerPubkeys : List String
  ipv6 : Option Ipv6Addr
  wgPort : UInt16
  lanAddrs : List IpNet
  needsRelay : Bool
  deriving DecidableEq

def WireplugAnnouncement.valid (a : WireplugAnnouncement) : Bool :=
  isValidWgkey a.initiatorPubkey && a.peerPubkeys.all isValidWgkey && 1024 ≤ a.wgPort

inductive WireplugEndpoint where
  | unknown
  | localNetwork (ipv6 : Option Ipv6Addr) (lanAddrs : List IpNet) (wgPort : UInt16)
  | remoteNetwork (ipv4 : Option Ipv4Addr) (ipv6 : Option Ipv6Addr) (wgPort : UInt16)
  | relay (id : UInt64) (port : UInt16)
  deriving DecidableEq

structure WireplugResponse where
  peerEndpoints : HashMap String WireplugEndpoint

def WireplugResponse.fromPeerEndpoints (peerEndpoints : HashMap String WireplugEndpoint) :
    WireplugResponse := ⟨peerEndpoints⟩

def WireplugResponse.valid (_ : WireplugResponse) : Bool := true

structure WireplugStunRequest where
  port : UInt16
  deriving DecidableEq

inductive WireplugStunResult where
  | samePort
  | differentPort (port : UInt16)
  deriving DecidableEq

structure WireplugStunResponse where
  result : WireplugStunResult
  deriving DecidableEq

def WireplugStunResponse.new : Option UInt16 → WireplugStunResponse
  | some p => ⟨.differentPort p⟩
  | none => ⟨.samePort⟩

def encodeAnnouncement (a : WireplugAnnouncement) : Bytes :=
  encodeString a.initiatorPubkey ++ encodeSeq encodeString a.peerPubkeys ++
    encodeOption encodeIpv6Addr a.ipv6 ++ encodeU16 a.wgPort ++ encodeSeq encodeIpNet a.lanAddrs ++
    encodeBool a.needsRelay

def decodeAnnouncement : Decoder WireplugAnnouncement := do
  let initiatorPubkey ← string
  let peerPubkeys ← seq string
  let ipv6 ← option decodeIpv6Addr
  let wgPort ← u16
  let lanAddrs ← seq decodeIpNet
  let needsRelay ← bool
  pure { initiatorPubkey, peerPubkeys, ipv6, wgPort, lanAddrs, needsRelay }

def encodeEndpoint : WireplugEndpoint → Bytes
  | .unknown => encodeVariant 0
  | .localNetwork ipv6 lanAddrs wgPort =>
    encodeVariant 1 ++ encodeOption encodeIpv6Addr ipv6 ++ encodeSeq encodeIpNet lanAddrs ++
      encodeU16 wgPort
  | .remoteNetwork ipv4 ipv6 wgPort =>
    encodeVariant 2 ++ encodeOption encodeIpv4Addr ipv4 ++ encodeOption encodeIpv6Addr ipv6 ++
      encodeU16 wgPort
  | .relay id port => encodeVariant 3 ++ encodeUsize id ++ encodeU16 port

def decodeEndpoint : Decoder WireplugEndpoint := do
  match ← variant with
  | 0 => pure .unknown
  | 1 => do
    let ipv6 ← option decodeIpv6Addr
    let lanAddrs ← seq decodeIpNet
    let wgPort ← u16
    pure (.localNetwork ipv6 lanAddrs wgPort)
  | 2 => do
    let ipv4 ← option decodeIpv4Addr
    let ipv6 ← option decodeIpv6Addr
    let wgPort ← u16
    pure (.remoteNetwork ipv4 ipv6 wgPort)
  | 3 => do
    let id ← usize
    let port ← u16
    pure (.relay id port)
  | _ => Decoder.fail

/-- A map is written in the order in which it is iterated. -/
def encodeResponse (response : WireplugResponse) : Bytes :=
  encodeSeq (encodePair encodeString encodeEndpoint) response.peerEndpoints.entries

def decodeResponse : Decoder WireplugResponse := do
  let entries ← seq (pair string decodeEndpoint)
  pure ⟨HashMap.ofEntries entries⟩

def encodeStunRequest (request : WireplugStunRequest) : Bytes := encodeU16 request.port

def decodeStunRequest : Decoder WireplugStunRequest := do
  let port ← u16
  pure ⟨port⟩

def encodeStunResponse (response : WireplugStunResponse) : Bytes :=
  match response.result with
  | .samePort => encodeVariant 0
  | .differentPort port => encodeVariant 1 ++ encodeU16 port

def decodeStunResponse : Decoder WireplugStunResponse := do
  match ← variant with
  | 0 => pure ⟨.samePort⟩
  | 1 => do
    let port ← u16
    pure ⟨.differentPort port⟩
  | _ => Decoder.fail

theorem roundTrips_announcement : RoundTrips decodeAnnouncement encodeAnnouncement := by
  intro a h
  simp only [encodeAnnouncement, List.length_append, List.append_assoc] at h ⊢
  refine (roundTrips_string _ (by omega)).bind ?_
  refine (roundTrips_string.seq encodeString_ne_nil _ (by omega)).bind ?_
  refine (roundTrips_ipv6Addr.option _ (by omega)).bind ?_
  refine (roundTrips_u16 _ (by omega)).bind ?_
  refine (roundTrips_ipNet.seq encodeIpNet_ne_nil _ (by omega)).bind ?_
  exact (roundTrips_bool _ (by omega)).map (WireplugAnnouncement.mk _ _ _ _ _)

theorem roundTrips_endpoint : RoundTrips decodeEndpoint encodeEndpoint := by
  intro e h
  cases e with
  | unknown => exact (decodes_variant (by omega)).finish (.pure _)
  | localNetwork ipv6 lanAddrs wgPort =>
    simp only [encodeEndpoint, List.length_append, List.append_assoc] at h ⊢
    refine (decodes_variant (by omega)).bind ?_
    refine (roundTrips_ipv6Addr.option _ (by omega)).bind ?_
    refine (roundTrips_ipNet.seq encodeIpNet_ne_nil _ (by omega)).bind ?_
    exact (roundTrips_u16 _ (by omega)).map (WireplugEndpoint.localNetwork _ _)
  | remoteNetwork ipv4 ipv6 wgPort =>
    simp only [encodeEndpoint, List.length_append, List.append_assoc] at h ⊢
    refine (decodes_variant (by omega)).bind ?_
    refine (roundTrips_ipv4Addr.option _ (by omega)).bind ?_
    refine (roundTrips_ipv6Addr.option _ (by omega)).bind ?_
    exact (roundTrips_u16 _ (by omega)).map (WireplugEndpoint.remoteNetwork _ _)
  | relay id port =>
    simp only [encodeEndpoint, List.length_append, List.append_assoc] at h ⊢
    refine (decodes_variant (by omega)).bind ?_
    refine (roundTrips_usize _ (by omega)).bind ?_
    exact (roundTrips_u16 _ (by omega)).map (WireplugEndpoint.relay _)

/-- The map comes back whatever order it was written in; only its own order of
iteration is not part of the message. -/
theorem decodes_response (m : HashMap String WireplugEndpoint)
    {entries : List (String × WireplugEndpoint)} (hperm : entries.Perm m.entries)
    (h : (encodeSeq (encodePair encodeString encodeEndpoint) entries).length < 2 ^ 64) :
    ∃ m' : HashMap String WireplugEndpoint, m'.Equiv m ∧
      decodeResponse.Decodes (encodeSeq (encodePair encodeString encodeEndpoint) entries) ⟨m'⟩ := by
  refine ⟨HashMap.ofEntries entries, HashMap.ofEntries_equiv m hperm, ?_⟩
  exact ((roundTrips_string.pair roundTrips_endpoint).seq
    (encodePair_ne_nil encodeString_ne_nil) entries h).finish (.pure _)

theorem roundTrips_stunRequest : RoundTrips decodeStunRequest encodeStunRequest :=
  fun request h ↦ (roundTrips_u16 request.port h).map WireplugStunRequest.mk

theorem roundTrips_stunResponse : RoundTrips decodeStunResponse encodeStunResponse := by
  intro response h
  obtain ⟨result⟩ := response
  cases result with
  | samePort => exact (decodes_variant (by omega)).finish (.pure _)
  | differentPort port =>
    simp only [encodeStunResponse, List.length_append] at h ⊢
    exact (decodes_variant (by omega)).bind
      ((roundTrips_u16 port (by omega)).finish (.pure _))

theorem lengths_of_decoded {bytes : Bytes} {a : WireplugAnnouncement}
    (h : fromBytes decodeAnnouncement bytes = some a) :
    a.peerPubkeys.length ≤ bytes.length ∧ a.lanAddrs.length ≤ bytes.length := by
  obtain ⟨⟨a', rest⟩, hrun, rfl⟩ := Option.map_eq_some_iff.mp h
  obtain ⟨⟨initiatorPubkey, bytes₁⟩, hinitiator, hrun⟩ := Option.bind_eq_some_iff.mp hrun
  obtain ⟨⟨peerPubkeys, bytes₂⟩, hpeers, hrun⟩ := Option.bind_eq_some_iff.mp hrun
  obtain ⟨⟨ipv6, bytes₃⟩, hipv6, hrun⟩ := Option.bind_eq_some_iff.mp hrun
  obtain ⟨⟨wgPort, bytes₄⟩, hport, hrun⟩ := Option.bind_eq_some_iff.mp hrun
  obtain ⟨⟨lanAddrs, bytes₅⟩, hlan, hrun⟩ := Option.bind_eq_some_iff.mp hrun
  obtain ⟨⟨needsRelay, bytes₆⟩, -, hdone⟩ := Option.bind_eq_some_iff.mp hrun
  cases hdone
  have h₁ : bytes₁.length ≤ bytes.length := Decoder.length_rest_le hinitiator
  have h₂ : bytes₂.length ≤ bytes₁.length := Decoder.length_rest_le hpeers
  have h₃ : bytes₃.length ≤ bytes₂.length := Decoder.length_rest_le hipv6
  have h₄ : bytes₄.length ≤ bytes₃.length := Decoder.length_rest_le hport
  have hcount : peerPubkeys.length ≤ bytes₁.length := length_seq consumes_string hpeers
  have hlans : lanAddrs.length ≤ bytes₄.length := length_seq consumes_ipNet hlan
  dsimp only
  omega

end Wireplug
