import Wireplug.Client

namespace Wireplug

open Foundation Program ByteStream Client

structure WireplugPeerInfo where
  currentEndpoint : Option SocketAddr
  rx : UInt64
  deriving DecidableEq

structure PeerTracker where
  peers : HashMap Key WireplugPeerInfo

namespace PeerTracker

def new : PeerTracker := ⟨.empty⟩

/-- The endpoint is copied when the peer is first seen, and not looked at again. -/
def update (peerTracker : PeerTracker) (peer : PeerInfo) : Bool × PeerTracker :=
  match peerTracker.peers.get? peer.publicKey with
  | some info =>
    if info.rx < peer.rxBytes then
      (true, ⟨peerTracker.peers.modify peer.publicKey fun info ↦ { info with rx := peer.rxBytes }⟩)
    else (false, peerTracker)
  | none =>
    (true, ⟨peerTracker.peers.insert peer.publicKey ⟨peer.endpoint, peer.rxBytes⟩⟩)

def setEndpoint (peerTracker : PeerTracker) (peer : Key) (newEndpoint : SocketAddr) :
    PeerTracker :=
  ⟨peerTracker.peers.modify peer fun p ↦ { p with currentEndpoint := some newEndpoint }⟩

def updateAll (peerTracker : PeerTracker) (peers : List PeerInfo) : PeerTracker :=
  peers.foldl (fun peerTracker p ↦ (peerTracker.update p).2) peerTracker

/-- The filter of `get_inactive_peers_by_rx`, with the tracker it leaves behind.
A peer without a handshake is listed before the tracker is asked. -/
def listInactive (peerTracker : PeerTracker) : List PeerInfo → List Key × PeerTracker
  | [] => ([], peerTracker)
  | p :: ps =>
    if p.lastHandshakeTime.isNone then
      let (inactive, peerTracker) := peerTracker.listInactive ps
      (p.publicKey :: inactive, peerTracker)
    else
      let (active, peerTracker) := peerTracker.update p
      let (inactive, peerTracker) := peerTracker.listInactive ps
      (if active then inactive else p.publicKey :: inactive, peerTracker)

end PeerTracker

def initPeersActivity (peerTracker : PeerTracker) : Client PeerTracker := do
  let device ← deviceGet .initPeersActivity
  pure (peerTracker.updateAll device.peers)

def getInactivePeersByRx (peerTracker : PeerTracker) : Client (List Key × PeerTracker) := do
  let device ← deviceGet .getInactivePeersByRx
  pure (peerTracker.listInactive device.peers)

def getAllPeers : Client (List Key) := do
  let device ← deviceGet .getAllPeers
  pure (device.peers.map PeerInfo.publicKey)

def updatePort (newPort : UInt16) : Client Unit := orFail (ask (.updatePort newPort))

def noEntity (peer : Key) : ClientError :=
  .other s!"PeerTracker has no entity for {peer.toBase64}"

def updatePeer (peerTracker : PeerTracker) (peer : Key) (newEndpoint : SocketAddr) :
    Client (Bool × PeerTracker) :=
  match peerTracker.peers.get? peer with
  | none => throw (noEntity peer)
  | some info =>
    if info.currentEndpoint = some newEndpoint then pure (false, peerTracker)
    else do
      orFail (ask (.setEndpoint peer newEndpoint))
      pure (true, peerTracker.setEndpoint peer newEndpoint)

def addrsOnLink (a b : IpNet) : Bool := a.contains b.addr && b.contains a.addr

def lanCandidates (ourLanAddrs peerLanAddrs : List IpNet) : List IpNet :=
  ourLanAddrs.flatMap fun addr ↦ peerLanAddrs.filter (addrsOnLink addr)

def findLanCandidates (peerLanAddrs : List IpNet) : Client (List IpNet) := do
  match ← ask .getLanAddrs with
  | .ok ourLanAddrs => pure (lanCandidates ourLanAddrs peerLanAddrs)
  | .error _ => pure []

def usableIpv6 (localHasIpv6 : Bool) (ipv6 : Option Ipv6Addr) : Option Ipv6Addr :=
  if localHasIpv6 then ipv6 else none

def localEndpoint (localHasIpv6 : Bool) (ipv6 : Option Ipv6Addr) (lanAddrs : List IpNet)
    (wgPort : UInt16) : Client (Option SocketAddr) :=
  match usableIpv6 localHasIpv6 ipv6 with
  | some ipv6 => pure (some (.new (.v6 ipv6) wgPort))
  | none => do
    let candidates ← findLanCandidates lanAddrs
    pure (candidates.head?.map fun addr ↦ .new addr.addr wgPort)

def remoteEndpoint (localHasIpv6 : Bool) (ipv4 : Option Ipv4Addr) (ipv6 : Option Ipv6Addr)
    (wgPort : UInt16) : Client (Option SocketAddr) :=
  match usableIpv6 localHasIpv6 ipv6 with
  | some ipv6 => pure (some (.new (.v6 ipv6) wgPort))
  | none =>
    match ipv4 with
    | some ipv4 => pure (some (.new (.v4 ipv4) wgPort))
    | none => throw (.other "peer has no ip")

def relayEndpoint (port : UInt16) : Client (Option SocketAddr) := do
  match ← orFail (ask (.resolveRelay port)) with
  | some relay => pure (some relay)
  | none => throw .panic

def endpointToUse (localHasIpv6 : Bool) : WireplugEndpoint → Client (Option SocketAddr)
  | .unknown => pure none
  | .localNetwork ipv6 lanAddrs wgPort => localEndpoint localHasIpv6 ipv6 lanAddrs wgPort
  | .remoteNetwork ipv4 ipv6 wgPort => remoteEndpoint localHasIpv6 ipv4 ipv6 wgPort
  | .relay _ port => relayEndpoint port

section UpdatePeers

variable (fromBase64 : String → Option Key)

/-- One round of the loop of `update_peers`. -/
def updateEntry (localHasIpv6 : Bool) (acc : PeerTracker × List Key)
    (entry : String × WireplugEndpoint) : Client (PeerTracker × List Key) :=
  match fromBase64 entry.1 with
  | none => pure acc
  | some peerPubkey => do
    match ← endpointToUse localHasIpv6 entry.2 with
    | none => pure acc
    | some sa => do
      let (updated, peerTracker) ← updatePeer acc.1 peerPubkey sa
      pure (peerTracker, if updated then acc.2 ++ [peerPubkey] else acc.2)

def updatePeers (peerTracker : PeerTracker) (newEndpoints : HashMap String WireplugEndpoint)
    (localHasIpv6 : Bool) : Client (PeerTracker × List Key) :=
  newEndpoints.entries.foldlM (updateEntry fromBase64 localHasIpv6) (peerTracker, [])

end UpdatePeers

namespace PeerTracker

def Tracks (peerTracker : PeerTracker) (peer : Key) : Prop :=
  ∃ info, peerTracker.peers.get? peer = some info

def rx (peerTracker : PeerTracker) (peer : Key) : Option UInt64 :=
  (peerTracker.peers.get? peer).map WireplugPeerInfo.rx

def SameRx (peerTracker peerTracker' : PeerTracker) : Prop :=
  ∀ k, peerTracker.rx k = peerTracker'.rx k

theorem SameRx.tracks {peerTracker peerTracker' : PeerTracker} (h : peerTracker.SameRx peerTracker')
    (k : Key) : peerTracker.Tracks k ↔ peerTracker'.Tracks k := by
  have hk := congrArg Option.isSome (h k)
  rw [rx, rx, Option.isSome_map, Option.isSome_map] at hk
  rw [Tracks, Tracks, ← Option.isSome_iff_exists, ← Option.isSome_iff_exists, hk]

theorem SameRx.trans {peerTracker peerTracker' peerTracker'' : PeerTracker}
    (h : peerTracker.SameRx peerTracker') (h' : peerTracker'.SameRx peerTracker'') :
    peerTracker.SameRx peerTracker'' :=
  fun k ↦ (h k).trans (h' k)

theorem sameRx_setEndpoint (peerTracker : PeerTracker) (peer : Key) (sa : SocketAddr) :
    (peerTracker.setEndpoint peer sa).SameRx peerTracker := by
  intro k
  rw [rx, rx, setEndpoint, HashMap.get?_modify]
  split
  · next h =>
    subst h
    cases peerTracker.peers.get? k <;> rfl
  · rfl

end PeerTracker

def WireplugEndpoint.HasAddr (sa : SocketAddr) : WireplugEndpoint → Prop
  | .unknown => False
  | .localNetwork ipv6 lanAddrs wgPort => sa.port = wgPort ∧
      (ipv6.map .v6 = some sa.ip ∨ sa.ip ∈ lanAddrs.map IpNet.addr)
  | .remoteNetwork ipv4 ipv6 wgPort => sa.port = wgPort ∧
      (ipv6.map .v6 = some sa.ip ∨ ipv4.map .v4 = some sa.ip)
  | .relay _ _ => True

theorem mem_of_mem_lanCandidates {ourLanAddrs peerLanAddrs : List IpNet} {net : IpNet}
    (h : net ∈ lanCandidates ourLanAddrs peerLanAddrs) : net ∈ peerLanAddrs := by
  obtain ⟨addr, _, hnet⟩ := List.mem_flatMap.mp h
  exact List.mem_of_mem_filter hnet

def UpdatesFrom (fromBase64 : String → Option Key) (entries : List (String × WireplugEndpoint)) :
    ClientEffect → Prop
  | .getLanAddrs => True
  | .resolveRelay _ => True
  | .setEndpoint peer sa =>
    ∃ entry ∈ entries, fromBase64 entry.1 = some peer ∧ entry.2.HasAddr sa
  | _ => False

theorem noIp_ne_noEntity (peer : Key) : ClientError.other "peer has no ip" ≠ noEntity peer := by
  intro h
  have htext := congrArg String.toList (ClientError.other.inj h)
  have htoList : (toString "PeerTracker has no entity for " ++ toString peer.toBase64).toList =
      "PeerTracker has no entity for ".toList ++ peer.toBase64.toList := String.toList_append
  rw [htoList] at htext
  simp at htext

section UpdatePeers

variable (fromBase64 : String → Option Key) (entries : List (String × WireplugEndpoint))

theorem usableIpv6_eq_some {localHasIpv6 : Bool} {ipv6 : Option Ipv6Addr} {ip : Ipv6Addr}
    (h : usableIpv6 localHasIpv6 ipv6 = some ip) : ipv6 = some ip := by
  rw [usableIpv6] at h
  split at h
  · exact h
  · cases h

theorem localEndpoint_only (localHasIpv6 : Bool) (ipv6 : Option Ipv6Addr) (lanAddrs : List IpNet)
    (wgPort : UInt16) :
    (localEndpoint localHasIpv6 ipv6 lanAddrs wgPort).run.Only (UpdatesFrom fromBase64 entries)
      (Ends (fun r ↦ ∀ sa, r = some sa →
        (WireplugEndpoint.localNetwork ipv6 lanAddrs wgPort).HasAddr sa)
        fun e ↦ ∀ k, e ≠ noEntity k) := by
  rw [localEndpoint]
  split
  · next ip h =>
    intro sa h
    cases h
    rw [usableIpv6_eq_some h]
    exact ⟨rfl, .inl rfl⟩
  · have hfirst (candidates : List IpNet) (h : ∀ net ∈ candidates, net ∈ lanAddrs)
        (sa : SocketAddr) (hsa : candidates.head?.map
          (fun addr ↦ SocketAddr.new addr.addr wgPort) = some sa) :
        (WireplugEndpoint.localNetwork ipv6 lanAddrs wgPort).HasAddr sa := by
      obtain ⟨net, hnet, rfl⟩ := Option.map_eq_some_iff.mp hsa
      refine ⟨SocketAddr.port_new _ _, .inr ?_⟩
      rw [SocketAddr.ip_new]
      exact List.mem_map_of_mem (h net (List.mem_of_head? hnet))
    have hcandidates : (findLanCandidates lanAddrs).run.Only (UpdatesFrom fromBase64 entries)
        (Ends (fun candidates ↦ ∀ net ∈ candidates, net ∈ lanAddrs)
          fun e ↦ ∀ k, e ≠ noEntity k) := by
      refine (only_ask trivial).try fun r _ ↦ ?_
      cases r with
      | ok ourLanAddrs => exact fun net h ↦ mem_of_mem_lanCandidates h
      | error e => exact fun net h ↦ by cases h
    exact hcandidates.try hfirst

theorem remoteEndpoint_only (localHasIpv6 : Bool) (ipv4 : Option Ipv4Addr)
    (ipv6 : Option Ipv6Addr) (wgPort : UInt16) :
    (remoteEndpoint localHasIpv6 ipv4 ipv6 wgPort).run.Only (UpdatesFrom fromBase64 entries)
      (Ends (fun r ↦ ∀ sa, r = some sa →
        (WireplugEndpoint.remoteNetwork ipv4 ipv6 wgPort).HasAddr sa)
        fun e ↦ ∀ k, e ≠ noEntity k) := by
  unfold remoteEndpoint
  split
  · next ip h =>
    intro sa h
    cases h
    rw [usableIpv6_eq_some h]
    exact ⟨rfl, .inl rfl⟩
  · cases ipv4 with
    | none => exact fun k ↦ noIp_ne_noEntity k
    | some ip =>
      intro sa h
      cases h
      exact ⟨rfl, .inr rfl⟩

theorem endpointToUse_only (localHasIpv6 : Bool) (endpoint : WireplugEndpoint) :
    (endpointToUse localHasIpv6 endpoint).run.Only (UpdatesFrom fromBase64 entries)
      (Ends (fun r ↦ ∀ sa, r = some sa → endpoint.HasAddr sa) fun e ↦ ∀ k, e ≠ noEntity k) := by
  cases endpoint with
  | unknown => exact fun sa h ↦ by cases h
  | localNetwork ipv6 lanAddrs wgPort =>
    exact localEndpoint_only _ _ localHasIpv6 ipv6 lanAddrs wgPort
  | remoteNetwork ipv4 ipv6 wgPort => exact remoteEndpoint_only _ _ localHasIpv6 ipv4 ipv6 wgPort
  | relay id port =>
    refine (only_orFail (only_ask trivial) fun e k h ↦ by cases h).try fun relay _ ↦ ?_
    cases relay with
    | none => exact fun k h ↦ by cases h
    | some relay => exact fun _ _ ↦ trivial

theorem updatePeer_only {P : ClientEffect → Prop} (peerTracker : PeerTracker) (peer : Key)
    (sa : SocketAddr) (hP : P (.setEndpoint peer sa)) :
    (updatePeer peerTracker peer sa).run.Only P
      (Ends (fun r ↦ r.2.SameRx peerTracker)
        fun e ↦ (∃ k, e = noEntity k) → ¬ peerTracker.Tracks peer) := by
  rw [updatePeer]
  cases h : peerTracker.peers.get? peer with
  | none =>
    intro _ h
    obtain ⟨info, hinfo⟩ := h
    cases h.symm.trans hinfo
  | some info =>
    dsimp only
    split
    · exact fun k ↦ rfl
    · refine (only_orFail (only_ask hP) fun e he ↦ ?_).try fun _ _ ↦ ?_
      · obtain ⟨k, hk⟩ := he
        cases hk
      · exact PeerTracker.sameRx_setEndpoint peerTracker peer sa

theorem updateEntry_only (localHasIpv6 : Bool) (acc : PeerTracker × List Key)
    {entry : String × WireplugEndpoint} (hentry : entry ∈ entries) :
    (updateEntry fromBase64 localHasIpv6 acc entry).run.Only (UpdatesFrom fromBase64 entries)
      (Ends (fun acc' ↦ acc'.1.SameRx acc.1)
        fun e ↦ (∃ k, e = noEntity k) →
          ∃ k, fromBase64 entry.1 = some k ∧ ¬ acc.1.Tracks k) := by
  rw [updateEntry]
  cases hkey : fromBase64 entry.1 with
  | none => exact fun k ↦ rfl
  | some peer =>
    have hendpoint := endpointToUse_only fromBase64 entries localHasIpv6 entry.2
    refine Only.try (hendpoint.mono (fun _ he ↦ he) (Ends.mono (fun _ h ↦ h) ?_)) fun r hr ↦ ?_
    · intro e he hk
      obtain ⟨k, hk⟩ := hk
      exact (he k hk).elim
    · cases r with
      | none => exact fun k ↦ rfl
      | some sa =>
        have hcall : UpdatesFrom fromBase64 entries (.setEndpoint peer sa) :=
          ⟨entry, hentry, hkey, hr sa rfl⟩
        refine Only.try ((updatePeer_only acc.1 peer sa hcall).mono (fun _ he ↦ he)
          (Ends.mono (fun _ h ↦ h) ?_)) fun r hr ↦ hr
        exact fun e h he ↦ ⟨peer, rfl, h he⟩

/-- Only entries of the response are used, the tracker keeps its peers and their
counters, and a missing peer is one of the response. -/
theorem updatePeers_only (peerTracker : PeerTracker) (m : HashMap String WireplugEndpoint)
    (localHasIpv6 : Bool) :
    (updatePeers fromBase64 peerTracker m localHasIpv6).run.Only
      (UpdatesFrom fromBase64 m.entries)
      (Ends (fun r ↦ r.1.SameRx peerTracker)
        fun e ↦ (∃ k, e = noEntity k) →
          ∃ entry ∈ m.entries, ∃ k, fromBase64 entry.1 = some k ∧ ¬ peerTracker.Tracks k) := by
  refine only_foldlM _ (fun acc hacc entry hentry ↦ ?_) fun k ↦ rfl
  refine (updateEntry_only fromBase64 _ localHasIpv6 acc hentry).mono (fun _ he ↦ he)
    (Ends.mono ?_ ?_)
  · exact fun acc' h ↦ h.trans hacc
  · intro e h he
    obtain ⟨k, hk, hnot⟩ := h he
    exact ⟨entry, hentry, k, hk, fun ht ↦ hnot ((hacc.tracks k).mpr ht)⟩

end UpdatePeers

end Wireplug
