import Wireplug.AnnouncementLog
import Wireplug.NetworkPort

namespace Wireplug

open Foundation Program ByteStream Client

def Storage.Holds (storage : Storage) (b : WireplugAnnouncement) (source : Ipv4Addr)
    (peer : String) : Prop :=
  ∃ record, storage.peeringRecords.get? (b.initiatorPubkey, peer) = some record ∧
    record.Carries b source

def OwnAddr (b : WireplugAnnouncement) (ip : IpAddr) : Prop :=
  b.ipv6.map .v6 = some ip ∨ ip ∈ b.lanAddrs.map IpNet.addr

theorem NatKind.announcedPort_eq_iff (kind : NatKind) (listenPort : UInt16) :
    kind.announcedPort listenPort = listenPort ↔
      ¬ ∃ nat, kind = .fixedPortMapping nat ∧ nat.observedPort ≠ listenPort := by
  cases kind with
  | easy => exact iff_of_true rfl (by rintro ⟨nat, h, -⟩; cases h)
  | hard => exact iff_of_true rfl (by rintro ⟨nat, h, -⟩; cases h)
  | fixedPortMapping nat =>
    constructor
    · intro h hpat
      obtain ⟨nat', heq, hne⟩ := hpat
      cases heq
      exact hne h
    · intro h
      by_contra hne
      exact h ⟨nat, rfl, hne⟩

section Announcing

variable {fromBase64 : String → Option Key} {ifName : String} {traverseNat : Bool}
  {assumes : ClientTrace → (e : ClientEffect) → e.Answer → Prop} {t u v : ClientTrace}
  {p : Program ClientEffect.Answer (Except ClientError MonitorState)} {b : WireplugAnnouncement}
  {r : Except AnnounceError WireplugResponse} {localPort listenPort : UInt16} {kind : NatKind}

theorem listenPorts_getLast (h : listenPorts (sinceChange t) = [listenPort]) :
    (listenPorts t).getLast? = some listenPort := by
  obtain ⟨before, hb⟩ := sinceChange_suffix t
  rw [← hb, listenPorts, List.filterMap_append, ← listenPorts, ← listenPorts, h,
    List.getLast?_append]
  rfl

theorem announced_port_eq (h : MonitorRun fromBase64 ifName traverseNat assumes t p)
    (ht : t = u ++ ⟨.sendAnnouncement b, r⟩ :: v)
    (hdetect : ⟨.detectKind localPort, .ok kind⟩ ∈ sinceChange u)
    (hlisten : (listenPorts u).getLast? = some listenPort) :
    b.wgPort = kind.announcedPort listenPort := by
  rcases announces_known_port h ht with ⟨drawn, hchosen⟩ | hnone
  · obtain ⟨-, kind', hkind, hport⟩ := hchosen.detected localPort _ hdetect
    cases hkind
    rw [listenPorts_getLast hchosen.set] at hlisten
    cases hlisten
    exact hport
  · obtain ⟨e, he⟩ := hnone.only_failed localPort _ hdetect
    cases he

end Announcing

section Receiving

variable {fromBase64 : String → Option Key} {peers : List Key} {x y : Key} {port : UInt16}
  {netinfo : NetInfo} {needsRelay localHasIpv6 : Bool} {addr sa : SocketAddr} {storage : Storage}
  {b : WireplugAnnouncement} {source : Ipv4Addr} {m : HashMap String WireplugEndpoint}
  {peerTracker : PeerTracker} {w : ClientTrace}
  {q : Program ClientEffect.Answer (Except ClientError (PeerTracker × List Key))}
  {r : Except IoError Unit}

theorem lookupEndpoint_of_holds (h : storage.Holds b source x.toBase64) (addr : SocketAddr) :
    lookupEndpoint storage x.toBase64 addr b.initiatorPubkey = directEndpoint b source addr := by
  obtain ⟨record, hget, hcarries⟩ := h
  rw [lookupEndpoint, hget]
  exact endpointFor_of_carries hcarries addr

/-- The only entry that is read as the key `y` is the one that was asked for. -/
theorem entry_of_key (hkeys : ∀ k, fromBase64 k.toBase64 = some k)
    (hm : m.Equiv (lookedUp storage (announcement x peers port netinfo needsRelay) addr))
    {entry : String × WireplugEndpoint} (hentry : entry ∈ m.entries)
    (hy : fromBase64 entry.1 = some y) :
    entry = (y.toBase64, lookupEndpoint storage x.toBase64 addr y.toBase64) := by
  obtain ⟨peer, endpoint⟩ := entry
  have hget := HashMap.get?_eq_some.mpr hentry
  rw [hm, get?_lookedUp] at hget
  split at hget
  · next hpeer =>
    obtain ⟨k, -, rfl⟩ := List.mem_map.mp hpeer
    obtain rfl := Option.some.inj ((hkeys k).symm.trans hy)
    rw [← Option.some.inj hget]
    rfl
  · cases hget

theorem configured_addr (hkeys : ∀ k, fromBase64 k.toBase64 = some k)
    (hstore : storage.Holds b source x.toBase64) (hy : b.initiatorPubkey = y.toBase64)
    (hm : m.Equiv (lookedUp storage (announcement x peers port netinfo needsRelay) addr))
    (hpath : Path (updatePeers fromBase64 peerTracker m localHasIpv6).run w q)
    (hset : ⟨.setEndpoint y sa, r⟩ ∈ w) :
    sa.port = b.wgPort ∧ (OwnAddr b sa.ip ∨ sa.ip = .v4 source) := by
  have hcalls := (updatePeers_only fromBase64 peerTracker m localHasIpv6).of_path hpath
  obtain ⟨entry, hentry, hkey, haddr⟩ := hcalls _ hset
  obtain rfl := entry_of_key hkeys hm hentry hkey
  dsimp only at haddr
  rw [← hy, lookupEndpoint_of_holds hstore, directEndpoint] at haddr
  split at haddr
  · exact ⟨haddr.1, .inl haddr.2⟩
  · refine ⟨haddr.1, ?_⟩
    rcases haddr.2 with h | h
    · exact .inl (.inl h)
    · exact .inr (Option.some.inj h).symm

end Receiving

def homeStorage (kind : NatKind) : Storage :=
  Storage.new.insertRecords (homeAnnouncement (kind.announcedPort 51820)) homeIp fun _ ↦ 0

theorem homeStorage_holds (kind : NatKind) : (homeStorage kind).Holds
    (homeAnnouncement (kind.announcedPort 51820)) homeIp (Key.filled 2).toBase64 :=
  get?_insertRecords List.mem_cons_self _ _ _

def guestLan : IpNet := .v4 (.slash24 (.new 192 168 1 3))

def guestAnnouncement : WireplugAnnouncement :=
  announcement (.filled 2) [.filled 1] 51821 ⟨some homeIp, none, [guestLan], false⟩ false

def guestTracker : PeerTracker := PeerTracker.new.updateAll [⟨.filled 1, none, 0, none⟩]

theorem guestTracker_get? : guestTracker.peers.get? (.filled 1) = some ⟨none, 0⟩ := by
  rw [guestTracker, PeerTracker.updateAll, List.foldl_cons, List.foldl_nil, PeerTracker.update]
  exact (HashMap.get?_insert _ _ _ _).trans (if_pos rfl)

theorem guest_endpoint_path (port : UInt16) :
    Path (endpointToUse false (.localNetwork none [homeLan] port)).run
      [⟨.getLanAddrs, .ok [guestLan]⟩] (.done (.ok (some (.new homeLan.addr port)))) := by
  have hcandidates : lanCandidates [guestLan] [homeLan] = [homeLan] := by decide
  have hpath : Path (endpointToUse false (.localNetwork none [homeLan] port)).run
      [⟨.getLanAddrs, .ok [guestLan]⟩] (.done (.ok ((lanCandidates [guestLan] [homeLan]).head?.map
        fun addr ↦ .new addr.addr port))) := .cons (.nil _)
  rwa [hcandidates] at hpath

theorem guest_path (kind : NatKind) : ∃ q, Path (updatePeers strictBase64 guestTracker
    (lookedUp (homeStorage kind) guestAnnouncement (.v4 homeIp 40000)) false).run
      [⟨.getLanAddrs, .ok [guestLan]⟩, ⟨.setEndpoint (.filled 1)
        (.new homeLan.addr (kind.announcedPort 51820)), .ok ()⟩] q := by
  have hentries : (lookedUp (homeStorage kind) guestAnnouncement (.v4 homeIp 40000)).entries =
      [((Key.filled 1).toBase64,
        .localNetwork none [homeLan] (kind.announcedPort 51820))] := by
    have hlookup := lookupEndpoint_of_holds (homeStorage_holds kind) (.v4 homeIp 40000)
    have hip : (SocketAddr.v4 homeIp 40000).ip = .v4 homeIp := rfl
    rw [directEndpoint, if_pos hip] at hlookup
    exact congrArg (fun endpoint ↦ [((Key.filled 1).toBase64, endpoint)]) hlookup
  have hupdate (sa : SocketAddr) : ∃ r, Path (updatePeer guestTracker (.filled 1) sa).run
      [⟨.setEndpoint (.filled 1) sa, .ok ()⟩] (.done (.ok r)) := by
    rw [updatePeer, guestTracker_get?]
    exact ⟨_, .cons (.nil _)⟩
  obtain ⟨r, hr⟩ := hupdate (.new homeLan.addr (kind.announcedPort 51820))
  rw [updatePeers, hentries, List.foldlM_cons, updateEntry, strictBase64_toBase64]
  refine ⟨_, ((Path.try _ _ (guest_endpoint_path _)).trans (Path.try _ _ hr)).bind _⟩

/-- Where a client configures one of a peer's own addresses, the port is the one
the peer listens on unless the peer's NAT maps it to another one. -/
theorem own_address_port_iff {fromBase64 : String → Option Key}
    (hkeys : ∀ k, fromBase64 k.toBase64 = some k) {ifName : String} {traverseNat : Bool}
    {assumes : ClientTrace → (e : ClientEffect) → e.Answer → Prop} {t u v : ClientTrace}
    {p : Program ClientEffect.Answer (Except ClientError MonitorState)}
    (hrun : MonitorRun fromBase64 ifName traverseNat assumes t p) {b : WireplugAnnouncement}
    {r : Except AnnounceError WireplugResponse} (ht : t = u ++ ⟨.sendAnnouncement b, r⟩ :: v)
    {localPort listenPort : UInt16} {kind : NatKind}
    (hdetect : ⟨.detectKind localPort, .ok kind⟩ ∈ sinceChange u)
    (hlisten : (listenPorts u).getLast? = some listenPort) {x y : Key}
    (hy : b.initiatorPubkey = y.toBase64) {storage : Storage} {source : Ipv4Addr}
    (hstore : storage.Holds b source x.toBase64) {peers : List Key} {port : UInt16}
    {netinfo : NetInfo} {needsRelay : Bool} {addr : SocketAddr} {relayManager rm : RelayManager}
    {found m : HashMap String WireplugEndpoint}
    (hfound : getPeerEndpoints (announcement x peers port netinfo needsRelay) addr storage
      relayManager = some (found, rm)) (hm : m.Equiv found) {peerTracker : PeerTracker}
    {localHasIpv6 : Bool} {w : ClientTrace}
    {q : Program ClientEffect.Answer (Except ClientError (PeerTracker × List Key))}
    (hpath : Path (updatePeers fromBase64 peerTracker m localHasIpv6).run w q) {sa : SocketAddr}
    {r' : Except IoError Unit} (hset : ⟨.setEndpoint y sa, r'⟩ ∈ w) :
    (OwnAddr b sa.ip ∨ sa.ip = .v4 source) ∧
      (OwnAddr b sa.ip → (sa.port = listenPort ↔
        ¬ ∃ nat, kind = .fixedPortMapping nat ∧ nat.observedPort ≠ listenPort)) := by
  rw [getPeerEndpoints_eq] at hfound
  cases hfound
  obtain ⟨hport, haddr⟩ := configured_addr hkeys hstore hy hm hpath hset
  refine ⟨haddr, fun _ ↦ ?_⟩
  rw [hport, announced_port_eq hrun ht hdetect hlisten]
  exact kind.announcedPort_eq_iff listenPort

theorem own_address_port_easy :
    (SocketAddr.new homeLan.addr (NatKind.easy.announcedPort 51820)).port = 51820 := by
  obtain ⟨p, hrun⟩ := newNetwork_run strictBase64 "wg0" .easy (by nofun)
  obtain ⟨q, hpath⟩ := guest_path .easy
  have hdetect : ⟨.detectKind 51820, .ok .easy⟩ ∈
      sinceChange (started [] ++ newNetworkRound .easy) :=
    List.mem_cons_of_mem _ List.mem_cons_self
  obtain ⟨-, hport⟩ := own_address_port_iff strictBase64_toBase64 hrun rfl hdetect rfl rfl
    (homeStorage_holds .easy) (getPeerEndpoints_eq guestAnnouncement (.v4 homeIp 40000)
      (homeStorage .easy) .new) (fun _ ↦ rfl) hpath (List.mem_cons_of_mem _ List.mem_cons_self)
  exact (hport (.inr List.mem_cons_self)).mpr (by rintro ⟨nat, h, -⟩; cases h)

/-- The router maps port 51820 to 60000. The guest, on the same LAN, is told the
mapped port and combines it with the LAN address. -/
theorem mapped_port_on_lan : ∃ t u b r v p w q sa r' storage m,
    MonitorRun strictBase64 "wg0" true anyReply t p ∧ t = u ++ ⟨.sendAnnouncement b, r⟩ :: v ∧
      ⟨.detectKind 51820, .ok (.fixedPortMapping ⟨51820, 60000⟩)⟩ ∈ sinceChange u ∧
      (listenPorts u).getLast? = some 51820 ∧
      storage.Holds b homeIp (Key.filled 2).toBase64 ∧
      getPeerEndpoints guestAnnouncement (.v4 homeIp 40000) storage .new = some (m, .new) ∧
      Path (updatePeers strictBase64 guestTracker m false).run w q ∧
      ⟨.setEndpoint (.filled 1) sa, r'⟩ ∈ w ∧ OwnAddr b sa.ip ∧ sa.port = 60000 := by
  obtain ⟨p, hrun⟩ := newNetwork_run strictBase64 "wg0" (.fixedPortMapping ⟨51820, 60000⟩)
    (by nofun)
  obtain ⟨q, hpath⟩ := guest_path (.fixedPortMapping ⟨51820, 60000⟩)
  exact ⟨_, _, _, _, _, _, _, _, _, _, _, _, hrun, rfl, List.mem_cons_of_mem _ List.mem_cons_self,
    rfl, homeStorage_holds _, getPeerEndpoints_eq _ _ _ _, hpath,
    List.mem_cons_of_mem _ List.mem_cons_self, .inr List.mem_cons_self, rfl⟩

end Wireplug
