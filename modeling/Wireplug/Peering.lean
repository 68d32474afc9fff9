import Wireplug.Foundation.WriteLog
import Wireplug.Relay

namespace Wireplug

open Foundation

/-- Nanoseconds since the epoch. -/
abbrev SystemTime := ℤ

def durationSince (now earlier : SystemTime) : Option ℕ :=
  if earlier ≤ now then some (now - earlier).toNat else none

def recordTimeoutSec : ℕ := 60 * 60
def relayEnabled : Bool := false

structure Record where
  wanIpv4 : Ipv4Addr
  wanIpv6 : Option Ipv6Addr
  lanAddrs : List IpNet
  wgPort : UInt16
  timestamp : SystemTime
  needsRelay : Bool
  deriving DecidableEq

abbrev PeeringRecords := HashMap (String × String) Record

structure Storage where
  peeringRecords : PeeringRecords

def Storage.new : Storage := ⟨.empty⟩

/-- The entry for one peer, or `none` where the source panics. -/
def peerEndpoint (announcement : WireplugAnnouncement) (announcingPeerAddr : SocketAddr)
    (storage : Storage) (relayManager : RelayManager) (peer : String) :
    Option (WireplugEndpoint × RelayManager) :=
  match storage.peeringRecords.get? (peer, announcement.initiatorPubkey) with
  | some record =>
    if announcingPeerAddr.ip = .v4 record.wanIpv4 then
      some (.localNetwork record.wanIpv6 record.lanAddrs record.wgPort, relayManager)
    else if relayEnabled && (announcement.needsRelay || record.needsRelay) then
      match relayManager.getRelayPort getFreeRandomPort announcement.initiatorPubkey peer
          announcingPeerAddr.ip with
      | some (.proto p, relayManager) => some (.relay 1 p, relayManager)
      | some (.pending p, relayManager) => some (.relay 1 p, relayManager)
      | some (.established p, relayManager) => some (.relay 1 p, relayManager)
      | none => none
    else some (.remoteNetwork (some record.wanIpv4) record.wanIpv6 record.wgPort, relayManager)
  | none =>
    if relayEnabled && announcement.needsRelay then
      match relayManager.getRelayPort getFreeRandomPort announcement.initiatorPubkey peer
          announcingPeerAddr.ip with
      | some (.proto p, relayManager) => some (.relay 1 p, relayManager)
      | some (.pending p, relayManager) => some (.relay 1 p, relayManager)
      | _ => none
    else some (.unknown, relayManager)

/-- The loop over the announced peers, under the storage's read lock and the
relay manager's write lock. -/
def getPeerEndpoints (announcement : WireplugAnnouncement) (announcingPeerAddr : SocketAddr)
    (storage : Storage) (relayManager : RelayManager) :
    Option (HashMap String WireplugEndpoint × RelayManager) :=
  announcement.peerPubkeys.foldlM (fun acc peer ↦ do
    let (endpoint, relayManager) ←
      peerEndpoint announcement announcingPeerAddr storage acc.2 peer
    some (acc.1.insert peer endpoint, relayManager)) (.empty, relayManager)

/-- The records that `process_announcement` inserts, in the order of its loop;
`now i` is the clock as read in round `i`. -/
def announcedRecords (announcement : WireplugAnnouncement) (ipv4 : Ipv4Addr)
    (now : ℕ → SystemTime) : List ((String × String) × Record) :=
  announcement.peerPubkeys.zipIdx.map fun (peer, i) ↦
    ((announcement.initiatorPubkey, peer),
      { wanIpv4 := ipv4
        wanIpv6 := announcement.ipv6
        lanAddrs := announcement.lanAddrs
        wgPort := announcement.wgPort
        timestamp := now i
        needsRelay := announcement.needsRelay })

def Storage.insertRecords (storage : Storage) (announcement : WireplugAnnouncement)
    (ipv4 : Ipv4Addr) (now : ℕ → SystemTime) : Storage :=
  { storage with
    peeringRecords := (announcedRecords announcement ipv4 now).foldl
      (fun m p ↦ m.insert p.1 p.2) storage.peeringRecords }

def fresh (now : SystemTime) (record : Record) : Bool :=
  match durationSince now record.timestamp with
  | some recordDuration => recordDuration < recordTimeoutSec * 1000000000
  | none => false

def Storage.removeOldRecords (storage : Storage) (now : SystemTime) : Storage :=
  { storage with peeringRecords := storage.peeringRecords.retain fun _ record ↦ fresh now record }

def Record.endpointFor (record : Record) (addr : SocketAddr) : WireplugEndpoint :=
  if addr.ip = .v4 record.wanIpv4 then
    .localNetwork record.wanIpv6 record.lanAddrs record.wgPort
  else .remoteNetwork (some record.wanIpv4) record.wanIpv6 record.wgPort

def lookupEndpoint (storage : Storage) (initiator : String) (addr : SocketAddr) (peer : String) :
    WireplugEndpoint :=
  match storage.peeringRecords.get? (peer, initiator) with
  | some record => record.endpointFor addr
  | none => .unknown

/-- With relays disabled the relay manager is neither asked nor changed. -/
theorem peerEndpoint_eq (a : WireplugAnnouncement) (addr : SocketAddr) (storage : Storage)
    (rm : RelayManager) (peer : String) : peerEndpoint a addr storage rm peer =
      some (lookupEndpoint storage a.initiatorPubkey addr peer, rm) := by
  unfold peerEndpoint lookupEndpoint Record.endpointFor
  cases storage.peeringRecords.get? (peer, a.initiatorPubkey) with
  | none => rfl
  | some record =>
    by_cases h : addr.ip = .v4 record.wanIpv4 <;> simp [h, relayEnabled]

def lookedUp (storage : Storage) (a : WireplugAnnouncement) (addr : SocketAddr) :
    HashMap String WireplugEndpoint :=
  HashMap.ofEntries (a.peerPubkeys.map fun peer ↦
    (peer, lookupEndpoint storage a.initiatorPubkey addr peer))

theorem getPeerEndpoints_eq (a : WireplugAnnouncement) (addr : SocketAddr) (storage : Storage)
    (rm : RelayManager) :
    getPeerEndpoints a addr storage rm = some (lookedUp storage a addr, rm) := by
  rw [getPeerEndpoints, lookedUp, HashMap.ofEntries]
  generalize HashMap.empty = m
  induction a.peerPubkeys generalizing m with
  | nil => rfl
  | cons peer peers ih =>
    rw [List.foldlM_cons, peerEndpoint_eq]
    exact ih _

theorem get?_lookedUp (storage : Storage) (a : WireplugAnnouncement) (addr : SocketAddr)
    (peer : String) : (lookedUp storage a addr).get? peer =
      if peer ∈ a.peerPubkeys then some (lookupEndpoint storage a.initiatorPubkey addr peer)
      else none :=
  HashMap.get?_ofEntries_map _ _ _

end Wireplug
