import Wireplug.SeenPeers

namespace Wireplug

open Foundation Program ByteStream Client

structure WgPeer where
  endpoint : Option SocketAddr
  rxBytes : UInt64
  lastHandshakeTime : Option SystemTime

structure Watched where
  peerTracker : PeerTracker
  peers : HashMap Key WgPeer

namespace Watched

def peerInfos (s : Watched) : List PeerInfo :=
  s.peers.entries.map fun p ↦ ⟨p.1, p.2.endpoint, p.2.rxBytes, p.2.lastHandshakeTime⟩

def endpoint (s : Watched) (k : Key) : Option SocketAddr :=
  (s.peers.get? k).bind WgPeer.endpoint

end Watched

/-- A successful `DeviceUpdate` with one endpoint. A peer that is not there is added. -/
def applyEndpoint (peers : HashMap Key WgPeer) (k : Key) (sa : SocketAddr) : HashMap Key WgPeer :=
  match peers.get? k with
  | some _ => peers.modify k fun p ↦ { p with endpoint := some sa }
  | none => peers.insert k ⟨some sa, 0, none⟩

/-- How the interface answers; a failed update leaves it as it is. -/
inductive Serves : HashMap Key WgPeer → ClientTrace → HashMap Key WgPeer → Prop
  | nil (peers : HashMap Key WgPeer) : Serves peers [] peers
  | applied {peers peers' : HashMap Key WgPeer} {k : Key} {sa : SocketAddr} {w : ClientTrace} :
      Serves (applyEndpoint peers k sa) w peers' →
      Serves peers (⟨.setEndpoint k sa, .ok ()⟩ :: w) peers'
  | failed {peers peers' : HashMap Key WgPeer} {k : Key} {sa : SocketAddr} {e : IoError}
      {w : ClientTrace} :
      Serves peers w peers' → Serves peers (⟨.setEndpoint k sa, .error e⟩ :: w) peers'

/-- `looked` names the peers that a poll showed to the tracker, `updated` a call
of `update_peer` with its result. The others happen on the interface alone. -/
inductive WatchLabel where
  | looked (ps : List PeerInfo)
  | updated (k : Key) (sa : SocketAddr) (r : Except ClientError Bool)
  | moved (k : Key) (sa : SocketAddr)
  | removed (k : Key)
  | added (k : Key) (p : WgPeer)
  | counted (k : Key) (rxBytes : UInt64) (lastHandshakeTime : Option SystemTime)

inductive WatchStep : Watched → WatchLabel → Watched → Prop
  | initPeersActivity {s : Watched} {ps : List PeerInfo} (hps : ps.Perm s.peerInfos) :
      WatchStep s (.looked ps) { s with peerTracker := s.peerTracker.updateAll ps }
  | getInactivePeersByRx {s : Watched} {ps : List PeerInfo} (hps : ps.Perm s.peerInfos) :
      WatchStep s (.looked (ps.filter fun p ↦ p.lastHandshakeTime.isSome))
        { s with peerTracker := (s.peerTracker.listInactive ps).2 }
  | updated {s : Watched} {k : Key} {sa : SocketAddr} {w : ClientTrace} {b : Bool}
      {peerTracker : PeerTracker} {peers : HashMap Key WgPeer}
      (hpath : Path (updatePeer s.peerTracker k sa).run w (.done (.ok (b, peerTracker))))
      (hserves : Serves s.peers w peers) :
      WatchStep s (.updated k sa (.ok b)) ⟨peerTracker, peers⟩
  | refused {s : Watched} {k : Key} {sa : SocketAddr} {w : ClientTrace} {e : ClientError}
      {peers : HashMap Key WgPeer}
      (hpath : Path (updatePeer s.peerTracker k sa).run w (.done (.error e)))
      (hserves : Serves s.peers w peers) :
      WatchStep s (.updated k sa (.error e)) ⟨s.peerTracker, peers⟩
  | moved {s : Watched} {k : Key} {p : WgPeer} (hp : s.peers.get? k = some p) (sa : SocketAddr) :
      WatchStep s (.moved k sa)
        { s with peers := s.peers.modify k fun p ↦ { p with endpoint := some sa } }
  | removed {s : Watched} (k : Key) :
      WatchStep s (.removed k) { s with peers := s.peers.retain fun k' _ ↦ k' ≠ k }
  | added {s : Watched} {k : Key} (hk : s.peers.get? k = none) (p : WgPeer) :
      WatchStep s (.added k p) { s with peers := s.peers.insert k p }
  | counted {s : Watched} (k : Key) (rxBytes : UInt64) (lastHandshakeTime : Option SystemTime) :
      WatchStep s (.counted k rxBytes lastHandshakeTime)
        { s with peers := s.peers.modify k fun p ↦ { p with rxBytes, lastHandshakeTime } }

inductive WatchRun (peers : HashMap Key WgPeer) : List WatchLabel → Watched → Prop
  | start : WatchRun peers [] ⟨.new, peers⟩
  | step {ls : List WatchLabel} {s s' : Watched} {l : WatchLabel} :
      WatchRun peers ls s → WatchStep s l s' → WatchRun peers (ls ++ [l]) s'

def PeerTracker.recorded (peerTracker : PeerTracker) (k : Key) : Option (Option SocketAddr) :=
  (peerTracker.peers.get? k).map WireplugPeerInfo.currentEndpoint

namespace PeerTracker

variable {peerTracker : PeerTracker}

theorem recorded_update (peerTracker : PeerTracker) (p : PeerInfo) (k : Key) :
    (peerTracker.update p).2.recorded k =
      if peerTracker.recorded k = none ∧ p.publicKey = k then some p.endpoint
      else peerTracker.recorded k := by
  rw [update, recorded, recorded]
  cases hget : peerTracker.peers.get? p.publicKey with
  | none =>
    dsimp only
    rw [HashMap.get?_insert]
    by_cases hk : k = p.publicKey
    · subst hk
      simp [hget]
    · simp [hk, Ne.symm hk]
  | some info =>
    have hkept : ¬ ((peerTracker.peers.get? k).map WireplugPeerInfo.currentEndpoint = none ∧
        p.publicKey = k) := by
      intro h
      obtain ⟨hnone, rfl⟩ := h
      simp [hget] at hnone
    rw [if_neg hkept]
    dsimp only
    split
    · rw [HashMap.get?_modify]
      split
      · next hk => rw [hk, hget]; rfl
      · rfl
    · rfl

theorem recorded_updateAll (peerTracker : PeerTracker) (ps : List PeerInfo) (k : Key) :
    (peerTracker.updateAll ps).recorded k =
      (peerTracker.recorded k).or ((ps.find? fun p ↦ p.publicKey = k).map PeerInfo.endpoint) := by
  induction ps generalizing peerTracker with
  | nil => simp [updateAll]
  | cons p ps ih =>
    rw [updateAll, List.foldl_cons, ← updateAll, ih, recorded_update]
    cases hrecorded : peerTracker.recorded k with
    | some c => simp
    | none => by_cases hk : p.publicKey = k <;> simp [hk]

theorem recorded_setEndpoint (peerTracker : PeerTracker) (k k' : Key) (sa : SocketAddr) :
    (peerTracker.setEndpoint k sa).recorded k' =
      if k' = k then (peerTracker.recorded k).map fun _ ↦ some sa
      else peerTracker.recorded k' := by
  rw [recorded, recorded, setEndpoint, HashMap.get?_modify]
  split
  · rw [Option.map_map, Option.map_map]
    rfl
  · rfl

end PeerTracker

theorem endpoint_applyEndpoint (peers : HashMap Key WgPeer) (k k' : Key) (sa : SocketAddr) :
    ((applyEndpoint peers k sa).get? k').bind WgPeer.endpoint =
      if k' = k then some sa else (peers.get? k').bind WgPeer.endpoint := by
  rw [applyEndpoint]
  cases hget : peers.get? k with
  | none =>
    dsimp only
    rw [HashMap.get?_insert]
    split <;> rfl
  | some p =>
    dsimp only
    rw [HashMap.get?_modify]
    split
    · rw [hget]
      rfl
    · rfl

section UpdatePeer

variable {peerTracker peerTracker' : PeerTracker} {k : Key} {sa : SocketAddr} {w : ClientTrace}
  {peers peers' : HashMap Key WgPeer}

theorem updatePeer_ok {b : Bool}
    (hpath : Path (updatePeer peerTracker k sa).run w (.done (.ok (b, peerTracker'))))
    (hserves : Serves peers w peers') :
    (peerTracker.recorded k = some (some sa) ∧ peerTracker' = peerTracker ∧ peers' = peers) ∨
      (∃ c, peerTracker.recorded k = some c ∧ c ≠ some sa ∧
        peerTracker' = peerTracker.setEndpoint k sa ∧ peers' = applyEndpoint peers k sa) := by
  rw [updatePeer] at hpath
  rw [PeerTracker.recorded]
  cases hget : peerTracker.peers.get? k with
  | none =>
    rw [hget] at hpath
    cases hpath
  | some info =>
    rw [hget] at hpath
    dsimp only at hpath
    split at hpath
    · next hsame =>
      cases hpath
      cases hserves
      exact .inl ⟨congrArg some hsame, rfl, rfl⟩
    · next hother =>
      cases hpath with
      | cons hpath =>
        cases hserves with
        | applied hserves =>
          cases hpath
          cases hserves
          exact .inr ⟨info.currentEndpoint, rfl, hother, rfl, rfl⟩
        | failed hserves => cases hpath

theorem updatePeer_error {e : ClientError}
    (hpath : Path (updatePeer peerTracker k sa).run w (.done (.error e)))
    (hserves : Serves peers w peers') : peers' = peers := by
  rw [updatePeer] at hpath
  cases hget : peerTracker.peers.get? k with
  | none =>
    rw [hget] at hpath
    cases hpath
    cases hserves
    rfl
  | some info =>
    rw [hget] at hpath
    dsimp only at hpath
    split at hpath
    · cases hpath
    · cases hpath with
      | cons hpath =>
        cases hserves with
        | applied hserves => cases hpath
        | failed hserves =>
          cases hpath
          cases hserves
          rfl

end UpdatePeer

end Wireplug
