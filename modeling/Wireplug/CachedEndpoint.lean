import Wireplug.Foundation.CachedCell
import Wireplug.WatchedInterface

namespace Wireplug

open Foundation Program ByteStream Client CachedCell

def cellOp (k : Key) : WatchLabel → Option (Op (Option SocketAddr))
  | .looked ps => (ps.find? fun p ↦ p.publicKey = k).map fun p ↦ .look p.endpoint
  | .updated k' sa (.ok _) => if k' = k then some (.write (some sa)) else none
  | .updated _ _ (.error _) => none
  | .moved k' sa => if k' = k then some (.foreign (some sa)) else none
  | .removed k' => if k' = k then some (.foreign none) else none
  | .added k' p => if k' = k then some (.foreign p.endpoint) else none
  | .counted _ _ _ => none

def endpointOps (ls : List WatchLabel) (k : Key) : List (Op (Option SocketAddr)) :=
  ls.filterMap (cellOp k)

/-- The endpoint of `k` has gone through `ops`, and the tracker knows what is to
be known from them. -/
structure Follows (k : Key) (start : Option SocketAddr) (ops : List (Op (Option SocketAddr)))
    (s : Watched) : Prop where
  run : CachedCell.Run start ops (s.endpoint k)
  recorded : s.peerTracker.recorded k = (view ops).copy

section Follows

variable {k : Key} {start : Option SocketAddr} {ops : List (Op (Option SocketAddr))}
  {s s' : Watched} {l : WatchLabel}

theorem endpoint_of_mem_peerInfos {p : PeerInfo} (hp : p ∈ s.peerInfos) :
    s.endpoint p.publicKey = p.endpoint := by
  obtain ⟨⟨k, wgPeer⟩, hentry, rfl⟩ := List.mem_map.mp hp
  rw [Watched.endpoint, HashMap.get?_eq_some.mpr hentry]
  rfl

theorem Follows.looked (h : Follows k start ops s) {ps : List PeerInfo}
    (hps : ∀ p ∈ ps, p ∈ s.peerInfos) : Follows k start (ops ++ (cellOp k (.looked ps)).toList)
      { s with peerTracker := s.peerTracker.updateAll ps } := by
  have hrecorded := PeerTracker.recorded_updateAll s.peerTracker ps k
  rw [cellOp]
  cases hfind : ps.find? fun p ↦ p.publicKey = k with
  | none =>
    rw [hfind, Option.map_none, Option.or_none] at hrecorded
    rw [Option.map_none, Option.toList_none, List.append_nil]
    exact ⟨h.run, hrecorded.trans h.recorded⟩
  | some p =>
    have hendpoint : p.endpoint = s.endpoint k := by
      have hkey : p.publicKey = k := by simpa using List.find?_some hfind
      rw [← hkey]
      exact (endpoint_of_mem_peerInfos (hps p (List.mem_of_find?_eq_some hfind))).symm
    rw [hfind, Option.map_some, hendpoint, h.recorded] at hrecorded
    rw [Option.map_some, Option.toList_some, hendpoint]
    refine ⟨.look h.run, hrecorded.trans ?_⟩
    rw [view_snoc, View.step]
    cases hcopy : (view ops).copy <;> simp [hcopy]

theorem Follows.of_eq (h : Follows k start ops s) (hendpoint : s'.endpoint k = s.endpoint k)
    (hrecorded : s'.peerTracker.recorded k = s.peerTracker.recorded k) :
    Follows k start ops s' := by
  refine ⟨?_, hrecorded.trans h.recorded⟩
  rw [hendpoint]
  exact h.run

theorem Follows.foreign (h : Follows k start ops s) {v : Option SocketAddr}
    (hendpoint : s'.endpoint k = v) (htracker : s'.peerTracker = s.peerTracker) :
    Follows k start (ops ++ [.foreign v]) s' := by
  refine ⟨?_, ?_⟩
  · rw [hendpoint]
    exact .foreign v h.run
  · rw [htracker, view_snoc]
    exact h.recorded

theorem Follows.changed (h : Follows k start ops s) {k' : Key} {v : Option SocketAddr}
    (hself : k' = k → s'.endpoint k = v) (hother : k' ≠ k → s'.endpoint k = s.endpoint k)
    (htracker : s'.peerTracker = s.peerTracker) :
    Follows k start (ops ++ (if k' = k then some (.foreign v) else none).toList) s' := by
  split
  · next hk => exact h.foreign (hself hk) htracker
  · next hk =>
    rw [Option.toList_none, List.append_nil]
    refine h.of_eq (hother hk) ?_
    rw [htracker]

theorem Follows.effect (h : Follows k start ops s) {sa : SocketAddr} {b : Bool}
    (hstep : WatchStep s (.updated k sa (.ok b)) s') : (view ops).copy ≠ none ∧
      s'.endpoint k = (if (view ops).Writes (some sa) then some sa else s.endpoint k) ∧
      s'.peerTracker.recorded k = (view (ops ++ [.write (some sa)])).copy := by
  rw [view_snoc, View.step]
  cases hstep with
  | updated hpath hserves =>
    rcases updatePeer_ok hpath hserves with ⟨hsame, rfl, rfl⟩ | ⟨c, hc, hother, rfl, rfl⟩
    · rw [h.recorded] at hsame ⊢
      have hskips : ¬ (view ops).Writes (some sa) := fun hwrites ↦ hwrites.2 hsame
      rw [if_neg hskips, if_neg hskips, hsame]
      exact ⟨Option.some_ne_none _, rfl, rfl⟩
    · rw [h.recorded] at hc
      have hwrites : (view ops).Writes (some sa) := by
        rw [View.Writes, hc]
        exact ⟨Option.some_ne_none _, fun heq ↦ hother (Option.some.inj heq)⟩
      rw [if_pos hwrites, if_pos hwrites, Watched.endpoint, endpoint_applyEndpoint, if_pos rfl,
        PeerTracker.recorded_setEndpoint, if_pos rfl, h.recorded, hc]
      exact ⟨Option.some_ne_none _, rfl, rfl⟩

theorem Follows.updated (h : Follows k start ops s) {k' : Key} {sa : SocketAddr} {b : Bool}
    (hstep : WatchStep s (.updated k' sa (.ok b)) s') :
    Follows k start (ops ++ (cellOp k (.updated k' sa (.ok b))).toList) s' := by
  rw [cellOp]
  split
  · next hk =>
    subst hk
    obtain ⟨-, hendpoint, hrecorded⟩ := h.effect hstep
    refine ⟨?_, hrecorded⟩
    rw [hendpoint]
    exact h.run.write (some sa)
  · next hk =>
    rw [Option.toList_none, List.append_nil]
    cases hstep with
    | updated hpath hserves =>
      rcases updatePeer_ok hpath hserves with ⟨-, rfl, rfl⟩ | ⟨c, -, -, rfl, rfl⟩
      · exact h
      · refine h.of_eq ?_ ?_
        · exact (endpoint_applyEndpoint s.peers k' k sa).trans (if_neg (Ne.symm hk))
        · exact (PeerTracker.recorded_setEndpoint s.peerTracker k' k sa).trans (if_neg (Ne.symm hk))

theorem follows_step (h : Follows k start ops s) (hstep : WatchStep s l s') :
    Follows k start (ops ++ (cellOp k l).toList) s' := by
  cases hstep with
  | initPeersActivity hps => exact h.looked fun p hp ↦ hps.mem_iff.mp hp
  | @getInactivePeersByRx ps hps =>
    rw [PeerTracker.listInactive_snd]
    exact h.looked fun p hp ↦ hps.mem_iff.mp (List.mem_of_mem_filter hp)
  | updated hpath hserves => exact h.updated (.updated hpath hserves)
  | refused hpath hserves =>
    rw [cellOp, Option.toList_none, List.append_nil, updatePeer_error hpath hserves]
    exact h
  | @moved k' p hp sa =>
    refine h.changed (fun hk ↦ ?_) (fun hk ↦ ?_) rfl
    · subst hk
      rw [Watched.endpoint, HashMap.get?_modify, if_pos rfl, hp]
      rfl
    · rw [Watched.endpoint, HashMap.get?_modify, if_neg (Ne.symm hk)]
      rfl
  | removed k' =>
    refine h.changed (fun hk ↦ ?_) (fun hk ↦ ?_) rfl
    · subst hk
      rw [Watched.endpoint, HashMap.get?_retain]
      simp
    · rw [Watched.endpoint, Watched.endpoint, HashMap.get?_retain]
      cases s.peers.get? k <;> simp [Option.filter, Ne.symm hk]
  | @added k' hnone p =>
    refine h.changed (fun hk ↦ ?_) (fun hk ↦ ?_) rfl
    · subst hk
      rw [Watched.endpoint, HashMap.get?_insert, if_pos rfl]
      rfl
    · rw [Watched.endpoint, HashMap.get?_insert, if_neg (Ne.symm hk)]
      rfl
  | counted k' rxBytes lastHandshakeTime =>
    rw [cellOp, Option.toList_none, List.append_nil]
    refine h.of_eq ?_ rfl
    rw [Watched.endpoint, Watched.endpoint, HashMap.get?_modify]
    split
    · next hk =>
      subst hk
      cases s.peers.get? k <;> rfl
    · rfl

theorem endpointOps_snoc (ls : List WatchLabel) (l : WatchLabel) (k : Key) :
    endpointOps (ls ++ [l]) k = endpointOps ls k ++ (cellOp k l).toList := by
  rw [endpointOps, List.filterMap_append, endpointOps]
  cases hop : cellOp k l <;> simp [hop]

theorem follows_run {peers : HashMap Key WgPeer} {ls : List WatchLabel}
    (h : WatchRun peers ls s) (k : Key) :
    Follows k ((peers.get? k).bind WgPeer.endpoint) (endpointOps ls k) s := by
  induction h with
  | start => exact ⟨.nil, rfl⟩
  | step _ hstep ih =>
    rw [endpointOps_snoc]
    exact follows_step ih hstep

end Follows

/-- The peer's endpoint as the tracker has recorded it, and as others have last
changed it since, if they have. -/
def recordedEndpoint (ls : List WatchLabel) (k : Key) : Option (Option SocketAddr) :=
  (view (endpointOps ls k)).copy

def foreignEndpoint (ls : List WatchLabel) (k : Key) : Option (Option SocketAddr) :=
  (view (endpointOps ls k)).foreign

/-- After a successful call for a peer on the interface, the peer has the new
endpoint unless the tracker had recorded this endpoint already and others have
changed it to another one since. -/
theorem updated_endpoint_iff {peers : HashMap Key WgPeer} {ls : List WatchLabel} {s s' : Watched}
    (h : WatchRun peers ls s) {k : Key} {sa : SocketAddr} {b : Bool}
    (hstep : WatchStep s (.updated k sa (.ok b)) s') {p : WgPeer}
    (hp : s'.peers.get? k = some p) :
    p.endpoint = some sa ↔ ¬ (recordedEndpoint ls k = some (some sa) ∧
      ∃ endpoint, foreignEndpoint ls k = some endpoint ∧ endpoint ≠ some sa) := by
  have hfollows := follows_run h k
  obtain ⟨hcopy, hafter, -⟩ := hfollows.effect hstep
  have hendpoint : p.endpoint = s'.endpoint k := by
    rw [Watched.endpoint, hp]
    rfl
  rw [hendpoint, hafter]
  exact hfollows.run.write_iff (some sa) hcopy

section Roaming

def firstAddr : SocketAddr := .v4 (.new 198 51 100 9) 51820

def secondAddr : SocketAddr := .v4 (.new 198 51 100 77) 51820

def roamingPeers : HashMap Key WgPeer := HashMap.empty.insert (.filled 2) ⟨some firstAddr, 0, none⟩

def roamingInfo : PeerInfo := ⟨.filled 2, some firstAddr, 0, none⟩

def roamingTracker : PeerTracker := PeerTracker.new.updateAll [roamingInfo]

theorem roamingTracker_get? : roamingTracker.peers.get? (.filled 2) = some ⟨some firstAddr, 0⟩ := by
  rw [roamingTracker, PeerTracker.updateAll, List.foldl_cons, List.foldl_nil, PeerTracker.update]
  exact (HashMap.get?_insert _ _ _ _).trans (if_pos rfl)

theorem roaming_run :
    WatchRun roamingPeers [.looked [roamingInfo]] ⟨roamingTracker, roamingPeers⟩ :=
  .step .start (.initPeersActivity (List.Perm.refl _))

/-- Nobody else has touched the endpoint. -/
theorem updated_endpoint_untouched : ∃ p, (applyEndpoint roamingPeers (.filled 2)
    secondAddr).get? (.filled 2) = some p ∧ p.endpoint = some secondAddr := by
  have hget : roamingPeers.get? (.filled 2) = some ⟨some firstAddr, 0, none⟩ :=
    (HashMap.get?_insert _ _ _ _).trans (if_pos rfl)
  have hpath : Path (updatePeer roamingTracker (.filled 2) secondAddr).run
      [⟨.setEndpoint (.filled 2) secondAddr, .ok ()⟩]
      (.done (.ok (true, roamingTracker.setEndpoint (.filled 2) secondAddr))) := by
    rw [updatePeer, roamingTracker_get?]
    exact .cons (.nil _)
  have happlied : (applyEndpoint roamingPeers (.filled 2) secondAddr).get? (.filled 2) =
      some ⟨some secondAddr, 0, none⟩ := by
    rw [applyEndpoint, hget]
    dsimp only
    rw [HashMap.get?_modify, if_pos rfl, hget]
    rfl
  refine ⟨_, happlied,
    (updated_endpoint_iff roaming_run (.updated hpath (.applied (.nil _))) happlied).mpr ?_⟩
  intro h
  obtain ⟨-, endpoint, hforeign, -⟩ := h
  have hnone : foreignEndpoint [.looked [roamingInfo]] (.filled 2) = none := rfl
  rw [hnone] at hforeign
  cases hforeign

/-- WireGuard moves the peer; the call to put it back does nothing. -/
theorem moved_endpoint_kept : ∃ peers ls s s' k sa p, WatchRun peers ls s ∧
    WatchStep s (.updated k sa (.ok false)) s' ∧ s'.peers.get? k = some p ∧
      p.endpoint ≠ some sa := by
  have hget : roamingPeers.get? (.filled 2) = some ⟨some firstAddr, 0, none⟩ :=
    (HashMap.get?_insert _ _ _ _).trans (if_pos rfl)
  have hmoved := roaming_run.step (.moved hget secondAddr)
  have hpath : Path (updatePeer roamingTracker (.filled 2) firstAddr).run []
      (.done (.ok (false, roamingTracker))) := by
    rw [updatePeer, roamingTracker_get?]
    exact .nil _
  refine ⟨_, _, _, _, .filled 2, firstAddr, ⟨some secondAddr, 0, none⟩, hmoved,
    .updated hpath (.nil _), ?_, by decide⟩
  rw [HashMap.get?_modify, if_pos rfl, hget]
  rfl

end Roaming

end Wireplug
