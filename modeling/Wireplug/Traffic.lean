import Wireplug.PeerActivity
import Wireplug.WatchedInterface

namespace Wireplug

open Foundation Program ByteStream Client

/-- `started` and `polled` name the peers that the interface showed, `polled` also
those that were listed. The others happen on the interface alone. -/
inductive TrafficLabel where
  | started (ps : List PeerInfo)
  | polled (ps : List PeerInfo) (listed : List Key)
  | received (k : Key) (bytes : UInt64)
  | shookHands (k : Key) (time : SystemTime)
  | moved (k : Key) (sa : SocketAddr)
  | removed (k : Key)
  | added (k : Key) (endpoint : Option SocketAddr)

/-- A peer that is added counts from zero. -/
inductive TrafficStep : Watched → TrafficLabel → Watched → Prop
  | started {s : Watched} {device : Device} {peerTracker : PeerTracker}
      (hdevice : device.peers.Perm s.peerInfos)
      (hpath : Path (initPeersActivity s.peerTracker).run
        [⟨.deviceGet .initPeersActivity, .ok device⟩] (.done (.ok peerTracker))) :
      TrafficStep s (.started device.peers) { s with peerTracker }
  | polled {s : Watched} {device : Device} {listed : List Key} {peerTracker : PeerTracker}
      (hdevice : device.peers.Perm s.peerInfos)
      (hpath : Path (getInactivePeersByRx s.peerTracker).run
        [⟨.deviceGet .getInactivePeersByRx, .ok device⟩] (.done (.ok (listed, peerTracker)))) :
      TrafficStep s (.polled device.peers listed) { s with peerTracker }
  | received {s : Watched} {k : Key} {p : WgPeer} {bytes : UInt64} (hp : s.peers.get? k = some p)
      (hbytes : 0 < bytes) : TrafficStep s (.received k bytes)
        { s with peers := s.peers.modify k fun p ↦ { p with rxBytes := p.rxBytes + bytes } }
  | shookHands {s : Watched} (k : Key) (time : SystemTime) : TrafficStep s (.shookHands k time)
      { s with peers := s.peers.modify k fun p ↦ { p with lastHandshakeTime := some time } }
  | moved {s : Watched} (k : Key) (sa : SocketAddr) : TrafficStep s (.moved k sa)
      { s with peers := s.peers.modify k fun p ↦ { p with endpoint := some sa } }
  | removed {s : Watched} (k : Key) : TrafficStep s (.removed k)
      { s with peers := s.peers.retain fun k' _ ↦ k' ≠ k }
  | added {s : Watched} {k : Key} (hk : s.peers.get? k = none) (endpoint : Option SocketAddr) :
      TrafficStep s (.added k endpoint) { s with peers := s.peers.insert k ⟨endpoint, 0, none⟩ }

inductive TrafficRun (peers : HashMap Key WgPeer) : List TrafficLabel → Watched → Prop
  | start : TrafficRun peers [] ⟨.new, peers⟩
  | step {ls : List TrafficLabel} {s s' : Watched} {l : TrafficLabel} :
      TrafficRun peers ls s → TrafficStep s l s' → TrafficRun peers (ls ++ [l]) s'

def TrafficLabel.snapshot : TrafficLabel → Option (List PeerInfo)
  | .started ps => some ps
  | .polled ps _ => some ps
  | _ => none

def TrafficLabel.shown : TrafficLabel → List PeerInfo
  | .started ps => ps
  | .polled ps _ => ps.filter fun p ↦ p.lastHandshakeTime.isSome
  | _ => []

def shownSoFar (ls : List TrafficLabel) : List PeerInfo := ls.flatMap TrafficLabel.shown

def ReceivedSinceLook (ls : List TrafficLabel) (k : Key) : Prop :=
  ∃ before bytes since, ls = before ++ .received k bytes :: since ∧
    ∀ l ∈ since, l.snapshot = none

def LastSnapshot (ls : List TrafficLabel) (ps : List PeerInfo) : Prop :=
  ∃ before l since, ls = before ++ l :: since ∧ l.snapshot = some ps ∧
    ∀ l ∈ since, l.snapshot = none

/-- A peer with a handshake that has received something since the last look. -/
def ActiveSince (ls : List TrafficLabel) (s : Watched) (k : Key) : Prop :=
  (∃ p, s.peers.get? k = some p ∧ p.lastHandshakeTime ≠ none) ∧ ReceivedSinceLook ls k

/-- A peer with a handshake now and at the last look, with the same counter, that has received
nothing in between. -/
def SilentSince (ls : List TrafficLabel) (s : Watched) (k : Key) : Prop :=
  (∃ p q ps, s.peers.get? k = some p ∧ p.lastHandshakeTime ≠ none ∧ LastSnapshot ls ps ∧
    q ∈ ps ∧ q.publicKey = k ∧ q.lastHandshakeTime ≠ none ∧ q.rxBytes = p.rxBytes) ∧
    ¬ReceivedSinceLook ls k

def CountsAbove (ls : List TrafficLabel) (s : Watched) (k : Key) : Prop :=
  ∀ p, s.peers.get? k = some p → ∀ q ∈ shownSoFar ls, q.publicKey = k → q.rxBytes < p.rxBytes

section Runs

variable {peers : HashMap Key WgPeer} {ls : List TrafficLabel} {s s' : Watched} {k : Key}
  {n : UInt64} {ps : List PeerInfo} {listed : List Key} {l : TrafficLabel}

theorem started_result {peerTracker peerTracker' : PeerTracker} {device : Device}
    (h : Path (initPeersActivity peerTracker).run [⟨.deviceGet .initPeersActivity, .ok device⟩]
      (.done (.ok peerTracker'))) : peerTracker' = peerTracker.updateAll device.peers := by
  cases h with
  | cons h =>
    cases h
    rfl

theorem polled_result {peerTracker peerTracker' : PeerTracker} {device : Device}
    (h : Path (getInactivePeersByRx peerTracker).run
      [⟨.deviceGet .getInactivePeersByRx, .ok device⟩] (.done (.ok (listed, peerTracker')))) :
    listed = (peerTracker.listInactive device.peers).1 ∧
      peerTracker' = (peerTracker.listInactive device.peers).2 := by
  cases h with
  | cons h =>
    have heq := Except.ok.inj (Program.done.inj ((Path.nil _).unique h))
    exact ⟨(congrArg Prod.fst heq).symm, (congrArg Prod.snd heq).symm⟩

theorem reached_step (h : TrafficStep s l s') : s'.peerTracker.Reached k n ↔
    s.peerTracker.Reached k n ∨ ∃ q ∈ l.shown, q.publicKey = k ∧ n ≤ q.rxBytes := by
  cases h with
  | started _ hpath =>
    rw [started_result hpath]
    exact PeerTracker.reached_updateAll
  | polled _ hpath =>
    dsimp only
    rw [(polled_result hpath).2, PeerTracker.listInactive_snd]
    exact PeerTracker.reached_updateAll
  | received | shookHands | moved | removed | added => simp [TrafficLabel.shown]

theorem reached_run (h : TrafficRun peers ls s) (k : Key) (n : UInt64) :
    s.peerTracker.Reached k n ↔ ∃ q ∈ shownSoFar ls, q.publicKey = k ∧ n ≤ q.rxBytes := by
  induction h with
  | start =>
    simp only [shownSoFar, List.flatMap_nil, List.not_mem_nil, false_and, exists_false, iff_false]
    rintro ⟨rx, hrx, -⟩
    cases hrx
  | @step ls s s' l _ hstep ih =>
    rw [reached_step hstep, ih]
    simp only [shownSoFar, List.flatMap_append, List.flatMap_singleton, List.mem_append,
      or_and_right, exists_or]

theorem filter_publicKey {p : PeerInfo} (hnodup : (ps.map PeerInfo.publicKey).Nodup)
    (hp : p ∈ ps) : ps.filter (fun q ↦ q.publicKey = p.publicKey) = [p] := by
  induction ps with
  | nil => cases hp
  | cons q ps ih =>
    rw [List.map_cons, List.nodup_cons] at hnodup
    rcases List.mem_cons.mp hp with rfl | hp
    · rw [List.filter_cons, if_pos (by simp), List.filter_eq_nil_iff.mpr]
      intro q hq heq
      apply hnodup.1
      rw [← of_decide_eq_true heq]
      exact List.mem_map_of_mem hq
    · have hne : q.publicKey ≠ p.publicKey := by
        intro heq
        apply hnodup.1
        rw [heq]
        exact List.mem_map_of_mem hp
      rw [List.filter_cons, if_neg (by simpa using hne)]
      exact ih hnodup.2 hp

theorem nodup_peerInfos (s : Watched) : (s.peerInfos.map PeerInfo.publicKey).Nodup := by
  have hkeys : s.peerInfos.map PeerInfo.publicKey = s.peers.entries.map Prod.fst := by
    rw [Watched.peerInfos, List.map_map]
    rfl
  rw [hkeys]
  exact s.peers.nodup

theorem mem_listed_iff (h : TrafficRun peers ls s) (hpoll : TrafficStep s (.polled ps listed) s')
    {p : WgPeer} (hp : s.peers.get? k = some p) : k ∈ listed ↔
      p.lastHandshakeTime = none ∨ ∃ q ∈ shownSoFar ls, q.publicKey = k ∧ p.rxBytes ≤ q.rxBytes := by
  cases hpoll with
  | polled hdevice hpath =>
    let info : PeerInfo := ⟨k, p.endpoint, p.rxBytes, p.lastHandshakeTime⟩
    have hinfo : info ∈ s.peerInfos := List.mem_map_of_mem (HashMap.get?_eq_some.mp hp)
    have hnodup := (hdevice.map _).nodup_iff.mpr (nodup_peerInfos s)
    rw [(polled_result hpath).1]
    exact (PeerTracker.mem_listInactive (filter_publicKey hnodup (hdevice.mem_iff.mpr hinfo))).trans
      (or_congr_right (reached_run h k p.rxBytes))

theorem not_listed_iff (h : TrafficRun peers ls s) (hpoll : TrafficStep s (.polled ps listed) s')
    (hactive : ActiveSince ls s k) : k ∉ listed ↔ CountsAbove ls s k := by
  obtain ⟨⟨p, hp, hhandshake⟩, -⟩ := hactive
  rw [mem_listed_iff h hpoll hp, or_iff_right hhandshake, CountsAbove]
  simp only [hp, Option.some.injEq, forall_eq', not_exists, not_and, UInt64.not_le]

theorem listed_of_silent (h : TrafficRun peers ls s)
    (hpoll : TrafficStep s (.polled ps listed) s') (hsilent : SilentSince ls s k) :
    k ∈ listed := by
  obtain ⟨⟨p, q, shown, hp, -, ⟨before, l, since, rfl, hlook, -⟩, hq, hk, hhandshake, hsame⟩, -⟩ :=
    hsilent
  have hshown : q ∈ l.shown := by
    cases l with
    | started ps =>
      cases hlook
      exact hq
    | polled ps listed =>
      cases hlook
      exact List.mem_filter.mpr ⟨hq, Option.isSome_iff_ne_none.mpr hhandshake⟩
    | _ => cases hlook
  rw [mem_listed_iff h hpoll hp]
  refine .inr ⟨q, ?_, hk, hsame ▸ UInt64.le_refl _⟩
  simp [shownSoFar, hshown]

/-- A silent peer is always listed, and no active peer is listed exactly if the counters of all
active peers are above what the tracker has seen of them. -/
theorem polls_follow_traffic_iff (h : TrafficRun peers ls s)
    (hpoll : TrafficStep s (.polled ps listed) s') :
    (∀ k, SilentSince ls s k → k ∈ listed) ∧
      (((∀ k, ActiveSince ls s k → k ∉ listed) ∧ ∀ k, SilentSince ls s k → k ∈ listed) ↔
        ∀ k, ActiveSince ls s k → CountsAbove ls s k) := by
  have hsilent (k : Key) (hk : SilentSince ls s k) : k ∈ listed := listed_of_silent h hpoll hk
  refine ⟨hsilent, ?_⟩
  rw [and_iff_left hsilent]
  refine forall_congr' fun k ↦ ?_
  constructor
  · intro hnot hactive
    exact (not_listed_iff h hpoll hactive).mp (hnot hactive)
  · intro habove hactive
    exact (not_listed_iff h hpoll hactive).mpr (habove hactive)

end Runs

section Restart

theorem exists_started (s : Watched) : ∃ s', TrafficStep s (.started s.peerInfos) s' ∧
    s'.peers = s.peers := by
  have hpath : Path (initPeersActivity s.peerTracker).run
      [⟨.deviceGet .initPeersActivity, .ok ⟨none, s.peerInfos⟩⟩]
      (.done (.ok (s.peerTracker.updateAll s.peerInfos))) := .cons (.nil _)
  have hdevice : (Device.mk none s.peerInfos).peers.Perm s.peerInfos := List.Perm.refl _
  exact ⟨_, .started hdevice hpath, rfl⟩

theorem exists_polled (s : Watched) :
    ∃ listed s', TrafficStep s (.polled s.peerInfos listed) s' := by
  have hpath : Path (getInactivePeersByRx s.peerTracker).run
      [⟨.deviceGet .getInactivePeersByRx, .ok ⟨none, s.peerInfos⟩⟩]
      (.done (.ok (s.peerTracker.listInactive s.peerInfos))) := .cons (.nil _)
  have hdevice : (Device.mk none s.peerInfos).peers.Perm s.peerInfos := List.Perm.refl _
  exact ⟨_, _, .polled hdevice hpath⟩

theorem exists_received {s : Watched} {k : Key} {p : WgPeer} (hp : s.peers.get? k = some p)
    {bytes : UInt64} (hbytes : 0 < bytes) : ∃ s', TrafficStep s (.received k bytes) s' ∧
      ∀ k', s'.peers.get? k' =
        if k' = k then some { p with rxBytes := p.rxBytes + bytes } else s.peers.get? k' := by
  refine ⟨_, .received hp hbytes, fun k' ↦ ?_⟩
  rw [HashMap.get?_modify, hp, Option.map_some]

theorem exists_returned (s : Watched) (k : Key) (time : SystemTime) : ∃ s₁ s₂ s',
    TrafficStep s (.removed k) s₁ ∧ TrafficStep s₁ (.added k none) s₂ ∧
      TrafficStep s₂ (.shookHands k time) s' ∧ s'.peers.get? k = some ⟨none, 0, some time⟩ := by
  have hgone : (s.peers.retain fun k' _ ↦ k' ≠ k).get? k = none := by
    rw [HashMap.get?_retain]
    cases s.peers.get? k <;> simp
  refine ⟨_, _, _, .removed k, .added hgone none, .shookHands k time, ?_⟩
  simp

theorem receivedSinceLook_snoc (ls : List TrafficLabel) (k : Key) (bytes : UInt64) :
    ReceivedSinceLook (ls ++ [.received k bytes]) k := ⟨ls, bytes, [], rfl, by simp⟩

def countedPeers : HashMap Key WgPeer := HashMap.empty.insert (.filled 2) ⟨none, 100, some 1⟩

def countedInfo : PeerInfo := ⟨.filled 2, none, 100, some 1⟩

theorem peerInfos_counted : (Watched.mk .new countedPeers).peerInfos = [countedInfo] := rfl

/-- The peer receives more after the start. -/
theorem polls_follow_traffic_counted : ∃ ls s listed s', TrafficRun countedPeers ls s ∧
    TrafficStep s (.polled s.peerInfos listed) s' ∧ ActiveSince ls s (.filled 2) ∧
    .filled 2 ∉ listed := by
  obtain ⟨s₁, hstarted, hpeers⟩ := exists_started ⟨.new, countedPeers⟩
  have hget₁ : s₁.peers.get? (.filled 2) = some ⟨none, 100, some 1⟩ := by
    simp [hpeers, countedPeers]
  obtain ⟨s, hreceived, hget⟩ := exists_received hget₁ (by decide : (0 : UInt64) < 7)
  obtain ⟨listed, s', hpoll⟩ := exists_polled s
  have hrun := (TrafficRun.start.step hstarted).step hreceived
  have hactive (ls : List TrafficLabel) :
      ActiveSince (ls ++ [.received (.filled 2) 7]) s (.filled 2) :=
    ⟨⟨_, (hget _).trans (if_pos rfl), by simp⟩, receivedSinceLook_snoc ls _ 7⟩
  refine ⟨_, s, listed, s', hrun, hpoll, hactive _, ?_⟩
  refine ((polls_follow_traffic_iff hrun hpoll).2.mpr fun k _ p hp q hq hk ↦ ?_).1 _ (hactive _)
  have hq' : q = countedInfo := by
    simpa [shownSoFar, TrafficLabel.shown, peerInfos_counted] using hq
  subst hq' hk
  rw [hget] at hp
  cases hp
  decide

/-- The peer is removed and added again, and receives something. -/
theorem restarted_peer_listed : ∃ ls s listed s', TrafficRun countedPeers ls s ∧
    TrafficStep s (.polled s.peerInfos listed) s' ∧ ActiveSince ls s (.filled 2) ∧
    .filled 2 ∈ listed := by
  obtain ⟨s₁, hstarted, -⟩ := exists_started ⟨.new, countedPeers⟩
  obtain ⟨s₂, s₃, s₄, hremoved, hadded, hshaken, hget₄⟩ := exists_returned s₁ (.filled 2) 2
  obtain ⟨s, hreceived, hget⟩ := exists_received hget₄ (by decide : (0 : UInt64) < 7)
  obtain ⟨listed, s', hpoll⟩ := exists_polled s
  have hrun := ((((TrafficRun.start.step hstarted).step hremoved).step hadded).step
    hshaken).step hreceived
  have hpeer := (hget (.filled 2)).trans (if_pos rfl)
  refine ⟨_, s, listed, s', hrun, hpoll, ⟨⟨_, hpeer, by simp⟩, receivedSinceLook_snoc _ _ 7⟩, ?_⟩
  rw [mem_listed_iff hrun hpoll hpeer]
  refine .inr ⟨countedInfo, ?_, rfl, by decide⟩
  simp [shownSoFar, TrafficLabel.shown, peerInfos_counted]

end Restart

end Wireplug
