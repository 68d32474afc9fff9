import Wireplug.PortTrace

namespace Wireplug

open Foundation Program ByteStream Client

variable {t u : ClientTrace} {port : UInt16}

def Announces (port : UInt16) (e : ClientEffect) : Prop :=
  Steady e ∧ ∀ a, e = .sendAnnouncement a → a.wgPort = port

theorem announces_of_steady {e : ClientEffect} (h : Steady e)
    (hne : ∀ a, e ≠ .sendAnnouncement a) : Announces port e :=
  ⟨h, fun a ha ↦ (hne a ha).elim⟩

theorem Detects.steady {e : ClientEffect} (h : Detects e) : Steady e :=
  h.imp trivial trivial trivial

section Rounds

variable {fromBase64 : String → Option Key} {ifName : String} {traverseNat : Bool}

theorem HandlesInactive.announces {e : ClientEffect} (h : HandlesInactive port e) :
    Announces port e := by
  refine ⟨?_, fun a ha ↦ ?_⟩
  · cases e with
    | deviceGet | sendAnnouncement | connect | sleep => trivial
    | getLanAddrs | resolveRelay | setEndpoint => trivial
    | _ => exact h.elim
  · rw [ha] at h
    exact h

def Concludes (port : UInt16) (e : ClientEffect) : Prop :=
  HandlesInactive port e ∨ e = .now ∨ e = .deviceGet .getInactivePeersByRx

theorem Concludes.announces {e : ClientEffect} (h : Concludes port e) : Announces port e := by
  rcases h with h | rfl | rfl
  · exact h.announces
  · exact announces_of_steady trivial fun _ h ↦ by cases h
  · exact announces_of_steady trivial fun _ h ↦ by cases h

theorem calls_sleep (secs : ℕ) : Calls (Concludes port) (sleep secs) :=
  only_ask (.inl trivial)

def SamePort (s s' : MonitorState) : Prop :=
  s'.portToAnnounce = s.portToAnnounce ∧ s'.netmon = s.netmon

theorem pollInactive_only (s : MonitorState) : (pollInactive s).run.Only (Concludes port)
    (Ends (SamePort s) fun _ ↦ True) := by
  refine (only_ask (.inr (.inl rfl))).try fun now _ ↦ ?_
  split
  · have hpoll : Calls (Concludes port) (getInactivePeersByRx s.peersManager) :=
      Only.try (only_orFail (only_ask (.inr (.inr rfl))) fun _ ↦ trivial) fun _ _ ↦ trivial
    exact hpoll.try fun _ _ ↦ ⟨rfl, rfl⟩
  · exact ⟨rfl, rfl⟩

theorem announceInactive_only (s : MonitorState) :
    (announceInactive fromBase64 ifName s).run.Only (Concludes s.portToAnnounce)
      (Ends (SamePort s) fun _ ↦ True) := by
  refine (pollInactive_only s).try fun s' hs' ↦ ?_
  split
  · exact (calls_sleep 10).try fun _ _ ↦ hs'
  · split
    · exact hs'
    · next netinfo _ =>
      rw [← hs'.1]
      have hrounds := announceRounds_only fromBase64 ifName netinfo s'.portToAnnounce
        s'.netmon.needsRelay s'.peersManager s'.inactivePeers maxAnnounceRetries
      refine (calls_of_only hrounds fun _ he ↦ .inl he).try fun _ _ ↦ ?_
      exact (calls_sleep 10).try fun _ _ ↦ hs'

def AnnouncesKnownPort (t : ClientTrace) (e : ClientEffect) : Prop :=
  ∀ a, e = .sendAnnouncement a → PortKnown t a.wgPort

/-- After a round the port is known. Before the first one the monitor has seen
no network. -/
def KnowsPort (s : MonitorState) (t : ClientTrace) : Prop :=
  s.netmon.current = none ∨ PortKnown t s.portToAnnounce

variable {assumes : ClientTrace → (e : ClientEffect) → e.Answer → Prop}

theorem announceInactive_ensures (s : MonitorState) (h : PortKnown t s.portToAnnounce) :
    (announceInactive fromBase64 ifName s).run.Ensures assumes AnnouncesKnownPort
      (fun r u ↦ Ends (fun s' ↦ KnowsPort s' u) (fun _ ↦ True) r) t := by
  refine (announceInactive_only s).ensures (fun u hu e he a ha ↦ ?_) fun u hu r hr ↦ ?_
  · rw [he.announces.2 a ha]
    exact h.append fun ev hev ↦ (hu ev hev).announces.1
  · refine Ends.mono (fun s' hs' ↦ .inr ?_) (fun _ _ ↦ trivial) r hr
    rw [hs'.1]
    exact h.append fun ev hev ↦ (hu ev hev).announces.1

theorem sinceChange_snoc_of_ne {e : ClientEffect} (he : e ≠ .checked .changedToNew)
    (r : e.Answer) : sinceChange (t ++ [⟨e, r⟩]) = sinceChange t ++ [⟨e, r⟩] := by
  rw [sinceChange_snoc, if_neg he]

def Offered (newPort : RandomPort) : Option (UInt16 × NetworkMonitor) → ClientTrace → Prop
  | none, w => NoPort w
  | some (port, _), w => PortDrawn w newPort port ∧ listenPorts w = []

theorem choosePort_ensures {newPort : RandomPort} (netmon : NetworkMonitor)
    (ht : sinceChange t = [⟨.getRandomPort, newPort⟩]) :
    (choosePort traverseNat newPort.val netmon).run.Ensures assumes AnnouncesKnownPort
      (fun r u ↦ Ends (fun chosen ↦ Offered newPort chosen (sinceChange u)) (fun _ ↦ True) r) t := by
  have hsince (r : Except StunError NatKind) : sinceChange (t ++ [⟨.detectKind newPort.val, r⟩]) =
      [⟨.getRandomPort, newPort⟩, ⟨.detectKind newPort.val, r⟩] := by
    rw [sinceChange_snoc_of_ne (by nofun), ht]
    rfl
  rw [choosePort]
  split
  · refine Ensures.call (fun a ha ↦ by cases ha) fun r _ ↦ ?_
    cases r with
    | error e =>
      have hfailed := noPort_of_failed newPort e
      have hslept : sinceChange
          (t ++ [⟨.detectKind newPort.val, .error e⟩] ++ [⟨.sleep 5, ()⟩]) =
            [⟨.getRandomPort, newPort⟩, ⟨.detectKind newPort.val, .error e⟩, ⟨.sleep 5, ()⟩] := by
        rw [sinceChange_snoc_of_ne (by nofun), hsince]
        rfl
      rw [← hslept] at hfailed
      cases e with
      | unresolved => trivial
      | io | encoding => exact Ensures.call (fun a ha ↦ by cases ha) fun _ _ ↦ hfailed
    | ok natKind =>
      have hdetected := portDrawn_of_detected newPort natKind
      rw [← hsince] at hdetected
      exact ⟨hdetected, by rw [hsince]; rfl⟩
  · have hdrawn := portDrawn_undetected newPort
    rw [← ht] at hdrawn
    exact ⟨hdrawn, by rw [ht]; rfl⟩

theorem changeNetwork_ensures (s : MonitorState) (ht : sinceChange t = []) :
    (changeNetwork traverseNat s).run.Ensures assumes AnnouncesKnownPort
      (fun r u ↦ Ends (fun changed ↦ (changed = none → KnowsPort s u) ∧
        ∀ s', changed = some s' → PortKnown u s'.portToAnnounce) (fun _ ↦ True) r) t := by
  refine Ensures.call (fun a ha ↦ by cases ha) fun newPort _ ↦ ?_
  have ht' : sinceChange (t ++ [⟨.getRandomPort, newPort⟩]) = [⟨.getRandomPort, newPort⟩] := by
    rw [sinceChange_snoc_of_ne (by nofun), ht]
    rfl
  refine (ensures_try _ _ _).mpr ((choosePort_ensures s.netmon ht').mono fun r u hr ↦ ?_)
  rcases r with e | _ | ⟨port, netmon⟩
  · trivial
  · exact ⟨fun _ ↦ .inr (.inr hr), fun s' hs' ↦ by cases hs'⟩
  · obtain ⟨hdrawn, hunset⟩ := hr
    refine Ensures.call (fun a ha ↦ by cases ha) fun _ _ ↦ ?_
    refine Ensures.call (fun a ha ↦ by cases ha) fun r _ ↦ ?_
    cases r with
    | error e => trivial
    | ok _ =>
      refine Ensures.call (fun a ha ↦ by cases ha) fun r' _ ↦ ?_
      cases r' with
      | error e => trivial
      | ok device =>
        have hw : sinceChange (u ++ [⟨.sleep 3, ()⟩] ++ [⟨.updatePort newPort.val, .ok ()⟩] ++
            [⟨.deviceGet .getAllPeers, .ok device⟩]) = sinceChange u ++ [⟨.sleep 3, ()⟩,
              ⟨.updatePort newPort.val, .ok ()⟩, ⟨.deviceGet .getAllPeers, .ok device⟩] := by
          rw [sinceChange_snoc_of_ne (by nofun), sinceChange_snoc_of_ne (by nofun),
            sinceChange_snoc_of_ne (by nofun), List.append_assoc, List.append_assoc]
          rfl
        refine ⟨fun hnone ↦ (by cases hnone), fun s' hs' ↦ ?_⟩
        cases hs'
        refine .inl ⟨newPort, ?_⟩
        rw [hw]
        exact hdrawn.chosen hunset device

theorem checkStatus_current (netmon : NetworkMonitor) (newInfo : NetInfo)
    (h : (netmon.checkStatus newInfo).1 ≠ .changedToNew) : netmon.current ≠ none := by
  intro hnone
  rw [NetworkMonitor.checkStatus, hnone] at h
  exact h rfl

theorem KnowsPort.checked {s : MonitorState} (h : KnowsPort s t) (newInfo : NetInfo)
    (hu : ∀ ev ∈ u, Detects ev.1) (hs : (s.netmon.checkStatus newInfo).1 ≠ .changedToNew) :
    PortKnown (t ++ u ++ [⟨.checked (s.netmon.checkStatus newInfo).1, ()⟩]) s.portToAnnounce := by
  have hknown : PortKnown t s.portToAnnounce :=
    h.resolve_left (checkStatus_current s.netmon newInfo hs)
  rw [List.append_assoc]
  refine hknown.append fun ev hev ↦ ?_
  rcases List.mem_append.mp hev with hev | hev
  · exact (hu ev hev).steady
  · cases List.mem_singleton.mp hev
    exact hs

theorem monitorRound_ensures (s : MonitorState) (h : KnowsPort s t) :
    (monitorRound fromBase64 ifName traverseNat s).run.Ensures assumes AnnouncesKnownPort
      (fun r u ↦ Ends (fun s' ↦ KnowsPort s' u) (fun _ ↦ True) r) t := by
  refine monitorRound_rule fromBase64 ifName traverseNat KnowsPort
    (fun s t ↦ PortKnown t s.portToAnnounce) (fun s t ↦ PortKnown t s.portToAnnounce)
    (fun _ t ↦ sinceChange t = []) ?_ ?_ ?_ ?_ ?_ ?_ ?_ ?_ h
  · intro u e he a ha
    rw [ha] at he
    exact he.elim
  · exact fun u status a ha ↦ by cases ha
  · exact fun s t u newInfo hs hu hne ↦ hs.checked newInfo (detect_only.of_path hu) hne
  · exact fun s t u newInfo hs hu hne _ ↦ hs.checked newInfo (detect_only.of_path hu) hne
  · intro s t u newInfo hs hu hnew
    rw [sinceChange_snoc, if_pos rfl]
  · intro s t hknown
    refine Ensures.call (fun a ha ↦ by cases ha) fun _ _ ↦ .inr (hknown.append ?_)
    intro ev hev
    cases List.mem_singleton.mp hev
    trivial
  · exact fun s t ht ↦ changeNetwork_ensures s ht
  · exact fun s t hknown ↦ announceInactive_ensures s hknown

theorem monitorStart_ensures : monitorStart.run.Ensures assumes AnnouncesKnownPort
    (fun r u ↦ Ends (fun s' ↦ KnowsPort s' u) (fun _ ↦ True) r) [] := by
  refine Ensures.call (fun a ha ↦ by cases ha) fun r _ ↦ ?_
  cases r with
  | error e => trivial
  | ok device => exact Ensures.call (fun a ha ↦ by cases ha) fun _ _ ↦ .inl rfl

theorem announces_known_port {p : Program ClientEffect.Answer (Except ClientError MonitorState)}
    (h : MonitorRun fromBase64 ifName traverseNat assumes t p) {u v : ClientTrace}
    {a : WireplugAnnouncement} {r : Except AnnounceError WireplugResponse}
    (ht : t = u ++ ⟨.sendAnnouncement a, r⟩ :: v) : PortKnown u a.wgPort :=
  h.requires_of_mem monitorStart_ensures (fun s _ hs ↦ monitorRound_ensures s hs) ht a rfl

def anyReply (_ : ClientTrace) (e : ClientEffect) (_ : e.Answer) : Prop := True

theorem answered_anyReply (t u : ClientTrace) : Answered anyReply t u :=
  answered_of_forall (fun _ _ _ ↦ trivial) t u

def silentPeer : PeerInfo := ⟨.filled 2, none, 0, none⟩

def wgDevice (peers : List PeerInfo) : Device := ⟨some (.filled 1), peers⟩

def homeIp : Ipv4Addr := .new 203 0 113 7

def homeLan : IpNet := .v4 (.slash24 (.new 192 168 1 2))

def homeNetwork : NetInfo := ⟨some homeIp, none, [homeLan], false⟩

def started (peers : List PeerInfo) : ClientTrace :=
  [⟨.deviceGet .initPeersActivity, .ok (wgDevice peers)⟩, ⟨.now, 0⟩]

def startState (peers : List PeerInfo) : MonitorState :=
  ⟨.new, PeerTracker.new.updateAll peers, peerIsInactiveDuration, [], 0⟩

theorem monitorStart_path (peers : List PeerInfo) :
    Path monitorStart.run (started peers) (.done (.ok (startState peers))) :=
  .cons (.cons (.nil _))

def foundHome (status : NetStatus) : ClientTrace :=
  [⟨.getBoth, (some homeIp, none)⟩, ⟨.getLanAddrs, .ok [homeLan]⟩, ⟨.checked status, ()⟩]

def drawn : RandomPort := ⟨51820, by decide⟩

def homeAnnouncement (port : UInt16) : WireplugAnnouncement :=
  announcement (.filled 1) [.filled 2] port homeNetwork false

def connected : ClientTrace :=
  [⟨.deviceGet .announce, .ok (wgDevice [silentPeer])⟩, ⟨.connect, .ok ()⟩]

def arrival (kind : NatKind) : ClientTrace :=
  foundHome .changedToNew ++ [⟨.getRandomPort, drawn⟩, ⟨.detectKind 51820, .ok kind⟩,
    ⟨.sleep 3, ()⟩, ⟨.updatePort 51820, .ok ()⟩,
    ⟨.deviceGet .getAllPeers, .ok (wgDevice [silentPeer])⟩, ⟨.now, 0⟩]

def newNetworkRound (kind : NatKind) : ClientTrace := arrival kind ++ connected

def failedRound : ClientTrace :=
  foundHome .changedToNew ++
    [⟨.getRandomPort, drawn⟩, ⟨.detectKind 51820, .error (.io .failed)⟩, ⟨.sleep 5, ()⟩]

def pollRound : ClientTrace :=
  foundHome .online ++ [⟨.now, seconds 26⟩,
    ⟨.deviceGet .getInactivePeersByRx, .ok (wgDevice [silentPeer])⟩] ++ connected

theorem start_run (peers : List PeerInfo) (h : Answered assumes [] (started peers)) :
    MonitorRun fromBase64 ifName traverseNat assumes (started peers)
      (monitorRound fromBase64 ifName traverseNat (startState peers)).run :=
  .again (LoopRun.start.follow (monitorStart_path peers) h)

theorem newNetwork_path (fromBase64 : String → Option Key) (ifName : String)
    (peers : List PeerInfo) (kind : NatKind) (hkind : kind ≠ .hard) :
    ∃ q, Path (monitorRound fromBase64 ifName true (startState peers)).run
      (newNetworkRound kind ++ [⟨.sendAnnouncement
        (homeAnnouncement (kind.announcedPort 51820)), .error .outdated⟩]) q := by
  cases kind with
  | easy => exact ⟨_, .cons (.cons (.cons (.cons (.cons (.cons (.cons (.cons (.cons (.cons
      (.cons (.cons (.nil _))))))))))))⟩
  | fixedPortMapping nat => exact ⟨_, .cons (.cons (.cons (.cons (.cons (.cons (.cons (.cons
      (.cons (.cons (.cons (.cons (.nil _))))))))))))⟩
  | hard => exact (hkind rfl).elim

theorem newNetwork_run (fromBase64 : String → Option Key) (ifName : String) (kind : NatKind)
    (hkind : kind ≠ .hard) :
    ∃ p, MonitorRun fromBase64 ifName true anyReply
      (started [] ++ newNetworkRound kind ++ [⟨.sendAnnouncement
        (homeAnnouncement (kind.announcedPort 51820)), .error .outdated⟩]) p := by
  obtain ⟨q, hq⟩ := newNetwork_path fromBase64 ifName [] kind hkind
  refine ⟨q, ?_⟩
  rw [List.append_assoc]
  exact (start_run [] (answered_anyReply _ _)).follow hq (answered_anyReply _ _)

/-- An announcement belongs to the network it is sent on exactly when no
detection on that network has failed. -/
theorem announced_port_belongs_iff
    {p : Program ClientEffect.Answer (Except ClientError MonitorState)}
    (h : MonitorRun fromBase64 ifName traverseNat assumes t p) {u v : ClientTrace}
    {a : WireplugAnnouncement} {r : Except AnnounceError WireplugResponse}
    (ht : t = u ++ ⟨.sendAnnouncement a, r⟩ :: v) :
    BelongsToNetwork u a.wgPort ↔ ¬ DetectionFailed u :=
  (announces_known_port h ht).belongs_iff

theorem announced_port_belongs_easy :
    BelongsToNetwork (started [] ++ newNetworkRound .easy) 51820 := by
  obtain ⟨p, hp⟩ := newNetwork_run strictBase64 "wg0" .easy (by nofun)
  refine (announced_port_belongs_iff hp rfl).mpr ?_
  intro h
  obtain ⟨localPort, e, he⟩ := h
  have hsince : sinceChange (started [] ++ newNetworkRound .easy) =
    (newNetworkRound .easy).drop 3 := rfl
  rw [hsince] at he
  simp [newNetworkRound, arrival, foundHome, connected] at he

/-- The first detection fails; the next round finds the network unchanged and
announces the port with which the loop began. -/
theorem initial_port_announced : ∃ t u a r v p,
    MonitorRun strictBase64 "wg0" true anyReply t p ∧ t = u ++ ⟨.sendAnnouncement a, r⟩ :: v ∧
      a.wgPort = 0 ∧ ¬ BelongsToNetwork u a.wgPort := by
  let s : MonitorState :=
    { startState [silentPeer] with netmon := ⟨some homeNetwork, some homeNetwork⟩ }
  have hfailed : Path (monitorRound strictBase64 "wg0" true (startState [silentPeer])).run
      failedRound (.done (.ok s)) :=
    .cons (.cons (.cons (.cons (.cons (.cons (.nil _))))))
  have hpoll : ∃ q, Path (monitorRound strictBase64 "wg0" true s).run
      (pollRound ++ [⟨.sendAnnouncement (homeAnnouncement 0), .error .outdated⟩]) q :=
    ⟨_, .cons (.cons (.cons (.cons (.cons (.cons (.cons (.cons (.nil _))))))))⟩
  obtain ⟨q, hq⟩ := hpoll
  have hrun := (start_run [silentPeer] (answered_anyReply _ _)).follow hfailed
    (answered_anyReply _ _)
  have hsent := hrun.again.follow hq (answered_anyReply _ _)
  rw [← List.append_assoc] at hsent
  refine ⟨_, _, _, _, [], _, hsent, rfl, rfl, ?_⟩
  intro h
  obtain ⟨listenPort, -, hlast, -⟩ := h
  have hnone :
      listenPorts (sinceChange (started [silentPeer] ++ failedRound ++ pollRound)) = [] := rfl
  rw [hnone] at hlast
  cases hlast

end Rounds

end Wireplug
