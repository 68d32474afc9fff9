import Wireplug.MonitorRound
import Wireplug.NetworkPort
import Wireplug.PeerActivity

namespace Wireplug

open Foundation Program ByteStream Client

variable {fromBase64 : String → Option Key} {ifName : String} {traverseNat : Bool}
  {s s' : MonitorState} {t u : ClientTrace} {call : Option NetInfo}

theorem Apart.aside {e : ClientEffect} (h : Apart e) : Aside e := by
  cases e with
  | deviceGet => exact h.elim
  | _ => trivial

theorem InStep.polled (h : InStep s t) (hpoll : Polled s s' u) : InStep s' (t ++ u) := by
  cases hpoll with
  | notYet =>
    refine h.append (fun ev hev ↦ ?_) rfl fun k ↦ rfl
    cases List.mem_singleton.mp hev
    trivial
  | @due now _ device =>
    refine ⟨?_, fun k n ↦ ?_⟩
    · rw [deadline, List.foldl_append, ← deadline, h.deadline_eq]
      rfl
    · have hshown : shownPeers [⟨.now, now⟩, ⟨.deviceGet .getInactivePeersByRx, .ok device⟩] =
        device.peers.filter fun p ↦ p.lastHandshakeTime.isSome := List.append_nil _
      rw [PeerTracker.listInactive_snd, PeerTracker.reached_updateAll, h.reached_iff,
        hasShown_append, hasShown_iff hshown]

theorem InStep.renewed {device : Device} (h : InStep s t) (hnew : Renewed s s' u device) :
    InStep s' (t ++ u) := by
  obtain ⟨w, newPort, hw, rfl⟩ := hnew.trace
  have hquiet : InStep s (t ++ w) := h.append (fun ev hev ↦ (hw ev hev).aside) rfl fun k ↦ rfl
  refine ⟨?_, fun k n ↦ ?_⟩
  · rw [← List.append_assoc, deadline, List.foldl_append, ← deadline, hquiet.deadline_eq, hnew.next]
    rfl
  · rw [← List.append_assoc, hnew.peersManager, hquiet.reached_iff]
    refine (hasShown_append.trans (or_iff_left fun hshown ↦ ?_)).symm
    obtain ⟨q, hq, -⟩ := hshown
    cases hq

theorem InStep.found (h : InStep s t) (hpath : Path (findInactive s).run u (.done (.ok (s', call)))) :
    InStep s' (t ++ u) := by
  obtain ⟨v, w, rfl, hpoll, hw, -⟩ := path_findInactive hpath
  rw [← List.append_assoc]
  exact (h.polled hpoll).append (fun ev hev ↦ (hw ev hev).aside) rfl fun k ↦ rfl

theorem InStep.reaches (h : InStep s t) (hreach : Reaches s (s', call) u) : InStep s' (t ++ u) := by
  cases hreach with
  | ended hu => exact h.append (fun ev hev ↦ (hu ev hev).aside) rfl fun k ↦ rfl
  | @unchanged netmon _ _ _ hu hpath =>
    have hchecked : InStep { s with netmon } (t ++ _) :=
      h.append (fun ev hev ↦ (hu ev hev).aside) rfl fun k ↦ rfl
    rw [← List.append_assoc]
    exact hchecked.found hpath
  | @renewed netmon _ _ _ _ _ _ hu _ hnew hpath =>
    have hchecked : InStep { s with netmon } (t ++ _) :=
      h.append (fun ev hev ↦ (hu ev hev).aside) rfl fun k ↦ rfl
    rw [← List.append_assoc, ← List.append_assoc]
    exact (hchecked.renewed hnew).found hpath

theorem HandlesInactive.aside {port : UInt16} {e : ClientEffect} (h : HandlesInactive port e) :
    Aside e := by
  cases e with
  | deviceGet reader => exact h
  | _ => trivial

theorem path_passToHandler
    (h : Path (passToHandler fromBase64 ifName (s, call)).run u (.done (.ok s'))) :
    (∀ ev ∈ u, Aside ev.1) ∧ s'.nextInactivityCheck = s.nextInactivityCheck ∧
      s'.peersManager.SameRx s.peersManager := by
  cases call with
  | none =>
    cases h
    exact ⟨fun ev hev ↦ (by cases hev), rfl, fun k ↦ rfl⟩
  | some netinfo =>
    obtain ⟨r, v, w, rfl, hrounds, hrest⟩ := Path.try_done h
    have honly := announceRounds_only fromBase64 ifName netinfo s.portToAnnounce
      s.netmon.needsRelay s.peersManager s.inactivePeers maxAnnounceRetries
    obtain ⟨⟨⟩, w, rfl, hslept⟩ := path_ask hrest
    cases hslept
    refine ⟨fun ev hev ↦ ?_, rfl, honly.result hrounds⟩
    rcases List.mem_append.mp hev with hev | hev
    · exact (honly.of_path hrounds ev hev).aside
    · cases List.mem_singleton.mp hev
      trivial

theorem InStep.passed (h : InStep s t)
    (hpath : Path (passToHandler fromBase64 ifName (s, call)).run u (.done (.ok s'))) :
    InStep s' (t ++ u) := by
  obtain ⟨hu, hnext, hrx⟩ := path_passToHandler hpath
  exact h.append hu hnext hrx

theorem inStep_start (h : Path monitorStart.run t (.done (.ok s))) : InStep s t := by
  obtain ⟨peersManager, v, w, rfl, hinit, hrest⟩ := Path.try_done h
  obtain ⟨device, v, rfl, hdevice⟩ := path_deviceGet hinit
  cases hdevice
  obtain ⟨now, w, rfl, hnow⟩ := path_ask hrest
  cases hnow
  refine ⟨rfl, fun k n ↦ ?_⟩
  have hshown : shownPeers [⟨.deviceGet .initPeersActivity, .ok device⟩, ⟨.now, now⟩] =
    device.peers := List.append_nil _
  rw [PeerTracker.reached_updateAll]
  refine (or_iff_right fun hnew ↦ ?_).trans ?_
  · obtain ⟨rx, hrx, -⟩ := hnew
    cases hrx
  · exact (hasShown_iff hshown).symm

theorem inStep_of_run {assumes : ClientTrace → (e : ClientEffect) → e.Answer → Prop}
    (h : MonitorRun fromBase64 ifName traverseNat assumes t (.done (.ok s))) : InStep s t := by
  have hrounds := h.rounds
  clear h
  induction hrounds with
  | start hpath => exact inStep_start hpath
  | @round _ _ s₀ _ _ hpath ih =>
    rw [monitorRound_eq] at hpath
    obtain ⟨⟨s₁, call⟩, v, w, rfl, hreach, hpass⟩ := Path.try_done hpath
    rw [← List.append_assoc]
    exact (ih.reaches (path_reachAnnouncing hreach)).passed hpass

theorem peersOnInterface_append (hu : ∀ ev ∈ u, Apart ev.1) :
    peersOnInterface (t ++ u) = peersOnInterface t := by
  rw [peersOnInterface, List.foldl_append, ← peersOnInterface]
  generalize peersOnInterface t = peers
  induction u with
  | nil => rfl
  | cons ev u ih =>
    obtain ⟨e, r⟩ := ev
    have he : Apart e := hu _ List.mem_cons_self
    have hlisted : listedIn peers ⟨e, r⟩ = peers := by
      cases e with
      | deviceGet => exact he.elim
      | _ => rfl
    rw [List.foldl_cons, hlisted]
    exact ih fun ev hev ↦ hu ev (List.mem_cons_of_mem _ hev)

theorem passedPeers_eq (hcall : s.inactivePeers = [] ∧ call = none ∨ call = s.netmon.getCurrent)
    (hcurrent : s.netmon.current.isSome = true) : passedPeers (s, call) = s.inactivePeers := by
  rcases hcall with ⟨hempty, rfl⟩ | rfl
  · exact hempty.symm
  · obtain ⟨netinfo, hnetinfo⟩ := Option.isSome_iff_exists.mp hcurrent
    rw [NetworkMonitor.getCurrent, hnetinfo]
    rfl

/-- In the round `u` after `t` the clock was not past the deadline, which has
just been moved on. -/
def BeforeDeadline (t u : ClientTrace) : Prop :=
  ∀ d now, deadline t = some d → ⟨.now, now⟩ ∈ u → now ≤ d + peerIsInactiveDuration

def PollsIdlePeers (t u : ClientTrace) : Prop :=
  ∀ device, ⟨.deviceGet .getInactivePeersByRx, .ok device⟩ ∈ u → ∀ p ∈ device.peers,
    p.lastHandshakeTime = none ∨ HasShown t p.publicKey p.rxBytes

theorem not_mem_of_apart {e : ClientEffect} (hu : ∀ ev ∈ u, Apart ev.1) (he : ¬ Apart e)
    (r : e.Answer) : ⟨e, r⟩ ∉ u :=
  fun hmem ↦ he (hu _ hmem)

theorem mem_renewedRound {device : Device} {v w x : ClientTrace} (hu : ∀ ev ∈ u, Apart ev.1)
    (hnew : Renewed s s' v device) (hx : ∀ ev ∈ x, Apart ev.1) (e : ClientEffect) (r : e.Answer)
    (he : ¬ Apart e) (hport : ∀ newPort, e ≠ .updatePort newPort)
    (hlist : e ≠ .deviceGet .getAllPeers) :
    ⟨e, r⟩ ∈ u ++ (v ++ (w ++ x)) ↔ ⟨e, r⟩ ∈ w := by
  obtain ⟨v, newPort, hv, rfl⟩ := hnew.trace
  have hset : (⟨e, r⟩ : Event ClientEffect.Answer) ∉
      [⟨.updatePort newPort, .ok ()⟩, ⟨.deviceGet .getAllPeers, .ok device⟩] := by
    intro hmem
    simp only [List.mem_cons, List.not_mem_nil, or_false] at hmem
    rcases hmem with heq | heq
    · exact hport newPort (congrArg Sigma.fst heq)
    · exact hlist (congrArg Sigma.fst heq)
  simp only [List.mem_append, not_mem_of_apart hu he r, not_mem_of_apart hv he r,
    not_mem_of_apart hx he r, hset, false_or, or_false]

theorem Renewed.peersOnInterface_append {device : Device} (h : Renewed s s' u device)
    (t : ClientTrace) : peersOnInterface (t ++ u) = device.peers.map PeerInfo.publicKey := by
  obtain ⟨w, newPort, -, rfl⟩ := h.trace
  rw [← List.append_assoc, peersOnInterface, List.foldl_append]
  rfl

theorem Polled.netmon_eq (h : Polled s s' u) : s'.netmon = s.netmon := by
  cases h <;> rfl

theorem Polled.not_updatePort (h : Polled s s' u) (newPort : UInt16)
    (r : Except IoError Unit) : ⟨.updatePort newPort, r⟩ ∉ u := by
  cases h with
  | notYet | due => simp

theorem InStep.listInactive_eq_iff (h : InStep s t) (ps : List PeerInfo) :
    (s.peersManager.listInactive ps).1 = ps.map PeerInfo.publicKey ↔
      ∀ p ∈ ps, p.lastHandshakeTime = none ∨ HasShown t p.publicKey p.rxBytes := by
  rw [PeerTracker.listInactive_eq_map]
  refine forall₂_congr fun p _ ↦ ?_
  rw [PeerTracker.Inactive, h.reached_iff]

/-- A round that sets a new listen port passes all peers on the interface on,
unless it comes so late that it polls at once and finds an active peer. -/
theorem new_port_announced_to_all_iff
    {assumes : ClientTrace → (e : ClientEffect) → e.Answer → Prop}
    (h : MonitorRun fromBase64 ifName traverseNat assumes t (.done (.ok s)))
    {r : MonitorState × Option NetInfo}
    (hround : Path (reachAnnouncing traverseNat s).run u (.done (.ok r))) {newPort : UInt16}
    (hport : ⟨.updatePort newPort, .ok ()⟩ ∈ u) :
    passedPeers r = peersOnInterface u ↔ BeforeDeadline t u ∨ PollsIdlePeers t u := by
  have hstep := inStep_of_run h
  obtain ⟨s', call⟩ := r
  cases path_reachAnnouncing hround with
  | ended hu => exact (not_mem_of_apart hu id _ hport).elim
  | unchanged hu hpath =>
    obtain ⟨v, w, rfl, hpoll, hw, -⟩ := path_findInactive hpath
    rcases List.mem_append.mp hport with hport | hport
    · exact (not_mem_of_apart hu id _ hport).elim
    · rcases List.mem_append.mp hport with hport | hport
      · exact (hpoll.not_updatePort _ _ hport).elim
      · exact (not_mem_of_apart hw id _ hport).elim
  | @renewed netmon s₁ device u x _ _ hu hcurrent hnew hpath =>
    obtain ⟨v, w, rfl, hpoll, hw, hcall⟩ := path_findInactive hpath
    have hnow (now : Instant) : ⟨.now, now⟩ ∈ u ++ (x ++ (v ++ w)) ↔ ⟨.now, now⟩ ∈ v :=
      mem_renewedRound hu hnew hw .now now id (fun _ heq ↦ by cases heq) fun heq ↦ by cases heq
    have hpolled (polled : Except IoError Device) :
        ⟨.deviceGet .getInactivePeersByRx, polled⟩ ∈ u ++ (x ++ (v ++ w)) ↔
          ⟨.deviceGet .getInactivePeersByRx, polled⟩ ∈ v :=
      mem_renewedRound hu hnew hw (.deviceGet .getInactivePeersByRx) polled id
        (fun _ heq ↦ by cases heq) fun heq ↦ by cases heq
    have hlast : peersOnInterface (u ++ (x ++ (v ++ w))) = peersOnInterface (u ++ x ++ v) := by
      rw [← List.append_assoc, ← List.append_assoc, peersOnInterface_append hw]
    have hpassed : passedPeers (s', call) = s'.inactivePeers := by
      refine passedPeers_eq hcall ?_
      rw [hpoll.netmon_eq, hnew.current]
      exact hcurrent
    have hdeadline : deadline t = some s.nextInactivityCheck := hstep.deadline_eq
    have hnext : s₁.nextInactivityCheck = s.nextInactivityCheck + peerIsInactiveDuration := hnew.next
    rw [hpassed, hlast, BeforeDeadline, PollsIdlePeers]
    simp only [hnow, hpolled, hdeadline]
    cases hpoll with
    | @notYet now hnot =>
      refine iff_of_true ?_ (.inl fun d now' hd hnow' ↦ ?_)
      · rw [hnew.inactivePeers, peersOnInterface, List.foldl_append, ← peersOnInterface,
          hnew.peersOnInterface_append]
        rfl
      · cases List.mem_singleton.mp hnow'
        cases hd
        exact hnot.trans_eq hnext
    | @due now hdue polled =>
      have hlist : (s₁.peersManager.listInactive polled.peers).1 =
          polled.peers.map PeerInfo.publicKey ↔ ∀ p ∈ polled.peers,
            p.lastHandshakeTime = none ∨ HasShown t p.publicKey p.rxBytes := by
        rw [hnew.peersManager]
        exact hstep.listInactive_eq_iff polled.peers
      rw [peersOnInterface, List.foldl_append]
      refine hlist.trans ?_
      constructor
      · intro hall
        refine .inr fun device' hdevice' ↦ ?_
        simp only [List.mem_cons, List.not_mem_nil, or_false] at hdevice'
        rcases hdevice' with heq | heq
        · cases heq
        · cases heq
          exact hall
      · intro h
        rcases h with hbefore | hall
        · have hle := hbefore _ now rfl List.mem_cons_self
          rw [← hnext] at hle
          exact (hdue.not_ge hle).elim
        · exact hall polled (by simp)

theorem new_port_announced_to_all_iff_home :
    ∃ r, Path (reachAnnouncing true (startState [])).run (arrival .easy) (.done (.ok r)) ∧
      passedPeers r = [.filled 2] := by
  let s : MonitorState := ⟨⟨some homeNetwork, some homeNetwork⟩, PeerTracker.new.updateAll [],
    peerIsInactiveDuration + peerIsInactiveDuration, [.filled 2], 51820⟩
  have hpath : Path (reachAnnouncing true (startState [])).run (arrival .easy)
      (.done (.ok (s, some homeNetwork))) :=
    .cons (.cons (.cons (.cons (.cons (.cons (.cons (.cons (.cons (.nil _)))))))))
  have hstart : MonitorRun strictBase64 "wg0" true anyReply (started [])
      (.done (.ok (startState []))) :=
    LoopRun.start.follow (monitorStart_path []) (answered_anyReply _ _)
  have hport : ⟨.updatePort 51820, .ok ()⟩ ∈ arrival .easy := by simp [arrival]
  refine ⟨_, hpath, (new_port_announced_to_all_iff hstart hpath hport).mpr (.inl ?_)⟩
  intro d now hd hnow
  simp only [arrival, foundHome, List.cons_append, List.nil_append, List.mem_cons,
    List.not_mem_nil, or_false] at hnow
  rcases hnow with h | h | h | h | h | h | h | h | h <;> cases h
  exact Nat.zero_le _

def livePeer (rxBytes : UInt64) : PeerInfo := ⟨.filled 2, none, rxBytes, some 0⟩

/-- The first look at the network takes so long that the deadline is still past
when the new port has moved it on. -/
def lateRound : ClientTrace :=
  foundHome .changedToNew ++ [⟨.getRandomPort, drawn⟩, ⟨.sleep 3, ()⟩, ⟨.updatePort 51820, .ok ()⟩,
    ⟨.deviceGet .getAllPeers, .ok (wgDevice [livePeer 4])⟩, ⟨.now, seconds 100⟩,
    ⟨.deviceGet .getInactivePeersByRx, .ok (wgDevice [livePeer 4])⟩, ⟨.sleep 10, ()⟩]

def lateState : MonitorState :=
  ⟨⟨some homeNetwork, some homeNetwork⟩, (PeerTracker.new.updateAll [livePeer 0]).updateAll
    [livePeer 4], seconds 75, [], 51820⟩

theorem lateRound_path : Path (reachAnnouncing false (startState [livePeer 0])).run lateRound
    (.done (.ok (lateState, none))) :=
  .cons (.cons (.cons (.cons (.cons (.cons (.cons (.cons (.cons (.cons (.nil _))))))))))

/-- The new port is set and nobody is told, since the only peer is active. -/
theorem new_port_not_announced : ∃ t u s r,
    MonitorRun strictBase64 "wg0" false anyReply t (.done (.ok s)) ∧
      Path (reachAnnouncing false s).run u (.done (.ok r)) ∧
      ⟨.updatePort 51820, .ok ()⟩ ∈ u ∧ peersOnInterface u = [.filled 2] ∧ passedPeers r = [] :=
  ⟨started [livePeer 0], lateRound, startState [livePeer 0], (lateState, none),
    LoopRun.start.follow (monitorStart_path _) (answered_anyReply _ _), lateRound_path,
    by simp [lateRound], rfl, rfl⟩

end Wireplug
