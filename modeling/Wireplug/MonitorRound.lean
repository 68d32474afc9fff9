import Wireplug.Daemon

namespace Wireplug

open Foundation Program ByteStream Client

def findInactive (s : MonitorState) : Client (MonitorState × Option NetInfo) := do
  let s ← pollInactive s
  if s.inactivePeers.isEmpty then do
    sleep 10
    pure (s, none)
  else pure (s, s.netmon.getCurrent)

/-- A round until it calls `handle_inactive_peers`, with the network that it then
announces, or until it ends without that call. -/
def reachAnnouncing (traverseNat : Bool) (s : MonitorState) :
    Client (MonitorState × Option NetInfo) := do
  let (status, netmon) ← checkStatus s.netmon
  match status with
  | .online | .changedToPrev => findInactive { s with netmon }
  | .offline | .hardNat => do
    sleep 5
    pure ({ s with netmon }, none)
  | .changedToNew => do
    match ← changeNetwork traverseNat { s with netmon } with
    | none => pure ({ s with netmon }, none)
    | some s => findInactive s

section Round

variable {fromBase64 : String → Option Key} {ifName : String} {traverseNat : Bool}
  {s s' : MonitorState} {call : Option NetInfo} {u : ClientTrace}

def passToHandler (fromBase64 : String → Option Key) (ifName : String) :
    MonitorState × Option NetInfo → Client MonitorState
  | (s, none) => pure s
  | (s, some netinfo) => do
    let (peersManager, inactivePeers) ← handleInactivePeers fromBase64 ifName s.peersManager
      s.inactivePeers netinfo s.portToAnnounce s.netmon.needsRelay
    sleep 10
    pure { s with peersManager, inactivePeers }

def passedPeers : MonitorState × Option NetInfo → List Key
  | (_, none) => []
  | (s, some _) => s.inactivePeers

theorem announceInactive_eq (s : MonitorState) : announceInactive fromBase64 ifName s =
    findInactive s >>= passToHandler fromBase64 ifName := by
  rw [announceInactive, findInactive, bind_assoc]
  congr 1
  funext s
  split
  · rfl
  · rw [pure_bind]
    cases s.netmon.getCurrent <;> rfl

theorem monitorRound_eq (s : MonitorState) : monitorRound fromBase64 ifName traverseNat s =
    reachAnnouncing traverseNat s >>= passToHandler fromBase64 ifName := by
  rw [monitorRound, reachAnnouncing, bind_assoc]
  congr 1
  funext checked
  obtain ⟨status, netmon⟩ := checked
  cases status with
  | online | changedToPrev => exact announceInactive_eq _
  | offline | hardNat => rfl
  | changedToNew =>
    dsimp only
    rw [bind_assoc]
    congr 1
    funext changed
    cases changed with
    | none => rfl
    | some s => exact announceInactive_eq s

def Apart : ClientEffect → Prop
  | .deviceGet _ | .updatePort _ | .setEndpoint _ _ | .now => False
  | _ => True

theorem Detects.apart {e : ClientEffect} (h : Detects e) : Apart e :=
  h.imp trivial trivial trivial

variable {α : Type} {b : α}

theorem path_ask {e : ClientEffect} {f : e.Answer → Client α}
    (h : Path (ask e >>= f).run u (.done (.ok b))) :
    ∃ r v, u = ⟨e, r⟩ :: v ∧ Path (f r).run v (.done (.ok b)) := by
  cases h with
  | cons h => exact ⟨_, _, rfl, h⟩

theorem path_deviceGet {reader : DeviceReader} {f : Device → Client α}
    (h : Path (deviceGet reader >>= f).run u (.done (.ok b))) :
    ∃ device v, u = ⟨.deviceGet reader, .ok device⟩ :: v ∧ Path (f device).run v (.done (.ok b)) := by
  cases h with
  | @cons _ _ r _ _ h =>
    cases r with
    | error e => cases h
    | ok device => exact ⟨device, _, rfl, h⟩

theorem path_updatePort {newPort : UInt16} {f : Unit → Client α}
    (h : Path (updatePort newPort >>= f).run u (.done (.ok b))) :
    ∃ v, u = ⟨.updatePort newPort, .ok ()⟩ :: v ∧ Path (f ()).run v (.done (.ok b)) := by
  cases h with
  | @cons _ _ r _ _ h =>
    cases r with
    | error e => cases h
    | ok _ => exact ⟨_, rfl, h⟩

theorem path_checkStatus {netmon : NetworkMonitor} {r : NetStatus × NetworkMonitor}
    (h : Path (checkStatus netmon).run u (.done (.ok r))) :
    (∃ newInfo, r = netmon.checkStatus newInfo) ∧ ∀ ev ∈ u, Apart ev.1 := by
  obtain ⟨newInfo, v, w, rfl, hdetect, hrest⟩ := Path.try_done h
  obtain ⟨⟨⟩, w, rfl, hend⟩ := path_ask hrest
  cases hend
  refine ⟨⟨newInfo, rfl⟩, fun ev hev ↦ ?_⟩
  rcases List.mem_append.mp hev with hev | hev
  · exact (detect_only.of_path hdetect ev hev).apart
  · cases List.mem_singleton.mp hev
    trivial

theorem choosePort_only {P : ClientEffect → Prop} (newPort : UInt16)
    (hdetect : P (.detectKind newPort)) (hsleep : P (.sleep 5)) (netmon : NetworkMonitor) :
    (choosePort traverseNat newPort netmon).run.Only P
      (Ends (fun chosen ↦ ∀ port netmon', chosen = some (port, netmon') →
        netmon'.current.isSome = netmon.current.isSome) fun _ ↦ True) := by
  rw [choosePort]
  split
  · refine Only.try (only_ask hdetect) fun r _ ↦ ?_
    cases r with
    | error e =>
      cases e with
      | unresolved => trivial
      | io | encoding => exact Only.try (only_ask hsleep) fun _ _ port netmon' h ↦ by cases h
    | ok kind =>
      intro port netmon' h
      cases h
      cases kind with
      | easy | fixedPortMapping => rfl
      | hard => exact Option.isSome_map
  · intro port netmon' h
    cases h
    rfl

/-- The interface has a new listen port, and its peers have been listed. -/
structure Renewed (s s' : MonitorState) (u : ClientTrace) (device : Device) : Prop where
  trace : ∃ w newPort, (∀ ev ∈ w, Apart ev.1) ∧
    u = w ++ [⟨.updatePort newPort, .ok ()⟩, ⟨.deviceGet .getAllPeers, .ok device⟩]
  inactivePeers : s'.inactivePeers = device.peers.map PeerInfo.publicKey
  next : s'.nextInactivityCheck = s.nextInactivityCheck + peerIsInactiveDuration
  peersManager : s'.peersManager = s.peersManager
  current : s'.netmon.current.isSome = s.netmon.current.isSome

theorem path_changeNetwork {changed : Option MonitorState}
    (h : Path (changeNetwork traverseNat s).run u (.done (.ok changed))) :
    (changed = none ∧ ∀ ev ∈ u, Apart ev.1) ∨
      ∃ s' device, changed = some s' ∧ Renewed s s' u device := by
  obtain ⟨newPort, v, rfl, hdrawn⟩ := path_ask h
  obtain ⟨chosen, u₁, v, rfl, hchosen, hrest⟩ := Path.try_done hdrawn
  have hport : (choosePort traverseNat newPort.val s.netmon).run.Only Apart _ :=
    choosePort_only newPort.val trivial trivial s.netmon
  have hcalls := hport.of_path hchosen
  have hcurrent := hport.result hchosen
  have hquiet : ∀ ev ∈ ⟨.getRandomPort, newPort⟩ :: u₁, Apart ev.1 := by
    intro ev hev
    rcases List.mem_cons.mp hev with rfl | hev
    · trivial
    · exact hcalls ev hev
  rcases chosen with _ | ⟨port, netmon⟩
  · cases hrest
    refine .inl ⟨rfl, fun ev hev ↦ hquiet ev ?_⟩
    rwa [List.append_nil] at hev
  · obtain ⟨⟨⟩, v, rfl, hslept⟩ := path_ask hrest
    obtain ⟨v, rfl, hset⟩ := path_updatePort hslept
    obtain ⟨inactivePeers, u₂, v, rfl, hlisted, hend⟩ := Path.try_done hset
    obtain ⟨device, v, rfl, hdevice⟩ := path_deviceGet hlisted
    cases hdevice
    cases hend
    refine .inr ⟨_, device, rfl, ⟨⟨.getRandomPort, newPort⟩ :: u₁ ++ [⟨.sleep 3, ()⟩],
      newPort.val, fun ev hev ↦ ?_, by simp⟩, rfl, rfl, rfl, hcurrent _ _ rfl⟩
    rcases List.mem_append.mp hev with hev | hev
    · exact hquiet ev hev
    · cases List.mem_singleton.mp hev
      trivial

inductive Polled (s : MonitorState) : MonitorState → ClientTrace → Prop
  | notYet {now : Instant} (h : now ≤ s.nextInactivityCheck) : Polled s s [⟨.now, now⟩]
  | due {now : Instant} (h : s.nextInactivityCheck < now) (device : Device) :
      Polled s
        { s with
          inactivePeers := (s.peersManager.listInactive device.peers).1
          peersManager := (s.peersManager.listInactive device.peers).2
          nextInactivityCheck := s.nextInactivityCheck + peerIsInactiveDuration }
        [⟨.now, now⟩, ⟨.deviceGet .getInactivePeersByRx, .ok device⟩]

theorem path_pollInactive (h : Path (pollInactive s).run u (.done (.ok s'))) : Polled s s' u := by
  obtain ⟨now, v, rfl, hnow⟩ := path_ask h
  by_cases hdue : s.nextInactivityCheck < now
  · rw [if_pos hdue] at hnow
    obtain ⟨polled, u₁, v, rfl, hpoll, hend⟩ := Path.try_done hnow
    obtain ⟨device, w, rfl, hdevice⟩ := path_deviceGet hpoll
    cases hdevice
    cases hend
    exact .due hdue device
  · rw [if_neg hdue] at hnow
    cases hnow
    exact .notYet (Nat.not_lt.mp hdue)

theorem path_findInactive (h : Path (findInactive s).run u (.done (.ok (s', call)))) :
    ∃ v w, u = v ++ w ∧ Polled s s' v ∧ (∀ ev ∈ w, Apart ev.1) ∧
      (s'.inactivePeers = [] ∧ call = none ∨ call = s'.netmon.getCurrent) := by
  obtain ⟨s₁, v, w, rfl, hpoll, hrest⟩ := Path.try_done h
  by_cases hempty : s₁.inactivePeers.isEmpty = true
  · rw [if_pos hempty] at hrest
    obtain ⟨⟨⟩, w, rfl, hslept⟩ := path_ask hrest
    cases hslept
    refine ⟨v, _, rfl, path_pollInactive hpoll, fun ev hev ↦ ?_,
      .inl ⟨List.isEmpty_iff.mp hempty, rfl⟩⟩
    cases List.mem_singleton.mp hev
    trivial
  · rw [if_neg hempty] at hrest
    cases hrest
    exact ⟨v, [], rfl, path_pollInactive hpoll, fun ev hev ↦ (by cases hev), .inr rfl⟩

theorem pollInactive_calls {P : ClientEffect → Prop} (hnow : P .now)
    (hlist : P (.deviceGet .getInactivePeersByRx)) (s : MonitorState) :
    (pollInactive s).run.Only P (Ends (fun s' ↦ s'.netmon = s.netmon) fun _ ↦ True) := by
  refine (only_ask hnow).try fun now _ ↦ ?_
  split
  · have hpoll : Calls P (getInactivePeersByRx s.peersManager) :=
      Only.try (only_orFail (only_ask hlist) fun _ ↦ trivial) fun _ _ ↦ trivial
    exact hpoll.try fun _ _ ↦ rfl
  · rfl

/-- How a round comes to `handle_inactive_peers`, or to its end. -/
inductive Reaches (s : MonitorState) : MonitorState × Option NetInfo → ClientTrace → Prop
  | ended {netmon : NetworkMonitor} {u : ClientTrace} (hu : ∀ ev ∈ u, Apart ev.1) :
      Reaches s ({ s with netmon }, none) u
  | unchanged {netmon : NetworkMonitor} {u v : ClientTrace} {r : MonitorState × Option NetInfo}
      (hu : ∀ ev ∈ u, Apart ev.1)
      (h : Path (findInactive { s with netmon }).run v (.done (.ok r))) : Reaches s r (u ++ v)
  | renewed {netmon : NetworkMonitor} {s₁ : MonitorState} {device : Device}
      {u v w : ClientTrace} {r : MonitorState × Option NetInfo} (hu : ∀ ev ∈ u, Apart ev.1)
      (hcurrent : netmon.current.isSome = true) (hnew : Renewed { s with netmon } s₁ v device)
      (h : Path (findInactive s₁).run w (.done (.ok r))) : Reaches s r (u ++ (v ++ w))

theorem current_checkStatus (netmon : NetworkMonitor) (newInfo : NetInfo) :
    (netmon.checkStatus newInfo).2.current.isSome = true := by
  unfold NetworkMonitor.checkStatus
  cases hcurrent : netmon.current with
  | none => rfl
  | some current =>
    dsimp only
    split_ifs <;> first | rfl | simp [hcurrent]

theorem path_reachAnnouncing {r : MonitorState × Option NetInfo}
    (h : Path (reachAnnouncing traverseNat s).run u (.done (.ok r))) : Reaches s r u := by
  obtain ⟨checked, v, w, rfl, hcheck, hrest⟩ := Path.try_done h
  obtain ⟨⟨newInfo, heq⟩, hv⟩ := path_checkStatus hcheck
  have hcurrent := current_checkStatus s.netmon newInfo
  rw [← heq] at hcurrent
  obtain ⟨status, netmon⟩ := checked
  cases status with
  | online | changedToPrev => exact .unchanged hv hrest
  | offline | hardNat =>
    obtain ⟨⟨⟩, w, rfl, hslept⟩ := path_ask hrest
    cases hslept
    refine .ended fun ev hev ↦ ?_
    rcases List.mem_append.mp hev with hev | hev
    · exact hv ev hev
    · cases List.mem_singleton.mp hev
      trivial
  | changedToNew =>
    obtain ⟨changed, w, x, rfl, hchange, hend⟩ := Path.try_done hrest
    rcases path_changeNetwork hchange with ⟨rfl, hw⟩ | ⟨s₁, device, rfl, hnew⟩
    · cases hend
      rw [List.append_nil]
      refine .ended fun ev hev ↦ ?_
      rcases List.mem_append.mp hev with hev | hev
      · exact hv ev hev
      · exact hw ev hev
    · exact .renewed hv hcurrent hnew hend

def BeforeHandling : ClientEffect → Prop
  | .setEndpoint _ _ | .sendAnnouncement _ => False
  | _ => True

theorem calls_findInactive (s : MonitorState) : Calls BeforeHandling (findInactive s) := by
  have hpoll := calls_of_only (pollInactive_calls (P := BeforeHandling) trivial trivial s)
    fun _ he ↦ he
  refine hpoll.try fun s' _ ↦ ?_
  split
  · exact (only_ask trivial).try fun _ _ ↦ trivial
  · trivial

theorem calls_changeNetwork (s : MonitorState) :
    Calls BeforeHandling (changeNetwork traverseNat s) := by
  refine (only_ask trivial).try fun newPort _ ↦ ?_
  have hport : Calls BeforeHandling (choosePort traverseNat newPort.val s.netmon) :=
    calls_of_only (choosePort_only newPort.val trivial trivial s.netmon) fun _ he ↦ he
  have hpeers : Calls BeforeHandling getAllPeers :=
    Only.try (only_orFail (only_ask trivial) fun _ ↦ trivial) fun _ _ ↦ trivial
  refine hport.try fun chosen _ ↦ ?_
  cases chosen with
  | none => trivial
  | some chosen =>
    refine (only_ask trivial).try fun _ _ ↦ ?_
    refine (only_orFail (only_ask trivial) fun _ ↦ trivial).try fun _ _ ↦ ?_
    exact hpeers.try fun _ _ ↦ trivial

theorem calls_reachAnnouncing (s : MonitorState) :
    Calls BeforeHandling (reachAnnouncing traverseNat s) := by
  have hcheck : Calls BeforeHandling (checkStatus s.netmon) := by
    refine (calls_of_only detect_only fun e he ↦ he.imp trivial trivial trivial).try
      fun newInfo _ ↦ ?_
    exact (only_ask trivial).try fun _ _ ↦ trivial
  refine hcheck.try fun checked _ ↦ ?_
  obtain ⟨status, netmon⟩ := checked
  cases status with
  | online | changedToPrev => exact calls_findInactive _
  | offline | hardNat => exact (only_ask trivial).try fun _ _ ↦ trivial
  | changedToNew =>
    refine (calls_changeNetwork _).try fun changed _ ↦ ?_
    cases changed with
    | none => trivial
    | some s => exact calls_findInactive s

end Round

end Wireplug
