import Wireplug.WgInterface

namespace Wireplug

open Foundation Program ByteStream Client

def detectWan : Client (Option Ipv4Addr × Option Ipv6Addr) := do
  let both ← ask .getBoth
  if both.1.isNone && both.2.isNone then ask .getIp64OverHttps else pure both

def detectLan : Client (List IpNet) := do
  match ← ask .getLanAddrs with
  | .ok lanAddrs => pure lanAddrs
  | .error _ => pure []

/-- `NetInfo::detect`. -/
def detect : Client NetInfo := do
  let (wanIpv4, wanIpv6) ← detectWan
  let lanAddrs ← detectLan
  pure ⟨wanIpv4, wanIpv6, lanAddrs, false⟩

def checkStatus (netmon : NetworkMonitor) : Client (NetStatus × NetworkMonitor) := do
  let newInfo ← detect
  let checked := netmon.checkStatus newInfo
  ask (.checked checked.1)
  pure checked

def Detects : ClientEffect → Prop
  | .getBoth | .getIp64OverHttps | .getLanAddrs => True
  | _ => False

theorem Detects.imp {P : ClientEffect → Prop} {e : ClientEffect} (h : Detects e)
    (hboth : P .getBoth) (hhttps : P .getIp64OverHttps) (hlan : P .getLanAddrs) : P e := by
  cases e with
  | getBoth => exact hboth
  | getIp64OverHttps => exact hhttps
  | getLanAddrs => exact hlan
  | _ => exact h.elim

theorem detect_only : detect.run.Only Detects (Ends (fun _ ↦ True) fun _ ↦ False) := by
  have hwan : detectWan.run.Only Detects (Ends (fun _ ↦ True) fun _ ↦ False) := by
    refine (only_ask trivial).try fun both _ ↦ ?_
    split
    · exact only_ask trivial
    · trivial
  have hlan : detectLan.run.Only Detects (Ends (fun _ ↦ True) fun _ ↦ False) :=
    (only_ask trivial).try fun r _ ↦ by cases r <;> trivial
  exact hwan.try fun _ _ ↦ hlan.try fun _ _ ↦ trivial

section Rules

variable {assumes : ClientTrace → (e : ClientEffect) → e.Answer → Prop}
  {requires : ClientTrace → ClientEffect → Prop}

theorem checkStatus_ensures (netmon : NetworkMonitor) {t : ClientTrace}
    {post : Except ClientError (NetStatus × NetworkMonitor) → ClientTrace → Prop}
    (hdetect : ∀ u e, Detects e → requires u e)
    (hchecked : ∀ u status, requires u (.checked status))
    (hpost : ∀ u newInfo, Path detect.run u (.done (.ok newInfo)) →
      post (.ok (netmon.checkStatus newInfo))
        (t ++ u ++ [⟨.checked (netmon.checkStatus newInfo).1, ()⟩])) :
    (checkStatus netmon).run.Ensures assumes requires post t := by
  refine (ensures_try _ _ _).mpr (ensures_of_path (fun u e k hpath ↦ ?_) fun u r hpath ↦ ?_)
  · exact hdetect _ e (detect_only.at_path hpath).1
  · cases r with
    | error e => exact (detect_only.result hpath).elim
    | ok newInfo => exact ⟨hchecked _ _, fun _ _ ↦ hpost u newInfo hpath⟩

end Rules

def AnnounceError.toClientError : AnnounceError → ClientError
  | .io e => .io e
  | .encoding => .other "encoding error"
  | .tooLong => .panic
  | .outdated => .exit

/-- The end of `announce`. -/
def takeResponse : Except AnnounceError WireplugResponse → Client WireplugResponse
  | .error e => throw e.toClientError
  | .ok response => if response.valid then pure response else throw (.other "invalid response")

theorem calls_takeResponse {P : ClientEffect → Prop} (r : Except AnnounceError WireplugResponse) :
    Calls P (takeResponse r) := by
  cases r with
  | error e => trivial
  | ok response =>
    rw [takeResponse]
    split <;> trivial

theorem attempt_takeResponse (response : WireplugResponse) :
    attempt (takeResponse (.ok response)) = pure (if response.valid then .ok response
      else .error (.other "invalid response")) := by
  rw [takeResponse]
  split <;> rfl

theorem takeResponse_ensures {assumes : ClientTrace → (e : ClientEffect) → e.Answer → Prop}
    {requires : ClientTrace → ClientEffect → Prop} {t : ClientTrace}
    {post : Except ClientError WireplugResponse → ClientTrace → Prop}
    (r : Except AnnounceError WireplugResponse)
    (hok : ∀ response, r = .ok response → post (.ok response) t)
    (herror : ∀ e, post (.error e) t) :
    (takeResponse r).run.Ensures assumes requires post t := by
  cases r with
  | error e => exact herror _
  | ok response =>
    rw [takeResponse]
    split
    · exact hok response rfl
    · exact herror _

section Announcing

variable (fromBase64 : String → Option Key) (ifName : String)

/-- Connecting includes the TLS handshake. -/
def announce (peers : List Key) (announcementPort : UInt16) (netinfo : NetInfo)
    (needsRelay : Bool) : Client WireplugResponse := do
  let device ← deviceGet .announce
  match device.publicKey with
  | none => throw (.other s!"{ifName} is not configured")
  | some initiatorPubkey => do
    orFail (ask .connect)
    let r ← ask (.sendAnnouncement
      (announcement initiatorPubkey peers announcementPort netinfo needsRelay))
    takeResponse r

def maxAnnounceRetries : ℕ := 3

/-- `handle_inactive_peers` with the rounds that are left. -/
def announceRounds (netinfo : NetInfo) (portToAnnounce : UInt16) (needsRelay : Bool)
    (peerTracker : PeerTracker) (peers : List Key) : ℕ → Client (PeerTracker × List Key)
  | 0 => pure (peerTracker, peers)
  | n + 1 => do
    match ← attempt (announce ifName peers portToAnnounce netinfo needsRelay) with
    | .ok response => do
      let (peerTracker, peersUpdated) ←
        updatePeers fromBase64 peerTracker response.peerEndpoints netinfo.wanIpv6.isSome
      if peersUpdated.isEmpty then pure (peerTracker, peers)
      else do
        sleep 5
        pure (peerTracker, peers.filter fun p ↦ p ∉ peersUpdated)
    | .error _ => do
      sleep 5
      announceRounds netinfo portToAnnounce needsRelay peerTracker peers n

def handleInactivePeers (peerTracker : PeerTracker) (peers : List Key) (netinfo : NetInfo)
    (portToAnnounce : UInt16) (needsRelay : Bool) : Client (PeerTracker × List Key) :=
  announceRounds fromBase64 ifName netinfo portToAnnounce needsRelay peerTracker peers
    maxAnnounceRetries

def HandlesInactive (port : UInt16) : ClientEffect → Prop
  | .deviceGet reader => reader = .announce
  | .sendAnnouncement a => a.wgPort = port
  | .connect | .sleep _ => True
  | .getLanAddrs | .resolveRelay _ | .setEndpoint _ _ => True
  | _ => False

theorem UpdatesFrom.handlesInactive {entries : List (String × WireplugEndpoint)}
    {e : ClientEffect} (h : UpdatesFrom fromBase64 entries e) (port : UInt16) :
    HandlesInactive port e := by
  cases e with
  | getLanAddrs => trivial
  | resolveRelay relayPort => trivial
  | setEndpoint peer sa => trivial
  | _ => exact h.elim

theorem calls_announce (port : UInt16) (peers : List Key) (netinfo : NetInfo)
    (needsRelay : Bool) :
    Calls (HandlesInactive port) (announce ifName peers port netinfo needsRelay) := by
  have hdevice : Calls (HandlesInactive port) (deviceGet .announce) :=
    only_orFail (only_ask rfl) fun _ ↦ trivial
  refine hdevice.try fun device _ ↦ ?_
  split
  · trivial
  · next initiatorPubkey _ =>
    have hsend : HandlesInactive port (.sendAnnouncement
        (announcement initiatorPubkey peers port netinfo needsRelay)) := rfl
    refine (only_orFail (only_ask trivial) fun _ ↦ trivial).try fun _ _ ↦ ?_
    exact (only_ask hsend).try fun r _ ↦ calls_takeResponse r

theorem announceRounds_only (netinfo : NetInfo) (port : UInt16) (needsRelay : Bool)
    (peerTracker : PeerTracker) (peers : List Key) (n : ℕ) :
    (announceRounds fromBase64 ifName netinfo port needsRelay peerTracker peers n).run.Only
      (HandlesInactive port) (Ends (fun r ↦ r.1.SameRx peerTracker) fun _ ↦ True) := by
  induction n with
  | zero => exact fun k ↦ rfl
  | succ n ih =>
    refine (calls_attempt (calls_announce ifName port peers netinfo needsRelay)).try fun r _ ↦ ?_
    cases r with
    | error e => exact Only.try (only_ask trivial) fun _ _ ↦ ih
    | ok response =>
      have hupdates := updatePeers_only fromBase64 peerTracker response.peerEndpoints
        netinfo.wanIpv6.isSome
      refine Only.try (hupdates.mono (fun e he ↦ he.handlesInactive fromBase64 port)
        (Ends.mono (fun _ h ↦ h) fun _ _ ↦ trivial)) fun updated hsame ↦ ?_
      dsimp only
      split
      · exact hsame
      · exact Only.try (only_ask trivial) fun _ _ ↦ hsame

end Announcing

def peerIsInactiveDuration : Instant := seconds 25

/-- The variables of `monitor_interface` that outlive a round. -/
structure MonitorState where
  netmon : NetworkMonitor
  peersManager : PeerTracker
  nextInactivityCheck : Instant
  inactivePeers : List Key
  portToAnnounce : UInt16

def monitorStart : Client MonitorState := do
  let peersManager ← initPeersActivity .new
  let now ← ask .now
  pure ⟨.new, peersManager, now + peerIsInactiveDuration, [], 0⟩

/-- The port that others see, given what NAT detection has found. -/
def NatKind.announcedPort (newPort : UInt16) : NatKind → UInt16
  | .easy => newPort
  | .fixedPortMapping portMappingNat => portMappingNat.observedPort
  | .hard => newPort

def NatKind.markMonitor (netmon : NetworkMonitor) : NatKind → NetworkMonitor
  | .easy => netmon
  | .fixedPortMapping _ => netmon
  | .hard => netmon.setHardNat true

section Monitor

variable (fromBase64 : String → Option Key) (ifName : String) (traverseNat : Bool)

/-- The port to announce for a new listen port; `none` is the `continue` after a
failed detection. A STUN server's name without an address ends the daemon. -/
def choosePort (newPort : UInt16) (netmon : NetworkMonitor) :
    Client (Option (UInt16 × NetworkMonitor)) :=
  if traverseNat then do
    match ← ask (.detectKind newPort) with
    | .ok natKind => pure (some (natKind.announcedPort newPort, natKind.markMonitor netmon))
    | .error .unresolved => throw .panic
    | .error (.io _) | .error .encoding => do
      sleep 5
      pure none
  else pure (some (newPort, netmon))

/-- The branch of `ChangedToNew`. -/
def changeNetwork (s : MonitorState) : Client (Option MonitorState) := do
  let newPort ← ask .getRandomPort
  match ← choosePort traverseNat newPort.val s.netmon with
  | none => pure none
  | some (portToAnnounce, netmon) => do
    sleep 3
    updatePort newPort.val
    let inactivePeers ← getAllPeers
    pure (some { s with
      netmon, inactivePeers, portToAnnounce
      nextInactivityCheck := s.nextInactivityCheck + peerIsInactiveDuration })

def pollInactive (s : MonitorState) : Client MonitorState := do
  let now ← ask .now
  if s.nextInactivityCheck < now then do
    let (inactivePeers, peersManager) ← getInactivePeersByRx s.peersManager
    pure { s with
      inactivePeers, peersManager
      nextInactivityCheck := s.nextInactivityCheck + peerIsInactiveDuration }
  else pure s

/-- A round from the end of the status branches on. -/
def announceInactive (s : MonitorState) : Client MonitorState := do
  let s ← pollInactive s
  if s.inactivePeers.isEmpty then do
    sleep 10
    pure s
  else
    match s.netmon.getCurrent with
    | none => pure s
    | some netinfo => do
      let (peersManager, inactivePeers) ← handleInactivePeers fromBase64 ifName s.peersManager
        s.inactivePeers netinfo s.portToAnnounce s.netmon.needsRelay
      sleep 10
      pure { s with peersManager, inactivePeers }

/-- One round of the loop of `monitor_interface`. Showing the statistics comes
first in the source; it has no effect on the rest. -/
def monitorRound (s : MonitorState) : Client MonitorState := do
  let (status, netmon) ← checkStatus s.netmon
  match status with
  | .online | .changedToPrev => announceInactive fromBase64 ifName { s with netmon }
  | .offline | .hardNat => do
    sleep 5
    pure { s with netmon }
  | .changedToNew => do
    match ← changeNetwork traverseNat { s with netmon } with
    | none => pure { s with netmon }
    | some s => announceInactive fromBase64 ifName s

abbrev MonitorRun (assumes : ClientTrace → (e : ClientEffect) → e.Answer → Prop) :
    ClientTrace → Program ClientEffect.Answer (Except ClientError MonitorState) → Prop :=
  LoopRun assumes monitorStart.run fun s ↦ (monitorRound fromBase64 ifName traverseNat s).run

variable {assumes : ClientTrace → (e : ClientEffect) → e.Answer → Prop}
  {requires : ClientTrace → ClientEffect → Prop}

/-- The rule for a round: `I` holds between two rounds, `P` where a round pauses, `C` where a
new network has just been found, and `A` where the inactive peers are announced next. -/
theorem monitorRound_rule (I P A C : MonitorState → ClientTrace → Prop) {F : ClientError → Prop}
    (hdetect : ∀ u e, Detects e → requires u e)
    (hchecked : ∀ u status, requires u (.checked status))
    (hidle : ∀ s t u newInfo, I s t → Path detect.run u (.done (.ok newInfo)) →
      (s.netmon.checkStatus newInfo).1 ≠ .changedToNew →
      P { s with netmon := (s.netmon.checkStatus newInfo).2 }
        (t ++ u ++ [⟨.checked (s.netmon.checkStatus newInfo).1, ()⟩]))
    (hquiet : ∀ s t u newInfo, I s t → Path detect.run u (.done (.ok newInfo)) →
      (s.netmon.checkStatus newInfo).1 ≠ .changedToNew →
      (s.netmon.checkStatus newInfo).1 ≠ .offline →
      A { s with netmon := (s.netmon.checkStatus newInfo).2 }
        (t ++ u ++ [⟨.checked (s.netmon.checkStatus newInfo).1, ()⟩]))
    (hnew : ∀ s t u newInfo, I s t → Path detect.run u (.done (.ok newInfo)) →
      (s.netmon.checkStatus newInfo).1 = .changedToNew →
      C { s with netmon := (s.netmon.checkStatus newInfo).2 }
        (t ++ u ++ [⟨.checked .changedToNew, ()⟩]))
    (hpause : ∀ s t, P s t → (do sleep 5; pure s : Client MonitorState).run.Ensures assumes
      requires (fun r u ↦ Ends (fun s' ↦ I s' u) F r) t)
    (hchange : ∀ s t, C s t → (changeNetwork traverseNat s).run.Ensures assumes requires
      (fun r u ↦ Ends (fun changed ↦ (changed = none → I s u) ∧
        ∀ s', changed = some s' → A s' u) F r) t)
    (hactive : ∀ s t, A s t → (announceInactive fromBase64 ifName s).run.Ensures assumes requires
      (fun r u ↦ Ends (fun s' ↦ I s' u) F r) t)
    {s : MonitorState} {t : ClientTrace} (h : I s t) :
    (monitorRound fromBase64 ifName traverseNat s).run.Ensures assumes requires
      (fun r u ↦ Ends (fun s' ↦ I s' u) F r) t := by
  refine (ensures_try _ _ _).mpr
    (checkStatus_ensures s.netmon hdetect hchecked fun u newInfo hu ↦ ?_)
  have hidle' := hidle s t u newInfo h hu
  have hquiet' := hquiet s t u newInfo h hu
  have hnew' := hnew s t u newInfo h hu
  generalize s.netmon.checkStatus newInfo = c at hidle' hquiet' hnew' ⊢
  obtain ⟨status, netmon⟩ := c
  cases status with
  | online => exact hactive _ _ (hquiet' NetStatus.noConfusion NetStatus.noConfusion)
  | changedToPrev => exact hactive _ _ (hquiet' NetStatus.noConfusion NetStatus.noConfusion)
  | offline => exact hpause _ _ (hidle' NetStatus.noConfusion)
  | hardNat => exact hpause _ _ (hidle' NetStatus.noConfusion)
  | changedToNew =>
    refine (ensures_try _ _ _).mpr ((hchange _ _ (hnew' rfl)).mono fun r v hr ↦ ?_)
    rcases r with e | _ | s'
    · exact hr
    · exact hr.1 rfl
    · exact hactive s' v (hr.2 s' rfl)

end Monitor

end Wireplug
