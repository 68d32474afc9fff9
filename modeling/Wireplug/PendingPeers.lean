import Wireplug.AnnouncedNetwork
import Wireplug.NetworkChange

namespace Wireplug

open Foundation Program ByteStream Client

variable {t u : ClientTrace} {k : Key} {n : UInt64} {peerTracker peerTracker' : PeerTracker}
  {peers : List Key}

instance : Decidable (HasShown t k n) :=
  inferInstanceAs (Decidable (∃ q ∈ shownPeers t, q.publicKey = k ∧ n ≤ q.rxBytes))

/-- The peers that have no handshake, or whose counter is not above what they have shown. -/
def idlePeers (t : ClientTrace) (peers : List PeerInfo) : List Key :=
  (peers.filter fun p ↦ p.lastHandshakeTime = none ∨ HasShown t p.publicKey p.rxBytes).map
    PeerInfo.publicKey

def pendingIn (t : ClientTrace) (peers : List Key) : Event ClientEffect.Answer → List Key
  | ⟨.deviceGet .getAllPeers, .ok device⟩ => device.peers.map PeerInfo.publicKey
  | ⟨.deviceGet .getInactivePeersByRx, .ok device⟩ => idlePeers t device.peers
  | ⟨.setEndpoint k _, .ok _⟩ => peers.filter fun p ↦ p ≠ k
  | _ => peers

def pendingSince (t : ClientTrace) (peers : List Key) : ClientTrace → List Key
  | [] => peers
  | ev :: u => pendingSince (t ++ [ev]) (pendingIn t peers ev) u

/-- The peers that the last look for inactive ones has found, without those that have been given
an endpoint since. After a network change it finds them all. -/
def pendingPeers (t : ClientTrace) : List Key := pendingSince [] [] t

theorem pendingSince_snoc (t : ClientTrace) (peers : List Key) (u : ClientTrace)
    (ev : Event ClientEffect.Answer) :
    pendingSince t peers (u ++ [ev]) = pendingIn (t ++ u) (pendingSince t peers u) ev := by
  induction u generalizing t peers with
  | nil =>
    rw [List.append_nil]
    rfl
  | cons ev' u ih =>
    rw [List.append_cons t]
    exact ih (t ++ [ev']) (pendingIn t peers ev')

theorem pendingPeers_snoc (t : ClientTrace) (ev : Event ClientEffect.Answer) :
    pendingPeers (t ++ [ev]) = pendingIn t (pendingPeers t) ev :=
  pendingSince_snoc [] [] t ev

def KeepsPending : ClientEffect → Prop
  | .deviceGet reader => reader = .announce
  | .setEndpoint _ _ => False
  | _ => True

theorem KeepsPending.aside {e : ClientEffect} (h : KeepsPending e) : Aside e := by
  cases e with
  | deviceGet reader => exact h
  | _ => trivial

theorem pendingIn_of_keeps {ev : Event ClientEffect.Answer} (h : KeepsPending ev.1) :
    pendingIn t peers ev = peers := by
  obtain ⟨e, r⟩ := ev
  cases e with
  | deviceGet reader =>
    obtain rfl : reader = .announce := h
    rfl
  | setEndpoint => exact h.elim
  | _ => rfl

theorem pendingPeers_append (hu : ∀ ev ∈ u, KeepsPending ev.1) :
    pendingPeers (t ++ u) = pendingPeers t := by
  induction u using List.reverseRecOn with
  | nil => rw [List.append_nil]
  | append_singleton u ev ih =>
    rw [← List.append_assoc, pendingPeers_snoc, pendingIn_of_keeps (hu ev (by simp))]
    exact ih fun ev' hev' ↦ hu ev' (List.mem_append_left _ hev')

structure Tallies (peerTracker : PeerTracker) (peers : List Key) (t : ClientTrace) : Prop where
  peers_eq : peers = pendingPeers t
  reached_iff : ∀ k n, peerTracker.Reached k n ↔ HasShown t k n

theorem Tallies.append (h : Tallies peerTracker peers t) (hu : ∀ ev ∈ u, KeepsPending ev.1) :
    Tallies peerTracker peers (t ++ u) where
  peers_eq := h.peers_eq.trans (pendingPeers_append hu).symm
  reached_iff k n := by
    rw [hasShown_append_of_aside fun ev hev ↦ (hu ev hev).aside, h.reached_iff]

theorem Tallies.snoc (h : Tallies peerTracker peers t) (ev : Event ClientEffect.Answer)
    (hev : KeepsPending ev.1) : Tallies peerTracker peers (t ++ [ev]) :=
  h.append fun ev' hev' ↦ by rwa [List.mem_singleton.mp hev']

theorem Tallies.set (h : Tallies peerTracker peers t) (k : Key) (sa : SocketAddr) :
    Tallies (peerTracker.setEndpoint k sa) (peers.filter fun p ↦ p ≠ k)
      (t ++ [⟨.setEndpoint k sa, .ok ()⟩]) where
  peers_eq := by
    rw [pendingPeers_snoc, h.peers_eq]
    rfl
  reached_iff k' n := by
    have haside (ev : Event ClientEffect.Answer)
        (hev : ev ∈ [(⟨.setEndpoint k sa, .ok ()⟩ : Event ClientEffect.Answer)]) : Aside ev.1 := by
      rw [List.mem_singleton.mp hev]
      trivial
    rw [hasShown_append_of_aside haside, ← h.reached_iff,
      PeerTracker.reached_of_sameRx (PeerTracker.sameRx_setEndpoint peerTracker k sa)]

theorem Tallies.listed (h : Tallies peerTracker peers t) (device : Device) :
    Tallies peerTracker (device.peers.map PeerInfo.publicKey)
      (t ++ [⟨.deviceGet .getAllPeers, .ok device⟩]) where
  peers_eq := by
    rw [pendingPeers_snoc]
    rfl
  reached_iff k n := by
    have hnone : shownPeers [⟨.deviceGet .getAllPeers, .ok device⟩] = [] := rfl
    rw [h.reached_iff, hasShown_append, hasShown_iff hnone]
    exact (or_iff_left fun hq ↦ by obtain ⟨q, hq, -⟩ := hq; cases hq).symm

theorem PeerTracker.listInactive_eq_filter {ps : List PeerInfo}
    (hps : (ps.map PeerInfo.publicKey).Nodup) {idle : PeerInfo → Bool}
    (hidle : ∀ p ∈ ps, idle p = true ↔ peerTracker.Inactive p) :
    (peerTracker.listInactive ps).1 = (ps.filter idle).map PeerInfo.publicKey := by
  induction ps generalizing peerTracker with
  | nil => rfl
  | cons p ps ih =>
    obtain ⟨hnew, hps⟩ := List.nodup_cons.mp hps
    have hhead := hidle p List.mem_cons_self
    rw [List.filter_cons]
    by_cases h : peerTracker.Inactive p
    · rw [listInactive_of_inactive h, if_pos (hhead.mpr h), List.map_cons,
        ih hps fun q hq ↦ hidle q (List.mem_cons_of_mem _ hq)]
    · rw [listInactive_of_active h, if_neg (fun hp ↦ h (hhead.mp hp))]
      refine ih hps fun q hq ↦ (hidle q (List.mem_cons_of_mem _ hq)).trans (or_congr_right ?_)
      refine (reached_update.trans (or_iff_left fun hkey ↦ hnew ?_)).symm
      rw [hkey.1]
      exact List.mem_map_of_mem hq

theorem Tallies.polled (h : Tallies peerTracker peers t) {device : Device}
    (hdevice : (device.peers.map PeerInfo.publicKey).Nodup) :
    Tallies (peerTracker.listInactive device.peers).2 (peerTracker.listInactive device.peers).1
      (t ++ [⟨.deviceGet .getInactivePeersByRx, .ok device⟩]) where
  peers_eq := by
    rw [pendingPeers_snoc]
    refine PeerTracker.listInactive_eq_filter hdevice fun p _ ↦ ?_
    rw [decide_eq_true_iff, PeerTracker.Inactive, h.reached_iff]
  reached_iff k n := by
    have hshown : shownPeers [⟨.deviceGet .getInactivePeersByRx, .ok device⟩] =
      device.peers.filter fun p ↦ p.lastHandshakeTime.isSome := List.append_nil _
    rw [PeerTracker.listInactive_snd, PeerTracker.reached_updateAll, h.reached_iff,
      hasShown_append, hasShown_iff hshown]

section Rounds

variable {fromBase64 : String → Option Key} {ifName : String} {traverseNat : Bool}
  {s : MonitorState}

/-- An announcement names the peers that are pending then, and there are some. -/
def AnnouncesPending (t : ClientTrace) (e : ClientEffect) : Prop :=
  ∀ a, e = .sendAnnouncement a →
    a.peerPubkeys = (pendingPeers t).map Key.toBase64 ∧ pendingPeers t ≠ []

def Mute : ClientEffect → Prop
  | .sendAnnouncement _ => False
  | _ => True

theorem BeforeHandling.mute {e : ClientEffect} (h : BeforeHandling e) : Mute e := by
  cases e with
  | sendAnnouncement => exact h.elim
  | _ => trivial

theorem Mute.pending {e : ClientEffect} (h : Mute e) : AnnouncesPending t e := by
  intro a ha
  rw [ha] at h
  exact h.elim

def AnswersDistinct : (e : ClientEffect) → e.Answer → Prop
  | .deviceGet _, .ok device => (device.peers.map PeerInfo.publicKey).Nodup
  | _, _ => True

theorem Tallies.calls {α : Type} {assumes : ClientTrace → (e : ClientEffect) → e.Answer → Prop}
    {x : Client α} (h : Tallies peerTracker peers t)
    (hx : Calls (fun e ↦ KeepsPending e ∧ Mute e) x) :
    x.run.Ensures assumes AnnouncesPending (fun _ u ↦ Tallies peerTracker peers u) t :=
  hx.ensures (fun _ _ _ he ↦ he.2.pending) fun _ hu _ _ ↦ h.append fun ev hev ↦ (hu ev hev).1

theorem UpdatesFrom.keeps_of_none {e : ClientEffect} (h : UpdatesFrom fromBase64 [] e) :
    KeepsPending e ∧ Mute e := by
  cases e with
  | setEndpoint =>
    obtain ⟨entry, hentry, -⟩ := h
    cases hentry
  | getLanAddrs | resolveRelay => exact ⟨trivial, trivial⟩
  | _ => exact h.elim

variable {assumes : ClientTrace → (e : ClientEffect) → e.Answer → Prop}

/-- While a response is gone through, the peers that were given an endpoint are still listed. -/
def TalliesBut (peers : List Key) (acc : PeerTracker × List Key) (t : ClientTrace) : Prop :=
  Tallies acc.1 (peers.filter fun p ↦ p ∉ acc.2) t

theorem talliesBut_nil : TalliesBut peers (peerTracker, []) t ↔ Tallies peerTracker peers t := by
  have hall : (peers.filter fun p ↦ p ∉ []) = peers := List.filter_eq_self.mpr fun p _ ↦ by simp
  rw [TalliesBut, hall]

theorem TalliesBut.set {acc : PeerTracker × List Key} (h : TalliesBut peers acc t) (k : Key)
    (sa : SocketAddr) : TalliesBut peers (acc.1.setEndpoint k sa, acc.2 ++ [k])
      (t ++ [⟨.setEndpoint k sa, .ok ()⟩]) := by
  have hfilter : (peers.filter fun p ↦ p ∉ acc.2 ++ [k]) =
      (peers.filter fun p ↦ p ∉ acc.2).filter fun p ↦ p ≠ k := by
    rw [List.filter_filter]
    refine List.filter_congr fun p _ ↦ ?_
    rw [← Bool.decide_and, decide_eq_decide, List.mem_append, List.mem_singleton, not_or, and_comm]
  rw [TalliesBut, hfilter]
  exact Tallies.set h k sa

theorem updateEntry_tallies (localHasIpv6 : Bool) {acc : PeerTracker × List Key}
    (h : TalliesBut peers acc t) (entry : String × WireplugEndpoint) :
    (updateEntry fromBase64 localHasIpv6 acc entry).run.Ensures assumes AnnouncesPending
      (fun r u ↦ Ends (fun acc' ↦ TalliesBut peers acc' u) (fun _ ↦ True) r) t := by
  rw [updateEntry]
  cases fromBase64 entry.1 with
  | none => exact h
  | some peer =>
    have hendpoint : Calls (fun e ↦ KeepsPending e ∧ Mute e) (endpointToUse localHasIpv6 entry.2) :=
      calls_of_only (endpointToUse_only fromBase64 [] localHasIpv6 entry.2)
        fun _ he ↦ he.keeps_of_none
    refine (ensures_try _ _ _).mpr ((Tallies.calls h hendpoint).mono fun r u hu ↦ ?_)
    rcases r with e | _ | sa
    · trivial
    · exact hu
    · refine (ensures_try _ _ _).mpr ?_
      rw [updatePeer]
      cases acc.1.peers.get? peer with
      | none => trivial
      | some info =>
        dsimp only
        split
        · exact hu
        · refine Ensures.call (Mute.pending trivial) fun r _ ↦ ?_
          cases r with
          | error e => trivial
          | ok _ =>
            exact TalliesBut.set hu peer sa

theorem updatePeers_tallies (h : Tallies peerTracker peers t)
    (m : HashMap String WireplugEndpoint) (localHasIpv6 : Bool) :
    (updatePeers fromBase64 peerTracker m localHasIpv6).run.Ensures assumes AnnouncesPending
      (fun r u ↦ Ends (fun acc ↦ TalliesBut peers acc u) (fun _ ↦ True) r) t :=
  ensures_foldlM _ (fun _ _ hu entry _ ↦ updateEntry_tallies localHasIpv6 hu entry)
    (talliesBut_nil.mpr h)

theorem announce_tallies (h : Tallies peerTracker peers t) (hpeers : peers ≠ []) (port : UInt16)
    (netinfo : NetInfo) (needsRelay : Bool) :
    (attempt (announce ifName peers port netinfo needsRelay)).run.Ensures assumes
      AnnouncesPending (fun _ u ↦ Tallies peerTracker peers u) t := by
  refine Ensures.call (Mute.pending trivial) fun r _ ↦ ?_
  have hdevice := h.snoc ⟨.deviceGet .announce, r⟩ rfl
  rcases r with e | ⟨_ | k, devicePeers⟩
  · exact hdevice
  · exact hdevice
  · refine Ensures.call (Mute.pending trivial) fun r _ ↦ ?_
    have hconnect := hdevice.snoc ⟨.connect, r⟩ trivial
    cases r with
    | error e => exact hconnect
    | ok _ =>
      refine Ensures.call (fun a ha ↦ ?_) fun r _ ↦ ?_
      · cases ha
        rw [← hconnect.peers_eq]
        exact ⟨rfl, hpeers⟩
      · have hsent := hconnect.snoc
          ⟨.sendAnnouncement (announcement k peers port netinfo needsRelay), r⟩ trivial
        exact hsent.calls (calls_attempt (calls_takeResponse r))

theorem announceRounds_tallies (h : Tallies peerTracker peers t) (hpeers : peers ≠ [])
    (netinfo : NetInfo) (port : UInt16) (needsRelay : Bool) (n : ℕ) :
    (announceRounds fromBase64 ifName netinfo port needsRelay peerTracker peers n).run.Ensures
      assumes AnnouncesPending
      (fun r u ↦ Ends (fun r ↦ Tallies r.1 r.2 u) (fun _ ↦ True) r) t := by
  induction n generalizing t with
  | zero => exact h
  | succ n ih =>
    refine (ensures_try _ _ _).mpr
      ((announce_tallies h hpeers port netinfo needsRelay).mono fun r u hu ↦ ?_)
    rcases r with e | e | response
    · trivial
    · exact Ensures.call (Mute.pending trivial) fun r _ ↦ ih (hu.snoc ⟨.sleep 5, r⟩ trivial)
    · refine (ensures_try _ _ _).mpr ((updatePeers_tallies hu response.peerEndpoints
        netinfo.wanIpv6.isSome).mono fun r v hv ↦ ?_)
      rcases r with e | ⟨peerTracker', peersUpdated⟩
      · trivial
      · dsimp only
        split
        · next hnone =>
          rw [List.isEmpty_iff.mp hnone] at hv
          exact talliesBut_nil.mp hv
        · exact Ensures.call (Mute.pending trivial) fun r _ ↦
            Tallies.snoc hv ⟨.sleep 5, r⟩ trivial

def TalliesTrace (s : MonitorState) (t : ClientTrace) : Prop :=
  Tallies s.peersManager s.inactivePeers t

theorem pollInactive_tallies (h : TalliesTrace s t) :
    (pollInactive s).run.Ensures (fun _ ↦ AnswersDistinct) AnnouncesPending
      (fun r u ↦ Ends (fun s' ↦ TalliesTrace s' u) (fun _ ↦ True) r) t := by
  refine ensures_ask (Mute.pending trivial) fun now _ ↦ ?_
  have hnow := Tallies.snoc h ⟨.now, now⟩ trivial
  split
  · refine Ensures.call (Mute.pending trivial) fun r hr ↦ ?_
    cases r with
    | error e => trivial
    | ok device => exact hnow.polled hr
  · exact hnow

theorem announceInactive_tallies (h : TalliesTrace s t) :
    (announceInactive fromBase64 ifName s).run.Ensures (fun _ ↦ AnswersDistinct) AnnouncesPending
      (fun r u ↦ Ends (fun s' ↦ TalliesTrace s' u) (fun _ ↦ True) r) t := by
  refine (ensures_try _ _ _).mpr ((pollInactive_tallies h).mono fun r u hu ↦ ?_)
  have hslept (v : ClientTrace) (s : MonitorState) (hs : TalliesTrace s v) :
      (do sleep 10; pure s : Client MonitorState).run.Ensures (fun _ ↦ AnswersDistinct)
        AnnouncesPending (fun r u ↦ Ends (fun s' ↦ TalliesTrace s' u) (fun _ ↦ True) r) v :=
    Ensures.call (Mute.pending trivial) fun r _ ↦ Tallies.snoc hs ⟨.sleep 10, r⟩ trivial
  cases r with
  | error e => trivial
  | ok s' =>
    dsimp only
    split
    · exact hslept u s' hu
    · next hpeers =>
      split
      · exact hu
      · next netinfo _ =>
        have hpeers' : s'.inactivePeers ≠ [] := fun hnil ↦ hpeers (List.isEmpty_iff.mpr hnil)
        refine (ensures_try _ _ _).mpr ((announceRounds_tallies hu hpeers' netinfo
          s'.portToAnnounce s'.netmon.needsRelay maxAnnounceRetries).mono fun r v hv ↦ ?_)
        rcases r with e | ⟨peersManager, inactivePeers⟩
        · trivial
        · exact hslept v { s' with peersManager, inactivePeers } hv

theorem Apart.keeps {e : ClientEffect} (h : Apart e) : KeepsPending e := by
  cases e with
  | deviceGet | setEndpoint => exact h.elim
  | _ => trivial

theorem Tallies.renewed {s' : MonitorState} {device : Device} (h : TalliesTrace s t)
    (hnew : Renewed s s' u device) : TalliesTrace s' (t ++ u) := by
  obtain ⟨w, newPort, hw, rfl⟩ := hnew.trace
  have hquiet := Tallies.append h fun ev hev ↦ (hw ev hev).keeps
  have hset := hquiet.snoc ⟨.updatePort newPort, .ok ()⟩ trivial
  have hlisted := hset.listed device
  rw [List.append_assoc, List.append_assoc] at hlisted
  rw [TalliesTrace, hnew.peersManager, hnew.inactivePeers]
  exact hlisted

theorem changeNetwork_tallies (h : TalliesTrace s t) :
    (changeNetwork traverseNat s).run.Ensures (fun _ ↦ AnswersDistinct) AnnouncesPending
      (fun r u ↦ Ends (fun changed ↦ (changed = none → TalliesTrace s u) ∧
        ∀ s', changed = some s' → TalliesTrace s' u) (fun _ ↦ True) r) t := by
  have hlists : (changeNetwork traverseNat s).run.Ensures (fun _ ↦ AnswersDistinct)
      (fun _ _ ↦ True) (fun r u ↦ Ends (fun changed ↦ (changed = none → TalliesTrace s u) ∧
        ∀ s', changed = some s' → TalliesTrace s' u) (fun _ ↦ True) r) t := by
    refine ensures_of_path (fun _ _ _ _ ↦ trivial) fun u r hpath ↦ ?_
    cases r with
    | error e => trivial
    | ok changed =>
      rcases path_changeNetwork hpath with ⟨rfl, hu⟩ | ⟨s', device, rfl, hnew⟩
      · exact ⟨fun _ ↦ Tallies.append h fun ev hev ↦ (hu ev hev).keeps, nofun⟩
      · refine ⟨nofun, fun s'' heq ↦ ?_⟩
        cases heq
        exact Tallies.renewed h hnew
  have hmute : (changeNetwork traverseNat s).run.Ensures (fun _ ↦ AnswersDistinct)
      AnnouncesPending (fun _ _ ↦ True) t :=
    (calls_changeNetwork s).ensures (fun _ _ _ he ↦ he.mute.pending) fun _ _ _ _ ↦ trivial
  exact (hlists.and hmute).mono fun _ _ hr ↦ hr.1

theorem Detects.keeps {e : ClientEffect} (h : Detects e) : KeepsPending e :=
  h.imp trivial trivial trivial

theorem Detects.pending {e : ClientEffect} (h : Detects e) : AnnouncesPending t e :=
  Mute.pending (h.imp trivial trivial trivial)

theorem Tallies.checked {newInfo : NetInfo} (h : TalliesTrace s t)
    (hu : Path detect.run u (.done (.ok newInfo))) (netmon : NetworkMonitor) (status : NetStatus) :
    TalliesTrace { s with netmon } (t ++ u ++ [⟨.checked status, ()⟩]) :=
  (Tallies.append h fun ev hev ↦ (detect_only.of_path hu ev hev).keeps).snoc
    ⟨.checked status, ()⟩ trivial

theorem monitorRound_tallies (h : TalliesTrace s t) :
    (monitorRound fromBase64 ifName traverseNat s).run.Ensures (fun _ ↦ AnswersDistinct)
      AnnouncesPending (fun r u ↦ Ends (fun s' ↦ TalliesTrace s' u) (fun _ ↦ True) r) t := by
  refine monitorRound_rule fromBase64 ifName traverseNat TalliesTrace TalliesTrace TalliesTrace
    TalliesTrace ?_ ?_ ?_ ?_ ?_ ?_ ?_ ?_ h
  · exact fun u e he ↦ he.pending
  · exact fun u status ↦ Mute.pending trivial
  · exact fun s t u newInfo hs hu _ ↦ Tallies.checked hs hu _ _
  · exact fun s t u newInfo hs hu _ _ ↦ Tallies.checked hs hu _ _
  · exact fun s t u newInfo hs hu _ ↦ Tallies.checked hs hu _ _
  · exact fun s t hs ↦ Ensures.call (Mute.pending trivial)
      fun r _ ↦ Tallies.snoc hs ⟨.sleep 5, r⟩ trivial
  · exact fun s t hs ↦ changeNetwork_tallies hs
  · exact fun s t hs ↦ announceInactive_tallies hs

theorem monitorStart_tallies : monitorStart.run.Ensures (fun _ ↦ AnswersDistinct) AnnouncesPending
    (fun r u ↦ Ends (fun s' ↦ TalliesTrace s' u) (fun _ ↦ True) r) [] := by
  refine Ensures.call (Mute.pending trivial) fun r _ ↦ ?_
  cases r with
  | error e => trivial
  | ok device =>
    refine Ensures.call (Mute.pending trivial) fun now _ ↦ ?_
    have hpath : Path monitorStart.run
      [⟨.deviceGet .initPeersActivity, .ok device⟩, ⟨.now, now⟩] (.done (.ok _)) :=
        .cons (.cons (.nil _))
    exact ⟨rfl, (inStep_start hpath).reached_iff⟩

/-- The loop's list of inactive peers is the one of its history: every announcement names exactly
the peers that the last look at the interface has found without a handshake or without new traffic
(after a network change, all of them), except for those that have been given an endpoint since;
and none is sent when there are none. -/
theorem announces_pending_peers
    {p : Program ClientEffect.Answer (Except ClientError MonitorState)}
    (h : MonitorRun fromBase64 ifName traverseNat (fun _ ↦ AnswersDistinct) t p)
    {v : ClientTrace} {a : WireplugAnnouncement} {r : Except AnnounceError WireplugResponse}
    (ht : t = u ++ ⟨.sendAnnouncement a, r⟩ :: v) :
    a.peerPubkeys = (pendingPeers u).map Key.toBase64 ∧ pendingPeers u ≠ [] :=
  h.requires_of_mem monitorStart_tallies (fun _ _ hs ↦ monitorRound_tallies hs) ht a rfl

end Rounds

def silentPair : List PeerInfo := [silentPeer, ⟨.filled 3, none, 0, none⟩]

def foundAddr : SocketAddr := .new (.v4 (.new 198 51 100 9)) 51821

def foundTracker : PeerTracker :=
  (PeerTracker.new.updateAll silentPair).setEndpoint (.filled 2) foundAddr

def halfResponse : WireplugResponse where
  peerEndpoints :=
    { entries := [((Key.filled 2).toBase64, .remoteNetwork (some (.new 198 51 100 9)) none 51821),
        ((Key.filled 3).toBase64, .unknown)]
      nodup := List.nodup_cons.mpr ⟨fun h ↦ absurd (toBase64_injective (List.mem_singleton.mp h))
        (by decide), List.nodup_singleton _⟩ }

theorem halfResponse_path : Path (updatePeers strictBase64 (PeerTracker.new.updateAll silentPair)
    halfResponse.peerEndpoints false).run [⟨.setEndpoint (.filled 2) foundAddr, .ok ()⟩]
    (.done (.ok (foundTracker, [.filled 2]))) := by
  have hset : Path (updatePeer (PeerTracker.new.updateAll silentPair) (.filled 2) foundAddr).run
      [⟨.setEndpoint (.filled 2) foundAddr, .ok ()⟩] (.done (.ok (true, foundTracker))) := by
    have htracked : (PeerTracker.new.updateAll silentPair).peers.get? (.filled 2) =
      some ⟨none, 0⟩ := rfl
    rw [updatePeer, htracked]
    exact .cons (.nil _)
  have hfirst : Path (updateEntry strictBase64 false (PeerTracker.new.updateAll silentPair, [])
      ((Key.filled 2).toBase64, .remoteNetwork (some (.new 198 51 100 9)) none 51821)).run
      [⟨.setEndpoint (.filled 2) foundAddr, .ok ()⟩]
      (.done (.ok (foundTracker, [.filled 2]))) := by
    rw [updateEntry, strictBase64_toBase64]
    exact hset.try _ _
  have hsecond : Path (updateEntry strictBase64 false (foundTracker, [.filled 2])
      ((Key.filled 3).toBase64, .unknown)).run [] (.done (.ok (foundTracker, [.filled 2]))) := by
    rw [updateEntry, strictBase64_toBase64]
    exact .nil _
  rw [updatePeers, halfResponse, List.foldlM_cons]
  exact (hfirst.try _ _).trans (hsecond.try _ _)

def connectedPair : ClientTrace :=
  [⟨.deviceGet .announce, .ok (wgDevice silentPair)⟩, ⟨.connect, .ok ()⟩]

def pairArrival : ClientTrace :=
  foundHome .changedToNew ++ [⟨.getRandomPort, drawn⟩, ⟨.sleep 3, ()⟩, ⟨.updatePort 51820, .ok ()⟩,
    ⟨.deviceGet .getAllPeers, .ok (wgDevice silentPair)⟩, ⟨.now, 0⟩] ++ connectedPair

def silentPairAnnouncement : WireplugAnnouncement :=
  announcement (.filled 1) [.filled 2, .filled 3] 51820 homeNetwork false

/-- Both peers are announced, and one of them is given an endpoint. -/
def halfRound : ClientTrace :=
  pairArrival ++ [⟨.sendAnnouncement silentPairAnnouncement, .ok halfResponse⟩,
    ⟨.setEndpoint (.filled 2) foundAddr, .ok ()⟩, ⟨.sleep 5, ()⟩, ⟨.sleep 10, ()⟩]

def halfState : MonitorState :=
  ⟨⟨some homeNetwork, some homeNetwork⟩, foundTracker,
    peerIsInactiveDuration + peerIsInactiveDuration, [.filled 3], 51820⟩

theorem halfRound_path : Path (monitorRound strictBase64 "wg0" false (startState silentPair)).run
    halfRound (.done (.ok halfState)) := by
  have hreach : Path (reachAnnouncing false (startState silentPair)).run (pairArrival.take 8)
      (.done (.ok ({ halfState with
        peersManager := .updateAll .new silentPair
        inactivePeers := [.filled 2, .filled 3] }, some homeNetwork))) :=
    .cons (.cons (.cons (.cons (.cons (.cons (.cons (.cons (.nil _))))))))
  have hannounce : Path (attempt (announce "wg0" [.filled 2, .filled 3] 51820 homeNetwork
      false)).run (connectedPair ++ [⟨.sendAnnouncement silentPairAnnouncement, .ok halfResponse⟩])
      (.done (.ok (.ok halfResponse))) := .cons (.cons (.cons (.nil _)))
  have hhandle : Path (handleInactivePeers strictBase64 "wg0" (.updateAll .new silentPair)
      [.filled 2, .filled 3] homeNetwork 51820 false).run
      (connectedPair ++ [⟨.sendAnnouncement silentPairAnnouncement, .ok halfResponse⟩] ++
        ([⟨.setEndpoint (.filled 2) foundAddr, .ok ()⟩] ++ [⟨.sleep 5, ()⟩]))
      (.done (.ok (foundTracker, [.filled 3]))) :=
    (hannounce.try _ _).trans ((halfResponse_path.try _ _).trans (.cons (.nil _)))
  rw [monitorRound_eq]
  exact (hreach.try _ _).trans ((hhandle.try _ _).trans (.cons (.nil _)))

theorem announces_pending_peers_left :
    (pendingPeers (started silentPair ++ pairArrival)).map Key.toBase64 =
        [(Key.filled 2).toBase64, (Key.filled 3).toBase64] ∧
      (pendingPeers (started silentPair ++ halfRound ++ (foundHome .online ++ [⟨.now, 0⟩] ++
        connectedPair))).map Key.toBase64 = [(Key.filled 3).toBase64] := by
  have hlist (reader : DeviceReader) :
      AnswersDistinct (.deviceGet reader) (.ok (wgDevice silentPair)) :=
    show (silentPair.map PeerInfo.publicKey).Nodup by decide
  have hstart : Answered (fun _ ↦ AnswersDistinct) [] (started silentPair) :=
    ⟨hlist _, trivial, trivial⟩
  have hround : Answered (fun _ ↦ AnswersDistinct) (started silentPair) halfRound :=
    ⟨trivial, trivial, trivial, trivial, trivial, trivial, hlist _, trivial, hlist _,
      trivial, trivial, trivial, trivial, trivial, trivial⟩
  have hnext : ∃ q, Path (monitorRound strictBase64 "wg0" false halfState).run
      (foundHome .online ++ [⟨.now, 0⟩] ++ connectedPair ++ [⟨.sendAnnouncement
        (announcement (.filled 1) [.filled 3] 51820 homeNetwork false), .error .outdated⟩]) q :=
    ⟨_, .cons (.cons (.cons (.cons (.cons (.cons (.cons (.nil _)))))))⟩
  obtain ⟨q, hq⟩ := hnext
  have hrun := ((start_run silentPair hstart).follow halfRound_path hround).again.follow hq
    ⟨trivial, trivial, trivial, trivial, hlist _, trivial, trivial, trivial⟩
  constructor
  · exact (announces_pending_peers hrun (u := started silentPair ++ pairArrival) rfl).1.symm
  · exact (announces_pending_peers hrun (List.append_assoc _ _ _).symm).1.symm

end Wireplug
