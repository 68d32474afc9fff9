import Wireplug.LanAddrs
import Wireplug.OnlineActions

namespace Wireplug

open Foundation Program ByteStream Client

variable {t u : ClientTrace} {n : NetworkSeen}

def NetworkSeen.Current (n : NetworkSeen) : Prop :=
  ∀ info, n.netmon.current = some info →
    ∃ newInfo, n.history.getLast? = some newInfo ∧ newInfo.eq info = true

theorem NetworkSeen.Current.check (n : NetworkSeen) : n.check.Current := by
  have hchecked := NetworkMonitor.checked n.netmon n.info
  intro info hinfo
  refine ⟨n.info, List.getLast?_concat, ?_⟩
  rw [NetworkSeen.check] at hinfo
  generalize n.netmon.checkStatus n.info = r at hchecked hinfo
  cases hchecked with
  | same hcurrent _ hsame =>
    rw [hcurrent] at hinfo
    cases hinfo
    exact hsame
  | first | outage | back | changed =>
    cases hinfo
    exact NetInfo.eq_refl _

theorem NetworkSeen.Current.mark (h : n.Current) (natKind : NatKind) :
    NetworkSeen.Current { n with netmon := natKind.markMonitor n.netmon } := by
  cases natKind with
  | easy | fixedPortMapping => exact h
  | hard =>
    intro info hinfo
    obtain ⟨c, hc, rfl⟩ := Option.map_eq_some_iff.mp hinfo
    exact h c hc

theorem NetworkSeen.Current.see (h : n.Current) (ev : Event ClientEffect.Answer) :
    (seeNetwork n ev).Current := by
  obtain ⟨e, r⟩ := ev
  cases e with
  | checked => exact .check n
  | getLanAddrs => cases r <;> exact h
  | detectKind =>
    cases r with
    | error e => exact h
    | ok natKind => exact h.mark natKind
  | _ => exact h

theorem current_networkSeen (t : ClientTrace) : (networkSeen t).Current := by
  induction t using List.reverseRecOn with
  | nil => exact fun info hinfo ↦ by cases hinfo
  | append_singleton t ev ih =>
    rw [networkSeen_snoc]
    exact ih.see ev

def FoundLan (t : ClientTrace) (lanAddrs : List IpNet) : Prop :=
  lanAddrs = [] ∨ ⟨.getLanAddrs, .ok lanAddrs⟩ ∈ t

theorem FoundLan.snoc {lanAddrs : List IpNet} (h : FoundLan t lanAddrs)
    (ev : Event ClientEffect.Answer) : FoundLan (t ++ [ev]) lanAddrs :=
  h.imp id (List.mem_append_left _)

structure NetworkSeen.LanFound (n : NetworkSeen) (t : ClientTrace) : Prop where
  now : FoundLan t n.lanAddrs
  checked : ∀ info ∈ n.history, FoundLan t info.lanAddrs

theorem NetworkSeen.LanFound.see (h : n.LanFound t) (ev : Event ClientEffect.Answer) :
    (seeNetwork n ev).LanFound (t ++ [ev]) := by
  have hchecked (info : NetInfo) (hinfo : info ∈ n.history) : FoundLan (t ++ [ev]) info.lanAddrs :=
    (h.checked info hinfo).snoc ev
  obtain ⟨e, r⟩ := ev
  cases e with
  | getLanAddrs =>
    cases r with
    | ok lanAddrs => exact ⟨.inr (List.mem_append_right _ List.mem_cons_self), hchecked⟩
    | error e => exact ⟨.inl rfl, hchecked⟩
  | checked status =>
    refine ⟨h.now.snoc _, fun info hinfo ↦ ?_⟩
    rcases List.mem_append.mp hinfo with hinfo | hinfo
    · exact hchecked info hinfo
    · cases List.mem_singleton.mp hinfo
      exact h.now.snoc _
  | detectKind => cases r <;> exact ⟨h.now.snoc _, hchecked⟩
  | _ => exact ⟨h.now.snoc _, hchecked⟩

theorem lanFound_networkSeen (t : ClientTrace) : (networkSeen t).LanFound t := by
  induction t using List.reverseRecOn with
  | nil => exact ⟨.inl rfl, fun info hinfo ↦ by cases hinfo⟩
  | append_singleton t ev ih =>
    rw [networkSeen_snoc]
    exact ih.see ev

/-- The announcement has the interface's key, as read just before, and the monitor's network. -/
def Composed (t : ClientTrace) (a : WireplugAnnouncement) : Prop :=
  ∃ w device k info peers port, t = w ++ [⟨.deviceGet .announce, .ok device⟩, ⟨.connect, .ok ()⟩] ∧
    device.publicKey = some k ∧ (networkSeen t).netmon.current = some info ∧
      a = announcement k peers port info (networkSeen t).netmon.needsRelay

def AnnouncesComposed (t : ClientTrace) (e : ClientEffect) : Prop :=
  ∀ a, e = .sendAnnouncement a → Composed t a

variable {fromBase64 : String → Option Key} {ifName : String} {traverseNat : Bool}
  {assumes : ClientTrace → (e : ClientEffect) → e.Answer → Prop} {s : MonitorState}

theorem composed_other {e : ClientEffect} (he : ∀ a, e ≠ .sendAnnouncement a) :
    AnnouncesComposed t e :=
  fun a ha ↦ (he a ha).elim

def OnNetwork (netmon : NetworkMonitor) (t : ClientTrace) : Prop := (networkSeen t).netmon = netmon

variable {netmon : NetworkMonitor} {info : NetInfo}

theorem OnNetwork.snoc (h : OnNetwork netmon t) (ev : Event ClientEffect.Answer)
    (hev : Still ev.1) : OnNetwork netmon (t ++ [ev]) := by
  rw [OnNetwork, networkSeen_snoc, (seen_still hev _).2]
  exact h

theorem OnNetwork.append (h : OnNetwork netmon t) (hu : ∀ ev ∈ u, Still ev.1) :
    OnNetwork netmon (t ++ u) := by
  induction u using List.reverseRecOn with
  | nil => rwa [List.append_nil]
  | append_singleton u ev ih =>
    rw [← List.append_assoc]
    exact (ih fun ev' hev' ↦ hu ev' (List.mem_append_left _ hev')).snoc ev (hu ev (by simp))

def Plain : ClientEffect → Prop
  | .checked _ | .detectKind _ | .sendAnnouncement _ => False
  | _ => True

theorem Plain.still {e : ClientEffect} (h : Plain e) : Still e := by
  cases e with
  | checked | detectKind => exact h.elim
  | _ => trivial

theorem Plain.composed {e : ClientEffect} (h : Plain e) : AnnouncesComposed t e := by
  intro a ha
  rw [ha] at h
  exact h.elim

theorem BeforeHandling.composed {e : ClientEffect} (h : BeforeHandling e) :
    AnnouncesComposed t e := by
  intro a ha
  rw [ha] at h
  exact h.elim

theorem UpdatesFrom.plain {entries : List (String × WireplugEndpoint)} {e : ClientEffect}
    (h : UpdatesFrom fromBase64 entries e) : Plain e := by
  cases e with
  | checked | detectKind | sendAnnouncement => exact h.elim
  | _ => trivial

theorem plain_ensures {α : Type} {x : Client α} {Q : α → Prop} {F : ClientError → Prop}
    (hx : x.run.Only Plain (Ends Q F)) (h : OnNetwork netmon t) :
    x.run.Ensures assumes AnnouncesComposed
      (fun r u ↦ OnNetwork netmon u ∧ Ends Q F r) t :=
  hx.ensures (fun _ _ _ he ↦ he.composed) fun _ hu _ hr ↦
    ⟨h.append fun ev hev ↦ (hu ev hev).still, hr⟩

theorem announce_composed (peers : List Key) (port : UInt16) (h : OnNetwork netmon t)
    (hcurrent : netmon.current = some info) :
    (attempt (announce ifName peers port info netmon.needsRelay)).run.Ensures assumes
      AnnouncesComposed (fun _ u ↦ OnNetwork netmon u) t := by
  refine Ensures.call (composed_other nofun) fun r _ ↦ ?_
  have hdevice := h.snoc ⟨.deviceGet .announce, r⟩ trivial
  rcases r with e | ⟨_ | k, devicePeers⟩
  · exact hdevice
  · exact hdevice
  · refine Ensures.call (composed_other nofun) fun r _ ↦ ?_
    have hconnect := hdevice.snoc ⟨.connect, r⟩ trivial
    cases r with
    | error e => exact hconnect
    | ok _ =>
      refine Ensures.call (fun a ha ↦ ?_) fun r _ ↦ ?_
      · cases ha
        refine ⟨t, ⟨some k, devicePeers⟩, k, info, peers, port, List.append_assoc _ _ _, rfl,
          ?_, ?_⟩
        · rw [hconnect]
          exact hcurrent
        · rw [hconnect]
      · have hsent := hconnect.snoc
          ⟨.sendAnnouncement (announcement k peers port info netmon.needsRelay), r⟩ trivial
        have htaken : Calls Plain (attempt (takeResponse r)) := calls_attempt (calls_takeResponse r)
        exact (plain_ensures htaken hsent).mono fun _ _ hr ↦ hr.1

theorem announceRounds_composed (port : UInt16) (peerTracker : PeerTracker) (peers : List Key)
    (n : ℕ) (h : OnNetwork netmon t) (hcurrent : netmon.current = some info) :
    (announceRounds fromBase64 ifName info port netmon.needsRelay peerTracker peers n).run.Ensures
      assumes AnnouncesComposed (fun _ _ ↦ True) t := by
  induction n generalizing t with
  | zero => trivial
  | succ n ih =>
    refine (ensures_try _ _ _).mpr ((announce_composed peers port h hcurrent).mono fun r u hu ↦ ?_)
    rcases r with e | e | response
    · trivial
    · exact Ensures.call (composed_other nofun) fun _ _ ↦ ih (hu.snoc _ trivial)
    · have hupdates := (updatePeers_only fromBase64 peerTracker response.peerEndpoints
        info.wanIpv6.isSome).mono (fun _ he ↦ he.plain) fun _ hr ↦ hr
      refine (ensures_try _ _ _).mpr ((plain_ensures hupdates hu).mono fun r v _ ↦ ?_)
      cases r with
      | error e => trivial
      | ok updated =>
        dsimp only
        split
        · trivial
        · exact Ensures.call (composed_other nofun) fun _ _ ↦ trivial

theorem announceInactive_announces (h : OnNetwork s.netmon t) :
    (announceInactive fromBase64 ifName s).run.Ensures assumes AnnouncesComposed
      (fun _ _ ↦ True) t := by
  have hpoll := pollInactive_calls (P := Plain) trivial trivial s
  refine (ensures_try _ _ _).mpr ((plain_ensures hpoll h).mono fun r u hr ↦ ?_)
  cases r with
  | error e => trivial
  | ok s' =>
    obtain ⟨hpolled, hsame⟩ := hr
    dsimp only
    split
    · exact Ensures.call (composed_other nofun) fun _ _ ↦ trivial
    · split
      · trivial
      · next info hinfo =>
        have hcurrent : s.netmon.current = some info := by
          rw [← hsame]
          exact hinfo
        rw [hsame]
        refine (ensures_try _ _ _).mpr ((announceRounds_composed s'.portToAnnounce s'.peersManager
          s'.inactivePeers maxAnnounceRetries hpolled hcurrent).mono fun r v _ ↦ ?_)
        cases r with
        | error e => trivial
        | ok handled => exact Ensures.call (composed_other nofun) fun _ _ ↦ trivial

theorem announceInactive_composed (h : GoesOn s t) :
    (announceInactive fromBase64 ifName s).run.Ensures assumes AnnouncesComposed
      (fun r u ↦ Ends (fun s' ↦ InSight s' u) (fun _ ↦ True) r) t :=
  ((announceInactive_acts h).and (announceInactive_announces h.netmon.symm)).mono
    fun _ _ hr ↦ hr.1

theorem changeNetwork_composed (h : GoesOn s t) :
    (changeNetwork traverseNat s).run.Ensures assumes AnnouncesComposed
      (fun r u ↦ Ends (fun changed ↦ (changed = none → InSight s u) ∧
        ∀ s', changed = some s' → GoesOn s' u) (fun _ ↦ True) r) t := by
  have hmute : (changeNetwork traverseNat s).run.Ensures assumes AnnouncesComposed
      (fun _ _ ↦ True) t :=
    (calls_changeNetwork s).ensures (fun _ _ _ he ↦ he.composed) fun _ _ _ _ ↦ trivial
  exact ((changeNetwork_acts h).and hmute).mono fun _ _ hr ↦ hr.1

theorem monitorRound_composed (h : InSight s t) :
    (monitorRound fromBase64 ifName traverseNat s).run.Ensures assumes AnnouncesComposed
      (fun r u ↦ Ends (fun s' ↦ InSight s' u) (fun _ ↦ True) r) t := by
  refine monitorRound_rule fromBase64 ifName traverseNat InSight InSight GoesOn GoesOn
    ?_ ?_ ?_ ?_ ?_ ?_ ?_ ?_ h
  · intro u e he a ha
    rw [ha] at he
    exact he.elim
  · exact fun u status ↦ composed_other nofun
  · exact fun s t u newInfo hs hu _ ↦ hs.checked hu _
  · exact fun s t u newInfo hs hu _ hne ↦ ⟨hs.checked hu _, hs.vouched hu hne _⟩
  · intro s t u newInfo hs hu hnew
    refine ⟨hs.checked hu _, hs.vouched hu ?_ _⟩
    rw [hnew]
    exact NetStatus.noConfusion
  · exact fun s t hs ↦ Ensures.call (composed_other nofun) fun _ _ ↦ hs.snoc trivial
  · exact fun s t hs ↦ changeNetwork_composed hs
  · exact fun s t hs ↦ announceInactive_composed hs

theorem monitorStart_composed : monitorStart.run.Ensures assumes AnnouncesComposed
    (fun r u ↦ Ends (fun s' ↦ InSight s' u) (fun _ ↦ True) r) [] := by
  refine Ensures.call (composed_other nofun) fun r _ ↦ ?_
  cases r with
  | error e => trivial
  | ok device => exact Ensures.call (composed_other nofun) fun _ _ ↦ rfl

/-- The LAN addresses are those that `get_lan_addrs` takes from some list of interfaces. -/
def AnswersInterfaces (crates : LanCrates) (ifName : String) :
    (e : ClientEffect) → e.Answer → Prop
  | .getLanAddrs, r => ∃ ifaces, r = getLanAddrs crates ifName ifaces
  | _, _ => True

def FromInterfaces (crates : LanCrates) (ifName : String) (t : ClientTrace)
    (lanAddrs : List IpNet) : Prop :=
  lanAddrs = [] ∨ ∃ ifaces, ⟨.getLanAddrs, getLanAddrs crates ifName (.ok ifaces)⟩ ∈ t ∧
    ∀ net ∈ lanAddrs, ∃ ifa ∈ ifaces, ifa.eligible crates ifName = true ∧
      crates.ipAddr ifa.address = some net.addr

theorem FoundLan.fromInterfaces {crates : LanCrates} (hkeep : crates.KeepAddrs)
    {lanAddrs : List IpNet} (h : FoundLan t lanAddrs)
    (ht : Answered (fun _ ↦ AnswersInterfaces crates ifName) [] t) :
    FromInterfaces crates ifName t lanAddrs := by
  refine h.imp id fun hmem ↦ ?_
  obtain ⟨u, v, rfl⟩ := List.append_of_mem hmem
  obtain ⟨ifaces, hifaces⟩ := ht.at
  cases ifaces with
  | error e => cases hifaces
  | ok ifaces =>
    refine ⟨ifaces, ?_, fun net hnet ↦ of_mem_getLanAddrs hkeep hifaces.symm hnet⟩
    rwa [← hifaces]

/-- Every announcement has the key of the interface as read just before, and the addresses that
the last check found: never those of an earlier network. The LAN addresses among them belong to
interfaces that were up, never to a loopback or a tunnel. -/
theorem announces_seen_network {crates : LanCrates} (hkeep : crates.KeepAddrs)
    {p : Program ClientEffect.Answer (Except ClientError MonitorState)}
    (h : MonitorRun fromBase64 ifName traverseNat (fun _ ↦ AnswersInterfaces crates ifName) t p)
    {u v : ClientTrace} {a : WireplugAnnouncement} {r : Except AnnounceError WireplugResponse}
    (ht : t = u ++ ⟨.sendAnnouncement a, r⟩ :: v) :
    (∃ newInfo, (networkSeen u).history.getLast? = some newInfo ∧ a.ipv6 = newInfo.wanIpv6 ∧
      a.lanAddrs = newInfo.lanAddrs) ∧
    a.needsRelay = (networkSeen u).netmon.needsRelay ∧
    (∃ w device k, u = w ++ [⟨.deviceGet .announce, .ok device⟩, ⟨.connect, .ok ()⟩] ∧
      device.publicKey = some k ∧ a.initiatorPubkey = k.toBase64) ∧
    FromInterfaces crates ifName u a.lanAddrs := by
  have hanswered := h.answered
  obtain ⟨w, device, k, info, peers, port, hu, hkey, hcurrent, rfl⟩ :=
    h.requires_of_mem monitorStart_composed (fun _ _ hs ↦ monitorRound_composed hs) ht a rfl
  obtain ⟨newInfo, hlast, hsame⟩ := current_networkSeen u info hcurrent
  obtain ⟨-, hipv6, hlan⟩ := NetInfo.eq_iff.mp hsame
  refine ⟨⟨newInfo, hlast, hipv6.symm, hlan.symm⟩, rfl, ⟨w, device, k, hu, hkey, rfl⟩, ?_⟩
  have hfound := (lanFound_networkSeen u).checked newInfo (List.mem_of_getLast? hlast)
  rw [ht] at hanswered
  rw [hlan] at hfound
  exact hfound.fromInterfaces hkeep hanswered.left

theorem announces_seen_network_home : FromInterfaces slash24Crates "wg0"
    (started [silentPeer] ++ newNetworkRound .easy) (homeAnnouncement 51820).lanAddrs := by
  obtain ⟨q, hq⟩ := newNetwork_path strictBase64 "wg0" [silentPeer] .easy (by nofun)
  have hfound : AnswersInterfaces slash24Crates "wg0" .getLanAddrs (.ok [homeLan]) :=
    ⟨.ok [wgAddr, lanAddr], by decide⟩
  have hstart : Answered (fun _ ↦ AnswersInterfaces slash24Crates "wg0") [] (started [silentPeer]) :=
    ⟨trivial, trivial, trivial⟩
  have hround : Answered (fun _ ↦ AnswersInterfaces slash24Crates "wg0") (started [silentPeer])
      (newNetworkRound .easy ++
        [⟨.sendAnnouncement (homeAnnouncement 51820), .error .outdated⟩]) :=
    ⟨trivial, hfound, trivial, trivial, trivial, trivial, trivial, trivial, trivial, trivial,
      trivial, trivial, trivial⟩
  have hrun := (start_run [silentPeer] hstart).follow hq hround
  rw [← List.append_assoc] at hrun
  exact (announces_seen_network slash24Crates_keepAddrs hrun rfl).2.2.2

end Wireplug
