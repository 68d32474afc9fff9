import Wireplug.HardNat
import Wireplug.MonitorRound
import Wireplug.NetworkPort

namespace Wireplug

open Foundation Program ByteStream Client

/-- What was last found out, all that was checked so far, and the monitor after that. -/
structure NetworkSeen where
  wan : Option Ipv4Addr × Option Ipv6Addr
  lanAddrs : List IpNet
  history : List NetInfo
  netmon : NetworkMonitor

def NetworkSeen.start : NetworkSeen := ⟨(none, none), [], [], .new⟩

def NetworkSeen.info (n : NetworkSeen) : NetInfo := ⟨n.wan.1, n.wan.2, n.lanAddrs, false⟩

def NetworkSeen.check (n : NetworkSeen) : NetworkSeen :=
  { n with history := n.history ++ [n.info], netmon := (n.netmon.checkStatus n.info).2 }

def seeNetwork (n : NetworkSeen) : Event ClientEffect.Answer → NetworkSeen
  | ⟨.getBoth, wan⟩ => { n with wan }
  | ⟨.getIp64OverHttps, wan⟩ => { n with wan }
  | ⟨.getLanAddrs, .ok lanAddrs⟩ => { n with lanAddrs }
  | ⟨.getLanAddrs, .error _⟩ => { n with lanAddrs := [] }
  | ⟨.checked _, _⟩ => n.check
  | ⟨.detectKind _, .ok natKind⟩ => { n with netmon := natKind.markMonitor n.netmon }
  | _ => n

def networkSeen (t : ClientTrace) : NetworkSeen := t.foldl seeNetwork .start

def FirstOnline (t : ClientTrace) : Prop :=
  ∀ newInfo, (networkSeen t).history.head? = some newInfo → newInfo.online = true

def CheckedOnline (t : ClientTrace) : Prop :=
  ∃ newInfo, (networkSeen t).history.getLast? = some newInfo ∧ newInfo.online = true

def NetworkAction : ClientEffect → Prop
  | .detectKind _ | .updatePort _ | .sendAnnouncement _ => True
  | _ => False

variable {t u v : ClientTrace}

theorem networkSeen_append (t u : ClientTrace) :
    networkSeen (t ++ u) = u.foldl seeNetwork (networkSeen t) := List.foldl_append

theorem networkSeen_snoc (t : ClientTrace) (ev : Event ClientEffect.Answer) :
    networkSeen (t ++ [ev]) = seeNetwork (networkSeen t) ev := networkSeen_append t [ev]

theorem seeNetwork_cases (n : NetworkSeen) (ev : Event ClientEffect.Answer) :
    (seeNetwork n ev).history = n.history ∨ seeNetwork n ev = n.check := by
  obtain ⟨e, r⟩ := ev
  cases e with
  | checked => exact .inr rfl
  | getLanAddrs => cases r <;> exact .inl rfl
  | detectKind => cases r <;> exact .inl rfl
  | _ => exact .inl rfl

theorem prefix_seeNetwork (n : NetworkSeen) (ev : Event ClientEffect.Answer) :
    n.history <+: (seeNetwork n ev).history := by
  rcases seeNetwork_cases n ev with h | h
  · exact h.symm ▸ List.prefix_rfl
  · rw [h]
    exact List.prefix_append _ _

theorem prefix_history (t u : ClientTrace) :
    (networkSeen t).history <+: (networkSeen (t ++ u)).history := by
  induction u using List.reverseRecOn with
  | nil => exact (List.append_nil t).symm ▸ List.prefix_rfl
  | append_singleton u ev ih =>
    rw [← List.append_assoc, networkSeen_snoc]
    exact ih.trans (prefix_seeNetwork _ ev)

theorem FirstOnline.left (h : FirstOnline (t ++ u)) : FirstOnline t := by
  intro newInfo hfirst
  obtain ⟨later, hlater⟩ := prefix_history t u
  apply h
  rw [← hlater, List.head?_append, hfirst]
  rfl

structure NetworkSeen.Sound (n : NetworkSeen) : Prop where
  blank : n.history = [] → n.netmon = .new
  current : n.history ≠ [] → n.netmon.current.isSome = true
  lastOnline : (∀ newInfo, n.history.head? = some newInfo → newInfo.online = true) →
    ∀ last, n.netmon.lastOnline = some last → last.online = true

variable {n : NetworkSeen}

theorem NetworkSeen.Sound.check (h : n.Sound) : n.check.Sound := by
  have hchecked := NetworkMonitor.checked n.netmon n.info
  refine ⟨by simp [NetworkSeen.check], fun _ ↦ current_checkStatus _ _, ?_⟩
  simp only [NetworkSeen.check, List.head?_append]
  intro hfirst last hlast
  have hbefore := h.lastOnline fun newInfo hhead ↦ hfirst newInfo (by rw [hhead]; rfl)
  generalize n.netmon.checkStatus n.info = r at hchecked hlast
  cases hchecked with
  | first hnone =>
    have hblank : n.history = [] := by
      by_contra hne
      have hsome := h.current hne
      rw [hnone] at hsome
      cases hsome
    cases hlast
    apply hfirst
    rw [hblank]
    rfl
  | outage | same | back => exact hbefore last hlast
  | changed _ honline =>
    cases hlast
    exact honline

theorem NetworkSeen.Sound.mark (h : n.Sound) (natKind : NatKind) :
    NetworkSeen.Sound { n with netmon := natKind.markMonitor n.netmon } := by
  cases natKind with
  | easy | fixedPortMapping => exact h
  | hard =>
    refine ⟨fun hblank ↦ ?_, fun hne ↦ ?_, h.lastOnline⟩
    · simp only [h.blank hblank]
      rfl
    · simp only [NatKind.markMonitor, NetworkMonitor.setHardNat, Option.isSome_map]
      exact h.current hne

theorem NetworkSeen.Sound.see (h : n.Sound) (ev : Event ClientEffect.Answer) :
    (seeNetwork n ev).Sound := by
  obtain ⟨e, r⟩ := ev
  cases e with
  | checked => exact h.check
  | getBoth | getIp64OverHttps => exact ⟨h.blank, h.current, h.lastOnline⟩
  | getLanAddrs => cases r <;> exact ⟨h.blank, h.current, h.lastOnline⟩
  | detectKind =>
    cases r with
    | error e => exact h
    | ok natKind => exact h.mark natKind
  | _ => exact h

theorem sound_networkSeen (t : ClientTrace) : (networkSeen t).Sound := by
  induction t using List.reverseRecOn with
  | nil => exact ⟨fun _ ↦ rfl, fun hne ↦ (hne rfl).elim, fun _ last hlast ↦ by cases hlast⟩
  | append_singleton t ev ih =>
    rw [networkSeen_snoc]
    exact ih.see ev

def LastOnlineKept (t : ClientTrace) : Prop :=
  ∀ u v, t = u ++ v → ∀ last, (networkSeen u).netmon.lastOnline = some last → last.online = true

theorem NetworkSeen.Sound.first (h : n.Sound) (hblank : n.history = []) :
    n.check.history = [n.info] ∧ n.check.netmon.lastOnline = some n.info := by
  rw [NetworkSeen.check, hblank, h.blank hblank]
  exact ⟨rfl, rfl⟩

theorem lastOnlineKept_iff (t : ClientTrace) : LastOnlineKept t ↔ FirstOnline t := by
  constructor
  · intro hkept newInfo hfirst
    induction t using List.reverseRecOn with
    | nil => cases hfirst
    | append_singleton t ev ih =>
      have hkept' : LastOnlineKept t := by
        rintro u v rfl
        exact hkept u (v ++ [ev]) (List.append_assoc u v [ev])
      by_cases hblank : (networkSeen t).history = []
      · obtain ⟨hhistory, hlast⟩ := (sound_networkSeen t).first hblank
        rw [networkSeen_snoc] at hfirst
        rcases seeNetwork_cases (networkSeen t) ev with hsame | hcheck
        · rw [hsame, hblank] at hfirst
          cases hfirst
        · rw [hcheck, hhistory] at hfirst
          cases hfirst
          apply hkept (t ++ [ev]) [] (List.append_nil _).symm
          rw [networkSeen_snoc, hcheck]
          exact hlast
      · apply ih hkept'
        obtain ⟨later, hlater⟩ := prefix_history t [ev]
        obtain ⟨first, rest, hcons⟩ := List.exists_cons_of_ne_nil hblank
        rw [← hlater, hcons] at hfirst
        rw [hcons]
        exact hfirst
  · rintro h u v rfl
    exact (sound_networkSeen u).lastOnline h.left

theorem seen_detectWan {wan : Option Ipv4Addr × Option Ipv6Addr}
    (h : Path detectWan.run u (.done (.ok wan))) (n : NetworkSeen) :
    u.foldl seeNetwork n = { n with wan } := by
  obtain ⟨both, v, rfl, hrest⟩ := path_ask h
  by_cases hnone : (both.1.isNone && both.2.isNone) = true
  · rw [if_pos hnone] at hrest
    cases hrest with
    | cons hrest =>
      cases hrest
      rfl
  · rw [if_neg hnone] at hrest
    cases hrest
    rfl

theorem seen_detectLan {lanAddrs : List IpNet} (h : Path detectLan.run u (.done (.ok lanAddrs)))
    (n : NetworkSeen) : u.foldl seeNetwork n = { n with lanAddrs } := by
  obtain ⟨r, v, rfl, hrest⟩ := path_ask h
  cases r with
  | ok lanAddrs =>
    cases hrest
    rfl
  | error e =>
    cases hrest
    rfl

theorem seen_detect {newInfo : NetInfo} (h : Path detect.run u (.done (.ok newInfo)))
    (t : ClientTrace) (status : NetStatus) :
    (networkSeen (t ++ u ++ [⟨.checked status, ()⟩])).history =
        (networkSeen t).history ++ [newInfo] ∧
      (networkSeen (t ++ u ++ [⟨.checked status, ()⟩])).netmon =
        ((networkSeen t).netmon.checkStatus newInfo).2 := by
  obtain ⟨wan, v, w, rfl, hwan, hrest⟩ := Path.try_done h
  obtain ⟨lanAddrs, w, x, rfl, hlan, hend⟩ := Path.try_done hrest
  cases hend
  rw [networkSeen_snoc, networkSeen_append, List.append_nil, List.foldl_append,
    seen_detectWan hwan, seen_detectLan hlan]
  exact ⟨rfl, rfl⟩

def Still : ClientEffect → Prop
  | .checked _ | .detectKind _ => False
  | _ => True

theorem seen_still {ev : Event ClientEffect.Answer} (h : Still ev.1) (n : NetworkSeen) :
    (seeNetwork n ev).history = n.history ∧ (seeNetwork n ev).netmon = n.netmon := by
  obtain ⟨e, r⟩ := ev
  cases e with
  | checked | detectKind => exact h.elim
  | getLanAddrs => cases r <;> exact ⟨rfl, rfl⟩
  | _ => exact ⟨rfl, rfl⟩

theorem Concludes.still {port : UInt16} {e : ClientEffect} (h : Concludes port e) : Still e := by
  rcases h with h | rfl | rfl
  · cases e with
    | checked | detectKind => exact h.elim
    | _ => trivial
  · trivial
  · trivial

/-- Once the first check has found a public address, so has the last. -/
def Vouched (t : ClientTrace) : Prop := FirstOnline t → CheckedOnline t

def ActsOnline (t : ClientTrace) (e : ClientEffect) : Prop := NetworkAction e → Vouched t

theorem vouched_of_history (h : Vouched t)
    (heq : (networkSeen u).history = (networkSeen t).history) : Vouched u := by
  rw [Vouched, FirstOnline, CheckedOnline, heq]
  exact h

def InSight (s : MonitorState) (t : ClientTrace) : Prop := s.netmon = (networkSeen t).netmon

structure GoesOn (s : MonitorState) (t : ClientTrace) : Prop where
  netmon : InSight s t
  vouched : Vouched t

variable {s : MonitorState}

theorem InSight.snoc (h : InSight s t) {ev : Event ClientEffect.Answer} (hev : Still ev.1) :
    InSight s (t ++ [ev]) := by
  rw [InSight, networkSeen_snoc, (seen_still hev _).2]
  exact h

theorem GoesOn.snoc (h : GoesOn s t) {ev : Event ClientEffect.Answer} (hev : Still ev.1) :
    GoesOn s (t ++ [ev]) := by
  refine ⟨h.netmon.snoc hev, vouched_of_history h.vouched ?_⟩
  rw [networkSeen_snoc]
  exact (seen_still hev _).1

theorem GoesOn.append (h : GoesOn s t) (hu : ∀ ev ∈ u, Still ev.1) : GoesOn s (t ++ u) := by
  induction u using List.reverseRecOn with
  | nil => rwa [List.append_nil]
  | append_singleton u ev ih =>
    rw [← List.append_assoc]
    exact (ih fun ev' hev' ↦ hu ev' (List.mem_append_left _ hev')).snoc (hu ev (by simp))

theorem InSight.checked (h : InSight s t) {newInfo : NetInfo}
    (hpath : Path detect.run u (.done (.ok newInfo))) (status : NetStatus) :
    InSight { s with netmon := (s.netmon.checkStatus newInfo).2 }
      (t ++ u ++ [⟨.checked status, ()⟩]) := by
  rw [InSight, (seen_detect hpath t status).2, ← h]

theorem InSight.vouched (h : InSight s t) {newInfo : NetInfo}
    (hpath : Path detect.run u (.done (.ok newInfo)))
    (hne : (s.netmon.checkStatus newInfo).1 ≠ .offline) (status : NetStatus) :
    Vouched (t ++ u ++ [⟨.checked status, ()⟩]) := by
  intro hfirst
  have hhistory := (seen_detect hpath t status).1
  refine ⟨newInfo, by rw [hhistory, List.getLast?_concat], ?_⟩
  have hchecked := NetworkMonitor.checked s.netmon newInfo
  generalize s.netmon.checkStatus newInfo = r at hchecked hne
  cases hchecked with
  | first hnone =>
    apply hfirst
    have hblank : (networkSeen t).history = [] := by
      by_contra hsome
      have hcurrent := (sound_networkSeen t).current hsome
      rw [← h, hnone] at hcurrent
      cases hcurrent
    rw [hhistory, hblank]
    rfl
  | outage => exact (hne rfl).elim
  | same _ honline | back _ _ honline | changed _ honline => exact honline

variable {fromBase64 : String → Option Key} {ifName : String} {traverseNat : Bool}
  {assumes : ClientTrace → (e : ClientEffect) → e.Answer → Prop}

theorem announceInactive_acts (h : GoesOn s t) :
    (announceInactive fromBase64 ifName s).run.Ensures assumes ActsOnline
      (fun r u ↦ Ends (fun s' ↦ InSight s' u) (fun _ ↦ True) r) t := by
  refine (announceInactive_only s).ensures (fun u hu e _ _ ↦ ?_) fun u hu r hr ↦ ?_
  · exact (h.append fun ev hev ↦ (hu ev hev).still).vouched
  · refine Ends.mono (fun s' hs' ↦ ?_) (fun _ _ ↦ trivial) r hr
    rw [InSight, hs'.2]
    exact (h.append fun ev hev ↦ (hu ev hev).still).netmon

theorem GoesOn.call {α : Type} (h : GoesOn s t) {e : ClientEffect} (he : Still e)
    {k : e.Answer → Program ClientEffect.Answer α} {post : α → ClientTrace → Prop}
    (hk : ∀ r, GoesOn s (t ++ [⟨e, r⟩]) → (k r).Ensures assumes ActsOnline post (t ++ [⟨e, r⟩])) :
    (Program.call e k).Ensures assumes ActsOnline post t :=
  .call (fun _ ↦ h.vouched) fun r _ ↦ hk r (h.snoc he)

theorem choosePort_acts (newPort : UInt16) (h : GoesOn s t) :
    (choosePort traverseNat newPort s.netmon).run.Ensures assumes ActsOnline
      (fun r u ↦ Ends (fun chosen ↦ (chosen = none → InSight s u) ∧
        ∀ port netmon, chosen = some (port, netmon) → GoesOn { s with netmon } u)
        (fun _ ↦ True) r) t := by
  rw [choosePort]
  split
  · refine Ensures.call (fun _ ↦ h.vouched) fun r _ ↦ ?_
    cases r with
    | error e =>
      have hfailed : GoesOn s (t ++ [⟨.detectKind newPort, .error e⟩]) := by
        refine ⟨?_, vouched_of_history h.vouched ?_⟩
        · rw [InSight, networkSeen_snoc]
          exact h.netmon
        · rw [networkSeen_snoc]
          rfl
      cases e with
      | unresolved => trivial
      | io | encoding =>
        exact hfailed.call (by trivial) fun _ hslept ↦
          ⟨fun _ ↦ hslept.netmon, fun _ _ hc ↦ by cases hc⟩
    | ok natKind =>
      refine ⟨fun hc ↦ (by cases hc), fun port netmon hc ↦ ?_⟩
      cases hc
      refine ⟨?_, vouched_of_history h.vouched ?_⟩
      · rw [InSight, networkSeen_snoc, h.netmon]
        rfl
      · rw [networkSeen_snoc]
        rfl
  · refine ⟨fun hc ↦ (by cases hc), fun port netmon hc ↦ ?_⟩
    cases hc
    exact h

theorem changeNetwork_acts (h : GoesOn s t) :
    (changeNetwork traverseNat s).run.Ensures assumes ActsOnline
      (fun r u ↦ Ends (fun changed ↦ (changed = none → InSight s u) ∧
        ∀ s', changed = some s' → GoesOn s' u) (fun _ ↦ True) r) t := by
  refine h.call (by trivial) fun newPort hdrawn ↦ ?_
  refine (ensures_try _ _ _).mpr ((choosePort_acts newPort.val hdrawn).mono fun r u hr ↦ ?_)
  rcases r with e | _ | ⟨port, netmon⟩
  · trivial
  · exact ⟨fun _ ↦ hr.1 rfl, fun s' hs' ↦ by cases hs'⟩
  · refine (hr.2 port netmon rfl).call (by trivial) fun _ hslept ↦ ?_
    refine hslept.call (by trivial) fun r hset ↦ ?_
    cases r with
    | error e => trivial
    | ok _ =>
      refine hset.call (by trivial) fun r hlisted ↦ ?_
      cases r with
      | error e => trivial
      | ok device =>
        refine ⟨fun hc ↦ (by cases hc), fun s' hs' ↦ ?_⟩
        cases hs'
        exact ⟨hlisted.netmon, hlisted.vouched⟩

theorem Detects.actsOnline {e : ClientEffect} (h : Detects e) : ActsOnline t e := by
  intro haction
  cases e with
  | detectKind | updatePort | sendAnnouncement => exact h.elim
  | _ => exact haction.elim

theorem monitorRound_acts (h : InSight s t) :
    (monitorRound fromBase64 ifName traverseNat s).run.Ensures assumes ActsOnline
      (fun r u ↦ Ends (fun s' ↦ InSight s' u) (fun _ ↦ True) r) t := by
  refine monitorRound_rule fromBase64 ifName traverseNat InSight InSight GoesOn GoesOn
    ?_ ?_ ?_ ?_ ?_ ?_ ?_ ?_ h
  · exact fun u e he ↦ he.actsOnline
  · exact fun u status haction ↦ haction.elim
  · exact fun s t u newInfo hs hu _ ↦ hs.checked hu _
  · exact fun s t u newInfo hs hu _ hne ↦ ⟨hs.checked hu _, hs.vouched hu hne _⟩
  · intro s t u newInfo hs hu hnew
    refine ⟨hs.checked hu _, hs.vouched hu ?_ _⟩
    rw [hnew]
    exact NetStatus.noConfusion
  · intro s t hs
    exact Ensures.call (fun haction ↦ haction.elim) fun _ _ ↦ hs.snoc trivial
  · exact fun s t hs ↦ changeNetwork_acts hs
  · exact fun s t hs ↦ announceInactive_acts hs

theorem monitorStart_acts : monitorStart.run.Ensures assumes ActsOnline
    (fun r u ↦ Ends (fun s' ↦ InSight s' u) (fun _ ↦ True) r) [] := by
  refine Ensures.call (fun haction ↦ haction.elim) fun r _ ↦ ?_
  cases r with
  | error e => trivial
  | ok device => exact Ensures.call (fun haction ↦ haction.elim) fun _ _ ↦ rfl

/-- NAT detection, new ports and announcements are left to rounds that have found a public
address, and the network last seen online always has one, exactly if the first check of all has
found one. -/
theorem acts_online_iff {p : Program ClientEffect.Answer (Except ClientError MonitorState)}
    (h : MonitorRun fromBase64 ifName traverseNat assumes t p) :
    (∀ s, p = .done (.ok s) → s.netmon = (networkSeen t).netmon) ∧
      (((∀ u ev v, t = u ++ ev :: v → NetworkAction ev.1 → CheckedOnline u) ∧ LastOnlineKept t) ↔
        FirstOnline t) := by
  have hbody (s : MonitorState) (t : ClientTrace) (hs : InSight s t) :
      (monitorRound fromBase64 ifName traverseNat s).run.Ensures assumes ActsOnline
        (fun r u ↦ Ends (fun s' ↦ InSight s' u) (fun _ ↦ True) r) t := monitorRound_acts hs
  refine ⟨fun s hs ↦ ?_, fun hall ↦ (lastOnlineKept_iff t).mp hall.2, fun hfirst ↦ ?_⟩
  · subst hs
    have hseen : InSight s t := h.ensures monitorStart_acts hbody
    exact hseen
  · refine ⟨fun u ev v ht haction ↦ ?_, (lastOnlineKept_iff t).mpr hfirst⟩
    subst ht
    exact h.requires_of_mem monitorStart_acts hbody rfl haction hfirst.left

theorem acts_online_home : CheckedOnline (started [] ++ newNetworkRound .easy) := by
  obtain ⟨p, hp⟩ := newNetwork_run strictBase64 "wg0" .easy (by nofun)
  refine ((acts_online_iff hp).2.mpr fun newInfo hfirst ↦ ?_).1 _ _ [] rfl trivial
  cases hfirst
  rfl

def darkRound : ClientTrace :=
  [⟨.getBoth, (none, none)⟩, ⟨.getIp64OverHttps, (none, none)⟩, ⟨.getLanAddrs, .ok []⟩,
    ⟨.checked .changedToNew, ()⟩, ⟨.getRandomPort, drawn⟩, ⟨.sleep 3, ()⟩,
    ⟨.updatePort 51820, .ok ()⟩]

/-- The loop starts without a public address. It sets a listen port nevertheless, and keeps
nothing as the network last seen online. -/
theorem acts_while_offline : ∃ t u p, MonitorRun strictBase64 "wg0" false anyReply t p ∧
    t = u ++ [⟨.updatePort 51820, .ok ()⟩] ∧ ¬CheckedOnline u ∧
      (networkSeen t).netmon.lastOnline = some ⟨none, none, [], false⟩ := by
  have hpath : ∃ q, Path (monitorRound strictBase64 "wg0" false (startState [])).run darkRound q :=
    ⟨_, .cons (.cons (.cons (.cons (.cons (.cons (.cons (.nil _)))))))⟩
  obtain ⟨q, hq⟩ := hpath
  have hrun := (start_run [] (answered_anyReply _ _)).follow hq (answered_anyReply _ _)
  refine ⟨_, started [] ++ darkRound.take 6, q, hrun, rfl, ?_, rfl⟩
  rintro ⟨newInfo, hlast, honline⟩
  cases hlast
  cases honline

end Wireplug
