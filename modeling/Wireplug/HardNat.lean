import Wireplug.Netstat

namespace Wireplug

/-- What `NetInfo::detect` returns: its `hard_nat` is not set yet. -/
abbrev Detection := { newInfo : NetInfo // newInfo.hardNat = false }

namespace NetInfo

variable {a b c : NetInfo}

theorem eq_iff : a.eq b = true ↔
    a.wanIpv4 = b.wanIpv4 ∧ a.wanIpv6 = b.wanIpv6 ∧ a.lanAddrs = b.lanAddrs := by
  simp only [eq, Bool.and_eq_true, decide_eq_true_eq, and_assoc]

theorem eq_refl (a : NetInfo) : a.eq a = true := eq_iff.mpr ⟨rfl, rfl, rfl⟩

theorem eq_symm (h : a.eq b = true) : b.eq a = true := by
  rw [eq_iff] at h ⊢
  exact ⟨h.1.symm, h.2.1.symm, h.2.2.symm⟩

theorem eq_trans (h : a.eq b = true) (h' : b.eq c = true) : a.eq c = true := by
  rw [eq_iff] at h h' ⊢
  exact ⟨h.1.trans h'.1, h.2.1.trans h'.2.1, h.2.2.trans h'.2.2⟩

theorem online_of_eq (h : a.eq b = true) : a.online = b.online := by
  rw [eq_iff] at h
  rw [online, online, h.1, h.2.1]

theorem offline_eq_true : a.offline = true ↔ a.online = false := by
  rw [offline, Bool.not_eq_true']

end NetInfo

namespace NetworkMonitor

inductive Op where
  | checkStatus (newInfo : Detection)
  | setHardNat (hardNat : Bool)

def apply (netmon : NetworkMonitor) : Op → NetworkMonitor
  | .checkStatus newInfo => (netmon.checkStatus newInfo).2
  | .setHardNat hardNat => netmon.setHardNat hardNat

def run (netmon : NetworkMonitor) (ops : List Op) : NetworkMonitor := ops.foldl apply netmon

/-- The network last seen online is the current one, or the one left by an
outage. Its flag is never set. -/
structure Consistent (netmon : NetworkMonitor) : Prop where
  unmarked : ∀ last, netmon.lastOnline = some last → last.hardNat = false
  follows : ∀ current, netmon.current = some current → current.online = true →
    ∃ last, netmon.lastOnline = some last ∧ current.eq last = true

theorem consistent_new : new.Consistent := by
  refine ⟨fun last h ↦ ?_, fun current h ↦ ?_⟩
  · cases h
  · cases h

variable {netmon : NetworkMonitor} {network current : NetInfo}

theorem Consistent.setHardNat (h : netmon.Consistent) (hardNat : Bool) :
    (netmon.setHardNat hardNat).Consistent := by
  refine ⟨h.unmarked, fun current hcurrent honline ↦ ?_⟩
  obtain ⟨c, hc, rfl⟩ := Option.map_eq_some_iff.mp hcurrent
  exact h.follows c hc honline

inductive Checked (netmon : NetworkMonitor) (newInfo : NetInfo) :
    NetStatus × NetworkMonitor → Prop
  | first (h : netmon.current = none) :
      Checked netmon newInfo (.changedToNew, ⟨some newInfo, some newInfo⟩)
  | outage {current : NetInfo} (h : netmon.current = some current)
      (hoffline : newInfo.online = false) :
      Checked netmon newInfo (.offline, { netmon with current := some newInfo })
  | same {current : NetInfo} (h : netmon.current = some current) (honline : newInfo.online = true)
      (hsame : newInfo.eq current = true) :
      Checked netmon newInfo (if current.hardNat then .hardNat else .online, netmon)
  | back {current last : NetInfo} (h : netmon.current = some current)
      (hlast : netmon.lastOnline = some last) (honline : newInfo.online = true)
      (hoffline : current.online = false) (hback : newInfo.eq last = true) :
      Checked netmon newInfo (if last.hardNat then .hardNat else .changedToPrev,
        { netmon with current := some newInfo })
  | changed {current : NetInfo} (h : netmon.current = some current)
      (honline : newInfo.online = true) (hother : newInfo.eq current = false)
      (hnew : current.online = true ∨
        ∀ last, netmon.lastOnline = some last → newInfo.eq last = false) :
      Checked netmon newInfo (.changedToNew, ⟨some newInfo, some newInfo⟩)

theorem checked (netmon : NetworkMonitor) (newInfo : NetInfo) :
    Checked netmon newInfo (netmon.checkStatus newInfo) := by
  rw [checkStatus]
  cases hcurrent : netmon.current with
  | none => exact .first hcurrent
  | some current =>
    dsimp only
    split
    · next hoffline => exact .outage hcurrent (NetInfo.offline_eq_true.mp hoffline)
    · next hoffline =>
      have honline : newInfo.online = true := by
        rwa [NetInfo.offline_eq_true, Bool.not_eq_false] at hoffline
      split
      · next hsame => exact .same hcurrent honline hsame
      · next hother =>
        rw [Bool.not_eq_true] at hother
        split
        · next hback =>
          rw [Bool.and_eq_true, NetInfo.offline_eq_true, isLastOnline,
            Option.any_eq_true] at hback
          obtain ⟨hoffline, last, hlast, hback⟩ := hback
          have hmark : netmon.lastOnline.any (·.hardNat) = last.hardNat := by
            rw [hlast]
            rfl
          rw [hmark]
          exact .back hcurrent hlast honline hoffline hback
        · next hnew =>
          refine .changed hcurrent honline hother ?_
          rw [Bool.and_eq_true, NetInfo.offline_eq_true, isLastOnline] at hnew
          cases hc : current.online with
          | true => exact .inl rfl
          | false =>
            refine .inr fun last hlast ↦ ?_
            rw [hlast] at hnew
            simpa using fun h ↦ hnew ⟨hc, h⟩

theorem Consistent.changed (newInfo : Detection) :
    Consistent ⟨some newInfo.1, some newInfo.1⟩ := by
  refine ⟨fun last h ↦ ?_, fun current h _ ↦ ?_⟩
  · cases h
    exact newInfo.2
  · cases h
    exact ⟨newInfo.1, rfl, NetInfo.eq_refl _⟩

theorem Consistent.checkStatus (h : netmon.Consistent) (newInfo : Detection) :
    (netmon.checkStatus newInfo).2.Consistent := by
  have hchecked := checked netmon newInfo
  generalize netmon.checkStatus newInfo = r at hchecked ⊢
  cases hchecked with
  | first => exact .changed newInfo
  | outage _ hoffline =>
    refine ⟨h.unmarked, fun current hcurrent honline ↦ ?_⟩
    cases hcurrent
    cases hoffline.symm.trans honline
  | same => exact h
  | @back _ last _ hlast _ _ hback =>
    refine ⟨h.unmarked, fun current hcurrent _ ↦ ?_⟩
    cases hcurrent
    exact ⟨last, hlast, hback⟩
  | changed => exact .changed newInfo

theorem Consistent.run (h : netmon.Consistent) (ops : List Op) : (netmon.run ops).Consistent := by
  induction ops generalizing netmon with
  | nil => exact h
  | cons op ops ih =>
    cases op with
    | checkStatus newInfo => exact ih (h.checkStatus newInfo)
    | setHardNat hardNat => exact ih (h.setHardNat hardNat)

/-- From `netmon` on, `network` or no network at all is detected, and
`set_hard_nat` is called for no network but those of an outage. -/
def OutagesOf (network : NetInfo) (netmon : NetworkMonitor) : List Op → Prop
  | [] => True
  | .checkStatus newInfo :: ops =>
    (newInfo.1.online = false ∨ newInfo.1.eq network = true) ∧
      OutagesOf network (netmon.checkStatus newInfo).2 ops
  | .setHardNat hardNat :: ops =>
    (∃ current, netmon.current = some current ∧ current.online = false) ∧
      OutagesOf network (netmon.setHardNat hardNat) ops

def Marked (network : NetInfo) (netmon : NetworkMonitor) : Prop :=
  ∃ current, netmon.current = some current ∧ current.eq network = true ∧ current.hardNat = true

/-- The verdict is lost: `network` is only known from the time before the
outage, and a detection of it since is not marked. -/
structure Lost (network : NetInfo) (netmon : NetworkMonitor) : Prop where
  known : ∃ last, netmon.lastOnline = some last ∧ last.eq network = true ∧ last.hardNat = false
  current : ∃ current, netmon.current = some current ∧
    (current.online = false ∨ current.eq network = true ∧ current.hardNat = false)

theorem Marked.checkStatus (h : netmon.Marked network) (honline : network.online = true)
    {newInfo : NetInfo} (heq : newInfo.eq network = true) :
    netmon.checkStatus newInfo = (.hardNat, netmon) := by
  obtain ⟨current, hcurrent, hnetwork, hmark⟩ := h
  have hnew : newInfo.offline = false := by
    rw [NetInfo.offline, NetInfo.online_of_eq heq, honline, Bool.not_true]
  have hsame : newInfo.eq current = true := NetInfo.eq_trans heq (NetInfo.eq_symm hnetwork)
  simp [NetworkMonitor.checkStatus, hcurrent, hnew, hsame, hmark]

theorem Marked.outage (h : netmon.Marked network) (hcons : netmon.Consistent)
    (honline : network.online = true) {newInfo : NetInfo} (hoffline : newInfo.online = false) :
    (netmon.checkStatus newInfo).2.Lost network := by
  obtain ⟨current, hcurrent, hnetwork, hmark⟩ := h
  obtain ⟨last, hlast, hsame⟩ := hcons.follows current hcurrent
    ((NetInfo.online_of_eq hnetwork).trans honline)
  have hnew : newInfo.offline = true := NetInfo.offline_eq_true.mpr hoffline
  have hstate : (netmon.checkStatus newInfo).2 = { netmon with current := some newInfo } := by
    simp [NetworkMonitor.checkStatus, hcurrent, hnew]
  rw [hstate]
  refine ⟨⟨last, hlast, ?_, hcons.unmarked last hlast⟩, newInfo, rfl, .inl hoffline⟩
  exact NetInfo.eq_trans (NetInfo.eq_symm hsame) hnetwork

theorem Lost.checkStatus (h : netmon.Lost network) (newInfo : Detection)
    (hnew : newInfo.1.online = false ∨ newInfo.1.eq network = true) :
    (netmon.checkStatus newInfo).1 ≠ .hardNat ∧ (netmon.checkStatus newInfo).2.Lost network := by
  obtain ⟨⟨last, hlast, hlastNetwork, hunmarked⟩, current, hcurrent, hstate⟩ := h
  have hchecked := checked netmon newInfo
  generalize netmon.checkStatus newInfo = r at hchecked ⊢
  cases hchecked with
  | first hnone => cases hnone.symm.trans hcurrent
  | outage _ hoffline =>
    exact ⟨NetStatus.noConfusion, ⟨last, hlast, hlastNetwork, hunmarked⟩, newInfo, rfl,
      .inl hoffline⟩
  | @same current' h' hon hsame =>
    cases hcurrent.symm.trans h'
    rcases hstate with hoffline | ⟨hnetwork, hunmarked'⟩
    · rw [NetInfo.online_of_eq hsame, hoffline] at hon
      cases hon
    · refine ⟨?_, ⟨last, hlast, hlastNetwork, hunmarked⟩, current, hcurrent,
        .inr ⟨hnetwork, hunmarked'⟩⟩
      rw [hunmarked']
      exact NetStatus.noConfusion
  | @back _ last' _ hlast' hon _ _ =>
    cases hlast.symm.trans hlast'
    refine ⟨?_, ⟨last, hlast, hlastNetwork, hunmarked⟩, newInfo, rfl, ?_⟩
    · rw [hunmarked]
      exact NetStatus.noConfusion
    · exact hnew.imp_right fun heq ↦ ⟨heq, newInfo.2⟩
  | changed h' hon hother hnewInfo =>
    cases hcurrent.symm.trans h'
    have heq : newInfo.1.eq network = true := hnew.resolve_left (by rw [hon]; exact Bool.noConfusion)
    have hback : newInfo.1.eq last = true := NetInfo.eq_trans heq (NetInfo.eq_symm hlastNetwork)
    rcases hnewInfo with hcurrentOnline | hnewInfo
    · rcases hstate with hoffline | ⟨hnetwork, -⟩
      · cases hoffline.symm.trans hcurrentOnline
      · cases hother.symm.trans (NetInfo.eq_trans heq (NetInfo.eq_symm hnetwork))
    · cases (hnewInfo last hlast).symm.trans hback

theorem Lost.setHardNat (h : netmon.Lost network)
    (hoffline : ∃ current, netmon.current = some current ∧ current.online = false)
    (hardNat : Bool) : (netmon.setHardNat hardNat).Lost network := by
  obtain ⟨current, hcurrent, hoffline⟩ := hoffline
  refine ⟨h.known, { current with hardNat }, ?_, .inl hoffline⟩
  rw [NetworkMonitor.setHardNat, hcurrent]
  rfl

theorem Lost.run (h : netmon.Lost network) {mid : List Op}
    (hmid : OutagesOf network netmon mid) : (netmon.run mid).Lost network := by
  induction mid generalizing netmon with
  | nil => exact h
  | cons op mid ih =>
    cases op with
    | checkStatus newInfo => exact ih (h.checkStatus newInfo hmid.1).2 hmid.2
    | setHardNat hardNat => exact ih (h.setHardNat hmid.1 hardNat) hmid.2

theorem Marked.not_setHardNat (h : netmon.Marked network) (honline : network.online = true)
    {hardNat : Bool} {mid : List Op} : ¬ OutagesOf network netmon (.setHardNat hardNat :: mid) := by
  intro hmid
  obtain ⟨⟨current, hcurrent, hoffline⟩, -⟩ := hmid
  obtain ⟨current', hcurrent', hnetwork, -⟩ := h
  cases hcurrent.symm.trans hcurrent'
  rw [NetInfo.online_of_eq hnetwork, honline] at hoffline
  cases hoffline

theorem Marked.run_cons (h : netmon.Marked network) (honline : network.online = true)
    {newInfo : Detection} {mid : List Op}
    (hmid : OutagesOf network netmon (.checkStatus newInfo :: mid))
    (hon : newInfo.1.online = true) : OutagesOf network netmon mid ∧
      netmon.run (.checkStatus newInfo :: mid) = netmon.run mid := by
  obtain ⟨hnew, hmid⟩ := hmid
  have heq : newInfo.1.eq network = true := hnew.resolve_left (by rw [hon]; exact Bool.noConfusion)
  have hstate : (netmon.checkStatus newInfo).2 = netmon := by
    rw [h.checkStatus honline heq]
  rw [hstate] at hmid
  refine ⟨hmid, ?_⟩
  rw [NetworkMonitor.run, List.foldl_cons, apply, hstate]
  rfl

theorem Marked.run (h : netmon.Marked network) (honline : network.online = true) {mid : List Op}
    (hmid : OutagesOf network netmon mid)
    (hall : ∀ newInfo, .checkStatus newInfo ∈ mid → newInfo.1.online = true) :
    netmon.run mid = netmon := by
  induction mid with
  | nil => rfl
  | cons op mid ih =>
    cases op with
    | checkStatus newInfo =>
      obtain ⟨hmid, hrun⟩ := h.run_cons honline hmid (hall newInfo List.mem_cons_self)
      rw [hrun]
      exact ih hmid fun d hd ↦ hall d (List.mem_cons_of_mem _ hd)
    | setHardNat hardNat => exact (h.not_setHardNat honline hmid).elim

theorem Marked.run_outage (h : netmon.Marked network) (hcons : netmon.Consistent)
    (honline : network.online = true) {mid : List Op} (hmid : OutagesOf network netmon mid)
    {outage : Detection} (hmem : .checkStatus outage ∈ mid) (hoffline : outage.1.online = false) :
    (netmon.run mid).Lost network := by
  induction mid with
  | nil => cases hmem
  | cons op mid ih =>
    cases op with
    | checkStatus newInfo =>
      cases hon : newInfo.1.online with
      | false => exact (h.outage hcons honline hon).run hmid.2
      | true =>
        obtain ⟨hmid, hrun⟩ := h.run_cons honline hmid hon
        rw [hrun]
        rcases List.mem_cons.mp hmem with hfirst | hmem
        · cases hfirst
          cases hon.symm.trans hoffline
        · exact ih hmid hmem
    | setHardNat hardNat => exact (h.not_setHardNat honline hmid).elim

theorem marked_setHardNat (h : netmon.current = some network) :
    (netmon.setHardNat true).Marked network := by
  refine ⟨{ network with hardNat := true }, ?_, NetInfo.eq_iff.mpr ⟨rfl, rfl, rfl⟩, rfl⟩
  rw [NetworkMonitor.setHardNat, h]
  rfl

/-- A hard NAT verdict for the current network stands exactly until the next
outage, in every run. -/
theorem hardNat_survives_iff {ops mid : List Op} (hcurrent : (run new ops).current = some network)
    (honline : network.online = true)
    (hmid : OutagesOf network ((run new ops).setHardNat true) mid) {newInfo : Detection}
    (hback : newInfo.1.eq network = true) :
    let netmon := ((run new ops).setHardNat true).run mid
    ((netmon.checkStatus newInfo).1 = .hardNat ∧
        (netmon.checkStatus newInfo).2.needsRelay = true) ↔
      ∀ d, .checkStatus d ∈ mid → d.1.online = true := by
  intro netmon
  have hcons : ((run new ops).setHardNat true).Consistent :=
    (consistent_new.run ops).setHardNat true
  have hmarked : ((run new ops).setHardNat true).Marked network := marked_setHardNat hcurrent
  constructor
  · intro h d hd
    by_contra hoffline
    rw [Bool.not_eq_true] at hoffline
    have hlost := hmarked.run_outage hcons honline hmid hd hoffline
    exact (hlost.checkStatus newInfo (.inr hback)).1 h.1
  · intro hall
    have hnetmon : netmon = (run new ops).setHardNat true := hmarked.run honline hmid hall
    rw [hnetmon, hmarked.checkStatus honline hback]
    obtain ⟨current, hcurrent', -, hmark⟩ := hmarked
    refine ⟨rfl, ?_⟩
    rw [needsRelay, hcurrent', Option.any_some, hmark]

def home : Detection := ⟨⟨some (.new 203 0 113 5), none, [], false⟩, rfl⟩

def outage : Detection := ⟨⟨none, none, [], false⟩, rfl⟩

theorem hardNat_survives_iff_home :
    let netmon := ((run new [.checkStatus home]).setHardNat true).run [.checkStatus home]
    (netmon.checkStatus home).1 = .hardNat ∧ (netmon.checkStatus home).2.needsRelay = true := by
  have hmid : OutagesOf home ((run new [.checkStatus home]).setHardNat true) [.checkStatus home] :=
    ⟨.inr rfl, trivial⟩
  refine (hardNat_survives_iff rfl rfl hmid rfl).mpr fun d hd ↦ ?_
  cases List.mem_singleton.mp hd
  rfl

/-- After one offline detection the same network is no longer known to be
behind a hard NAT. -/
theorem hardNat_lost :
    (run new [.checkStatus home]).current = some home.1 ∧
      OutagesOf home ((run new [.checkStatus home]).setHardNat true) [.checkStatus outage] ∧
      let netmon := ((run new [.checkStatus home]).setHardNat true).run [.checkStatus outage]
      (netmon.checkStatus home).1 = .changedToPrev ∧
        (netmon.checkStatus home).2.needsRelay = false := by
  refine ⟨rfl, ⟨.inl rfl, trivial⟩, ?_⟩
  decide

end NetworkMonitor

end Wireplug
