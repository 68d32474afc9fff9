import Wireplug.SeenPeers

namespace Wireplug

open Foundation Program ByteStream Client

namespace PeerTracker

variable {peerTracker : PeerTracker} {p : PeerInfo} {ps : List PeerInfo} {k : Key} {n : UInt64}

def Reached (peerTracker : PeerTracker) (k : Key) (n : UInt64) : Prop :=
  ∃ rx, peerTracker.rx k = some rx ∧ n ≤ rx

theorem reached_of_sameRx {peerTracker' : PeerTracker} (h : peerTracker.SameRx peerTracker') :
    peerTracker.Reached k n ↔ peerTracker'.Reached k n := by
  rw [Reached, Reached, h k]

theorem update_of_reached (h : peerTracker.Reached p.publicKey p.rxBytes) :
    peerTracker.update p = (false, peerTracker) := by
  obtain ⟨rx, hrx, hle⟩ := h
  obtain ⟨info, hinfo, rfl⟩ := Option.map_eq_some_iff.mp hrx
  rw [update, hinfo]
  exact if_neg (UInt64.not_lt.mpr hle)

theorem lt_of_not_reached {info : WireplugPeerInfo} (h : ¬ peerTracker.Reached p.publicKey n)
    (hget : peerTracker.peers.get? p.publicKey = some info) : info.rx < n := by
  refine UInt64.not_le.mp fun hle ↦ h ⟨info.rx, ?_, hle⟩
  rw [rx, hget]
  rfl

theorem update_of_not_reached (h : ¬ peerTracker.Reached p.publicKey p.rxBytes) :
    (peerTracker.update p).1 = true := by
  rw [update]
  cases hget : peerTracker.peers.get? p.publicKey with
  | none => rfl
  | some info =>
    dsimp only
    rw [if_pos (lt_of_not_reached h hget)]

theorem rx_update (h : ¬ peerTracker.Reached p.publicKey p.rxBytes) (k : Key) :
    (peerTracker.update p).2.rx k =
      if k = p.publicKey then some p.rxBytes else peerTracker.rx k := by
  rw [update]
  cases hget : peerTracker.peers.get? p.publicKey with
  | none =>
    dsimp only
    rw [rx, HashMap.get?_insert]
    split <;> rfl
  | some info =>
    dsimp only
    rw [if_pos (lt_of_not_reached h hget), rx, HashMap.get?_modify]
    split
    · rw [hget]
      rfl
    · rfl

theorem reached_update : (peerTracker.update p).2.Reached k n ↔
    peerTracker.Reached k n ∨ p.publicKey = k ∧ n ≤ p.rxBytes := by
  by_cases h : peerTracker.Reached p.publicKey p.rxBytes
  · rw [update_of_reached h]
    refine (or_iff_left_of_imp fun hk ↦ ?_).symm
    obtain ⟨rfl, hn⟩ := hk
    obtain ⟨rx, hrx, hle⟩ := h
    exact ⟨rx, hrx, UInt64.le_trans hn hle⟩
  · rw [Reached, rx_update h]
    split
    · next hk =>
      subst hk
      rw [Reached] at h
      constructor
      · intro hrx
        obtain ⟨rx, hrx, hn⟩ := hrx
        cases hrx
        exact .inr ⟨rfl, hn⟩
      · intro hrx
        rcases hrx with ⟨rx, hrx, hn⟩ | ⟨-, hn⟩
        · have hlt : rx < p.rxBytes := UInt64.not_le.mp fun hle ↦ h ⟨rx, hrx, hle⟩
          exact ⟨_, rfl, UInt64.le_trans hn (UInt64.le_of_lt hlt)⟩
        · exact ⟨_, rfl, hn⟩
    · next hk => exact (or_iff_left fun h' ↦ hk h'.1.symm).symm

theorem reached_updateAll : (peerTracker.updateAll ps).Reached k n ↔
    peerTracker.Reached k n ∨ ∃ p ∈ ps, p.publicKey = k ∧ n ≤ p.rxBytes := by
  induction ps generalizing peerTracker with
  | nil => simp [updateAll]
  | cons p ps ih =>
    rw [updateAll, List.foldl_cons, ← updateAll, ih, reached_update, or_assoc]
    simp

def Inactive (peerTracker : PeerTracker) (p : PeerInfo) : Prop :=
  p.lastHandshakeTime = none ∨ peerTracker.Reached p.publicKey p.rxBytes

theorem listInactive_of_inactive (h : peerTracker.Inactive p) (ps : List PeerInfo) :
    (peerTracker.listInactive (p :: ps)).1 = p.publicKey :: (peerTracker.listInactive ps).1 := by
  rw [listInactive]
  cases hhandshake : p.lastHandshakeTime with
  | none => rfl
  | some time =>
    rw [update_of_reached (h.resolve_left (hhandshake ▸ Option.some_ne_none time))]
    rfl

theorem listInactive_of_active (h : ¬ peerTracker.Inactive p) (ps : List PeerInfo) :
    (peerTracker.listInactive (p :: ps)).1 = ((peerTracker.update p).2.listInactive ps).1 := by
  obtain ⟨hhandshake, hreached⟩ := not_or.mp h
  obtain ⟨time, htime⟩ := Option.ne_none_iff_exists'.mp hhandshake
  rw [listInactive, htime]
  dsimp only [Option.isNone_some]
  rw [update_of_not_reached hreached]
  rfl

theorem length_listInactive_le (peerTracker : PeerTracker) (ps : List PeerInfo) :
    (peerTracker.listInactive ps).1.length ≤ ps.length := by
  induction ps generalizing peerTracker with
  | nil => exact Nat.le_refl 0
  | cons p ps ih =>
    by_cases h : peerTracker.Inactive p
    · rw [listInactive_of_inactive h]
      exact Nat.succ_le_succ (ih peerTracker)
    · rw [listInactive_of_active h]
      exact (ih _).trans (Nat.le_succ _)

theorem listInactive_eq_map : (peerTracker.listInactive ps).1 = ps.map PeerInfo.publicKey ↔
    ∀ p ∈ ps, peerTracker.Inactive p := by
  induction ps with
  | nil => exact iff_of_true rfl fun p hp ↦ by cases hp
  | cons p ps ih =>
    rw [List.forall_mem_cons]
    by_cases h : peerTracker.Inactive p
    · rw [listInactive_of_inactive h, List.map_cons, List.cons_inj_right, ih, and_iff_right h]
    · rw [listInactive_of_active h]
      refine iff_of_false (fun heq ↦ ?_) fun hall ↦ h hall.1
      have hlen := length_listInactive_le (peerTracker.update p).2 ps
      rw [heq, List.length_map, List.length_cons] at hlen
      omega

/-- A poll on an interface that has the peer once lists it if it finds it inactive. -/
theorem mem_listInactive (h : ps.filter (fun q ↦ q.publicKey = p.publicKey) = [p]) :
    p.publicKey ∈ (peerTracker.listInactive ps).1 ↔ peerTracker.Inactive p := by
  induction ps generalizing peerTracker with
  | nil => cases h
  | cons q ps ih =>
    rw [List.filter_cons] at h
    by_cases hq : q.publicKey = p.publicKey
    · rw [if_pos (decide_eq_true hq)] at h
      obtain ⟨rfl, hrest⟩ := List.cons.inj h
      have hnone (tracker : PeerTracker) : q.publicKey ∉ (tracker.listInactive ps).1 := by
        intro hmem
        obtain ⟨q', hq', heq⟩ := List.mem_map.mp (listInactive_subset hmem)
        exact List.filter_eq_nil_iff.mp hrest q' hq' (decide_eq_true heq)
      by_cases hinactive : peerTracker.Inactive q
      · rw [listInactive_of_inactive hinactive]
        exact iff_of_true List.mem_cons_self hinactive
      · rw [listInactive_of_active hinactive]
        exact iff_of_false (hnone _) hinactive
    · rw [if_neg (fun heq ↦ hq (of_decide_eq_true heq))] at h
      by_cases hinactive : peerTracker.Inactive q
      · rw [listInactive_of_inactive hinactive, List.mem_cons, or_iff_right (Ne.symm hq)]
        exact ih h
      · rw [listInactive_of_active hinactive, ih h]
        exact or_congr_right (reached_update.trans (or_iff_left fun hp ↦ hq hp.1))

end PeerTracker

def shownIn : Event ClientEffect.Answer → List PeerInfo
  | ⟨.deviceGet .initPeersActivity, .ok device⟩ => device.peers
  | ⟨.deviceGet .getInactivePeersByRx, .ok device⟩ =>
    device.peers.filter fun p ↦ p.lastHandshakeTime.isSome
  | _ => []

/-- The peers that were shown to the tracker, with their counters at that time. -/
def shownPeers (t : ClientTrace) : List PeerInfo := t.flatMap shownIn

def deadlineAfter : Option Instant → Event ClientEffect.Answer → Option Instant
  | none, ⟨.now, now⟩ => some (now + peerIsInactiveDuration)
  | some deadline, ⟨.deviceGet .getAllPeers, .ok _⟩ => some (deadline + peerIsInactiveDuration)
  | some deadline, ⟨.deviceGet .getInactivePeersByRx, .ok _⟩ =>
    some (deadline + peerIsInactiveDuration)
  | deadline, _ => deadline

/-- When the next poll is due. Each poll and each new port moves the deadline on
by a fixed step. -/
def deadline (t : ClientTrace) : Option Instant := t.foldl deadlineAfter none

def listedIn (peers : List Key) : Event ClientEffect.Answer → List Key
  | ⟨.deviceGet _, .ok device⟩ => device.peers.map PeerInfo.publicKey
  | _ => peers

def peersOnInterface (t : ClientTrace) : List Key := t.foldl listedIn []

def HasShown (t : ClientTrace) (k : Key) (n : UInt64) : Prop :=
  ∃ q ∈ shownPeers t, q.publicKey = k ∧ n ≤ q.rxBytes

def Aside : ClientEffect → Prop
  | .deviceGet reader => reader = .announce
  | _ => True

variable {t u : ClientTrace} {k : Key} {n : UInt64}

theorem hasShown_append : HasShown (t ++ u) k n ↔ HasShown t k n ∨ HasShown u k n := by
  simp only [HasShown, shownPeers, List.flatMap_append, List.mem_append, or_and_right, exists_or]

theorem hasShown_iff {ps : List PeerInfo} (h : shownPeers t = ps) :
    HasShown t k n ↔ ∃ q ∈ ps, q.publicKey = k ∧ n ≤ q.rxBytes := by
  rw [HasShown, h]

theorem shownIn_of_aside {ev : Event ClientEffect.Answer} (h : Aside ev.1) : shownIn ev = [] := by
  obtain ⟨e, r⟩ := ev
  cases e with
  | deviceGet reader =>
    obtain rfl : reader = .announce := h
    rfl
  | _ => rfl

theorem hasShown_append_of_aside (hu : ∀ ev ∈ u, Aside ev.1) :
    HasShown (t ++ u) k n ↔ HasShown t k n := by
  have hnone : shownPeers u = [] :=
    List.flatMap_eq_nil_iff.mpr fun ev hev ↦ shownIn_of_aside (hu ev hev)
  rw [hasShown_append, or_iff_left]
  intro h
  rw [HasShown, hnone] at h
  obtain ⟨q, hq, -⟩ := h
  cases hq

theorem deadlineAfter_of_aside {ev : Event ClientEffect.Answer} (h : Aside ev.1) (d : Instant) :
    deadlineAfter (some d) ev = some d := by
  obtain ⟨e, r⟩ := ev
  cases e with
  | deviceGet reader =>
    obtain rfl : reader = .announce := h
    rfl
  | _ => rfl

theorem deadline_append_of_aside {d : Instant} (ht : deadline t = some d)
    (hu : ∀ ev ∈ u, Aside ev.1) : deadline (t ++ u) = some d := by
  rw [deadline, List.foldl_append, ← deadline, ht]
  induction u with
  | nil => rfl
  | cons ev u ih =>
    rw [List.foldl_cons, deadlineAfter_of_aside (hu ev List.mem_cons_self)]
    exact ih fun ev' hev' ↦ hu ev' (List.mem_cons_of_mem _ hev')

structure InStep (s : MonitorState) (t : ClientTrace) : Prop where
  deadline_eq : deadline t = some s.nextInactivityCheck
  reached_iff : ∀ k n, s.peersManager.Reached k n ↔ HasShown t k n

theorem InStep.append {s s' : MonitorState} (h : InStep s t) (hu : ∀ ev ∈ u, Aside ev.1)
    (hnext : s'.nextInactivityCheck = s.nextInactivityCheck)
    (hrx : s'.peersManager.SameRx s.peersManager) : InStep s' (t ++ u) where
  deadline_eq := by
    rw [hnext]
    exact deadline_append_of_aside h.deadline_eq hu
  reached_iff k n := by
    rw [hasShown_append_of_aside hu, ← h.reached_iff, PeerTracker.reached_of_sameRx hrx]

end Wireplug
