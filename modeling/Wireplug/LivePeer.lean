import Mathlib.Tactic.IntervalCases
import Wireplug.NetworkChange

namespace Wireplug

open Foundation Program ByteStream Client

/-- The `n`-th call takes effect at `time n`. The interface then has the peer
once, with a handshake, and with what its counter stands at. -/
def ShowsLive (time : ℕ → Instant) (rx : Instant → ℕ) (k : Key) (n : ℕ) :
    (e : ClientEffect) → e.Answer → Prop
  | .now, now => now = time n
  | .deviceGet _, .ok device => ∃ p, device.peers.filter (fun q ↦ q.publicKey = k) = [p] ∧
      p.lastHandshakeTime ≠ none ∧ p.rxBytes.toNat = rx (time n)
  | _, _ => True

abbrev LiveAnswers (time : ℕ → Instant) (rx : Instant → ℕ) (k : Key) (t : ClientTrace) :
    (e : ClientEffect) → e.Answer → Prop :=
  ShowsLive time rx k t.length

def LooksAt (t : ClientTrace) (m : ℕ) : Prop :=
  ∃ reader device, t[m]? = some ⟨.deviceGet reader, .ok device⟩ ∧
    (reader = .initPeersActivity ∨ reader = .getInactivePeersByRx)

section Live

variable {time : ℕ → Instant} {rx : Instant → ℕ} {k : Key} {t u v w : ClientTrace}

theorem mem_of_live {p q : PeerInfo} {ps : List PeerInfo}
    (h : ps.filter (fun q ↦ q.publicKey = k) = [p]) :
    q ∈ ps ∧ q.publicKey = k ↔ q = p := by
  have hmem : q ∈ ps.filter (fun q ↦ q.publicKey = k) ↔ q ∈ [p] := by rw [h]
  rwa [List.mem_filter, decide_eq_true_eq, List.mem_singleton] at hmem

theorem mem_shownPeers {q : PeerInfo} : q ∈ shownPeers t ↔
    ∃ (m : ℕ) (reader : DeviceReader) (device : Device),
      t[m]? = some ⟨.deviceGet reader, .ok device⟩ ∧ q ∈ device.peers ∧
        (reader = .initPeersActivity ∨
          reader = .getInactivePeersByRx ∧ q.lastHandshakeTime ≠ none) := by
  rw [shownPeers, List.mem_flatMap]
  constructor
  · intro h
    obtain ⟨⟨e, r⟩, hev, hq⟩ := h
    obtain ⟨m, hm⟩ := List.mem_iff_getElem?.mp hev
    cases e with
    | deviceGet reader =>
      cases r with
      | error e => cases reader <;> cases hq
      | ok device =>
        cases reader with
        | initPeersActivity => exact ⟨m, _, device, hm, hq, .inl rfl⟩
        | getInactivePeersByRx =>
          obtain ⟨hq, hhandshake⟩ := List.mem_filter.mp hq
          exact ⟨m, _, device, hm, hq, .inr ⟨rfl, Option.isSome_iff_ne_none.mp hhandshake⟩⟩
        | getAllPeers | announce => cases hq
    | _ => cases hq
  · intro h
    obtain ⟨m, reader, device, hm, hq, hreader⟩ := h
    refine ⟨_, List.mem_of_getElem? hm, ?_⟩
    rcases hreader with rfl | ⟨rfl, hhandshake⟩
    · exact hq
    · exact List.mem_filter.mpr ⟨hq, Option.isSome_iff_ne_none.mpr hhandshake⟩

theorem hasShown_iff_looksAt (h : Answered (LiveAnswers time rx k) [] t) (n : UInt64) :
    HasShown t k n ↔ ∃ m, LooksAt t m ∧ n.toNat ≤ rx (time m) := by
  have hlive {m : ℕ} {reader : DeviceReader} {device : Device}
      (hm : t[m]? = some ⟨.deviceGet reader, .ok device⟩) :
      ShowsLive time rx k m (.deviceGet reader) (.ok device) := by
    have hget := h.get hm
    have hlt := (List.getElem?_eq_some_iff.mp hm).1
    rwa [LiveAnswers, List.length_take, Nat.min_eq_left hlt.le] at hget
  constructor
  · intro hshown
    obtain ⟨q, hq, hk, hn⟩ := hshown
    obtain ⟨m, reader, device, hm, hmem, hreader⟩ := mem_shownPeers.mp hq
    obtain ⟨p, hfilter, -, hrx⟩ := hlive hm
    obtain rfl := (mem_of_live hfilter).mp ⟨hmem, hk⟩
    refine ⟨m, ⟨reader, device, hm, hreader.imp_right And.left⟩, ?_⟩
    rw [← hrx]
    exact UInt64.le_iff_toNat_le.mp hn
  · intro hlooks
    obtain ⟨m, ⟨reader, device, hm, hreader⟩, hn⟩ := hlooks
    obtain ⟨p, hfilter, hhandshake, hrx⟩ := hlive hm
    obtain ⟨hmem, hk⟩ := (mem_of_live hfilter).mpr rfl
    rw [← hrx] at hn
    exact ⟨p, mem_shownPeers.mpr ⟨m, reader, device, hm, hmem,
      hreader.imp_right fun heq ↦ ⟨heq, hhandshake⟩⟩, hk, UInt64.le_iff_toNat_le.mpr hn⟩

end Live

section Polls

variable {fromBase64 : String → Option Key} {ifName : String} {traverseNat : Bool}
  {s s' : MonitorState} {t u v w : ClientTrace} {r : MonitorState × Option NetInfo}
  {device : Device}

theorem Polled.inactivePeers (h : Polled s s' u)
    (hpoll : ⟨.deviceGet .getInactivePeersByRx, .ok device⟩ ∈ u) :
    s'.inactivePeers = (s.peersManager.listInactive device.peers).1 := by
  cases h with
  | notYet => cases List.mem_singleton.mp hpoll
  | due =>
    rcases List.mem_cons.mp hpoll with heq | hmem
    · cases heq
    · cases List.mem_singleton.mp hmem
      rfl

theorem Reaches.inactivePeers (h : Reaches s r u)
    (hpoll : ⟨.deviceGet .getInactivePeersByRx, .ok device⟩ ∈ u) :
    r.1.inactivePeers = (s.peersManager.listInactive device.peers).1 := by
  obtain ⟨s', call⟩ := r
  cases h with
  | ended hu => exact (not_mem_of_apart hu id _ hpoll).elim
  | unchanged hu hpath =>
    obtain ⟨v, w, rfl, hpolled, hw, -⟩ := path_findInactive hpath
    rcases List.mem_append.mp hpoll with hpoll | hpoll
    · exact (not_mem_of_apart hu id _ hpoll).elim
    · rcases List.mem_append.mp hpoll with hpoll | hpoll
      · exact hpolled.inactivePeers hpoll
      · exact (not_mem_of_apart hw id _ hpoll).elim
  | renewed hu _ hnew hpath =>
    obtain ⟨v, w, rfl, hpolled, hw, -⟩ := path_findInactive hpath
    have hmem := (mem_renewedRound hu hnew hw (.deviceGet .getInactivePeersByRx) (.ok device) id
      (fun _ heq ↦ by cases heq) fun heq ↦ by cases heq).mp hpoll
    rw [hpolled.inactivePeers hmem, hnew.peersManager]

/-- A poll passes a live peer over exactly if its counter has grown since every earlier look, as it
has after 25 seconds. -/
theorem live_not_listed_iff {time : ℕ → Instant} {rx : Instant → ℕ} {k : Key}
    (hrx : Monotone rx) (hgrows : ∀ τ, rx τ < rx (τ + peerIsInactiveDuration))
    (h : MonitorRun fromBase64 ifName traverseNat (LiveAnswers time rx k) t (.done (.ok s)))
    (hround : Path (reachAnnouncing traverseNat s).run
      (v ++ ⟨.deviceGet .getInactivePeersByRx, .ok device⟩ :: w) (.done (.ok r)))
    (hanswered : Answered (LiveAnswers time rx k) t
      (v ++ ⟨.deviceGet .getInactivePeersByRx, .ok device⟩ :: w)) :
    k ∉ r.1.inactivePeers ↔ ∀ m, LooksAt t m →
      time m + peerIsInactiveDuration ≤ time (t.length + v.length) ∨
        rx (time m) < rx (time (t.length + v.length)) := by
  obtain ⟨p, hfilter, hhandshake, hcount⟩ := hanswered.at
  obtain ⟨-, rfl⟩ := (mem_of_live hfilter).mpr rfl
  rw [List.length_append] at hcount
  have hpoll : ⟨.deviceGet .getInactivePeersByRx, .ok device⟩ ∈
      v ++ ⟨.deviceGet .getInactivePeersByRx, .ok device⟩ :: w := by simp
  rw [(path_reachAnnouncing hround).inactivePeers hpoll, PeerTracker.mem_listInactive hfilter,
    PeerTracker.Inactive, or_iff_right hhandshake, (inStep_of_run h).reached_iff,
    hasShown_iff_looksAt h.answered, hcount, not_exists]
  refine forall_congr' fun m ↦ ?_
  rw [not_and, Nat.not_le]
  refine forall_congr' fun _ ↦ (or_iff_right_of_imp fun hlong ↦ ?_).symm
  exact (hgrows (time m)).trans_le (hrx hlong)

/-- The deadline as the readings of the clock and the network changes move it. -/
def dueAfter : Option Instant → Event ClientEffect.Answer → Option Instant
  | none, ⟨.now, now⟩ => some (now + peerIsInactiveDuration)
  | some due, ⟨.now, now⟩ => if due < now then some (due + peerIsInactiveDuration) else some due
  | some due, ⟨.deviceGet .getAllPeers, .ok _⟩ => some (due + peerIsInactiveDuration)
  | due, _ => due

def due (t : ClientTrace) : Option Instant := t.foldl dueAfter none

def Overdue (t : ClientTrace) (n : ℕ) : Prop :=
  ∃ d now, due (t.take n) = some d ∧ t[n]? = some ⟨.now, now⟩ ∧ d < now

/-- The calls at which the schedule has the interface looked at: the first one, and each one after
a reading past the deadline. -/
def Scheduled (t : ClientTrace) (m : ℕ) : Prop := m = 0 ∨ ∃ n, m = n + 1 ∧ Overdue t n

def LooksSpaced (time : ℕ → Instant) (t : ClientTrace) : Prop :=
  ∀ m n, Scheduled t m → Scheduled t n → m < n → time m + peerIsInactiveDuration ≤ time n

theorem due_append (t u : ClientTrace) : due (t ++ u) = u.foldl dueAfter (due t) :=
  List.foldl_append

theorem Overdue.append {n : ℕ} (h : Overdue t n) (u : ClientTrace) : Overdue (t ++ u) n := by
  obtain ⟨d, now, hdue, hnow, hlt⟩ := h
  have hn := (List.getElem?_eq_some_iff.mp hnow).1
  refine ⟨d, now, ?_, ?_, hlt⟩
  · rwa [List.take_append_of_le_length hn.le]
  · rwa [List.getElem?_append_left hn]

theorem Scheduled.append {m : ℕ} (h : Scheduled t m) (u : ClientTrace) :
    Scheduled (t ++ u) m :=
  h.imp_right fun ⟨n, hm, hn⟩ ↦ ⟨n, hm, hn.append u⟩

def Unscheduled : ClientEffect → Prop
  | .now => False
  | .deviceGet reader => reader = .announce
  | _ => True

theorem Apart.unscheduled {e : ClientEffect} (h : Apart e) : Unscheduled e := by
  cases e with
  | deviceGet | now => exact h.elim
  | _ => trivial

theorem HandlesInactive.unscheduled {port : UInt16} {e : ClientEffect}
    (h : HandlesInactive port e) : Unscheduled e := by
  cases e with
  | deviceGet reader => exact h
  | now => exact h
  | _ => trivial

/-- The loop keeps the deadline of the schedule, and looks at the interface when the schedule says
so. -/
structure OnSchedule (s : MonitorState) (t : ClientTrace) : Prop where
  due_eq : due t = some s.nextInactivityCheck
  scheduled : ∀ m, LooksAt t m → Scheduled t m

theorem due_unscheduled {d : Option Instant} (hu : ∀ ev ∈ u, Unscheduled ev.1) :
    u.foldl dueAfter d = d := by
  induction u generalizing d with
  | nil => rfl
  | cons ev u ih =>
    have hev := hu ev List.mem_cons_self
    have hsame : dueAfter d ev = d := by
      obtain ⟨e, r⟩ := ev
      cases e with
      | now => exact hev.elim
      | deviceGet reader =>
        obtain rfl : reader = .announce := hev
        cases d <;> rfl
      | _ => cases d <;> rfl
    rw [List.foldl_cons, hsame]
    exact ih fun ev hev ↦ hu ev (List.mem_cons_of_mem _ hev)

theorem looksAt_append {m : ℕ} (h : LooksAt (t ++ u) m) :
    LooksAt t m ∨ t.length ≤ m ∧ LooksAt u (m - t.length) := by
  obtain ⟨reader, device, hm, hreader⟩ := h
  by_cases hlt : m < t.length
  · rw [List.getElem?_append_left hlt] at hm
    exact .inl ⟨reader, device, hm, hreader⟩
  · rw [List.getElem?_append_right (Nat.le_of_not_lt hlt)] at hm
    exact .inr ⟨Nat.le_of_not_lt hlt, reader, device, hm, hreader⟩

theorem not_looksAt_of_unscheduled {m : ℕ} (hu : ∀ ev ∈ u, Unscheduled ev.1) :
    ¬ LooksAt u m := by
  rintro ⟨reader, device, hm, hreader⟩
  obtain rfl : reader = .announce := hu _ (List.mem_of_getElem? hm)
  rcases hreader with h | h <;> cases h

theorem OnSchedule.append (h : OnSchedule s t) (hu : ∀ ev ∈ u, Unscheduled ev.1)
    (hnext : s'.nextInactivityCheck = s.nextInactivityCheck) : OnSchedule s' (t ++ u) where
  due_eq := by rw [due_append, due_unscheduled hu, h.due_eq, hnext]
  scheduled m hm := by
    rcases looksAt_append hm with hm | ⟨-, hm⟩
    · exact (h.scheduled m hm).append u
    · exact (not_looksAt_of_unscheduled hu hm).elim

theorem OnSchedule.renewed (h : OnSchedule s t) (hnew : Renewed s s' u device) :
    OnSchedule s' (t ++ u) := by
  obtain ⟨w, newPort, hw, rfl⟩ := hnew.trace
  have hw' : ∀ ev ∈ w, Unscheduled ev.1 := fun ev hev ↦ (hw ev hev).unscheduled
  refine ⟨?_, fun m hm ↦ ?_⟩
  · rw [due_append, List.foldl_append, due_unscheduled hw', h.due_eq, hnew.next]
    rfl
  · rcases looksAt_append hm with hm | ⟨-, hm⟩
    · exact (h.scheduled m hm).append _
    · obtain ⟨reader, device', hget, hreader⟩ := hm
      rcases List.mem_append.mp (List.mem_of_getElem? hget) with hmem | hmem
      · obtain rfl : reader = .announce := hw' _ hmem
        rcases hreader with h | h <;> cases h
      · simp only [List.mem_cons, List.not_mem_nil, or_false] at hmem
        rcases hmem with heq | heq
        · cases heq
        · cases heq
          rcases hreader with h | h <;> cases h

theorem OnSchedule.polled (h : OnSchedule s t) (hpoll : Polled s s' u) :
    OnSchedule s' (t ++ u) := by
  cases hpoll with
  | @notYet now hle =>
    refine ⟨?_, fun m hm ↦ ?_⟩
    · rw [due_append, h.due_eq]
      exact if_neg hle.not_gt
    · rcases looksAt_append hm with hm | ⟨-, reader, device, hget, -⟩
      · exact (h.scheduled m hm).append _
      · cases List.mem_singleton.mp (List.mem_of_getElem? hget)
  | @due now hlt device =>
    refine ⟨?_, fun m hm ↦ ?_⟩
    · have hmoved : dueAfter (some s.nextInactivityCheck) ⟨.now, now⟩ =
        some (s.nextInactivityCheck + peerIsInactiveDuration) := if_pos hlt
      rw [due_append, h.due_eq, List.foldl_cons, hmoved]
      rfl
    · rcases looksAt_append hm with hm | ⟨hle, reader, device', hget, -⟩
      · exact (h.scheduled m hm).append _
      · have hindex : m - t.length = 1 := by
          rcases hk : m - t.length with _ | _ | k
          · rw [hk] at hget
            cases hget
          · rfl
          · rw [hk] at hget
            cases hget
        refine .inr ⟨t.length, by omega, s.nextInactivityCheck, now, ?_, ?_, hlt⟩
        · rw [List.take_left]
          exact h.due_eq
        · rw [List.getElem?_append_right (Nat.le_refl _), Nat.sub_self]
          rfl

theorem OnSchedule.found {call : Option NetInfo} (h : OnSchedule s t)
    (hpath : Path (findInactive s).run u (.done (.ok (s', call)))) : OnSchedule s' (t ++ u) := by
  obtain ⟨v, w, rfl, hpoll, hw, -⟩ := path_findInactive hpath
  rw [← List.append_assoc]
  exact (h.polled hpoll).append (fun ev hev ↦ (hw ev hev).unscheduled) rfl

theorem OnSchedule.reaches (h : OnSchedule s t) (hreach : Reaches s r u) :
    OnSchedule r.1 (t ++ u) := by
  cases hreach with
  | ended hu => exact h.append (fun ev hev ↦ (hu ev hev).unscheduled) rfl
  | @unchanged netmon u _ _ hu hpath =>
    have hchecked : OnSchedule { s with netmon } (t ++ u) :=
      h.append (fun ev hev ↦ (hu ev hev).unscheduled) rfl
    rw [← List.append_assoc]
    exact hchecked.found hpath
  | @renewed netmon _ _ u _ _ _ hu _ hnew hpath =>
    have hchecked : OnSchedule { s with netmon } (t ++ u) :=
      h.append (fun ev hev ↦ (hu ev hev).unscheduled) rfl
    rw [← List.append_assoc, ← List.append_assoc]
    exact (hchecked.renewed hnew).found hpath

theorem OnSchedule.passed (h : OnSchedule r.1 t)
    (hpath : Path (passToHandler fromBase64 ifName r).run u (.done (.ok s'))) :
    OnSchedule s' (t ++ u) := by
  obtain ⟨s, call⟩ := r
  have hnext := (path_passToHandler hpath).2.1
  refine h.append (fun ev hev ↦ ?_) hnext
  cases call with
  | none =>
    cases hpath
    cases hev
  | some netinfo =>
    obtain ⟨_, v, w, rfl, hrounds, hrest⟩ := Path.try_done hpath
    obtain ⟨⟨⟩, w, rfl, hslept⟩ := path_ask hrest
    cases hslept
    rcases List.mem_append.mp hev with hev | hev
    · exact ((announceRounds_only fromBase64 ifName netinfo s.portToAnnounce s.netmon.needsRelay
        s.peersManager s.inactivePeers maxAnnounceRetries).of_path hrounds ev hev).unscheduled
    · cases List.mem_singleton.mp hev
      trivial

theorem onSchedule_start (h : Path monitorStart.run t (.done (.ok s))) : OnSchedule s t := by
  obtain ⟨peersManager, v, w, rfl, hinit, hrest⟩ := Path.try_done h
  obtain ⟨device, v, rfl, hdevice⟩ := path_deviceGet hinit
  cases hdevice
  obtain ⟨now, w, rfl, hnow⟩ := path_ask hrest
  cases hnow
  refine ⟨rfl, fun m hm ↦ ?_⟩
  obtain ⟨reader, device', hget, -⟩ := hm
  rcases m with _ | _ | m
  · exact .inl rfl
  · cases hget
  · cases hget

theorem onSchedule_of_run {assumes : ClientTrace → (e : ClientEffect) → e.Answer → Prop}
    (h : MonitorRun fromBase64 ifName traverseNat assumes t (.done (.ok s))) : OnSchedule s t := by
  have hrounds := h.rounds
  clear h
  induction hrounds with
  | start hpath => exact onSchedule_start hpath
  | @round _ _ s₀ _ _ hpath ih =>
    rw [monitorRound_eq] at hpath
    obtain ⟨r, v, w, rfl, hreach, hpass⟩ := Path.try_done hpath
    rw [← List.append_assoc]
    exact (ih.reaches (path_reachAnnouncing hreach)).passed hpass

theorem OnSchedule.poll (h : OnSchedule s t) (hreach : Reaches s r u)
    (hpoll : ⟨.deviceGet .getInactivePeersByRx, .ok device⟩ ∈ u) :
    ∃ v w, u = v ++ ⟨.deviceGet .getInactivePeersByRx, .ok device⟩ :: w ∧
      Scheduled (t ++ u) (t.length + v.length) := by
  have hfound {s₁ s₂ : MonitorState} {call : Option NetInfo} {x y : ClientTrace}
      (hx : OnSchedule s₁ (t ++ x)) (hpath : Path (findInactive s₁).run y (.done (.ok (s₂, call))))
      (hpoll : ⟨.deviceGet .getInactivePeersByRx, .ok device⟩ ∈ y) :
      ∃ v w, x ++ y = v ++ ⟨.deviceGet .getInactivePeersByRx, .ok device⟩ :: w ∧
        Scheduled (t ++ (x ++ y)) (t.length + v.length) := by
    obtain ⟨y, z, rfl, hpolled, hz, -⟩ := path_findInactive hpath
    rcases List.mem_append.mp hpoll with hpoll | hpoll
    · cases hpolled with
      | notYet => cases List.mem_singleton.mp hpoll
      | @due now hlt device' =>
        rcases List.mem_cons.mp hpoll with heq | hpoll
        · cases heq
        cases List.mem_singleton.mp hpoll
        refine ⟨x ++ [⟨.now, now⟩], z, by simp, .inr ⟨(t ++ x).length, by simp [Nat.add_assoc], ?_⟩⟩
        refine ⟨_, now, ?_, ?_, hlt⟩
        · rw [← List.append_assoc, List.take_left]
          exact hx.due_eq
        · rw [← List.append_assoc, List.getElem?_append_right (Nat.le_refl _), Nat.sub_self]
          rfl
    · exact (not_mem_of_apart hz id _ hpoll).elim
  cases hreach with
  | ended hu => exact (not_mem_of_apart hu id _ hpoll).elim
  | @unchanged netmon x _ _ hu hpath =>
    rcases List.mem_append.mp hpoll with hpoll | hpoll
    · exact (not_mem_of_apart hu id _ hpoll).elim
    · have hchecked : OnSchedule { s with netmon } (t ++ x) :=
        h.append (fun ev hev ↦ (hu ev hev).unscheduled) rfl
      exact hfound hchecked hpath hpoll
  | @renewed netmon _ _ x v w _ hu _ hnew hpath =>
    have hchecked : OnSchedule { s with netmon } (t ++ x) :=
      h.append (fun ev hev ↦ (hu ev hev).unscheduled) rfl
    have hrenewed := hchecked.renewed hnew
    rw [List.append_assoc] at hrenewed
    have hmem := (mem_renewedRound (x := []) hu hnew (fun ev hev ↦ by cases hev)
      (.deviceGet .getInactivePeersByRx) (.ok device) id (fun _ heq ↦ by cases heq)
      fun heq ↦ by cases heq).mp (by simpa using hpoll)
    rw [← List.append_assoc]
    exact hfound hrenewed hpath hmem

/-- As long as the clock, the durations of the rounds and the network changes keep any two polls
25 seconds apart, no poll lists a live peer. -/
theorem live_peer_not_listed {time : ℕ → Instant} {rx : Instant → ℕ} {k : Key}
    (hrx : Monotone rx) (hgrows : ∀ τ, rx τ < rx (τ + peerIsInactiveDuration))
    (h : MonitorRun fromBase64 ifName traverseNat (LiveAnswers time rx k) t (.done (.ok s)))
    (hround : Path (reachAnnouncing traverseNat s).run u (.done (.ok r)))
    (hanswered : Answered (LiveAnswers time rx k) t u) (hspaced : LooksSpaced time (t ++ u))
    (hpoll : ⟨.deviceGet .getInactivePeersByRx, .ok device⟩ ∈ u) : k ∉ r.1.inactivePeers := by
  have hschedule := onSchedule_of_run h
  obtain ⟨v, w, rfl, hscheduled⟩ := hschedule.poll (path_reachAnnouncing hround) hpoll
  refine (live_not_listed_iff hrx hgrows h hround hanswered).mpr fun m hm ↦ .inl ?_
  obtain ⟨reader, device', hget, -⟩ := id hm
  have hlt := (List.getElem?_eq_some_iff.mp hget).1
  exact hspaced m _ ((hschedule.scheduled m hm).append _) hscheduled (by omega)

def slowCounter (τ : Instant) : ℕ := τ / peerIsInactiveDuration

theorem slowCounter_mono : Monotone slowCounter :=
  fun _ _ h ↦ Nat.div_le_div_right h

theorem slowCounter_grows (τ : Instant) :
    slowCounter τ < slowCounter (τ + peerIsInactiveDuration) := by
  rw [slowCounter, slowCounter, Nat.add_div_right τ (by decide)]
  exact Nat.lt_succ_self _

/-- The clock during two rounds: the first takes 100 seconds, the second ends at `last`. -/
def lateTime (last : ℕ) (n : ℕ) : Instant :=
  if n < 2 then 0 else if n < 12 then seconds 100 else seconds last

theorem lateTime_mono {last : ℕ} (hlast : 100 ≤ last) : Monotone (lateTime last) := by
  intro m n h
  rw [lateTime, lateTime]
  by_cases hm : m < 2
  · rw [if_pos hm]
    exact Nat.zero_le _
  · rw [if_neg hm, if_neg fun hn ↦ hm (h.trans_lt hn)]
    by_cases hn : n < 12
    · rw [if_pos hn, if_pos (h.trans_lt hn)]
    · rw [if_neg hn]
      split
      · exact Nat.mul_le_mul_right _ hlast
      · exact Nat.le_refl _

def nextPoll (secs : ℕ) (rxBytes : UInt64) : ClientTrace :=
  foundHome .online ++ [⟨.now, seconds secs⟩,
    ⟨.deviceGet .getInactivePeersByRx, .ok (wgDevice [livePeer rxBytes])⟩]

theorem lateTime_between {last n : ℕ} (hn : 2 ≤ n) (hn' : n < 12) :
    lateTime last n = seconds 100 := by
  rw [lateTime, if_neg (Nat.not_lt_of_le hn), if_pos hn']

theorem lateRound_answered (last : ℕ) : Answered (LiveAnswers (lateTime last) slowCounter
    (.filled 2)) (started [livePeer 0]) lateRound := by
  have hlive (n : ℕ) (hn : 2 ≤ n) (hn' : n < 12) : ∃ p,
      (wgDevice [livePeer 4]).peers.filter (fun q ↦ q.publicKey = .filled 2) = [p] ∧
        p.lastHandshakeTime ≠ none ∧ p.rxBytes.toNat = slowCounter (lateTime last n) := by
    rw [lateTime_between hn hn']
    exact ⟨livePeer 4, by decide, by decide, by decide⟩
  have hnow : lateTime last 9 = seconds 100 := lateTime_between (by decide) (by decide)
  exact ⟨trivial, trivial, trivial, trivial, trivial, trivial, hlive 8 (by decide) (by decide),
    hnow.symm, hlive 10 (by decide) (by decide), trivial, trivial⟩

theorem late_run (last : ℕ) : MonitorRun strictBase64 "wg0" false
    (LiveAnswers (lateTime last) slowCounter (.filled 2)) (started [livePeer 0] ++ lateRound)
    (.done (.ok lateState)) := by
  have hstart : MonitorRun strictBase64 "wg0" false
      (LiveAnswers (lateTime last) slowCounter (.filled 2)) (started [livePeer 0])
      (.done (.ok (startState [livePeer 0]))) := by
    refine LoopRun.start.follow (monitorStart_path _) ?_
    have hzero : (livePeer 0).rxBytes.toNat = slowCounter 0 := by decide
    exact ⟨⟨livePeer 0, by decide, by decide, hzero⟩, rfl, trivial⟩
  have hround : Path (monitorRound strictBase64 "wg0" false (startState [livePeer 0])).run
      lateRound (.done (.ok lateState)) := by
    rw [monitorRound_eq]
    exact lateRound_path.try _ _
  exact hstart.again.follow hround (lateRound_answered last)

theorem looksSpaced_late : LooksSpaced (lateTime 140) (started [livePeer 0] ++ lateRound ++
    (nextPoll 140 5 ++ [⟨.sleep 10, ()⟩])) := by
  have hscheduled : ∀ m, Scheduled (started [livePeer 0] ++ lateRound ++
      (nextPoll 140 5 ++ [⟨.sleep 10, ()⟩])) m → m = 0 ∨ m = 10 ∨ m = 16 := by
    rintro m (rfl | ⟨n, rfl, d, now, hdue, hnow, -⟩)
    · exact .inl rfl
    · have hn : n < 18 := (List.getElem?_eq_some_iff.mp hnow).1
      by_cases hfirst : n = 1
      · subst hfirst
        cases hdue
      · interval_cases n <;> first
          | exact .inr (.inl rfl)
          | exact .inr (.inr rfl)
          | exact (hfirst rfl).elim
          | cases hnow
  intro m n hm hn hlt
  rcases hscheduled m hm with rfl | rfl | rfl <;> rcases hscheduled n hn with rfl | rfl | rfl <;>
    first | omega | decide

theorem live_peer_not_listed_late : ∃ r, Path (reachAnnouncing false lateState).run
    (nextPoll 140 5 ++ [⟨.sleep 10, ()⟩]) (.done (.ok r)) ∧ .filled 2 ∉ r.1.inactivePeers := by
  have hpath : ∃ r, Path (reachAnnouncing false lateState).run
      (nextPoll 140 5 ++ [⟨.sleep 10, ()⟩]) (.done (.ok r)) :=
    ⟨_, .cons (.cons (.cons (.cons (.cons (.cons (.nil _))))))⟩
  obtain ⟨r, hpath⟩ := hpath
  have hpoll : ⟨.deviceGet .getInactivePeersByRx, .ok (wgDevice [livePeer 5])⟩ ∈
      nextPoll 140 5 ++ [⟨.sleep 10, ()⟩] := by simp [nextPoll]
  refine ⟨r, hpath, live_peer_not_listed slowCounter_mono slowCounter_grows (late_run 140) hpath
    ?_ looksSpaced_late hpoll⟩
  exact ⟨trivial, trivial, trivial, rfl, ⟨livePeer 5, by decide, by decide, by decide⟩, trivial,
    trivial⟩

/-- The counter grows every 25 seconds, but not between a poll at 100 and one at
110 seconds, when the deadline has fallen behind. -/
theorem live_peer_listed : ∃ time rx t u s r, Monotone time ∧ Monotone rx ∧
    (∀ τ, rx τ < rx (τ + peerIsInactiveDuration)) ∧
    MonitorRun strictBase64 "wg0" false (LiveAnswers time rx (.filled 2)) t (.done (.ok s)) ∧
    Path (reachAnnouncing false s).run u (.done (.ok r)) ∧
    Answered (LiveAnswers time rx (.filled 2)) t u ∧
    ⟨.deviceGet .getInactivePeersByRx, .ok (wgDevice [livePeer 4])⟩ ∈ u ∧
    .filled 2 ∈ r.1.inactivePeers := by
  have hpoll : ∃ r, Path (reachAnnouncing false lateState).run (nextPoll 110 4) (.done (.ok r)) ∧
      .filled 2 ∈ r.1.inactivePeers :=
    ⟨_, .cons (.cons (.cons (.cons (.cons (.nil _))))), List.mem_cons_self⟩
  obtain ⟨r, hpath, hlisted⟩ := hpoll
  refine ⟨lateTime 110, slowCounter, _, nextPoll 110 4, lateState, r, lateTime_mono (by decide),
    slowCounter_mono, slowCounter_grows, late_run 110, hpath, ?_, by simp [nextPoll], hlisted⟩
  exact ⟨trivial, trivial, trivial, rfl, ⟨livePeer 4, by decide, by decide, by decide⟩, trivial⟩

end Polls

end Wireplug
