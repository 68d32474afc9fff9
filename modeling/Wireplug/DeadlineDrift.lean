import Wireplug.NetworkChange

namespace Wireplug

open Foundation Program ByteStream Client

def changesNetwork : Event ClientEffect.Answer → Bool
  | ⟨.deviceGet .getAllPeers, .ok _⟩ => true
  | _ => false

/-- The number of network changes. Each ends with a look at all peers. -/
def networkChanges (t : ClientTrace) : ℕ := t.countP changesNetwork

/-- The deadline moves on with each network change. A poll moves it on once more,
but not further than one step ahead of the clock. -/
inductive Advances (s s' : MonitorState) (u : ClientTrace) : Prop
  | kept (h : s'.nextInactivityCheck =
      s.nextInactivityCheck + networkChanges u * peerIsInactiveDuration)
  | polled {now : Instant} (hnow : ⟨.now, now⟩ ∈ u)
      (h : s'.nextInactivityCheck < now + peerIsInactiveDuration)

variable {fromBase64 : String → Option Key} {ifName : String} {traverseNat : Bool}
  {s s' : MonitorState} {t u v w : ClientTrace} {call : Option NetInfo}

theorem networkChanges_append (t u : ClientTrace) :
    networkChanges (t ++ u) = networkChanges t + networkChanges u := List.countP_append

theorem networkChanges_of_aside (h : ∀ ev ∈ u, Aside ev.1) : networkChanges u = 0 := by
  refine List.countP_eq_zero.mpr fun ev hev ↦ ?_
  have haside := h ev hev
  obtain ⟨e, r⟩ := ev
  cases e with
  | deviceGet reader =>
    obtain rfl : reader = .announce := haside
    simp [changesNetwork]
  | _ => simp [changesNetwork]

theorem networkChanges_of_apart (h : ∀ ev ∈ u, Apart ev.1) : networkChanges u = 0 :=
  networkChanges_of_aside fun ev hev ↦ (h ev hev).aside

theorem Renewed.networkChanges {device : Device} (h : Renewed s s' u device) :
    Wireplug.networkChanges u = 1 := by
  obtain ⟨w, newPort, hw, rfl⟩ := h.trace
  rw [networkChanges_append, networkChanges_of_apart hw]
  rfl

theorem Polled.networkChanges (h : Polled s s' u) : Wireplug.networkChanges u = 0 := by
  cases h <;> rfl

theorem advances_findInactive {s₀ : MonitorState} {before : ClientTrace}
    (hbefore : s.nextInactivityCheck =
      s₀.nextInactivityCheck + networkChanges before * peerIsInactiveDuration)
    (hpath : Path (findInactive s).run u (.done (.ok (s', call)))) :
    networkChanges u = 0 ∧ Advances s₀ s' (before ++ u) := by
  obtain ⟨v, w, rfl, hpoll, hw, -⟩ := path_findInactive hpath
  have hnone : networkChanges (v ++ w) = 0 := by
    rw [networkChanges_append, hpoll.networkChanges, networkChanges_of_apart hw]
  refine ⟨hnone, ?_⟩
  cases hpoll with
  | notYet =>
    refine .kept ?_
    rw [networkChanges_append, hnone, hbefore, Nat.add_zero]
  | @due now hdue device =>
    have hnow : ⟨.now, now⟩ ∈ before ++ ([⟨.now, now⟩, ⟨.deviceGet .getInactivePeersByRx,
      .ok device⟩] ++ w) := by simp
    exact .polled hnow (Nat.add_lt_add_right hdue _)

theorem Reaches.advances (h : Reaches s (s', call) u) :
    networkChanges u ≤ 1 ∧ Advances s s' u := by
  cases h with
  | ended hu =>
    rw [networkChanges_of_apart hu]
    refine ⟨Nat.zero_le _, .kept ?_⟩
    rw [networkChanges_of_apart hu, Nat.zero_mul, Nat.add_zero]
  | @unchanged netmon u v _ hu hpath =>
    have hu₀ := networkChanges_of_apart hu
    have hnext : ({ s with netmon } : MonitorState).nextInactivityCheck =
        s.nextInactivityCheck + networkChanges u * peerIsInactiveDuration := by
      rw [hu₀, Nat.zero_mul, Nat.add_zero]
    obtain ⟨hv₀, hadvances⟩ := advances_findInactive hnext hpath
    refine ⟨?_, hadvances⟩
    rw [networkChanges_append, hu₀, hv₀]
    exact Nat.zero_le _
  | @renewed netmon s₁ device u v w _ hu _ hnew hpath =>
    have huv : networkChanges (u ++ v) = 1 := by
      rw [networkChanges_append, networkChanges_of_apart hu, hnew.networkChanges]
    have hnext : s₁.nextInactivityCheck =
        s.nextInactivityCheck + networkChanges (u ++ v) * peerIsInactiveDuration := by
      rw [hnew.next, huv, Nat.one_mul]
    obtain ⟨hw₀, hadvances⟩ := advances_findInactive hnext hpath
    rw [← List.append_assoc]
    refine ⟨?_, hadvances⟩
    rw [networkChanges_append, huv, hw₀]

theorem advances_round
    (h : Path (monitorRound fromBase64 ifName traverseNat s).run u (.done (.ok s'))) :
    networkChanges u ≤ 1 ∧ Advances s s' u := by
  rw [monitorRound_eq] at h
  obtain ⟨⟨s₁, call⟩, v, w, rfl, hreach, hpass⟩ := Path.try_done h
  obtain ⟨hle, hadvances⟩ := (path_reachAnnouncing hreach).advances
  obtain ⟨hw, hnext, -⟩ := path_passToHandler hpass
  have hvw : networkChanges (v ++ w) = networkChanges v := by
    rw [networkChanges_append, networkChanges_of_aside hw, Nat.add_zero]
  rw [hvw]
  refine ⟨hle, ?_⟩
  cases hadvances with
  | kept hkept =>
    refine .kept ?_
    rw [hnext, hkept, hvw]
  | polled hnow hpolled =>
    refine .polled (List.mem_append_left _ hnow) ?_
    rwa [hnext]

/-- The `n`-th call begins at `time n`. The clock is read at some time during its
call, and a sleep lasts at least as long as it is meant to. -/
def KeepsTime (time : ℕ → Instant) (n : ℕ) : (e : ClientEffect) → e.Answer → Prop
  | .now, now => time n ≤ now ∧ now ≤ time (n + 1)
  | .sleep secs, _ => time n + seconds secs ≤ time (n + 1)
  | _, _ => True

abbrev OnTime (time : ℕ → Instant) (t : ClientTrace) : (e : ClientEffect) → e.Answer → Prop :=
  KeepsTime time t.length

/-- After the trace `t` the loop has just finished a round in the state `s`, and
the clock stands at `time t.length`. -/
structure TimedRun (fromBase64 : String → Option Key) (ifName : String) (traverseNat : Bool)
    (time : ℕ → Instant) (t : ClientTrace) (s : MonitorState) : Prop where
  mono : Monotone time
  run : MonitorRun fromBase64 ifName traverseNat (OnTime time) t (.done (.ok s))

/-- From the end of a round at which the deadline is not behind the clock, the
network changes in `burst` and beyond that once in 25 seconds at most. -/
def Paced (fromBase64 : String → Option Key) (ifName : String) (traverseNat : Bool)
    (time : ℕ → Instant) (t : ClientTrace) (burst : ℕ) : Prop :=
  ∀ u v s, t = u ++ v → TimedRun fromBase64 ifName traverseNat time u s →
    time u.length ≤ s.nextInactivityCheck →
      time u.length + networkChanges v * peerIsInactiveDuration ≤ time t.length + burst

/-- The deadline is near the clock, or only network changes have moved it on
since it was near the clock and not behind. -/
inductive Drifts (fromBase64 : String → Option Key) (ifName : String) (traverseNat : Bool)
    (time : ℕ → Instant) (s : MonitorState) : ClientTrace → Prop
  | near {t : ClientTrace} (h : s.nextInactivityCheck ≤ time t.length + peerIsInactiveDuration) :
      Drifts fromBase64 ifName traverseNat time s t
  | since {u v : ClientTrace} {s₀ : MonitorState}
      (hrun : TimedRun fromBase64 ifName traverseNat time u s₀)
      (hahead : time u.length ≤ s₀.nextInactivityCheck)
      (hnear : s₀.nextInactivityCheck ≤ time u.length + peerIsInactiveDuration)
      (h : s.nextInactivityCheck =
        s₀.nextInactivityCheck + networkChanges v * peerIsInactiveDuration) :
      Drifts fromBase64 ifName traverseNat time s (u ++ v)

variable {time : ℕ → Instant} {bound burst : ℕ}

theorem now_le_of_answered (hmono : Monotone time) {now : Instant}
    (h : Answered (OnTime time) t u) (hnow : ⟨.now, now⟩ ∈ u) : now ≤ time (t ++ u).length := by
  obtain ⟨v, w, rfl⟩ := List.append_of_mem hnow
  have hread : KeepsTime time (t ++ v).length .now now := h.at
  refine hread.2.trans (hmono ?_)
  simp only [List.length_append, List.length_cons]
  omega

theorem Drifts.round (hrun : TimedRun fromBase64 ifName traverseNat time t s)
    (h : Drifts fromBase64 ifName traverseNat time s t)
    (hpath : Path (monitorRound fromBase64 ifName traverseNat s).run u (.done (.ok s')))
    (hu : Answered (OnTime time) t u) :
    Drifts fromBase64 ifName traverseNat time s' (t ++ u) := by
  obtain ⟨hle, hadvances⟩ := advances_round hpath
  cases hadvances with
  | polled hnow hpolled =>
    refine .near (hpolled.le.trans ?_)
    exact Nat.add_le_add_right (now_le_of_answered hrun.mono hu hnow) _
  | kept hkept =>
    by_cases hnear : s'.nextInactivityCheck ≤ time (t ++ u).length + peerIsInactiveDuration
    · exact .near hnear
    cases h with
    | near h =>
      have hstep : networkChanges u * peerIsInactiveDuration ≤ peerIsInactiveDuration := by
        simpa only [Nat.one_mul] using Nat.mul_le_mul_right peerIsInactiveDuration hle
      have htime : time t.length ≤ time (t ++ u).length :=
        hrun.mono (by simp only [List.length_append]; omega)
      have hahead : time t.length + peerIsInactiveDuration <
          s.nextInactivityCheck + peerIsInactiveDuration := by
        calc time t.length + peerIsInactiveDuration
            ≤ time (t ++ u).length + peerIsInactiveDuration := Nat.add_le_add_right htime _
          _ < s'.nextInactivityCheck := Nat.lt_of_not_le hnear
          _ = s.nextInactivityCheck + networkChanges u * peerIsInactiveDuration := hkept
          _ ≤ s.nextInactivityCheck + peerIsInactiveDuration := Nat.add_le_add_left hstep _
      exact .since hrun (Nat.lt_of_add_lt_add_right hahead).le h hkept
    | @since v w _ hrun₀ hahead hnear₀ h =>
      rw [List.append_assoc]
      refine .since hrun₀ hahead hnear₀ ?_
      rw [hkept, h, networkChanges_append, Nat.add_mul, Nat.add_assoc]

theorem drifts_of_rounds (hmono : Monotone time)
    (h : Rounds monitorStart.run
      (fun s ↦ (monitorRound fromBase64 ifName traverseNat s).run) t s)
    (ht : Answered (OnTime time) [] t) : Drifts fromBase64 ifName traverseNat time s t := by
  induction h with
  | start hpath =>
    obtain ⟨peersManager, v, w, rfl, hinit, hrest⟩ := Path.try_done hpath
    obtain ⟨now, w, rfl, hnow⟩ := path_ask hrest
    cases hnow
    refine .near (Nat.add_le_add_right ?_ _)
    exact @now_le_of_answered [] _ _ hmono now ht (by simp)
  | round hrounds hpath ih =>
    exact (ih ht.left).round ⟨hmono, hrounds.run ht.left⟩ hpath ht.right

theorem deadlineAfter_le (d : Instant) (ev : Event ClientEffect.Answer) :
    ∃ d', deadlineAfter (some d) ev = some d' ∧
      d + networkChanges [ev] * peerIsInactiveDuration ≤ d' := by
  by_cases hev : Aside ev.1
  · have hnone : networkChanges [ev] = 0 := by
      apply networkChanges_of_aside
      simpa using hev
    exact ⟨d, deadlineAfter_of_aside hev d, by simp [hnone]⟩
  · obtain ⟨e, r⟩ := ev
    cases e with
    | deviceGet reader =>
      cases r with
      | error e => cases reader <;> exact ⟨d, rfl, by simp [networkChanges, changesNetwork]⟩
      | ok device =>
        cases reader with
        | getAllPeers =>
          exact ⟨_, rfl, by simp [networkChanges, changesNetwork]⟩
        | getInactivePeersByRx =>
          exact ⟨_, rfl, by simp [networkChanges, changesNetwork]⟩
        | initPeersActivity | announce =>
          exact ⟨d, rfl, by simp [networkChanges, changesNetwork]⟩
    | _ => exact (hev trivial).elim

theorem le_deadline_append {d d' : Instant} (hd : deadline t = some d)
    (hd' : deadline (t ++ u) = some d') :
    d + networkChanges u * peerIsInactiveDuration ≤ d' := by
  induction u generalizing t d with
  | nil =>
    rw [List.append_nil, hd] at hd'
    cases hd'
    exact Nat.le_of_eq (by simp [networkChanges])
  | cons ev u ih =>
    rw [List.append_cons] at hd'
    obtain ⟨d₁, hd₁, hle⟩ := deadlineAfter_le d ev
    have hnext : deadline (t ++ [ev]) = some d₁ := by
      rw [deadline, List.foldl_append, ← deadline, hd]
      exact hd₁
    have hrest := ih hnext hd'
    calc d + networkChanges (ev :: u) * peerIsInactiveDuration
        = d + networkChanges [ev] * peerIsInactiveDuration +
          networkChanges u * peerIsInactiveDuration := by
          rw [← List.singleton_append, networkChanges_append, Nat.add_mul, Nat.add_assoc]
      _ ≤ d₁ + networkChanges u * peerIsInactiveDuration := Nat.add_le_add_right hle _
      _ ≤ d' := hrest

theorem deadline_le_of_paced (hrun : TimedRun fromBase64 ifName traverseNat time t s)
    (hpaced : Paced fromBase64 ifName traverseNat time t burst) :
    s.nextInactivityCheck ≤ time t.length + (burst + peerIsInactiveDuration) := by
  cases drifts_of_rounds hrun.mono hrun.run.rounds hrun.run.answered with
  | near h => exact h.trans (Nat.add_le_add_left (Nat.le_add_left _ _) _)
  | @since u v s₀ hrun₀ hahead hnear h =>
    have hchanges := hpaced u v s₀ rfl hrun₀ hahead
    calc s.nextInactivityCheck
        = s₀.nextInactivityCheck + networkChanges v * peerIsInactiveDuration := h
      _ ≤ time u.length + peerIsInactiveDuration +
          networkChanges v * peerIsInactiveDuration := Nat.add_le_add_right hnear _
      _ = time u.length + networkChanges v * peerIsInactiveDuration +
          peerIsInactiveDuration := Nat.add_right_comm _ _ _
      _ ≤ time (u ++ v).length + burst + peerIsInactiveDuration :=
          Nat.add_le_add_right hchanges _
      _ = time (u ++ v).length + (burst + peerIsInactiveDuration) := Nat.add_assoc _ _ _

/-- If in any part of a run the network changes come in some burst and beyond that once in 25
seconds at most, then the deadline is near the clock, wherever it was in between. -/
theorem deadline_le_of_schedule (hrun : TimedRun fromBase64 ifName traverseNat time t s)
    (hschedule : ∀ u v, t = u ++ v →
      time u.length + networkChanges v * peerIsInactiveDuration ≤ time t.length + burst) :
    s.nextInactivityCheck ≤ time t.length + (burst + peerIsInactiveDuration) :=
  deadline_le_of_paced hrun fun u v _ ht _ _ ↦ hschedule u v ht

/-- Over any runs, the deadline stays within a bound of the clock exactly if the network
changes, wherever the deadline is not behind the clock, come in some burst and beyond that once
in 25 seconds at most. -/
theorem deadline_near_clock_iff (runs : (ℕ → Instant) → ClientTrace → Prop) :
    (∃ bound, ∀ time t s, runs time t → TimedRun fromBase64 ifName traverseNat time t s →
      s.nextInactivityCheck ≤ time t.length + bound) ↔
    ∃ burst, ∀ time t s, runs time t → TimedRun fromBase64 ifName traverseNat time t s →
      Paced fromBase64 ifName traverseNat time t burst := by
  constructor
  · intro h
    obtain ⟨bound, hbound⟩ := h
    refine ⟨bound, ?_⟩
    rintro time _ s hruns hrun u v s₀ rfl hrun₀ hahead
    have hchanges := le_deadline_append (inStep_of_run hrun₀.run).deadline_eq
      (inStep_of_run hrun.run).deadline_eq
    calc time u.length + networkChanges v * peerIsInactiveDuration
        ≤ s₀.nextInactivityCheck + networkChanges v * peerIsInactiveDuration :=
          Nat.add_le_add_right hahead _
      _ ≤ s.nextInactivityCheck := hchanges
      _ ≤ time (u ++ v).length + bound := hbound time _ s hruns hrun
  · intro h
    obtain ⟨burst, hburst⟩ := h
    exact ⟨burst + peerIsInactiveDuration,
      fun time t s hruns hrun ↦ deadline_le_of_paced hrun (hburst time t s hruns hrun)⟩

def roamTime (n : ℕ) : Instant :=
  seconds (13 * ((n + 7) / 9) + (if 5 ≤ (n + 7) % 9 then 3 else 0) - 3)

def roamIp (k : ℕ) : Ipv4Addr := if k % 2 = 0 then homeIp else .new 198 51 100 7

def roamInfo (k : ℕ) : NetInfo := ⟨some (roamIp k), none, [], false⟩

def roamRound (k : ℕ) : ClientTrace :=
  [⟨.getBoth, (some (roamIp k), none)⟩, ⟨.getLanAddrs, .ok []⟩, ⟨.checked .changedToNew, ()⟩,
    ⟨.getRandomPort, drawn⟩, ⟨.sleep 3, ()⟩, ⟨.updatePort 51820, .ok ()⟩,
    ⟨.deviceGet .getAllPeers, .ok (wgDevice [])⟩, ⟨.now, seconds (13 * k + 13)⟩, ⟨.sleep 10, ()⟩]

def roamTrace : ℕ → ClientTrace
  | 0 => started []
  | k + 1 => roamTrace k ++ roamRound k

def roamState : ℕ → MonitorState
  | 0 => startState []
  | k + 1 => ⟨⟨some (roamInfo k), some (roamInfo k)⟩, .new, seconds (25 * (k + 2)), [], 51820⟩

theorem length_roamTrace (k : ℕ) : (roamTrace k).length = 9 * k + 2 := by
  induction k with
  | zero => rfl
  | succ k ih =>
    rw [roamTrace, List.length_append, ih]
    simp only [roamRound, List.length_cons, List.length_nil]
    omega

theorem seconds_add (m n : ℕ) : seconds m + seconds n = seconds (m + n) :=
  (Nat.add_mul m n _).symm

theorem seconds_mono : Monotone seconds := fun _ _ h ↦ Nat.mul_le_mul_right _ h

theorem roamTime_mono : Monotone roamTime := by
  intro m n h
  apply seconds_mono
  split <;> split <;> omega

theorem roamIp_succ_ne (k : ℕ) : roamIp (k + 1) ≠ roamIp k := by
  have hne : homeIp ≠ .new 198 51 100 7 := by decide
  rw [roamIp, roamIp]
  rcases Nat.mod_two_eq_zero_or_one k with hk | hk
  · rw [if_pos hk, if_neg (by omega)]
    exact hne.symm
  · rw [if_neg (by omega : k % 2 ≠ 0), if_pos (by omega)]
    exact hne

theorem checkStatus_roamInfo (k : ℕ) : (roamState k).netmon.checkStatus (roamInfo k) =
    (.changedToNew, ⟨some (roamInfo k), some (roamInfo k)⟩) := by
  cases k with
  | zero => rfl
  | succ k =>
    have hne := roamIp_succ_ne k
    simp [NetworkMonitor.checkStatus, roamState, roamInfo, NetInfo.offline, NetInfo.online,
      NetInfo.eq, hne]

theorem nextInactivityCheck_roamState (k : ℕ) :
    (roamState k).nextInactivityCheck = seconds (25 * (k + 1)) := by
  cases k <;> rfl

theorem pollInactive_early {now : Instant} (h : now ≤ s.nextInactivityCheck) :
    Path (pollInactive s).run [⟨.now, now⟩] (.done (.ok s)) := by
  refine .cons ?_
  change Path (ExceptT.run (if s.nextInactivityCheck < now then _ else pure s)) [] _
  rw [if_neg (Nat.not_lt.mpr h)]
  exact .nil _

theorem renewed_roamState (k : ℕ) : { roamState k with
    netmon := ⟨some (roamInfo k), some (roamInfo k)⟩
    inactivePeers := (wgDevice []).peers.map PeerInfo.publicKey
    portToAnnounce := drawn.val
    nextInactivityCheck := (roamState k).nextInactivityCheck + peerIsInactiveDuration } =
      roamState (k + 1) := by
  have hnext : (roamState k).nextInactivityCheck + peerIsInactiveDuration =
      seconds (25 * (k + 2)) := by
    rw [nextInactivityCheck_roamState, peerIsInactiveDuration, seconds_add]
    exact congrArg seconds (by omega)
  rw [hnext]
  cases k <;> rfl

theorem roamRound_path (k : ℕ) :
    Path (monitorRound strictBase64 "wg0" false (roamState k)).run (roamRound k)
      (.done (.ok (roamState (k + 1)))) := by
  have hcheck : Path (checkStatus (roamState k).netmon).run ((roamRound k).take 3)
      (.done (.ok (.changedToNew, ⟨some (roamInfo k), some (roamInfo k)⟩))) := by
    have hchecked : Path (checkStatus (roamState k).netmon).run
        [⟨.getBoth, (some (roamIp k), none)⟩, ⟨.getLanAddrs, .ok []⟩,
          ⟨.checked ((roamState k).netmon.checkStatus (roamInfo k)).1, ()⟩]
        (.done (.ok ((roamState k).netmon.checkStatus (roamInfo k)))) :=
      .cons (.cons (.cons (.nil _)))
    rwa [checkStatus_roamInfo] at hchecked
  have hchange : Path (changeNetwork false { roamState k with
      netmon := ⟨some (roamInfo k), some (roamInfo k)⟩ }).run ((roamRound k).drop 3 |>.take 4)
      (.done (.ok (some (roamState (k + 1))))) := by
    rw [← renewed_roamState]
    exact .cons (.cons (.cons (.cons (.nil _))))
  have hpoll : Path (pollInactive (roamState (k + 1))).run [⟨.now, seconds (13 * k + 13)⟩]
      (.done (.ok (roamState (k + 1)))) := by
    apply pollInactive_early
    rw [nextInactivityCheck_roamState]
    exact seconds_mono (by omega)
  have hidle : Path (announceInactive strictBase64 "wg0" (roamState (k + 1))).run
      ((roamRound k).drop 7) (.done (.ok (roamState (k + 1)))) :=
    (hpoll.try _ _).trans (.cons (.nil _))
  rw [monitorRound]
  exact (hcheck.try _ _).trans ((hchange.try _ _).trans hidle)

theorem roamRound_answered (k : ℕ) : Answered (OnTime roamTime) (roamTrace k) (roamRound k) := by
  have hset : roamTime (9 * k + 6) + seconds 3 ≤ roamTime (9 * k + 7) := by
    rw [roamTime, seconds_add]
    apply seconds_mono
    rw [if_neg (by omega), if_pos (by omega)]
    omega
  have hread : roamTime (9 * k + 9) = seconds (13 * k + 13) := by
    apply congrArg seconds
    rw [if_pos (by omega)]
    omega
  have hend : roamTime (9 * k + 10) + seconds 10 ≤ roamTime (9 * k + 11) := by
    rw [roamTime, seconds_add]
    apply seconds_mono
    rw [if_pos (by omega), if_neg (by omega)]
    omega
  simp only [roamRound, Answered, OnTime, KeepsTime, List.length_append, List.length_cons,
    List.length_nil, length_roamTrace, ← hread, true_and, and_true]
  exact ⟨hset, ⟨Nat.le_refl _, roamTime_mono (Nat.le_succ _)⟩, hend⟩

theorem roam_run (k : ℕ) :
    TimedRun strictBase64 "wg0" false roamTime (roamTrace k) (roamState k) := by
  refine ⟨roamTime_mono, ?_⟩
  induction k with
  | zero =>
    refine LoopRun.start.follow (monitorStart_path []) ?_
    exact ⟨trivial, ⟨Nat.le_refl _, Nat.zero_le _⟩, trivial⟩
  | succ k ih => exact ih.again.follow (roamRound_path k) (roamRound_answered k)

/-- With a new network every 13 seconds, the deadline leaves the clock behind by 12 seconds
each time. -/
theorem deadline_unbounded : ¬ ∃ bound, ∀ time t s,
    TimedRun strictBase64 "wg0" false time t s →
      s.nextInactivityCheck ≤ time t.length + bound := by
  intro h
  obtain ⟨bound, hbound⟩ := h
  have hnear := hbound _ _ _ (roam_run bound)
  have hclock : roamTime (9 * bound + 2) = seconds (13 * bound + 10) := by
    apply congrArg seconds
    rw [if_neg (by omega)]
    omega
  rw [nextInactivityCheck_roamState, length_roamTrace, hclock] at hnear
  have hlag (k : ℕ) : (13 * k + 10) * 1000000000 + k < 25 * (k + 1) * 1000000000 := by omega
  exact Nat.not_le.mpr (hlag bound) hnear

end Wireplug
