import Wireplug.DeadlineDrift
import Wireplug.Foundation.Pacing

namespace Wireplug

open Foundation Program ByteStream Client

def sendsAnnouncement : Event ClientEffect.Answer → Bool
  | ⟨.sendAnnouncement _, _⟩ => true
  | _ => false

def checksNetwork : Event ClientEffect.Answer → Bool
  | ⟨.checked _, _⟩ => true
  | _ => false

def SleepsLong : Event ClientEffect.Answer → Prop
  | ⟨.sleep secs, _⟩ => 5 ≤ secs
  | _ => False

abbrev RestedSince (marked : Event ClientEffect.Answer → Bool) : ClientTrace → Prop :=
  Rested marked SleepsLong

/-- A marked call waits for a pause since the one before. -/
def Waits (t : ClientTrace) (e : ClientEffect) : Prop :=
  ∀ r, (sendsAnnouncement ⟨e, r⟩ = true → RestedSince sendsAnnouncement t) ∧
    (checksNetwork ⟨e, r⟩ = true → RestedSince checksNetwork t)

structure Paused (t : ClientTrace) : Prop where
  announced : RestedSince sendsAnnouncement t
  checked : RestedSince checksNetwork t

def Unmarked : ClientEffect → Prop
  | .sendAnnouncement _ | .checked _ => False
  | _ => True

variable {e : ClientEffect} {t u : ClientTrace} {secs : ℕ}

theorem Unmarked.marks (h : Unmarked e) (r : e.Answer) :
    sendsAnnouncement ⟨e, r⟩ = false ∧ checksNetwork ⟨e, r⟩ = false := by
  cases e with
  | sendAnnouncement a => exact h.elim
  | checked status => exact h.elim
  | _ => exact ⟨rfl, rfl⟩

theorem Unmarked.waits (h : Unmarked e) : Waits t e := by
  intro r
  obtain ⟨hsends, hchecks⟩ := h.marks r
  rw [hsends, hchecks]
  exact ⟨Bool.noConfusion, Bool.noConfusion⟩

theorem rested_unmarked (ht : RestedSince sendsAnnouncement t) (hu : ∀ ev ∈ u, Unmarked ev.1) :
    RestedSince sendsAnnouncement (t ++ u) :=
  ht.append fun ev hev ↦ ((hu ev hev).marks ev.2).1

theorem Paused.unmarked (h : Paused t) (hu : ∀ ev ∈ u, Unmarked ev.1) : Paused (t ++ u) :=
  ⟨rested_unmarked h.announced hu, h.checked.append fun ev hev ↦ ((hu ev hev).marks ev.2).2⟩

theorem paused_sleep (h : 5 ≤ secs) (t : ClientTrace) : Paused (t ++ [⟨.sleep secs, ()⟩]) :=
  ⟨rested_pause rfl h, rested_pause rfl h⟩

theorem UpdatesFrom.unmarked {fromBase64 : String → Option Key}
    {entries : List (String × WireplugEndpoint)} (h : UpdatesFrom fromBase64 entries e) :
    Unmarked e := by
  cases e with
  | sendAnnouncement a => exact h.elim
  | checked status => exact h.elim
  | _ => trivial

theorem Detects.unmarked (h : Detects e) : Unmarked e := h.imp trivial trivial trivial

section Round

variable {α : Type} {assumes : ClientTrace → (e : ClientEffect) → e.Answer → Prop}
  {fromBase64 : String → Option Key} {ifName : String} {traverseNat : Bool} {s : MonitorState}

theorem unmarked_ensures {x : Client α} {Q : α → Prop} {F : ClientError → Prop}
    (h : x.run.Only Unmarked (Ends Q F)) (ht : RestedSince sendsAnnouncement t) :
    x.run.Ensures assumes Waits
      (fun r u ↦ Ends (fun a ↦ RestedSince sendsAnnouncement u ∧ Q a) F r) t := by
  refine h.ensures (fun u _ e he ↦ he.waits) fun u hu r hr ↦ ?_
  cases r with
  | error e => exact hr
  | ok a => exact ⟨rested_unmarked ht hu, hr⟩

theorem sleep_ensures {f : Unit → Client α} {post : Except ClientError α → ClientTrace → Prop}
    (h : Paused (t ++ [⟨.sleep secs, ()⟩]) →
      (f ()).run.Ensures assumes Waits post (t ++ [⟨.sleep secs, ()⟩])) (hsecs : 5 ≤ secs) :
    (sleep secs >>= f).run.Ensures assumes Waits post t :=
  ensures_ask (Unmarked.waits trivial) fun _ _ ↦ h (paused_sleep hsecs t)

theorem findInactive_paused (hcurrent : s.netmon.current.isSome = true)
    (ht : RestedSince sendsAnnouncement t) :
    (findInactive s).run.Ensures assumes Waits
      (fun r u ↦ Ends (fun reached ↦ RestedSince sendsAnnouncement u ∧
        (reached.2 = none → Paused u)) (fun _ ↦ True) r) t := by
  refine (ensures_try _ _ _).mpr ((unmarked_ensures (pollInactive_calls trivial trivial s) ht).mono
    fun r u hr ↦ ?_)
  cases r with
  | error e => trivial
  | ok s' =>
    obtain ⟨hrested, hsame⟩ := hr
    dsimp only
    split
    · exact sleep_ensures (fun hpaused ↦ ⟨hpaused.announced, fun _ ↦ hpaused⟩) (by decide)
    · refine ⟨hrested, fun hnone ↦ ?_⟩
      have hnone' : s'.netmon.current = none := hnone
      rw [hsame] at hnone'
      rw [hnone'] at hcurrent
      cases hcurrent

theorem choosePort_paused (newPort : UInt16) (netmon : NetworkMonitor)
    (ht : RestedSince sendsAnnouncement t) :
    (choosePort traverseNat newPort netmon).run.Ensures assumes Waits
      (fun r u ↦ Ends (fun chosen ↦ RestedSince sendsAnnouncement u ∧
        (chosen = none → Paused u) ∧ ∀ port netmon', chosen = some (port, netmon') →
          netmon'.current.isSome = netmon.current.isSome) (fun _ ↦ True) r) t := by
  rw [choosePort]
  split
  · refine ensures_ask (Unmarked.waits trivial) fun r _ ↦ ?_
    cases r with
    | error e =>
      cases e with
      | unresolved => trivial
      | io | encoding =>
        refine sleep_ensures (fun hpaused ↦ ?_) (by decide)
        exact ⟨hpaused.announced, fun _ ↦ hpaused, fun _ _ h ↦ by cases h⟩
    | ok natKind =>
      refine ⟨ht.append fun ev hev ↦ ?_, fun h ↦ (by cases h), fun port netmon' h ↦ ?_⟩
      · cases List.mem_singleton.mp hev
        rfl
      · cases h
        cases natKind with
        | easy | fixedPortMapping => rfl
        | hard => exact Option.isSome_map
  · exact ⟨ht, fun h ↦ (by cases h), fun port netmon' h ↦ by cases h; rfl⟩

theorem changeNetwork_paused (hcurrent : s.netmon.current.isSome = true)
    (ht : RestedSince sendsAnnouncement t) :
    (changeNetwork traverseNat s).run.Ensures assumes Waits
      (fun r u ↦ Ends (fun changed ↦ RestedSince sendsAnnouncement u ∧
        (changed = none → Paused u) ∧ ∀ s', changed = some s' →
          s'.netmon.current.isSome = true) (fun _ ↦ True) r) t := by
  refine ensures_ask (Unmarked.waits trivial) fun newPort _ ↦ ?_
  have hdrawn : RestedSince sendsAnnouncement (t ++ [⟨.getRandomPort, newPort⟩]) := ht.snoc rfl
  refine (ensures_try _ _ _).mpr ((choosePort_paused newPort.val s.netmon hdrawn).mono
    fun r u hr ↦ ?_)
  rcases r with e | _ | ⟨port, netmon⟩
  · trivial
  · exact ⟨hr.1, fun _ ↦ hr.2.1 rfl, fun _ h ↦ by cases h⟩
  · have hset : (do
        sleep 3
        updatePort newPort.val
        let inactivePeers ← getAllPeers
        pure (some { s with
          netmon, inactivePeers, portToAnnounce := port
          nextInactivityCheck := s.nextInactivityCheck + peerIsInactiveDuration }) :
        Client (Option MonitorState)).run.Only Unmarked
        (Ends (fun changed ↦ ∃ s' : MonitorState, changed = some s' ∧ s'.netmon = netmon)
          fun _ ↦ True) := by
      refine Only.try (only_ask trivial) fun _ _ ↦ ?_
      refine Only.try (only_orFail (only_ask trivial) fun _ ↦ trivial) fun _ _ ↦ ?_
      have hpeers : Calls Unmarked getAllPeers :=
        Only.try (only_orFail (only_ask trivial) fun _ ↦ trivial) fun _ _ ↦ trivial
      exact Only.try hpeers fun _ _ ↦ ⟨_, rfl, rfl⟩
    refine (unmarked_ensures hset hr.1).mono fun r v hv ↦ ?_
    cases r with
    | error e => trivial
    | ok changed =>
      obtain ⟨hrested, s', rfl, hnetmon⟩ := hv
      refine ⟨hrested, fun h ↦ (by cases h), fun s'' h ↦ ?_⟩
      cases h
      rw [hnetmon, hr.2.2 _ _ rfl, hcurrent]

theorem checkStatus_paused (netmon : NetworkMonitor) (ht : Paused t) :
    (checkStatus netmon).run.Ensures assumes Waits
      (fun r u ↦ Ends (fun checked ↦ RestedSince sendsAnnouncement u ∧
        checked.2.current.isSome = true) (fun _ ↦ True) r) t := by
  refine (ensures_try _ _ _).mpr (detect_only.ensures (fun _ _ e he ↦ he.unmarked.waits)
    fun u hu r hr ↦ ?_)
  have hunmarked : ∀ ev ∈ u, Unmarked ev.1 := fun ev hev ↦ (hu ev hev).unmarked
  have hpaused := ht.unmarked hunmarked
  cases r with
  | error e => trivial
  | ok newInfo =>
    refine ⟨fun r ↦ ⟨Bool.noConfusion, fun _ ↦ hpaused.checked⟩, fun _ _ ↦ ?_⟩
    exact ⟨hpaused.announced.snoc rfl, current_checkStatus netmon newInfo⟩

theorem reachAnnouncing_paused (ht : Paused t) :
    (reachAnnouncing traverseNat s).run.Ensures assumes Waits
      (fun r u ↦ Ends (fun reached ↦ RestedSince sendsAnnouncement u ∧
        (reached.2 = none → Paused u)) (fun _ ↦ True) r) t := by
  refine (ensures_try _ _ _).mpr ((checkStatus_paused s.netmon ht).mono fun r u hr ↦ ?_)
  rcases r with e | ⟨status, netmon⟩
  · trivial
  · obtain ⟨hrested, hcurrent⟩ := hr
    cases status with
    | online | changedToPrev => exact findInactive_paused hcurrent hrested
    | offline | hardNat =>
      exact sleep_ensures (fun hpaused ↦ ⟨hpaused.announced, fun _ ↦ hpaused⟩) (by decide)
    | changedToNew =>
      refine (ensures_try _ _ _).mpr ((changeNetwork_paused hcurrent hrested).mono
        fun r v hr ↦ ?_)
      rcases r with e | _ | s'
      · trivial
      · exact ⟨hr.1, fun _ ↦ hr.2.1 rfl⟩
      · exact findInactive_paused (hr.2.2 s' rfl) hr.1

theorem attempt_ensures {x : Client α}
    (h : x.run.Ensures assumes Waits (fun _ _ ↦ True) t) :
    (attempt x).run.Ensures assumes Waits (fun _ _ ↦ True) t := by
  refine (ensures_bind _ _ _).mpr (h.mono fun r u _ ↦ ?_)
  rcases r with (_ | _) | _ <;> trivial

theorem announce_waits (peers : List Key) (port : UInt16) (netinfo : NetInfo)
    (needsRelay : Bool) (ht : RestedSince sendsAnnouncement t) :
    (announce ifName peers port netinfo needsRelay).run.Ensures assumes Waits
      (fun _ _ ↦ True) t := by
  have hdevice : Calls Unmarked (deviceGet .announce) :=
    only_orFail (only_ask trivial) fun _ ↦ trivial
  refine (ensures_try _ _ _).mpr ((unmarked_ensures hdevice ht).mono fun r u hr ↦ ?_)
  cases r with
  | error e => trivial
  | ok device =>
    dsimp only
    split
    · trivial
    · have hconnect : Calls Unmarked (orFail (ask .connect)) :=
        only_orFail (only_ask trivial) fun _ ↦ trivial
      refine (ensures_try _ _ _).mpr ((unmarked_ensures hconnect hr.1).mono fun r v hv ↦ ?_)
      cases r with
      | error e => trivial
      | ok _ =>
        refine ensures_ask (fun r ↦ ⟨fun _ ↦ hv.1, Bool.noConfusion⟩) fun r _ ↦ ?_
        exact takeResponse_ensures r (fun _ _ ↦ trivial) fun _ ↦ trivial

theorem announceRounds_waits (netinfo : NetInfo) (port : UInt16) (needsRelay : Bool)
    (peerTracker : PeerTracker) (peers : List Key) (n : ℕ)
    (ht : RestedSince sendsAnnouncement t) :
    (announceRounds fromBase64 ifName netinfo port needsRelay peerTracker peers n).run.Ensures
      assumes Waits (fun _ _ ↦ True) t := by
  induction n generalizing t with
  | zero => trivial
  | succ n ih =>
    refine (ensures_try _ _ _).mpr
      ((attempt_ensures (announce_waits peers port netinfo needsRelay ht)).mono fun r u _ ↦ ?_)
    rcases r with e | e | response
    · trivial
    · exact sleep_ensures (fun hpaused ↦ ih hpaused.announced) (by decide)
    · have hupdates := (updatePeers_only fromBase64 peerTracker response.peerEndpoints
        netinfo.wanIpv6.isSome).mono (fun _ he ↦ he.unmarked) fun _ h ↦ h
      refine (ensures_try _ _ _).mpr (hupdates.ensures (fun _ _ e he ↦ he.waits)
        fun v _ r _ ↦ ?_)
      cases r with
      | error e => trivial
      | ok updated =>
        dsimp only
        split
        · trivial
        · exact sleep_ensures (fun _ ↦ trivial) (by decide)

theorem monitorRound_paused (ht : Paused t) :
    (monitorRound fromBase64 ifName traverseNat s).run.Ensures assumes Waits
      (fun r u ↦ Ends (fun _ ↦ Paused u) (fun _ ↦ True) r) t := by
  rw [monitorRound_eq]
  refine (ensures_try _ _ _).mpr ((reachAnnouncing_paused ht).mono fun r u hr ↦ ?_)
  rcases r with e | ⟨s', _ | netinfo⟩
  · trivial
  · exact hr.2 rfl
  · refine (ensures_try _ _ _).mpr ((announceRounds_waits netinfo _ _ _ _ _ hr.1).mono
      fun r v _ ↦ ?_)
    cases r with
    | error e => trivial
    | ok handled => exact sleep_ensures (fun hpaused ↦ hpaused) (by decide)

theorem monitorStart_paused : monitorStart.run.Ensures assumes Waits
    (fun r u ↦ Ends (fun _ ↦ Paused u) (fun _ ↦ True) r) [] := by
  have hinit : Calls Unmarked (initPeersActivity .new) :=
    Only.try (only_orFail (only_ask trivial) fun _ ↦ trivial) fun _ _ ↦ trivial
  have hstart : Calls Unmarked monitorStart :=
    hinit.try fun _ _ ↦ Only.try (only_ask trivial) fun _ _ ↦ trivial
  refine hstart.ensures (fun _ _ e he ↦ he.waits) fun u hu r _ ↦ ?_
  cases r with
  | error e => trivial
  | ok s => exact Paused.unmarked ⟨rested_nil, rested_nil⟩ hu

end Round

section Runs

variable {fromBase64 : String → Option Key} {ifName : String} {traverseNat : Bool}
  {time : ℕ → Instant} {p : Program ClientEffect.Answer (Except ClientError MonitorState)}

theorem waits_of_run {assumes : ClientTrace → (e : ClientEffect) → e.Answer → Prop}
    (h : MonitorRun fromBase64 ifName traverseNat assumes t p) {n : ℕ} {ev : Event _}
    (hn : t[n]? = some ev) : Waits (t.take n) ev.1 := by
  obtain ⟨hlt, hget⟩ := List.getElem?_eq_some_iff.mp hn
  have hsplit : t = t.take n ++ ⟨ev.1, ev.2⟩ :: t.drop (n + 1) := by
    rw [← hget, ← List.drop_eq_getElem_cons hlt, List.take_append_drop]
  exact h.requires_of_mem monitorStart_paused (fun _ _ hpaused ↦ monitorRound_paused hpaused) hsplit

theorem SleepsLong.lasts {n : ℕ} {ev : Event ClientEffect.Answer} (h : SleepsLong ev)
    (ht : Answered (OnTime time) [] t) (hn : t[n]? = some ev) :
    time n + seconds 5 ≤ time (n + 1) := by
  obtain ⟨e, r⟩ := ev
  cases e with
  | sleep secs =>
    have hsleep : time (t.take n).length + seconds secs ≤ time ((t.take n).length + 1) := ht.get hn
    rw [List.length_take_of_le (List.getElem?_eq_some_iff.mp hn).1.le] at hsleep
    exact (Nat.add_le_add_left (seconds_mono h) _).trans hsleep
  | _ => exact h.elim

/-- At any point of a run, any two announcements so far are five seconds apart or more, and so
are any two looks at the network. This bounds how many there can be in any part of the run,
whatever the server, the network and the interface answer. -/
theorem client_paced (hmono : Monotone time)
    (h : MonitorRun fromBase64 ifName traverseNat (OnTime time) t p) :
    (Spaced time (seconds 5) sendsAnnouncement t ∧ Spaced time (seconds 5) checksNetwork t) ∧
    ∀ u v, t = u ++ v →
      v.countP sendsAnnouncement * seconds 5 ≤ time t.length - time u.length + seconds 5 ∧
      v.countP checksNetwork * seconds 5 ≤ time t.length - time u.length + seconds 5 := by
  have hlasts : ∀ (n : ℕ) ev, t[n]? = some ev → SleepsLong ev →
      time n + seconds 5 ≤ time (n + 1) := fun n ev hn hev ↦ hev.lasts h.answered hn
  have hsends : Spaced time (seconds 5) sendsAnnouncement t :=
    spaced_of_rested hmono (fun n ev hn hev ↦ (waits_of_run h hn ev.2).1 hev) hlasts
  have hchecks : Spaced time (seconds 5) checksNetwork t :=
    spaced_of_rested hmono (fun n ev hn hev ↦ (waits_of_run h hn ev.2).2 hev) hlasts
  refine ⟨⟨hsends, hchecks⟩, ?_⟩
  rintro u v rfl
  exact ⟨hsends.countP_le hmono, hchecks.countP_le hmono⟩

end Runs

def failedAttempt : ClientTrace :=
  connected ++ [⟨.sendAnnouncement (homeAnnouncement 51820), .error (.io .failed)⟩, ⟨.sleep 5, ()⟩]

def failedAttempts : ClientTrace :=
  foundHome .changedToNew ++ [⟨.getRandomPort, drawn⟩, ⟨.sleep 3, ()⟩, ⟨.updatePort 51820, .ok ()⟩,
    ⟨.deviceGet .getAllPeers, .ok (wgDevice [silentPeer])⟩, ⟨.now, seconds 70⟩,
    ⟨.deviceGet .getInactivePeersByRx, .ok (wgDevice [silentPeer])⟩] ++
    (failedAttempt ++ failedAttempt ++ failedAttempt) ++ [⟨.sleep 10, ()⟩]

def slowTime (n : ℕ) : Instant := seconds (10 * (n - 2))

theorem slowTime_mono : Monotone slowTime :=
  fun _ _ h ↦ seconds_mono (Nat.mul_le_mul_left 10 (Nat.sub_le_sub_right h 2))

theorem slowTime_slept {n secs : ℕ} (hn : 2 ≤ n) (hsecs : secs ≤ 10) :
    slowTime n + seconds secs ≤ slowTime (n + 1) := by
  rw [slowTime, slowTime, seconds_add]
  exact seconds_mono (by omega)

theorem failedAttempts_path : ∃ s : MonitorState,
    s.netmon = ⟨some homeNetwork, some homeNetwork⟩ ∧
      Path (monitorRound strictBase64 "wg0" false (startState [silentPeer])).run failedAttempts
        (.done (.ok s)) := by
  refine ⟨_, ?_, .cons (.cons (.cons (.cons (.cons (.cons (.cons (.cons (.cons (.cons (.cons (.cons
    (.cons (.cons (.cons (.cons (.cons (.cons (.cons (.cons (.cons (.cons
      (.nil _))))))))))))))))))))))⟩
  rfl

theorem client_paced_retried :
    let t := started [silentPeer] ++ failedAttempts ++ foundHome .online
    t.countP sendsAnnouncement = 3 ∧ t.countP checksNetwork = 2 ∧
      (Spaced slowTime (seconds 5) sendsAnnouncement t ∧
        Spaced slowTime (seconds 5) checksNetwork t) ∧
      3 * seconds 5 ≤ slowTime t.length - slowTime 2 + seconds 5 := by
  intro t
  obtain ⟨s, hnetmon, hs⟩ := failedAttempts_path
  have hstart : Answered (OnTime slowTime) [] (started [silentPeer]) :=
    ⟨trivial, ⟨Nat.le_refl _, Nat.le_refl _⟩, trivial⟩
  have hread : slowTime 9 = seconds 70 := congrArg seconds (by decide)
  have hround : Answered (OnTime slowTime) (started [silentPeer]) failedAttempts := by
    refine ⟨trivial, trivial, trivial, trivial, ?_, trivial, trivial,
      ⟨hread.le, hread ▸ slowTime_mono (Nat.le_succ 9)⟩, trivial, trivial, trivial, trivial, ?_,
      trivial, trivial, trivial, ?_, trivial, trivial, trivial, ?_, ?_, trivial⟩
    all_goals exact slowTime_slept (by decide) (by decide)
  have hcheck : ∃ p, Path (monitorRound strictBase64 "wg0" false s).run (foundHome .online) p := by
    obtain ⟨netmon, _⟩ := s
    cases hnetmon
    exact ⟨_, .cons (.cons (.cons (.nil _)))⟩
  obtain ⟨p, hp⟩ := hcheck
  have hrun := ((start_run [silentPeer] hstart).follow hs hround).again.follow hp
    (⟨trivial, trivial, trivial, trivial⟩)
  have hpaced := client_paced slowTime_mono hrun
  exact ⟨rfl, rfl, hpaced.1, (hpaced.2 (started [silentPeer]) _ (List.append_assoc _ _ _)).1⟩

end Wireplug
