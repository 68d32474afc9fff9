import Wireplug.PendingPeers

namespace Wireplug

open Foundation Program ByteStream Client

/-- A round that is cut short has no usable network. -/
structure RoundSeen where
  attempts : ℕ
  answered : Bool
  cutShort : Bool

def seeRound (n : RoundSeen) : Event ClientEffect.Answer → RoundSeen
  | ⟨.checked status, _⟩ => ⟨0, false, status = .offline ∨ status = .hardNat⟩
  | ⟨.detectKind _, .error _⟩ => { n with cutShort := true }
  | ⟨.deviceGet .announce, _⟩ => { n with attempts := n.attempts + 1 }
  | ⟨.sendAnnouncement _, .ok response⟩ => { n with answered := response.valid }
  | _ => n

def roundSeen (t : ClientTrace) : RoundSeen := t.foldl seeRound ⟨0, false, false⟩

/-- A round that is over has got a valid response or used up its attempts, unless there was no
usable network or nobody to announce. -/
def RoundOver (t : ClientTrace) : Prop :=
  (roundSeen t).answered = true ∨ (roundSeen t).attempts = maxAnnounceRetries ∨
    (roundSeen t).attempts = 0 ∧ ((roundSeen t).cutShort = true ∨ pendingPeers t = [])

def AttemptsFew (t : ClientTrace) (e : ClientEffect) : Prop :=
  e = .deviceGet .announce → (roundSeen t).attempts < maxAnnounceRetries ∧
    (roundSeen t).answered = false ∧ (roundSeen t).cutShort = false

variable {t u : ClientTrace} {peers : List Key} {m : ℕ}

theorem roundSeen_snoc (t : ClientTrace) (ev : Event ClientEffect.Answer) :
    roundSeen (t ++ [ev]) = seeRound (roundSeen t) ev :=
  List.foldl_concat _ _ _ _

def Besides : ClientEffect → Prop
  | .checked _ | .detectKind _ | .sendAnnouncement _ => False
  | .deviceGet reader => reader ≠ .announce
  | _ => True

theorem Besides.few {e : ClientEffect} (h : Besides e) : AttemptsFew t e := by
  intro he
  rw [he] at h
  exact (h rfl).elim

theorem seeRound_besides {ev : Event ClientEffect.Answer} (h : Besides ev.1) (n : RoundSeen) :
    seeRound n ev = n := by
  obtain ⟨e, r⟩ := ev
  cases e with
  | checked | detectKind | sendAnnouncement => exact h.elim
  | deviceGet reader =>
    cases reader with
    | announce => exact (h rfl).elim
    | _ => rfl
  | _ => rfl

theorem roundSeen_append (hu : ∀ ev ∈ u, Besides ev.1) : roundSeen (t ++ u) = roundSeen t := by
  induction u using List.reverseRecOn with
  | nil => rw [List.append_nil]
  | append_singleton u ev ih =>
    rw [← List.append_assoc, roundSeen_snoc, seeRound_besides (hu ev (by simp))]
    exact ih fun ev' hev' ↦ hu ev' (List.mem_append_left _ hev')

theorem UpdatesFrom.besides {fromBase64 : String → Option Key}
    {entries : List (String × WireplugEndpoint)} {e : ClientEffect}
    (h : UpdatesFrom fromBase64 entries e) : Besides e := by
  cases e with
  | checked | detectKind | sendAnnouncement | deviceGet => exact h.elim
  | _ => trivial

section Rounds

variable {α : Type} {fromBase64 : String → Option Key} {ifName : String} {traverseNat : Bool}
  {s : MonitorState} {assumes : ClientTrace → (e : ClientEffect) → e.Answer → Prop}
  {seen : RoundSeen}

def Shows (seen : RoundSeen) (t : ClientTrace) : Prop := roundSeen t = seen

theorem Shows.append (h : Shows seen t) (hu : ∀ ev ∈ u, Besides ev.1) : Shows seen (t ++ u) :=
  (roundSeen_append hu).trans h

theorem Shows.snoc (h : Shows seen t) (ev : Event ClientEffect.Answer) :
    Shows (seeRound seen ev) (t ++ [ev]) := by
  rw [Shows, roundSeen_snoc, h]

theorem Shows.calls {x : Client α} {Q : α → Prop} {F : ClientError → Prop} (h : Shows seen t)
    (hx : x.run.Only Besides (Ends Q F)) :
    x.run.Ensures assumes AttemptsFew (fun r u ↦ Shows seen u ∧ Ends Q F r) t :=
  hx.ensures (fun _ _ _ he ↦ he.few) fun _ hu _ hr ↦ ⟨h.append hu, hr⟩

theorem announce_shows (h : Shows ⟨m, false, false⟩ t) (hm : m < maxAnnounceRetries)
    (port : UInt16) (netinfo : NetInfo) (needsRelay : Bool) :
    (attempt (announce ifName peers port netinfo needsRelay)).run.Ensures assumes AttemptsFew
      (fun r u ↦ Ends (fun r ↦ Shows ⟨m + 1, r.isOk, false⟩ u) (fun _ ↦ True) r) t := by
  have hallowed : AttemptsFew t (.deviceGet .announce) := by
    intro _
    rw [h]
    exact ⟨hm, rfl, rfl⟩
  refine Ensures.call hallowed fun r _ ↦ ?_
  have hdevice := h.snoc ⟨.deviceGet .announce, r⟩
  rcases r with e | ⟨_ | k, devicePeers⟩
  · exact hdevice
  · exact hdevice
  · refine Ensures.call nofun fun r _ ↦ ?_
    have hconnect := hdevice.snoc ⟨.connect, r⟩
    cases r with
    | error e => exact hconnect
    | ok _ =>
      refine Ensures.call nofun fun r _ ↦ ?_
      have hsent (response : Except AnnounceError WireplugResponse) :=
        hconnect.snoc ⟨.sendAnnouncement (announcement k peers port netinfo needsRelay), response⟩
      rcases r with e | response
      · have herror := hsent (.error e)
        cases e <;> first | exact herror | trivial
      · have hok : Shows ⟨m + 1, response.valid, false⟩ _ := hsent (.ok response)
        change (attempt (takeResponse (.ok response))).run.Ensures _ _ _ _
        rw [attempt_takeResponse]
        cases hvalid : response.valid with
        | true => rwa [hvalid] at hok
        | false => rwa [hvalid] at hok

theorem announceRounds_over (port : UInt16) (netinfo : NetInfo) (needsRelay : Bool)
    (peerTracker : PeerTracker) (n : ℕ) (h : Shows ⟨m, false, false⟩ t)
    (hn : m + n = maxAnnounceRetries) :
    (announceRounds fromBase64 ifName netinfo port needsRelay peerTracker peers n).run.Ensures
      assumes AttemptsFew (fun r u ↦ Ends (fun _ ↦ (roundSeen u).answered = true ∨
        (roundSeen u).attempts = maxAnnounceRetries) (fun _ ↦ True) r) t := by
  induction n generalizing m t with
  | zero =>
    right
    rw [h]
    exact hn
  | succ n ih =>
    refine (ensures_try _ _ _).mpr ((announce_shows h (by omega) port netinfo needsRelay).mono
      fun r u hu ↦ ?_)
    rcases r with e | e | response
    · trivial
    · refine ensures_ask (Besides.few trivial) fun r _ ↦ ?_
      exact ih (Shows.snoc hu ⟨.sleep 5, r⟩) (by omega)
    · have hupdates := updatePeers_only fromBase64 peerTracker response.peerEndpoints
        netinfo.wanIpv6.isSome
      refine (ensures_try _ _ _).mpr ((Shows.calls hu (hupdates.mono (fun _ he ↦ he.besides)
        fun _ hr ↦ hr)).mono fun r v hv ↦ ?_)
      have hanswered : (roundSeen v).answered = true := by rw [hv.1]; rfl
      cases r with
      | error e => trivial
      | ok updated =>
        dsimp only
        split
        · exact .inl hanswered
        · refine ensures_ask (Besides.few trivial) fun r _ ↦ .inl ?_
          rw [roundSeen_snoc]
          exact hanswered

theorem RoundOver.sleep {secs : ℕ} {r : Unit} (h : RoundOver t) :
    RoundOver (t ++ [⟨.sleep secs, r⟩]) := by
  rw [RoundOver, roundSeen_snoc, pendingPeers_snoc]
  exact h

theorem sleep_over {secs : ℕ} (h : RoundOver t) (s : MonitorState) :
    (do sleep secs; pure s : Client MonitorState).run.Ensures assumes AttemptsFew
      (fun r u ↦ Ends (fun _ ↦ RoundOver u) (fun _ ↦ True) r) t :=
  ensures_ask (Besides.few trivial) fun _ _ ↦ h.sleep

theorem announceInactive_over (h : TalliesTrace s t) (hseen : Shows ⟨0, false, false⟩ t)
    (hcurrent : s.netmon.current.isSome = true) :
    (announceInactive fromBase64 ifName s).run.Ensures (fun _ ↦ AnswersDistinct) AttemptsFew
      (fun r u ↦ Ends (fun _ ↦ RoundOver u) (fun _ ↦ True) r) t := by
  have hpoll : (pollInactive s).run.Ensures (fun _ ↦ AnswersDistinct) AttemptsFew
      (fun r u ↦ Shows ⟨0, false, false⟩ u ∧ Ends (fun s' ↦ s'.netmon = s.netmon) _ r) t :=
    hseen.calls (pollInactive_calls trivial nofun s)
  refine (ensures_try _ _ _).mpr (((pollInactive_tallies h).and hpoll).mono fun r u hu ↦ ?_)
  obtain ⟨htallies, hseen, hnetmon⟩ := hu
  cases r with
  | error e => trivial
  | ok s' =>
    dsimp only
    split
    · next hempty =>
      refine sleep_over (.inr (.inr ?_)) s'
      rw [hseen]
      refine ⟨rfl, .inr ?_⟩
      rw [← Tallies.peers_eq htallies]
      exact List.isEmpty_iff.mp hempty
    · split
      · next hnone =>
        have hcurrent' : s'.netmon.current = none := hnone
        rw [show s'.netmon = s.netmon from hnetmon] at hcurrent'
        rw [hcurrent'] at hcurrent
        cases hcurrent
      · next netinfo _ =>
        refine (ensures_try _ _ _).mpr ((announceRounds_over s'.portToAnnounce netinfo
          s'.netmon.needsRelay s'.peersManager maxAnnounceRetries hseen rfl).mono fun r v hv ↦ ?_)
        cases r with
        | error e => trivial
        | ok handled => exact sleep_over (hv.imp id .inl) _

theorem choosePort_shows (h : Shows ⟨0, false, false⟩ t) (newPort : UInt16)
    (netmon : NetworkMonitor) :
    (choosePort traverseNat newPort netmon).run.Ensures assumes AttemptsFew
      (fun r u ↦ Ends (fun chosen ↦ (chosen = none → Shows ⟨0, false, true⟩ u) ∧
        ∀ c, chosen = some c → Shows ⟨0, false, false⟩ u ∧
          c.2.current.isSome = netmon.current.isSome) (fun _ ↦ True) r) t := by
  rw [choosePort]
  split
  · refine Ensures.call (fun he ↦ by cases he) fun r _ ↦ ?_
    have hdetected := h.snoc ⟨.detectKind newPort, r⟩
    cases r with
    | error e =>
      cases e with
      | unresolved => trivial
      | io | encoding =>
        refine Ensures.call (Besides.few trivial) fun r _ ↦ ⟨fun _ ↦ ?_, fun c hc ↦ by cases hc⟩
        exact hdetected.snoc ⟨.sleep 5, r⟩
    | ok natKind =>
      refine ⟨(fun hnone ↦ by cases hnone), fun c hc ↦ ?_⟩
      cases hc
      refine ⟨hdetected, ?_⟩
      cases natKind with
      | easy | fixedPortMapping => rfl
      | hard => exact Option.isSome_map
  · refine ⟨(fun hnone ↦ by cases hnone), fun c hc ↦ ?_⟩
    cases hc
    exact ⟨h, rfl⟩

theorem changeNetwork_shows (h : Shows ⟨0, false, false⟩ t)
    (hcurrent : s.netmon.current.isSome = true) :
    (changeNetwork traverseNat s).run.Ensures assumes AttemptsFew
      (fun r u ↦ Ends (fun changed ↦ (changed = none → Shows ⟨0, false, true⟩ u) ∧
        ∀ s', changed = some s' → Shows ⟨0, false, false⟩ u ∧
          s'.netmon.current.isSome = true) (fun _ ↦ True) r) t := by
  refine ensures_ask (Besides.few trivial) fun newPort _ ↦ ?_
  have hdrawn := h.snoc ⟨.getRandomPort, newPort⟩
  refine (ensures_try _ _ _).mpr ((choosePort_shows hdrawn newPort.val s.netmon).mono
    fun r u hu ↦ ?_)
  rcases r with e | _ | ⟨portToAnnounce, netmon⟩
  · trivial
  · exact ⟨fun _ ↦ hu.1 rfl, nofun⟩
  · obtain ⟨hseen, hsome⟩ := hu.2 _ rfl
    refine ensures_ask (Besides.few trivial) fun r _ ↦ ?_
    have hslept := hseen.snoc ⟨.sleep 3, r⟩
    refine Ensures.call (Besides.few trivial) fun r _ ↦ ?_
    have hport := hslept.snoc ⟨.updatePort newPort.val, r⟩
    cases r with
    | error e => trivial
    | ok _ =>
      refine Ensures.call nofun fun r _ ↦ ?_
      have hlisted := hport.snoc ⟨.deviceGet .getAllPeers, r⟩
      cases r with
      | error e => trivial
      | ok device =>
        refine ⟨nofun, fun s' hs' ↦ ?_⟩
        cases hs'
        exact ⟨hlisted, hsome.trans hcurrent⟩

theorem Detects.few {e : ClientEffect} (h : Detects e) : AttemptsFew t e :=
  Besides.few (h.imp trivial trivial trivial)

theorem cut_over (h : Shows ⟨0, false, true⟩ t) : RoundOver t := by
  right
  right
  rw [h]
  exact ⟨rfl, .inl rfl⟩

theorem monitorRound_over (h : TalliesTrace s t) :
    (monitorRound fromBase64 ifName traverseNat s).run.Ensures (fun _ ↦ AnswersDistinct)
      AttemptsFew (fun r u ↦ Ends (fun _ ↦ RoundOver u) (fun _ ↦ True) r) t := by
  refine (ensures_try _ _ _).mpr (checkStatus_ensures s.netmon (fun u e he ↦ he.few)
    (fun u status ↦ nofun) fun u newInfo hu ↦ ?_)
  have htallies := Tallies.checked h hu
  have hcurrent := current_checkStatus s.netmon newInfo
  generalize s.netmon.checkStatus newInfo = c at hcurrent ⊢
  obtain ⟨status, netmon⟩ := c
  have hseen := roundSeen_snoc (t ++ u) ⟨.checked status, ()⟩
  cases status with
  | online | changedToPrev => exact announceInactive_over (htallies netmon _) hseen hcurrent
  | offline | hardNat => exact sleep_over (cut_over hseen) _
  | changedToNew =>
    refine (ensures_try _ _ _).mpr (((changeNetwork_tallies (htallies netmon _)).and
      (changeNetwork_shows hseen hcurrent)).mono fun r v hv ↦ ?_)
    rcases r with e | _ | s'
    · trivial
    · exact cut_over (hv.2.1 rfl)
    · obtain ⟨hfresh, hsome⟩ := hv.2.2 s' rfl
      exact announceInactive_over (hv.1.2 s' rfl) hfresh hsome

theorem monitorStart_over : monitorStart.run.Ensures (fun _ ↦ AnswersDistinct) AttemptsFew
    (fun r u ↦ Ends (fun _ ↦ RoundOver u) (fun _ ↦ True) r) [] := by
  refine Ensures.call nofun fun r _ ↦ ?_
  cases r with
  | error e => trivial
  | ok device => exact Ensures.call nofun fun _ _ ↦ .inr (.inr ⟨rfl, .inr rfl⟩)

/-- In each round the loop attempts to announce at most three times, never again after a valid
response and never without a usable network. A round on a usable network that has got no valid
response by its end has used up its attempts, or has found nobody to announce. -/
theorem round_attempts
    {p : Program ClientEffect.Answer (Except ClientError MonitorState)}
    (h : MonitorRun fromBase64 ifName traverseNat (fun _ ↦ AnswersDistinct) t p) :
    (∀ u r v, t = u ++ ⟨.deviceGet .announce, r⟩ :: v →
      (roundSeen u).attempts < maxAnnounceRetries ∧ (roundSeen u).answered = false ∧
        (roundSeen u).cutShort = false) ∧
    ∀ s, p = .done (.ok s) → RoundOver t := by
  have hstart := monitorStart_tallies.and monitorStart_over
  constructor
  · intro u r v ht
    exact h.requires_of_mem hstart
      (fun _ _ hs ↦ (monitorRound_tallies hs.1).and (monitorRound_over hs.1)) ht rfl
  · intro s hp
    have hdone := h.ensures hstart
      fun _ _ hs ↦ (monitorRound_tallies hs.1).and (monitorRound_over hs.1)
    rw [hp] at hdone
    exact hdone.2

end Rounds

def unansweredRound : ClientTrace :=
  arrival .easy ++ [⟨.deviceGet .announce, .error .failed⟩, ⟨.sleep 5, ()⟩,
    ⟨.deviceGet .announce, .error .failed⟩, ⟨.sleep 5, ()⟩,
    ⟨.deviceGet .announce, .error .failed⟩, ⟨.sleep 5, ()⟩, ⟨.sleep 10, ()⟩]

theorem round_attempts_unanswered : RoundOver (started [silentPeer] ++ unansweredRound) := by
  have hone : AnswersDistinct (.deviceGet .getAllPeers) (.ok (wgDevice [silentPeer])) :=
    List.nodup_singleton _
  have hstart : Answered (fun _ ↦ AnswersDistinct) [] (started [silentPeer]) :=
    ⟨hone, trivial, trivial⟩
  have hround : Answered (fun _ ↦ AnswersDistinct) (started [silentPeer]) unansweredRound :=
    ⟨trivial, trivial, trivial, trivial, trivial, trivial, trivial, hone, trivial, trivial,
      trivial, trivial, trivial, trivial, trivial, trivial, trivial⟩
  have hpath : ∃ s, Path (monitorRound strictBase64 "wg0" true (startState [silentPeer])).run
      unansweredRound (.done (.ok s)) :=
    ⟨_, .cons (.cons (.cons (.cons (.cons (.cons (.cons (.cons (.cons (.cons (.cons (.cons (.cons
      (.cons (.cons (.cons (.nil _))))))))))))))))⟩
  obtain ⟨s, hs⟩ := hpath
  exact (round_attempts ((start_run [silentPeer] hstart).follow hs hround)).2 s rfl

end Wireplug
