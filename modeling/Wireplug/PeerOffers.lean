import Wireplug.MonitorRound
import Wireplug.SeenPeers

namespace Wireplug

open Foundation Program ByteStream Client

def trackEvent (peerTracker : PeerTracker) : Event ClientEffect.Answer → PeerTracker
  | ⟨.deviceGet .initPeersActivity, .ok device⟩ => peerTracker.updateAll device.peers
  | ⟨.deviceGet .getInactivePeersByRx, .ok device⟩ => (peerTracker.listInactive device.peers).2
  | ⟨.setEndpoint k sa, .ok _⟩ => peerTracker.setEndpoint k sa
  | _ => peerTracker

def trackerAfter (t : ClientTrace) : PeerTracker := t.foldl trackEvent .new

/-- The tracker has the peer, with an endpoint other than `sa`. -/
def OtherEndpoint (peerTracker : PeerTracker) (k : Key) (sa : SocketAddr) : Prop :=
  ∃ info, peerTracker.peers.get? k = some info ∧ info.currentEndpoint ≠ some sa

/-- The response being processed says that `k` is at `sa`: its entries before that one have been
dealt with, and the address has been looked up. -/
inductive Offers (fromBase64 : String → Option Key) (t : ClientTrace) (k : Key)
    (sa : SocketAddr) : Prop
  | intro {u v w : ClientTrace} {a : WireplugAnnouncement} {response : WireplugResponse}
      {before after : List (String × WireplugEndpoint)} {entry : String × WireplugEndpoint}
      {acc : PeerTracker × List Key}
      (ht : t = u ++ ⟨.sendAnnouncement a, .ok response⟩ :: (v ++ w))
      (hvalid : response.valid = true)
      (hentries : response.peerEndpoints.entries = before ++ entry :: after)
      (hkey : fromBase64 entry.1 = some k)
      (hbefore : Path (before.foldlM (updateEntry fromBase64 a.ipv6.isSome)
        (trackerAfter u, [])).run v (.done (.ok acc)))
      (hfound : Path (endpointToUse a.ipv6.isSome entry.2).run w (.done (.ok (some sa))))

def AppliesOffered (fromBase64 : String → Option Key) (t : ClientTrace) (e : ClientEffect) :
    Prop :=
  ∀ k sa, e = .setEndpoint k sa ↔
    Offers fromBase64 t k sa ∧ OtherEndpoint (trackerAfter t) k sa

def Updating : ClientEffect → Prop
  | .getLanAddrs | .resolveRelay _ | .setEndpoint _ _ => True
  | _ => False

def Idle (t : ClientTrace) : Prop :=
  ∀ u a response v, t = u ++ ⟨.sendAnnouncement a, .ok response⟩ :: v → ∃ ev ∈ v, ¬ Updating ev.1

section Calls

variable {fromBase64 : String → Option Key} {ifName : String} {traverseNat : Bool}
  {t u : ClientTrace} {k : Key} {sa : SocketAddr} {e : ClientEffect}

theorem trackerAfter_snoc (t : ClientTrace) (ev : Event ClientEffect.Answer) :
    trackerAfter (t ++ [ev]) = trackEvent (trackerAfter t) ev := List.foldl_concat ..

theorem trackEvent_apart {ev : Event ClientEffect.Answer} (h : Apart ev.1)
    (peerTracker : PeerTracker) : trackEvent peerTracker ev = peerTracker := by
  obtain ⟨e, r⟩ := ev
  cases e with
  | deviceGet | setEndpoint => exact h.elim
  | _ => rfl

theorem trackerAfter_apart (hu : ∀ ev ∈ u, Apart ev.1) :
    trackerAfter (t ++ u) = trackerAfter t := by
  induction u using List.reverseRecOn with
  | nil => rw [List.append_nil]
  | append_singleton u ev ih =>
    rw [← List.append_assoc, trackerAfter_snoc, trackEvent_apart (hu ev (by simp))]
    exact ih fun ev' hev' ↦ hu ev' (List.mem_append_left _ hev')

theorem tracks_trackerAfter : (trackerAfter t).Tracks k ↔ Seen t k := by
  induction t using List.reverseRecOn with
  | nil =>
    refine iff_of_false (fun h ↦ ?_) (not_seen fun ev hev ↦ by cases hev)
    obtain ⟨info, hinfo⟩ := h
    cases hinfo
  | append_singleton t ev ih =>
    rw [trackerAfter_snoc, seen_append, ← ih]
    have hother (hsame : (trackEvent (trackerAfter t) ev).Tracks k ↔ (trackerAfter t).Tracks k)
        (hev : ¬ Seen [ev] k) : (trackEvent (trackerAfter t) ev).Tracks k ↔
          (trackerAfter t).Tracks k ∨ Seen [ev] k := hsame.trans (or_iff_left hev).symm
    have hunseen (hev : Unseeing ev.1) : ¬ Seen [ev] k := not_seen (unseeing_singleton hev ev.2)
    obtain ⟨e, r⟩ := ev
    cases e with
    | deviceGet reader =>
      rcases r with error | device
      · refine hother (by cases reader <;> rfl) fun h ↦ ?_
        obtain ⟨device, ⟨hmem, -⟩ | ⟨hmem, -⟩⟩ := h <;> cases List.mem_singleton.mp hmem
      · cases reader with
        | initPeersActivity =>
          exact PeerTracker.tracks_updateAll.trans (or_congr_right seen_start.symm)
        | getInactivePeersByRx =>
          exact PeerTracker.tracks_listInactive.trans (or_congr_right seen_poll.symm)
        | _ => exact hother Iff.rfl (hunseen ⟨nofun, nofun⟩)
    | setEndpoint k' sa =>
      refine hother ?_ (hunseen ⟨nofun, nofun⟩)
      cases r with
      | error e => rfl
      | ok _ => exact (PeerTracker.sameRx_setEndpoint _ k' sa).tracks k
    | _ => exact hother Iff.rfl (hunseen ⟨nofun, nofun⟩)

theorem UpdatesFrom.updating {entries : List (String × WireplugEndpoint)}
    (h : UpdatesFrom fromBase64 entries e) : Updating e := by
  cases e with
  | getLanAddrs | resolveRelay | setEndpoint => trivial
  | _ => exact h.elim

theorem calls_endpointToUse (localHasIpv6 : Bool) (endpoint : WireplugEndpoint) :
    Calls Apart (endpointToUse localHasIpv6 endpoint) :=
  calls_of_only (endpointToUse_only (fun _ ↦ none) [] localHasIpv6 endpoint) fun e he ↦ by
    cases e with
    | setEndpoint k sa =>
      obtain ⟨entry, hentry, -⟩ := he
      cases hentry
    | getLanAddrs | resolveRelay => trivial
    | _ => exact he.elim

theorem updating_endpointToUse {localHasIpv6 : Bool} {endpoint : WireplugEndpoint}
    {found : Option SocketAddr}
    (h : Path (endpointToUse localHasIpv6 endpoint).run u (.done (.ok found))) :
    ∀ ev ∈ u, Updating ev.1 := fun ev hev ↦
  ((endpointToUse_only (fun _ ↦ none) [] localHasIpv6 endpoint).of_path h ev hev).updating

theorem updating_foldlM {l : List (String × WireplugEndpoint)} {localHasIpv6 : Bool}
    {acc acc' : PeerTracker × List Key}
    (h : Path (l.foldlM (updateEntry fromBase64 localHasIpv6) acc).run u (.done (.ok acc'))) :
    ∀ ev ∈ u, Updating ev.1 := by
  have honly : (l.foldlM (updateEntry fromBase64 localHasIpv6) acc).run.Only
      (UpdatesFrom fromBase64 l) (Ends (fun _ ↦ True) fun _ ↦ True) :=
    only_foldlM l (fun acc _ entry hentry ↦
      calls_of_only (updateEntry_only fromBase64 l localHasIpv6 acc hentry) fun _ he ↦ he) trivial
  exact fun ev hev ↦ (honly.of_path h ev hev).updating

theorem trackerAfter_foldlM {l : List (String × WireplugEndpoint)} {localHasIpv6 : Bool}
    {acc acc' : PeerTracker × List Key} (ht : trackerAfter t = acc.1)
    (h : Path (l.foldlM (updateEntry fromBase64 localHasIpv6) acc).run u (.done (.ok acc'))) :
    trackerAfter (t ++ u) = acc'.1 := by
  have hentry (acc : PeerTracker × List Key) (t : ClientTrace) (ht : trackerAfter t = acc.1)
      (entry : String × WireplugEndpoint) (_ : entry ∈ l) :
      (updateEntry fromBase64 localHasIpv6 acc entry).run.Ensures (fun _ _ _ ↦ True)
        (fun _ _ ↦ True) (fun r u ↦ Ends (fun acc' ↦ trackerAfter u = acc'.1) (fun _ ↦ True) r)
        t := by
    rw [updateEntry]
    cases fromBase64 entry.1 with
    | none => exact ht
    | some k =>
      refine (ensures_try _ _ _).mpr ((calls_endpointToUse localHasIpv6 entry.2).ensures
        (fun _ _ _ _ ↦ trivial) fun v hv r _ ↦ ?_)
      have hfound : trackerAfter (t ++ v) = acc.1 := (trackerAfter_apart hv).trans ht
      rcases r with e | _ | sa
      · trivial
      · exact hfound
      · dsimp only
        rw [updatePeer]
        cases acc.1.peers.get? k with
        | none => trivial
        | some info =>
          dsimp only
          split
          · exact hfound
          · refine ⟨trivial, fun r _ ↦ ?_⟩
            cases r with
            | error e => trivial
            | ok _ =>
              change trackerAfter (t ++ v ++ [_]) = _
              rw [trackerAfter_snoc, hfound]
              rfl
  exact (ensures_foldlM l hentry ht).result h

section Entry

variable {localHasIpv6 : Bool} {acc : PeerTracker × List Key} {entry : String × WireplugEndpoint}
  {c : Except IoError Unit → Program ClientEffect.Answer (Except ClientError (PeerTracker × List Key))}

theorem path_updateEntry_call (h : Path (updateEntry fromBase64 localHasIpv6 acc entry).run u
    (.call (.setEndpoint k sa) c)) : fromBase64 entry.1 = some k ∧
      Path (endpointToUse localHasIpv6 entry.2).run u (.done (.ok (some sa))) ∧
      OtherEndpoint acc.1 k sa := by
  rw [updateEntry] at h
  cases hkey : fromBase64 entry.1 with
  | none =>
    rw [hkey] at h
    cases h
  | some k' =>
    rw [hkey] at h
    rcases h.try_call with ⟨c', h⟩ | ⟨found, u, v, rfl, hfound, h⟩
    · exact ((calls_endpointToUse localHasIpv6 entry.2).at_path h).1.elim
    · cases found with
      | none => cases h
      | some sa' =>
        dsimp only at h
        rw [updatePeer] at h
        cases hinfo : acc.1.peers.get? k' with
        | none =>
          rw [hinfo] at h
          cases h
        | some info =>
          rw [hinfo] at h
          dsimp only at h
          by_cases hsame : info.currentEndpoint = some sa'
          · rw [if_pos hsame] at h
            cases h
          · rw [if_neg hsame] at h
            cases h with
            | nil =>
              rw [List.append_nil]
              exact ⟨rfl, hfound, info, hinfo, hsame⟩
            | @cons _ _ r _ _ h => cases r <;> cases h

theorem updateEntry_path (hkey : fromBase64 entry.1 = some k)
    (hfound : Path (endpointToUse localHasIpv6 entry.2).run u (.done (.ok (some sa))))
    (hother : OtherEndpoint acc.1 k sa) : ∃ c,
      Path (updateEntry fromBase64 localHasIpv6 acc entry).run u (.call (.setEndpoint k sa) c) := by
  obtain ⟨info, hinfo, hnew⟩ := hother
  have hset : ∃ c, Path (updatePeer acc.1 k sa).run [] (.call (.setEndpoint k sa) c) := by
    rw [updatePeer, hinfo]
    dsimp only
    rw [if_neg hnew]
    exact ⟨_, .nil _⟩
  obtain ⟨c, hset⟩ := hset
  rw [updateEntry, hkey, ← List.append_nil u]
  exact ⟨_, (Path.try _ _ hfound).trans (hset.bind _)⟩

end Entry

section Response

variable {a : WireplugAnnouncement} {response : WireplugResponse} {peerTracker : PeerTracker}
  {x : ClientTrace} {q : Program ClientEffect.Answer (Except ClientError (PeerTracker × List Key))}

theorem not_updating_send (r : Except AnnounceError WireplugResponse) :
    ¬ Updating (⟨.sendAnnouncement a, r⟩ : Event ClientEffect.Answer).1 := id

/-- While a response is processed, the next call applies an endpoint exactly if an entry offers
one that is new. -/
theorem offered_iff (hvalid : response.valid = true) (htracker : trackerAfter u = peerTracker)
    (h : Path (updatePeers fromBase64 peerTracker response.peerEndpoints a.ipv6.isSome).run x q) :
    Offers fromBase64 (u ++ ⟨.sendAnnouncement a, .ok response⟩ :: x) k sa ∧
      OtherEndpoint (trackerAfter (u ++ ⟨.sendAnnouncement a, .ok response⟩ :: x)) k sa ↔
        ∃ c, q = .call (.setEndpoint k sa) c := by
  have hsent : trackerAfter (u ++ [⟨.sendAnnouncement a, .ok response⟩]) = peerTracker := by
    rw [trackerAfter_snoc, htracker]
    rfl
  have hafter {before : List (String × WireplugEndpoint)} {acc : PeerTracker × List Key}
      {v w : ClientTrace} (hbefore : Path (before.foldlM (updateEntry fromBase64 a.ipv6.isSome)
        (peerTracker, [])).run v (.done (.ok acc))) (hw : ∀ ev ∈ w, Apart ev.1) :
      trackerAfter (u ++ ⟨.sendAnnouncement a, .ok response⟩ :: (v ++ w)) = acc.1 := by
    rw [List.append_cons, ← List.append_assoc, trackerAfter_apart hw]
    exact trackerAfter_foldlM hsent hbefore
  constructor
  · rintro ⟨hoffered, hother⟩
    obtain @⟨u', v, w, a', response', before, after, entry, acc, ht, -, hentries, hkey, hbefore,
      hfound⟩ := hoffered
    have hx : ∀ ev ∈ x, Updating ev.1 :=
      fun ev hev ↦ ((updatePeers_only _ _ _ _).of_path h ev hev).updating
    have hvw := List.forall_mem_append.mpr ⟨updating_foldlM hbefore, updating_endpointToUse hfound⟩
    obtain ⟨rfl, heq, rfl⟩ := last_unique ht (not_updating_send _) (not_updating_send _) hx hvw
    cases heq
    rw [htracker] at hbefore
    rw [hafter hbefore ((calls_endpointToUse _ _).of_path hfound)] at hother
    obtain ⟨c, hentry⟩ := updateEntry_path hkey hfound hother
    obtain ⟨c, hall⟩ := hbefore.foldlM_call hentry after
    rw [← hentries] at hall
    exact ⟨c, h.unique hall⟩
  · rintro ⟨c, rfl⟩
    obtain ⟨before, entry, after, acc, v, w, c', hentries, rfl, hbefore, hentry⟩ :=
      h.foldlM_call_inv
    obtain ⟨hkey, hfound, hother⟩ := path_updateEntry_call hentry
    rw [hafter hbefore ((calls_endpointToUse _ _).of_path hfound)]
    rw [← htracker] at hbefore
    exact ⟨.intro rfl hvalid hentries hkey hbefore hfound, hother⟩

def Unoffered (fromBase64 : String → Option Key) (t : ClientTrace) : Prop :=
  ∀ k sa, ¬ (Offers fromBase64 t k sa ∧ OtherEndpoint (trackerAfter t) k sa)

theorem Unoffered.applies (h : Unoffered fromBase64 t) (he : ∀ k sa, e ≠ .setEndpoint k sa) :
    AppliesOffered fromBase64 t e :=
  fun k sa ↦ iff_of_false (he k sa) (h k sa)

theorem updatePeers_applies {assumes : ClientTrace → (e : ClientEffect) → e.Answer → Prop}
    (hvalid : response.valid = true) (htracker : trackerAfter u = peerTracker) :
    (updatePeers fromBase64 peerTracker response.peerEndpoints a.ipv6.isSome).run.Ensures assumes
      (AppliesOffered fromBase64) (fun r v ↦ Ends (fun r ↦ trackerAfter v = r.1 ∧
        Unoffered fromBase64 v) (fun _ ↦ True) r) (u ++ [⟨.sendAnnouncement a, .ok response⟩]) := by
  refine ensures_of_path (fun x e c hpath k sa ↦ ?_) fun x r hpath ↦ ?_
  · rw [← List.append_cons, offered_iff hvalid htracker hpath]
    constructor
    · rintro rfl
      exact ⟨c, rfl⟩
    · rintro ⟨c', heq⟩
      exact (Program.call.inj heq).1
  · cases r with
    | error e => trivial
    | ok r =>
      refine ⟨trackerAfter_foldlM ?_ hpath, fun k sa hoffered ↦ ?_⟩
      · rw [trackerAfter_snoc, htracker]
        rfl
      · rw [← List.append_cons, offered_iff hvalid htracker hpath] at hoffered
        obtain ⟨c, heq⟩ := hoffered
        cases heq

end Response

theorem Offers.not_idle (h : Offers fromBase64 t k sa) : ¬ Idle t := by
  obtain @⟨u, v, w, a, response, before, after, entry, acc, ht, -, -, -, hbefore, hfound⟩ := h
  intro hidle
  obtain ⟨ev, hev, hnot⟩ := hidle u a response _ ht
  rcases List.mem_append.mp hev with hev | hev
  · exact hnot (updating_foldlM hbefore ev hev)
  · exact hnot (updating_endpointToUse hfound ev hev)

theorem Idle.unoffered (h : Idle t) : Unoffered fromBase64 t := fun _ _ hoffered ↦
  hoffered.1.not_idle h

def Responds : Event ClientEffect.Answer → Prop
  | ⟨.sendAnnouncement _, .ok _⟩ => True
  | _ => False

theorem Idle.snoc (h : Idle t) {ev : Event ClientEffect.Answer} (hev : ¬ Responds ev) :
    Idle (t ++ [ev]) := by
  intro u a response v heq
  rcases last_or_before heq with ⟨-, rfl, -⟩ | ⟨w, rfl, ht⟩
  · exact (hev trivial).elim
  · obtain ⟨ev', hev', hnot⟩ := h u a response w ht
    exact ⟨ev', List.mem_append_left _ hev', hnot⟩

theorem Idle.append (h : Idle t) (hu : ∀ ev ∈ u, ¬ Responds ev) : Idle (t ++ u) := by
  induction u using List.reverseRecOn with
  | nil => rwa [List.append_nil]
  | append_singleton u ev ih =>
    rw [← List.append_assoc]
    exact (ih fun ev' hev' ↦ hu ev' (List.mem_append_left _ hev')).snoc (hu ev (by simp))

theorem idle_slept (t : ClientTrace) (secs : ℕ) : Idle (t ++ [⟨.sleep secs, ()⟩]) := by
  intro u a response v heq
  rcases last_or_before heq with ⟨-, heq, -⟩ | ⟨w, rfl, -⟩
  · cases heq
  · exact ⟨_, List.mem_append_right _ List.mem_cons_self, id⟩

section Rounds

variable {assumes : ClientTrace → (e : ClientEffect) → e.Answer → Prop} {s s' : MonitorState}
  {peerTracker : PeerTracker} {netinfo : NetInfo} {call : Option NetInfo}

structure UpToDate (peerTracker : PeerTracker) (t : ClientTrace) : Prop where
  idle : Idle t
  tracker : trackerAfter t = peerTracker

theorem UpToDate.snoc (h : UpToDate peerTracker t) (ev : Event ClientEffect.Answer)
    (hev : ¬ Responds ev) {peerTracker' : PeerTracker}
    (htracker : trackEvent peerTracker ev = peerTracker') : UpToDate peerTracker' (t ++ [ev]) :=
  ⟨h.idle.snoc hev, by rw [trackerAfter_snoc, h.tracker, htracker]⟩

def Attempted (fromBase64 : String → Option Key) (peerTracker : PeerTracker) (netinfo : NetInfo)
    (u : ClientTrace) : Except ClientError WireplugResponse → Prop
  | .ok response => ∃ v a, u = v ++ [⟨.sendAnnouncement a, .ok response⟩] ∧
      response.valid = true ∧ a.ipv6 = netinfo.wanIpv6 ∧ trackerAfter v = peerTracker
  | .error _ => trackerAfter u = peerTracker ∧ Unoffered fromBase64 u

theorem unoffered_invalid {a : WireplugAnnouncement} {response : WireplugResponse}
    (h : response.valid = false) :
    Unoffered fromBase64 (t ++ [⟨.sendAnnouncement a, .ok response⟩]) := by
  intro k sa hoffered
  obtain @⟨u, v, w, a', response', before, after, entry, acc, ht, hvalid, -, -, hbefore, hfound⟩ :=
    hoffered.1
  have hvw := List.forall_mem_append.mpr ⟨updating_foldlM hbefore, updating_endpointToUse hfound⟩
  obtain ⟨-, heq, -⟩ := last_unique ht (not_updating_send _) (not_updating_send _)
    (fun ev hev ↦ by cases hev) hvw
  cases heq
  rw [h] at hvalid
  cases hvalid

theorem announce_attempted (h : UpToDate peerTracker t) (peers : List Key) (port : UInt16)
    (needsRelay : Bool) :
    (attempt (announce ifName peers port netinfo needsRelay)).run.Ensures assumes
      (AppliesOffered fromBase64)
      (fun r u ↦ Ends (Attempted fromBase64 peerTracker netinfo u) (fun _ ↦ True) r) t := by
  refine Ensures.call (h.idle.unoffered.applies nofun) fun r _ ↦ ?_
  have hdevice : UpToDate peerTracker _ := h.snoc ⟨.deviceGet .announce, r⟩ id rfl
  rcases r with e | ⟨_ | k, devicePeers⟩
  · exact ⟨hdevice.tracker, hdevice.idle.unoffered⟩
  · exact ⟨hdevice.tracker, hdevice.idle.unoffered⟩
  · refine Ensures.call (hdevice.idle.unoffered.applies nofun) fun r _ ↦ ?_
    have hconnect : UpToDate peerTracker _ := hdevice.snoc ⟨.connect, r⟩ id rfl
    cases r with
    | error e => exact ⟨hconnect.tracker, hconnect.idle.unoffered⟩
    | ok _ =>
      refine Ensures.call (hconnect.idle.unoffered.applies nofun) fun r _ ↦ ?_
      cases r with
      | error e =>
        have hsent : UpToDate peerTracker _ := hconnect.snoc ⟨.sendAnnouncement
          (announcement k peers port netinfo needsRelay), .error e⟩ id rfl
        cases e with
        | tooLong | outdated => trivial
        | _ => exact ⟨hsent.tracker, hsent.idle.unoffered⟩
      | ok response =>
        change (attempt (takeResponse (.ok response))).run.Ensures _ _ _ _
        rw [attempt_takeResponse]
        cases hvalid : response.valid with
        | true => exact ⟨_, _, rfl, hvalid, rfl, hconnect.tracker⟩
        | false =>
          refine ⟨?_, unoffered_invalid hvalid⟩
          rw [trackerAfter_snoc, hconnect.tracker]
          rfl

theorem announceRounds_applies (h : UpToDate peerTracker t) (peers : List Key) (port : UInt16)
    (needsRelay : Bool) (n : ℕ) :
    (announceRounds fromBase64 ifName netinfo port needsRelay peerTracker peers n).run.Ensures
      assumes (AppliesOffered fromBase64) (fun r u ↦ Ends (fun r ↦ trackerAfter u = r.1 ∧
        Unoffered fromBase64 u) (fun _ ↦ True) r) t := by
  induction n generalizing t with
  | zero => exact ⟨h.tracker, h.idle.unoffered⟩
  | succ n ih =>
    refine (ensures_try _ _ _).mpr ((announce_attempted h peers port needsRelay).mono
      fun r u hr ↦ ?_)
    rcases r with e | e | response
    · trivial
    · refine Ensures.call (hr.2.applies nofun) fun _ _ ↦ ih ⟨idle_slept u 5, ?_⟩
      rw [trackerAfter_snoc, hr.1]
      rfl
    · obtain ⟨v, a, rfl, hvalid, hipv6, htracker⟩ := hr
      refine (ensures_try _ _ _).mpr ?_
      rw [← hipv6]
      refine (updatePeers_applies hvalid htracker).mono fun r w hr ↦ ?_
      cases r with
      | error e => trivial
      | ok updated =>
        dsimp only
        split
        · exact hr
        · refine Ensures.call (hr.2.applies nofun) fun _ _ ↦ ⟨?_, (idle_slept w 5).unoffered⟩
          rw [trackerAfter_snoc, hr.1]
          rfl

theorem trackerAfter_polled (h : trackerAfter t = s.peersManager) (hpoll : Polled s s' u) :
    trackerAfter (t ++ u) = s'.peersManager := by
  cases hpoll with
  | notYet | due => rw [trackerAfter, List.foldl_append, ← trackerAfter, h]; rfl

theorem trackerAfter_found (h : trackerAfter t = s.peersManager)
    (hpath : Path (findInactive s).run u (.done (.ok (s', call)))) :
    trackerAfter (t ++ u) = s'.peersManager := by
  obtain ⟨v, w, rfl, hpoll, hw, -⟩ := path_findInactive hpath
  rw [← List.append_assoc, trackerAfter_apart hw]
  exact trackerAfter_polled h hpoll

theorem trackerAfter_reaches (h : trackerAfter t = s.peersManager)
    (hreach : Reaches s (s', call) u) : trackerAfter (t ++ u) = s'.peersManager := by
  cases hreach with
  | ended hu => exact (trackerAfter_apart hu).trans h
  | @unchanged netmon v w _ hv hpath =>
    have hchecked : trackerAfter (t ++ v) = { s with netmon := netmon }.peersManager :=
      (trackerAfter_apart hv).trans h
    rw [← List.append_assoc]
    exact trackerAfter_found hchecked hpath
  | @renewed netmon s₁ device v w x _ hv _ hnew hpath =>
    rw [← List.append_assoc, ← List.append_assoc]
    refine trackerAfter_found ?_ hpath
    obtain ⟨y, newPort, hy, rfl⟩ := hnew.trace
    rw [hnew.peersManager, ← List.append_assoc, trackerAfter, List.foldl_append, ← trackerAfter,
      trackerAfter_apart hy, trackerAfter_apart hv, h]
    rfl

theorem BeforeHandling.not_responds {ev : Event ClientEffect.Answer} (h : BeforeHandling ev.1) :
    ¬ Responds ev := by
  obtain ⟨e, r⟩ := ev
  cases e with
  | sendAnnouncement => exact h.elim
  | _ => exact id

theorem monitorRound_applies (h : UpToDate s.peersManager t) :
    (monitorRound fromBase64 ifName traverseNat s).run.Ensures assumes (AppliesOffered fromBase64)
      (fun r u ↦ Ends (fun s' ↦ UpToDate s'.peersManager u) (fun _ ↦ True) r) t := by
  rw [monitorRound_eq]
  refine (ensures_try _ _ _).mpr (ensures_of_path (fun u e c hpath ↦ ?_) fun u r hpath ↦ ?_)
  · have hidle : Idle (t ++ u) := h.idle.append fun ev hev ↦
      ((calls_reachAnnouncing s).of_path hpath ev hev).not_responds
    have he : BeforeHandling e := ((calls_reachAnnouncing s).at_path hpath).1
    refine hidle.unoffered.applies fun k sa heq ↦ ?_
    rw [heq] at he
    exact he
  · rcases r with e | ⟨s₁, call⟩
    · trivial
    · have hreached : UpToDate s₁.peersManager (t ++ u) :=
        ⟨h.idle.append fun ev hev ↦ ((calls_reachAnnouncing s).of_path hpath ev hev).not_responds,
          trackerAfter_reaches h.tracker (path_reachAnnouncing hpath)⟩
      cases call with
      | none => exact hreached
      | some netinfo =>
        refine (ensures_try _ _ _).mpr ((announceRounds_applies hreached s₁.inactivePeers
          s₁.portToAnnounce s₁.netmon.needsRelay maxAnnounceRetries).mono fun r v hr ↦ ?_)
        cases r with
        | error e => trivial
        | ok handled =>
          refine Ensures.call (hr.2.applies nofun) fun _ _ ↦ ⟨idle_slept v 10, ?_⟩
          rw [trackerAfter_snoc, hr.1]
          rfl

theorem monitorStart_applies : monitorStart.run.Ensures assumes (AppliesOffered fromBase64)
    (fun r u ↦ Ends (fun s ↦ UpToDate s.peersManager u) (fun _ ↦ True) r) [] := by
  have hstart : UpToDate .new [] := ⟨fun u a response v h ↦ by simp at h, rfl⟩
  refine Ensures.call (hstart.idle.unoffered.applies nofun) fun r _ ↦ ?_
  cases r with
  | error e => trivial
  | ok device =>
    have hshown := hstart.snoc ⟨.deviceGet .initPeersActivity, .ok device⟩ id rfl
    exact Ensures.call (hshown.idle.unoffered.applies nofun) fun _ _ ↦ hshown.snoc _ id rfl

/-- At any time of a run, an endpoint is applied exactly when a response offers one that the
tracker does not have. -/
theorem applies_of_run {p : Program ClientEffect.Answer (Except ClientError MonitorState)}
    (h : MonitorRun fromBase64 ifName traverseNat assumes t p) {ev : Event ClientEffect.Answer}
    {v : ClientTrace} (ht : t = u ++ ev :: v) : AppliesOffered fromBase64 u ev.1 :=
  h.requires_of_mem monitorStart_applies (fun _ _ hs ↦ monitorRound_applies hs) ht

end Rounds

end Calls

end Wireplug
