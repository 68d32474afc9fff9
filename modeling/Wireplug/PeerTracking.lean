import Wireplug.NetworkPort
import Wireplug.SeenPeers

namespace Wireplug

open Foundation Program ByteStream Client

variable {t u : ClientTrace} {k : Key} {peerTracker : PeerTracker} {inactivePeers : List Key}

section Rounds

variable {fromBase64 : String → Option Key} {ifName : String} {traverseNat : Bool}

theorem announce_tracked (port : UInt16) (netinfo : NetInfo) (needsRelay : Bool)
    (h : Tracked peerTracker inactivePeers t) :
    (announce ifName inactivePeers port netinfo needsRelay).run.Ensures SeenPeersOnly AnnouncesSeen
      (fun r u ↦ Tracked peerTracker inactivePeers u ∧ Ends (fun response ↦
        ∀ peer ∈ response.peerEndpoints.keys, ∃ k ∈ inactivePeers, peer = k.toBase64)
        (fun _ ↦ True) r) t := by
  refine h.call (by trivial) fun r _ hdevice ↦ ?_
  rcases r with e | ⟨_ | initiatorPubkey, devicePeers⟩
  · exact ⟨hdevice, trivial⟩
  · exact ⟨hdevice, trivial⟩
  · refine hdevice.call (by trivial) fun r _ hconnect ↦ ?_
    cases r with
    | error e => exact ⟨hconnect, trivial⟩
    | ok _ =>
      refine Ensures.call (fun a ha peer hpeer ↦ ?_) fun r hr ↦ ?_
      · cases ha
        obtain ⟨k, hk, rfl⟩ := List.mem_map.mp hpeer
        exact ⟨k, rfl, hconnect.inactive k hk⟩
      · have hsent := hconnect.append (unseeing_singleton (unseeing_sendAnnouncement _) r)
        refine takeResponse_ensures r (fun response hok ↦ ?_) fun e ↦ ⟨hsent, trivial⟩
        subst hok
        refine ⟨hsent, fun peer hpeer ↦ ?_⟩
        obtain ⟨k, hk, he⟩ := List.mem_map.mp ((hr.1 peer).mp hpeer)
        exact ⟨k, hk, he.symm⟩

theorem UpdatesFrom.quiet {entries : List (String × WireplugEndpoint)} {e : ClientEffect}
    (h : UpdatesFrom fromBase64 entries e) : Quiet e := by
  cases e with
  | getLanAddrs => trivial
  | resolveRelay port => trivial
  | setEndpoint peer sa => trivial
  | _ => exact h.elim

theorem updatePeers_tracked (hkeys : ∀ k, fromBase64 k.toBase64 = some k)
    (h : Tracked peerTracker inactivePeers t) {m : HashMap String WireplugEndpoint}
    (hm : ∀ peer ∈ m.keys, ∃ k ∈ inactivePeers, peer = k.toBase64) (localHasIpv6 : Bool) :
    (updatePeers fromBase64 peerTracker m localHasIpv6).run.Ensures SeenPeersOnly AnnouncesSeen
      (fun r u ↦ Ends (fun r ↦ Tracked r.1 inactivePeers u) NotMissing r) t := by
  refine (updatePeers_only fromBase64 peerTracker m localHasIpv6).ensures
    (fun u _ e he ↦ he.quiet.announcesSeen) fun u hu r hr ↦ ?_
  have hkept := h.append fun ev hev ↦ (hu ev hev).quiet.unseeing
  cases r with
  | ok r => exact ⟨fun k ↦ (hkept.tracks k).trans (hr.tracks k).symm, hkept.inactive⟩
  | error e =>
    intro k he
    obtain ⟨entry, hentry, k', hk', hnot⟩ := hr ⟨k, he⟩
    obtain ⟨k'', hinactive, hentry'⟩ := hm entry.1 (List.mem_map_of_mem hentry)
    rw [hentry', hkeys] at hk'
    cases hk'
    exact hnot ((h.tracks k').mp (h.inactive k' hinactive))

theorem announceRounds_tracked (hkeys : ∀ k, fromBase64 k.toBase64 = some k) (netinfo : NetInfo)
    (port : UInt16) (needsRelay : Bool) (h : Tracked peerTracker inactivePeers t) (n : ℕ) :
    (announceRounds fromBase64 ifName netinfo port needsRelay peerTracker inactivePeers
      n).run.Ensures SeenPeersOnly AnnouncesSeen
        (fun r u ↦ Ends (fun r ↦ Tracked r.1 r.2 u) NotMissing r) t := by
  induction n generalizing t with
  | zero => exact h
  | succ n ih =>
    have hpause (u : ClientTrace) (hu : Tracked peerTracker inactivePeers u) :
        (do
          sleep 5
          announceRounds fromBase64 ifName netinfo port needsRelay peerTracker inactivePeers n :
            Client (PeerTracker × List Key)).run.Ensures SeenPeersOnly AnnouncesSeen
          (fun r u ↦ Ends (fun r ↦ Tracked r.1 r.2 u) NotMissing r) u :=
      hu.call (by trivial) fun _ _ hslept ↦ ih hslept
    refine (ensures_try _ _ _).mpr ((ensures_bind _ _ _).mpr
      ((announce_tracked port netinfo needsRelay h).mono fun r u hr ↦ ?_))
    rcases r with (e | text | _ | _) | response
    · exact hpause u hr.1
    · exact hpause u hr.1
    · exact fun k hk ↦ by cases hk
    · exact fun k hk ↦ by cases hk
    · refine (ensures_try _ _ _).mpr
        ((updatePeers_tracked hkeys hr.1 hr.2 netinfo.wanIpv6.isSome).mono fun r v hv ↦ ?_)
      cases r with
      | error e => exact hv
      | ok r =>
        obtain ⟨peerTracker', peersUpdated⟩ := r
        dsimp only
        split
        · exact hv
        · refine hv.call (by trivial) fun _ _ hslept ↦ ?_
          exact ⟨hslept.tracks, fun k hk ↦ hslept.inactive k (List.mem_of_mem_filter hk)⟩

def KeepsTracked (s : MonitorState) (t : ClientTrace) : Prop :=
  Tracked s.peersManager s.inactivePeers t

theorem pollInactive_tracked {s : MonitorState} (h : KeepsTracked s t) :
    (pollInactive s).run.Ensures SeenPeersOnly AnnouncesSeen
      (fun r u ↦ Ends (fun s' ↦ KeepsTracked s' u) NotMissing r) t := by
  refine h.ask (by trivial) fun now _ hnow ↦ ?_
  split
  · refine Ensures.call (fun a ha ↦ by cases ha) fun r hr ↦ ?_
    cases r with
    | error e => exact notMissing_io e
    | ok device =>
      refine ⟨fun k ↦ ?_, fun k hk ↦ seen_append.mpr ?_⟩
      · rw [seen_append, seen_poll, hnow.tracks k]
        exact PeerTracker.tracks_listInactive.symm
      · obtain ⟨p, hp, rfl⟩ := List.mem_map.mp (PeerTracker.listInactive_subset hk)
        by_cases hhandshake : p.lastHandshakeTime = none
        · exact .inl (hr.2 p hp hhandshake)
        · exact .inr (seen_poll.mpr ⟨p, hp, rfl, hhandshake⟩)
  · exact hnow

theorem announceInactive_tracked (hkeys : ∀ k, fromBase64 k.toBase64 = some k) {s : MonitorState}
    (h : KeepsTracked s t) :
    (announceInactive fromBase64 ifName s).run.Ensures SeenPeersOnly AnnouncesSeen
      (fun r u ↦ Ends (fun s' ↦ KeepsTracked s' u) NotMissing r) t := by
  refine (ensures_try _ _ _).mpr ((pollInactive_tracked h).mono fun r u hr ↦ ?_)
  cases r with
  | error e => exact hr
  | ok s' =>
    have hslept (v : ClientTrace) (s : MonitorState) (hs : KeepsTracked s v) :
        (do sleep 10; pure s : Client MonitorState).run.Ensures SeenPeersOnly AnnouncesSeen
          (fun r u ↦ Ends (fun s' ↦ KeepsTracked s' u) NotMissing r) v :=
      hs.call (by trivial) fun _ _ hslept ↦ hslept
    dsimp only
    split
    · exact hslept u s' hr
    · split
      · exact hr
      · next netinfo _ =>
        refine (ensures_try _ _ _).mpr ((announceRounds_tracked hkeys netinfo s'.portToAnnounce
          s'.netmon.needsRelay hr maxAnnounceRetries).mono fun r v hv ↦ ?_)
        cases r with
        | error e => exact hv
        | ok r => exact hslept v _ hv

theorem choosePort_tracked (newPort : UInt16) (netmon : NetworkMonitor)
    (h : Tracked peerTracker inactivePeers t) :
    (choosePort traverseNat newPort netmon).run.Ensures SeenPeersOnly AnnouncesSeen
      (fun r u ↦ Ends (fun _ ↦ Tracked peerTracker inactivePeers u) NotMissing r) t := by
  rw [choosePort]
  split
  · refine h.call (by trivial) fun r _ hdetect ↦ ?_
    cases r with
    | ok kind => exact hdetect
    | error e =>
      cases e with
      | unresolved => exact fun k h ↦ by cases h
      | io | encoding => exact hdetect.call (by trivial) fun _ _ hslept ↦ hslept
  · exact h

theorem changeNetwork_tracked {s : MonitorState} (h : KeepsTracked s t) :
    (changeNetwork traverseNat s).run.Ensures SeenPeersOnly AnnouncesSeen
      (fun r u ↦ Ends (fun changed ↦ (changed = none → KeepsTracked s u) ∧
        ∀ s', changed = some s' → KeepsTracked s' u) NotMissing r) t := by
  refine h.ask (by trivial) fun newPort _ hdrawn ↦ ?_
  refine (ensures_try _ _ _).mpr
    ((choosePort_tracked newPort.val s.netmon hdrawn).mono fun r u hr ↦ ?_)
  rcases r with e | _ | ⟨port, netmon⟩
  · exact hr
  · exact ⟨fun _ ↦ hr, fun s' hs' ↦ by cases hs'⟩
  · refine hr.call (by trivial) fun _ _ hslept ↦ ?_
    refine hslept.call (by trivial) fun r _ hset ↦ ?_
    cases r with
    | error e => exact notMissing_io e
    | ok _ =>
      refine hset.call (by trivial) fun r' hr' hlisted ↦ ?_
      cases r' with
      | error e => exact notMissing_io e
      | ok device =>
        refine ⟨fun hnone ↦ (by cases hnone), fun s' hs' ↦ ?_⟩
        cases hs'
        refine ⟨hlisted.tracks, fun k hk ↦ ?_⟩
        obtain ⟨p, hp, rfl⟩ := List.mem_map.mp hk
        exact seen_append.mpr (.inl (hr'.2 p hp))

theorem Detects.quiet {e : ClientEffect} (h : Detects e) : Quiet e :=
  h.imp trivial trivial trivial

theorem KeepsTracked.checked {s : MonitorState} (h : KeepsTracked s t)
    (hu : ∀ ev ∈ u, Detects ev.1) (netmon : NetworkMonitor) (status : NetStatus) :
    KeepsTracked { s with netmon } (t ++ u ++ [⟨.checked status, ()⟩]) :=
  (Tracked.append h fun ev hev ↦ (hu ev hev).quiet.unseeing).snoc (.checked status) trivial ()

theorem monitorRound_tracked (hkeys : ∀ k, fromBase64 k.toBase64 = some k) {s : MonitorState}
    (h : KeepsTracked s t) :
    (monitorRound fromBase64 ifName traverseNat s).run.Ensures SeenPeersOnly AnnouncesSeen
      (fun r u ↦ Ends (fun s' ↦ KeepsTracked s' u) NotMissing r) t := by
  refine monitorRound_rule fromBase64 ifName traverseNat KeepsTracked KeepsTracked KeepsTracked
    KeepsTracked ?_ ?_ ?_ ?_ ?_ ?_ ?_ ?_ h
  · exact fun u e he ↦ he.quiet.announcesSeen
  · exact fun u status ↦ Quiet.announcesSeen trivial
  · exact fun s t u newInfo hs hu _ ↦ hs.checked (detect_only.of_path hu) _ _
  · exact fun s t u newInfo hs hu _ _ ↦ hs.checked (detect_only.of_path hu) _ _
  · exact fun s t u newInfo hs hu _ ↦ hs.checked (detect_only.of_path hu) _ _
  · exact fun s t hs ↦ hs.call (by trivial) fun _ _ hslept ↦ hslept
  · exact fun s t hs ↦ changeNetwork_tracked hs
  · exact fun s t hs ↦ announceInactive_tracked hkeys hs

theorem monitorStart_tracked : monitorStart.run.Ensures SeenPeersOnly AnnouncesSeen
    (fun r u ↦ Ends (fun s' ↦ KeepsTracked s' u) NotMissing r) [] := by
  refine Ensures.call (fun a ha ↦ by cases ha) fun r _ ↦ ?_
  cases r with
  | error e => exact notMissing_io e
  | ok device =>
    refine Tracked.call ⟨fun k ↦ ?_, fun k hk ↦ by cases hk⟩ (by trivial) fun _ _ hnow ↦ hnow
    rw [List.nil_append, seen_start]
    refine (or_iff_right ?_).symm.trans PeerTracker.tracks_updateAll.symm
    intro h
    obtain ⟨info, hinfo⟩ := h
    cases hinfo

end Rounds

def addedResponse : WireplugResponse :=
  ⟨⟨[((Key.filled 2).toBase64, .remoteNetwork (some (.new 198 51 100 9)) none 51821)],
    List.nodup_singleton _⟩⟩

/-- Every peer that the loop lists has an entry in the tracker by the time the
response is processed, if all peers it lists have been seen. -/
theorem listed_peers_have_entity {fromBase64 : String → Option Key}
    (hkeys : ∀ k, fromBase64 k.toBase64 = some k) {ifName : String} {traverseNat : Bool}
    {p : Program ClientEffect.Answer (Except ClientError MonitorState)}
    (h : MonitorRun fromBase64 ifName traverseNat SeenPeersOnly t p) :
    (∀ k, p ≠ .done (.error (noEntity k))) ∧
      (∀ s, p = .done (.ok s) → (∀ k, Seen t k ↔ s.peersManager.Tracks k) ∧
        ∀ k ∈ s.inactivePeers, s.peersManager.Tracks k) ∧
      ∀ u v a r, t = u ++ ⟨.sendAnnouncement a, r⟩ :: v →
        ∀ peer ∈ a.peerPubkeys, ∃ k, peer = k.toBase64 ∧ Seen u k := by
  have hbody (s : MonitorState) (t : ClientTrace) (hs : KeepsTracked s t) :
      (monitorRound fromBase64 ifName traverseNat s).run.Ensures SeenPeersOnly AnnouncesSeen
        (fun r u ↦ Ends (fun s' ↦ KeepsTracked s' u) NotMissing r) t :=
    monitorRound_tracked hkeys hs
  refine ⟨fun k hk ↦ ?_, fun s hs ↦ ?_, fun u v a r ht ↦ ?_⟩
  · subst hk
    exact h.ensures monitorStart_tracked hbody k rfl
  · subst hs
    have htracked : KeepsTracked s t := h.ensures monitorStart_tracked hbody
    exact ⟨htracked.tracks, fun k hk ↦ (htracked.tracks k).mp (htracked.inactive k hk)⟩
  · exact h.requires_of_mem monitorStart_tracked hbody ht a rfl

theorem listed_peers_have_entity_started : ∃ k, (Key.filled 2).toBase64 = k.toBase64 ∧
    Seen (started [silentPeer] ++ newNetworkRound .easy) k := by
  obtain ⟨q, hq⟩ := newNetwork_path strictBase64 "wg0" [silentPeer] .easy (by nofun)
  have hstart : Answered SeenPeersOnly [] (started [silentPeer]) :=
    ⟨⟨trivial, trivial⟩, ⟨trivial, trivial⟩, trivial⟩
  have hround : Answered SeenPeersOnly (started [silentPeer]) (newNetworkRound .easy ++
      [⟨.sendAnnouncement (homeAnnouncement 51820), .error .outdated⟩]) := by
    refine ⟨⟨trivial, trivial⟩, ⟨trivial, trivial⟩, ⟨trivial, trivial⟩, ⟨trivial, trivial⟩,
      ⟨trivial, trivial⟩, ⟨trivial, trivial⟩, ⟨trivial, trivial⟩, ⟨trivial, fun p hp ↦ ?_⟩,
      ⟨trivial, trivial⟩, ⟨trivial, trivial⟩, ⟨trivial, trivial⟩, ⟨trivial, trivial⟩, trivial⟩
    exact ⟨_, .inl ⟨List.mem_cons_self, p, hp, rfl⟩⟩
  have hrun := (start_run [silentPeer] hstart).follow hq hround
  rw [← List.append_assoc] at hrun
  exact (listed_peers_have_entity strictBase64_toBase64 hrun).2.2 _ [] _ _ rfl _ List.mem_cons_self

theorem announceRounds_path_error {fromBase64 : String → Option Key} {ifName : String}
    {netinfo : NetInfo} {port : UInt16} {needsRelay : Bool} {response : WireplugResponse}
    {e : ClientError} (hannounce : Path (attempt (announce ifName inactivePeers port netinfo
      needsRelay)).run t (.done (.ok (.ok response))))
    (hupdate : updatePeers fromBase64 peerTracker response.peerEndpoints netinfo.wanIpv6.isSome =
      throw e) (n : ℕ) :
    Path (announceRounds fromBase64 ifName netinfo port needsRelay peerTracker inactivePeers
      (n + 1)).run t (.done (.error e)) := by
  have hpath : Path (announceRounds fromBase64 ifName netinfo port needsRelay peerTracker
    inactivePeers (n + 1)).run t _ := Path.try _ _ hannounce
  dsimp only at hpath
  rw [hupdate] at hpath
  exact hpath

theorem arrival_path (peers : List PeerInfo) :
    ∃ rest : PeerTracker × List Key → Client MonitorState,
      Path (monitorRound strictBase64 "wg0" true (startState peers)).run (arrival .easy)
        (handleInactivePeers strictBase64 "wg0" (PeerTracker.new.updateAll peers) [.filled 2]
          homeNetwork 51820 false >>= rest).run :=
  ⟨_, .cons (.cons (.cons (.cons (.cons (.cons (.cons (.cons (.cons (.nil _)))))))))⟩

theorem announce_path : Path (attempt (announce "wg0" [.filled 2] 51820 homeNetwork false)).run
    (connected ++ [⟨.sendAnnouncement (homeAnnouncement 51820), .ok addedResponse⟩])
    (.done (.ok (.ok addedResponse))) :=
  .cons (.cons (.cons (.nil _)))

def addedEndpoint : SocketAddr := .new (.v4 (.new 198 51 100 9)) 51821

theorem added_update_path (r : Except IoError Unit) : ∃ q,
    Path (updatePeers strictBase64 (PeerTracker.new.updateAll [silentPeer])
      addedResponse.peerEndpoints false).run [⟨.setEndpoint (.filled 2) addedEndpoint, r⟩] q := by
  have hentries : addedResponse.peerEndpoints.entries = [((Key.filled 2).toBase64,
    .remoteNetwork (some (.new 198 51 100 9)) none 51821)] := rfl
  have hset : ∃ q, Path (updatePeer (PeerTracker.new.updateAll [silentPeer]) (.filled 2)
      addedEndpoint).run [⟨.setEndpoint (.filled 2) addedEndpoint, r⟩] q := by
    have htracked : (PeerTracker.new.updateAll [silentPeer]).peers.get? (.filled 2) =
      some ⟨none, 0⟩ := rfl
    rw [updatePeer, htracked]
    exact ⟨_, .cons (.nil _)⟩
  obtain ⟨q, hq⟩ := hset
  rw [updatePeers, hentries, List.foldlM_cons, updateEntry, strictBase64_toBase64]
  exact ⟨_, (hq.bind _).bind _⟩

def answeredRound (r : Except IoError Unit) : ClientTrace :=
  arrival .easy ++ (connected ++ [⟨.sendAnnouncement (homeAnnouncement 51820), .ok addedResponse⟩,
    ⟨.setEndpoint (.filled 2) addedEndpoint, r⟩])

theorem answeredRound_path (r : Except IoError Unit) : ∃ q,
    Path (monitorRound strictBase64 "wg0" true (startState [silentPeer])).run
      (answeredRound r) q := by
  obtain ⟨rest, harrival⟩ := arrival_path [silentPeer]
  obtain ⟨q, hupdate⟩ := added_update_path r
  have hhandle : Path (handleInactivePeers strictBase64 "wg0"
    (PeerTracker.new.updateAll [silentPeer]) [.filled 2] homeNetwork 51820 false).run _ _ :=
    Path.try _ _ announce_path
  dsimp only at hhandle
  exact ⟨_, harrival.trans ((hhandle.trans (hupdate.bind _)).bind _)⟩

/-- A peer is added after the start and has not shaken hands yet. It is listed as
the network changes, and the server knows it: the loop ends with an error. -/
theorem added_peer_ends_loop : ∃ t, MonitorRun strictBase64 "wg0" true
    (fun _ ↦ AnswersAnnounced) t (.done (.error (noEntity (.filled 2)))) := by
  have hupdate : updatePeers strictBase64 (PeerTracker.new.updateAll [])
      addedResponse.peerEndpoints false = throw (noEntity (.filled 2)) := by
    have hentries : addedResponse.peerEndpoints.entries = [((Key.filled 2).toBase64,
      .remoteNetwork (some (.new 198 51 100 9)) none 51821)] := rfl
    rw [updatePeers, hentries, List.foldlM_cons, updateEntry, strictBase64_toBase64]
    rfl
  have hhandle : Path (handleInactivePeers strictBase64 "wg0" (PeerTracker.new.updateAll [])
      [.filled 2] homeNetwork 51820 false).run
      (connected ++ [⟨.sendAnnouncement (homeAnnouncement 51820), .ok addedResponse⟩])
      (.done (.error (noEntity (.filled 2)))) := announceRounds_path_error announce_path hupdate 2
  obtain ⟨rest, harrival⟩ := arrival_path []
  have hround : Path (monitorRound strictBase64 "wg0" true (startState [])).run
      (arrival .easy ++ (connected ++
        [⟨.sendAnnouncement (homeAnnouncement 51820), .ok addedResponse⟩]))
      (.done (.error (noEntity (.filled 2)))) := harrival.trans (hhandle.bind _)
  have hstart : Answered (fun _ ↦ AnswersAnnounced) [] (started []) := ⟨trivial, trivial, trivial⟩
  have hanswered : Answered (fun _ ↦ AnswersAnnounced) (started []) (arrival .easy ++
      (connected ++ [⟨.sendAnnouncement (homeAnnouncement 51820), .ok addedResponse⟩])) :=
    ⟨trivial, trivial, trivial, trivial, trivial, trivial, trivial, trivial, trivial, trivial,
      trivial, fun _ ↦ Iff.rfl, trivial⟩
  exact ⟨_, (start_run [] hstart).follow hround hanswered⟩

end Wireplug
