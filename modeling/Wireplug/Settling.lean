import Wireplug.Agreement
import Wireplug.KeyFormat
import Wireplug.UpdateOrder

namespace Wireplug

open Foundation Program Postcard ByteStream Client

variable {surroundings : (e : ClientEffect) → e.Answer} {localHasIpv6 : Bool}
  {fromBase64 : String → Option Key} {acc out : PeerTracker × List Key} {k : Key} {sa : SocketAddr}
  {entries : List (String × WireplugEndpoint)}

theorem updated_frame (h : (updated surroundings localHasIpv6 fromBase64 acc entries).2 = .ok out)
    (hk : ∀ entry ∈ entries, fromBase64 entry.1 ≠ some k) :
    out.1.peers.get? k = acc.1.peers.get? k := by
  induction entries generalizing acc with
  | nil =>
    cases h
    rfl
  | cons entry entries ih =>
    obtain ⟨hfirst, hrest⟩ := List.forall_mem_cons.mp hk
    obtain ⟨t, r, hentered, heq⟩ :=
      updated_cons surroundings localHasIpv6 fromBase64 acc entry entries
    rw [heq] at h
    cases hentered with
    | skipped => exact ih h hrest
    | failed => cases h
    | @applied _ k' sa' husable =>
      rw [ih h hrest, PeerTracker.get?_setEndpoint, if_neg]
      rintro rfl
      exact hfirst husable.key

theorem updated_settles (hone : OnePerPeer fromBase64 entries)
    (h : (updated surroundings localHasIpv6 fromBase64 acc entries).2 = .ok out) :
    ∀ entry ∈ entries, Settled surroundings localHasIpv6 fromBase64 out.1 entry := by
  induction entries generalizing acc with
  | nil =>
    intro entry hentry
    cases hentry
  | cons entry entries ih =>
    obtain ⟨hother, hone⟩ := List.pairwise_cons.mp hone
    obtain ⟨t, r, hentered, heq⟩ :=
      updated_cons surroundings localHasIpv6 fromBase64 acc entry entries
    rw [heq] at h
    have hlater {acc' : PeerTracker × List Key}
        (h : (updated surroundings localHasIpv6 fromBase64 acc' entries).2 = .ok out)
        (hsettled : Settled surroundings localHasIpv6 fromBase64 acc'.1 entry) :
        ∀ entry' ∈ entry :: entries, Settled surroundings localHasIpv6 fromBase64 out.1 entry' := by
      refine List.forall_mem_cons.mpr ⟨hsettled.congr fun k hk ↦ ?_, ih hone h⟩
      exact (updated_frame h fun entry' hentry' ↦ hother entry' hentry' k hk).symm
    cases hentered with
    | skipped hfails husable => exact hlater h ⟨husable, hfails⟩
    | failed => cases h
    | applied husable => exact hlater h husable.settled

theorem updated_of_settled
    (h : ∀ entry ∈ entries, Settled surroundings localHasIpv6 fromBase64 acc.1 entry) :
    (updated surroundings localHasIpv6 fromBase64 acc entries).2 = .ok acc ∧
      applied (updated surroundings localHasIpv6 fromBase64 acc entries).1 = [] := by
  induction entries with
  | nil => exact ⟨rfl, rfl⟩
  | cons entry entries ih =>
    obtain ⟨hfirst, hrest⟩ := List.forall_mem_cons.mp h
    obtain ⟨t, r, hentered, heq⟩ :=
      updated_cons surroundings localHasIpv6 fromBase64 acc entry entries
    rw [heq]
    cases hentered with
    | skipped _ _ ht =>
      obtain ⟨hok, hnone⟩ := ih hrest
      exact ⟨hok, by rw [applied_append, ht, hnone]; rfl⟩
    | failed hfails => exact (hfirst.not_fails hfails).elim
    | applied husable => exact (hfirst.unusable _ _ husable).elim

variable {peerTracker peerTracker' : PeerTracker} {peersUpdated : List Key}
  {m m' : HashMap String WireplugEndpoint}

theorem settled_of_updating (hone : OnePerPeer fromBase64 m.entries)
    (h : (updating surroundings fromBase64 peerTracker localHasIpv6 m).2 =
      .ok (peerTracker', peersUpdated)) :
    ∀ entry ∈ m.entries, Settled surroundings localHasIpv6 fromBase64 peerTracker' entry :=
  @updated_settles surroundings localHasIpv6 fromBase64 (peerTracker, [])
    (peerTracker', peersUpdated) m.entries hone h

/-- Once a response has been gone through, going through it again, in whatever order, succeeds
and changes nothing, neither on the interface nor in the tracker. -/
theorem response_settles (hone : OnePerPeer fromBase64 m.entries) (hperm : m'.entries.Perm m.entries)
    (h : (updating surroundings fromBase64 peerTracker localHasIpv6 m).2 =
      .ok (peerTracker', peersUpdated)) :
    (updating surroundings fromBase64 peerTracker' localHasIpv6 m').2 = .ok (peerTracker', []) ∧
      given surroundings fromBase64 peerTracker' localHasIpv6 m' = [] :=
  @updated_of_settled surroundings localHasIpv6 fromBase64 (peerTracker', []) m'.entries
    fun entry hentry ↦ settled_of_updating hone h entry (hperm.mem_iff.mp hentry)

theorem response_settles_home : ∃ peerTracker' peersUpdated,
    (.filled 3, .new (.v4 homeIp) 51820) ∈
      given obligingAnswers strictBase64 pairTracker false (pairResponse .unknown) ∧
    (updating obligingAnswers strictBase64 pairTracker false (pairResponse .unknown)).2 =
      .ok (peerTracker', peersUpdated) ∧
    (updating obligingAnswers strictBase64 peerTracker' false (pairResponse .unknown)).2 =
      .ok (peerTracker', []) := by
  have hone := pairResponse_onePerPeer .unknown
  have hnot : ∀ entry ∈ (pairResponse .unknown).entries,
      ¬ Fails obligingAnswers false strictBase64 pairTracker entry := by
    intro entry hentry hfails
    simp only [pairResponse, List.mem_cons, List.not_mem_nil, or_false] at hentry
    rcases hentry with rfl | rfl
    · cases hfails with
      | noAddress _ hno => exact hno
      | untracked _ hlocated | refused _ hlocated => cases hlocated
    · exact usable_ipv4Entry.not_fails hfails
  obtain ⟨⟨peerTracker', peersUpdated⟩, hfirst⟩ := (@updated_all obligingAnswers false
    strictBase64 (pairTracker, []) _ (hone.oneAddress _) hnot).1
  refine ⟨peerTracker', peersUpdated, ?_, hfirst, (response_settles hone (.refl _) hfirst).1⟩
  exact (mem_given (hone.oneAddress _) hnot _ _).mpr
    ⟨ipv4Entry, by simp [pairResponse], usable_ipv4Entry⟩

variable {ls : List NetworkLabel} {n : Network} {i : ℕ} {a b b' : WireplugAnnouncement}
  {addr : SocketAddr} {source source' : Ipv4Addr} {initiator peer : String}

theorem lastStored_unique {before : List ServerLabel} {c : ServerConfig}
    (hrun : server.Run (ServerConfig.start .new) before c)
    (h : LastStored before initiator peer b source)
    (h' : LastStored before initiator peer b' source') (addr : SocketAddr) :
    directEndpoint b source addr = directEndpoint b' source' addr := by
  obtain ⟨record, hcurrent, hcarries⟩ := current_of_lastStored h
  obtain ⟨record', hcurrent', hcarries'⟩ := current_of_lastStored h'
  rw [← get?_peeringRecords hrun] at hcurrent hcurrent'
  cases hcurrent.symm.trans hcurrent'
  rw [← endpointFor_of_carries hcarries, endpointFor_of_carries hcarries']

theorem onePerPeer_of_valid (hkeys : DecodesKeys fromBase64)
    (hvalid : ∀ key ∈ m.keys, isValidWgkey key = true) : OnePerPeer fromBase64 m.entries := by
  refine List.Pairwise.imp_of_mem ?_ (List.pairwise_map.mp m.nodup)
  intro entry entry' hentry hentry' hne k hk hk'
  have hread (entry : String × WireplugEndpoint) (hentry : entry ∈ m.entries)
      (hk : fromBase64 entry.1 = some k) : entry.1 = k.toBase64 :=
    hkeys.strict _ k (hvalid _ (List.mem_map_of_mem hentry)) hk
  exact hne ((hread entry hentry hk).trans (hread entry' hentry' hk').symm)

theorem onePerPeer_of_session (hkeys : DecodesKeys fromBase64) (h : NetworkRun ls n)
    (hconnects : .connects i addr a ∈ ls) {response : WireplugResponse}
    (hclient : n.clients i = some ⟨addr, .done (.ok response)⟩) {before after : List ServerLabel}
    (hserved : served ls = before ++ .called i (.getPeerEndpoints a addr) m :: after) :
    OnePerPeer fromBase64 response.peerEndpoints.entries := by
  refine onePerPeer_of_valid hkeys fun key hkey ↦ ?_
  have hannounced := ((told_of_session h hconnects hclient hserved).keys key).mp hkey
  exact ((valid_iff a).mp (valid_of_served h hserved)).1 key (List.mem_cons_of_mem _ hannounced)

/-- In every run, once a client has gone through its response, each peer is where the last
announcement stored of it before the server's lookup leads this client to. -/
theorem client_follows_announcements (hkeys : DecodesKeys fromBase64) (h : NetworkRun ls n)
    (hconnects : .connects i addr a ∈ ls) {response : WireplugResponse}
    (hclient : n.clients i = some ⟨addr, .done (.ok response)⟩)
    {before after : List ServerLabel}
    (hserved : served ls = before ++ .called i (.getPeerEndpoints a addr) m :: after)
    (hupdated : (updating surroundings fromBase64 peerTracker localHasIpv6
      response.peerEndpoints).2 = .ok (peerTracker', peersUpdated))
    (hlisted : k.toBase64 ∈ a.peerPubkeys)
    (hlast : LastStored before k.toBase64 a.initiatorPubkey b source)
    (hlocated : Located surroundings localHasIpv6 (directEndpoint b source addr) sa) :
    ∃ info, peerTracker'.peers.get? k = some info ∧ info.currentEndpoint = some sa := by
  have htold := told_of_session h hconnects hclient hserved
  have hrun := h.server
  rw [hserved] at hrun
  obtain ⟨c, hbefore, -⟩ := hrun.split
  have hget : response.peerEndpoints.get? k.toBase64 = some (directEndpoint b source addr) := by
    rcases htold.endpoints _ hlisted with ⟨hnone, -⟩ | ⟨b', source', hlast', hget⟩
    · exact (hnone b source hlast).elim
    · rwa [lastStored_unique hbefore hlast' hlast addr] at hget
  have hsettled := settled_of_updating (onePerPeer_of_session hkeys h hconnects hclient hserved)
    hupdated (k.toBase64, directEndpoint b source addr) (HashMap.get?_eq_some.mp hget)
  exact hsettled.current (hkeys.toBase64 k) hlocated

def firstTracker : PeerTracker := ⟨HashMap.empty.insert (.filled 0) ⟨none, 0⟩⟩

theorem client_follows_announcements_bare :
    ∃ (n : Network) (response : WireplugResponse) (peerTracker' : PeerTracker)
      (peersUpdated : List Key) (info : WireplugPeerInfo),
      n.clients 1 = some ⟨.v4 (.new 198 51 100 7) 51820, .done (.ok response)⟩ ∧
      (updating obligingAnswers strictBase64 firstTracker false response.peerEndpoints).2 =
        .ok (peerTracker', peersUpdated) ∧
      peerTracker'.peers.get? (.filled 0) = some info ∧
      info.currentEndpoint = some (.new (.v4 (.new 203 0 113 5)) 51820) := by
  obtain ⟨ls, n, response, hrun, -, hconnects, hclient, hget, -⟩ := run_meeting_bare
  obtain ⟨before, m, after, hserved⟩ := lookup_of_session hrun hconnects hclient
  have htold := told_of_session hrun hconnects hclient hserved
  have hmember : (Key.filled 0).toBase64 ∈
      (bareAnnouncement (.filled 1) (.filled 0)).peerPubkeys := List.mem_singleton_self _
  have hone := onePerPeer_of_session strictBase64_decodesKeys hrun hconnects hclient hserved
  have hnot : ∀ entry ∈ response.peerEndpoints.entries,
      ¬ Fails obligingAnswers false strictBase64 firstTracker entry := by
    rintro ⟨peer, endpoint⟩ hentry
    have hpeer := HashMap.get?_eq_some.mpr hentry
    obtain rfl : peer = (Key.filled 0).toBase64 :=
      List.mem_singleton.mp ((htold.keys peer).mp (HashMap.mem_keys.mpr ⟨endpoint, hpeer⟩))
    cases hpeer.symm.trans hget
    exact Usable.not_fails ⟨strictBase64_toBase64 _, .remoteIpv4 rfl,
      ⟨⟨none, 0⟩, by simp [firstTracker], by simp⟩, rfl⟩
  obtain ⟨⟨peerTracker', peersUpdated⟩, hupdated⟩ := (@updated_all obligingAnswers false
    strictBase64 (firstTracker, []) _ (hone.oneAddress _) hnot).1
  rcases htold.endpoints _ hmember with ⟨-, hunknown⟩ | ⟨b, source, hlast, hdirect⟩
  · cases hunknown.symm.trans hget
  have heq : directEndpoint b source (.v4 (.new 198 51 100 7) 51820) =
      .remoteNetwork (some (.new 203 0 113 5)) none 51820 :=
    Option.some.inj (hdirect.symm.trans hget)
  obtain ⟨info, hinfo, hendpoint⟩ := client_follows_announcements strictBase64_decodesKeys hrun
    hconnects hclient hserved hupdated hmember hlast (by rw [heq]; exact .remoteIpv4 rfl)
  exact ⟨n, response, peerTracker', peersUpdated, info, hclient, hupdated, hinfo, hendpoint⟩

end Wireplug
