import Mathlib.Data.List.Pairwise
import Wireplug.NetworkPort

namespace Wireplug

open Foundation Program ByteStream Client

def appliedBy : Event ClientEffect.Answer → Option (Key × SocketAddr)
  | ⟨.setEndpoint peer sa, .ok _⟩ => some (peer, sa)
  | _ => none

/-- The peers that were given an endpoint on the interface. -/
def applied (t : ClientTrace) : List (Key × SocketAddr) := t.filterMap appliedBy

def PeerTracker.setEndpoints (peerTracker : PeerTracker) (l : List (Key × SocketAddr)) :
    PeerTracker :=
  l.foldl (fun peerTracker p ↦ peerTracker.setEndpoint p.1 p.2) peerTracker

theorem applied_append (t u : ClientTrace) : applied (t ++ u) = applied t ++ applied u :=
  List.filterMap_append

namespace PeerTracker

variable {peerTracker : PeerTracker} {k : Key} {sa : SocketAddr} {l l' : List (Key × SocketAddr)}

theorem get?_setEndpoint (k' : Key) : (peerTracker.setEndpoint k sa).peers.get? k' =
    if k' = k then (peerTracker.peers.get? k).map fun info ↦ { info with currentEndpoint := some sa }
    else peerTracker.peers.get? k' :=
  HashMap.get?_modify _ _ _ _

theorem setEndpoints_append (peerTracker : PeerTracker) (l l' : List (Key × SocketAddr)) :
    peerTracker.setEndpoints (l ++ l') = (peerTracker.setEndpoints l).setEndpoints l' :=
  List.foldl_append

theorem setEndpoints_snoc (peerTracker : PeerTracker) (l : List (Key × SocketAddr)) (k : Key)
    (sa : SocketAddr) : peerTracker.setEndpoints (l ++ [(k, sa)]) =
      (peerTracker.setEndpoints l).setEndpoint k sa := setEndpoints_append peerTracker l [(k, sa)]

theorem get?_setEndpoints_of_forall_not_mem (h : ∀ sa, (k, sa) ∉ l) :
    (peerTracker.setEndpoints l).peers.get? k = peerTracker.peers.get? k := by
  induction l using List.reverseRecOn with
  | nil => rfl
  | append_singleton l p ih =>
    obtain ⟨k', sa'⟩ := p
    have hk : k ≠ k' := fun hk ↦ h sa' (by simp [hk])
    rw [setEndpoints_snoc, get?_setEndpoint, if_neg hk]
    exact ih fun sa hsa ↦ h sa (List.mem_append_left _ hsa)

theorem get?_setEndpoints (h : ∀ sa', (k, sa') ∈ l → sa' = sa) (hmem : (k, sa) ∈ l) :
    (peerTracker.setEndpoints l).peers.get? k =
      (peerTracker.peers.get? k).map fun info ↦ { info with currentEndpoint := some sa } := by
  induction l using List.reverseRecOn with
  | nil => cases hmem
  | append_singleton l p ih =>
    obtain ⟨k', sa'⟩ := p
    have hleft : ∀ sa', (k, sa') ∈ l → sa' = sa := fun sa' hsa' ↦ h sa' (List.mem_append_left _ hsa')
    rw [setEndpoints_snoc, get?_setEndpoint]
    by_cases hk : k = k'
    · subst hk
      obtain rfl : sa' = sa := h sa' (by simp)
      rw [if_pos rfl]
      by_cases hl : (k, sa') ∈ l
      · rw [ih hleft hl, Option.map_map]
        rfl
      · rw [get?_setEndpoints_of_forall_not_mem fun sa hsa ↦ hl (hleft sa hsa ▸ hsa)]
    · rw [if_neg hk]
      apply ih hleft
      simpa [hk] using hmem

theorem setEndpoints_equiv (hmem : ∀ p, p ∈ l ↔ p ∈ l')
    (hone : ∀ k sa sa', (k, sa) ∈ l → (k, sa') ∈ l → sa' = sa) :
    (peerTracker.setEndpoints l).peers.Equiv (peerTracker.setEndpoints l').peers := by
  intro k
  by_cases hk : ∃ sa, (k, sa) ∈ l
  · obtain ⟨sa, hsa⟩ := hk
    rw [get?_setEndpoints (hone k sa · hsa) hsa,
      get?_setEndpoints (fun sa' hsa' ↦ hone k sa sa' hsa ((hmem _).mpr hsa')) ((hmem _).mp hsa)]
  · rw [not_exists] at hk
    rw [get?_setEndpoints_of_forall_not_mem hk,
      get?_setEndpoints_of_forall_not_mem fun sa hsa ↦ hk sa ((hmem _).mpr hsa)]

end PeerTracker

section Entry

variable (surroundings : (e : ClientEffect) → e.Answer) (localHasIpv6 : Bool)

/-- The address at which an entry leads us to expect a peer. -/
inductive Located : WireplugEndpoint → SocketAddr → Prop
  | localIpv6 {ipv6 : Option Ipv6Addr} {lanAddrs : List IpNet} {wgPort : UInt16} {ip : Ipv6Addr}
      (hip : usableIpv6 localHasIpv6 ipv6 = some ip) :
      Located (.localNetwork ipv6 lanAddrs wgPort) (.new (.v6 ip) wgPort)
  | lan {ipv6 : Option Ipv6Addr} {ourLanAddrs lanAddrs : List IpNet} {wgPort : UInt16}
      {addr : IpNet} (hip : usableIpv6 localHasIpv6 ipv6 = none)
      (hours : surroundings .getLanAddrs = .ok ourLanAddrs)
      (haddr : (lanCandidates ourLanAddrs lanAddrs).head? = some addr) :
      Located (.localNetwork ipv6 lanAddrs wgPort) (.new addr.addr wgPort)
  | remoteIpv6 {ipv4 : Option Ipv4Addr} {ipv6 : Option Ipv6Addr} {wgPort : UInt16} {ip : Ipv6Addr}
      (hip : usableIpv6 localHasIpv6 ipv6 = some ip) :
      Located (.remoteNetwork ipv4 ipv6 wgPort) (.new (.v6 ip) wgPort)
  | remoteIpv4 {ipv6 : Option Ipv6Addr} {wgPort : UInt16} {ip : Ipv4Addr}
      (hip : usableIpv6 localHasIpv6 ipv6 = none) :
      Located (.remoteNetwork (some ip) ipv6 wgPort) (.new (.v4 ip) wgPort)
  | relay {id : UInt64} {port : UInt16} {relay : SocketAddr}
      (hrelay : surroundings (.resolveRelay port) = .ok (some relay)) :
      Located (.relay id port) relay

/-- No address is left for a peer, or that of the relay is not found. -/
def NoAddress : WireplugEndpoint → Prop
  | .remoteNetwork ipv4 ipv6 _ => ipv4 = none ∧ usableIpv6 localHasIpv6 ipv6 = none
  | .relay _ port => ∀ relay, surroundings (.resolveRelay port) ≠ .ok (some relay)
  | _ => False

variable (fromBase64 : String → Option Key) (peerTracker : PeerTracker)

/-- The entry gives a peer that we track an address that it does not have yet, and the
interface takes it. -/
structure Usable (entry : String × WireplugEndpoint) (k : Key) (sa : SocketAddr) : Prop where
  key : fromBase64 entry.1 = some k
  located : Located surroundings localHasIpv6 entry.2 sa
  tracked : ∃ info, peerTracker.peers.get? k = some info ∧ info.currentEndpoint ≠ some sa
  taken : surroundings (.setEndpoint k sa) = .ok ()

/-- The entries whose failure is passed on to the caller. -/
inductive Fails (entry : String × WireplugEndpoint) : Prop
  | noAddress {k : Key} (hkey : fromBase64 entry.1 = some k)
      (h : NoAddress surroundings localHasIpv6 entry.2)
  | untracked {k : Key} {sa : SocketAddr} (hkey : fromBase64 entry.1 = some k)
      (hlocated : Located surroundings localHasIpv6 entry.2 sa)
      (h : peerTracker.peers.get? k = none)
  | refused {k : Key} {sa : SocketAddr} {info : WireplugPeerInfo} {e : IoError}
      (hkey : fromBase64 entry.1 = some k)
      (hlocated : Located surroundings localHasIpv6 entry.2 sa)
      (hinfo : peerTracker.peers.get? k = some info) (hnew : info.currentEndpoint ≠ some sa)
      (h : surroundings (.setEndpoint k sa) = .error e)

end Entry

section Outcome

variable {surroundings : (e : ClientEffect) → e.Answer} {localHasIpv6 : Bool}

variable (surroundings localHasIpv6) in
inductive Found (endpoint : WireplugEndpoint) :
    ClientTrace × Except ClientError (Option SocketAddr) → Prop
  | located {t : ClientTrace} {sa : SocketAddr} (h : Located surroundings localHasIpv6 endpoint sa)
      (ht : applied t = []) : Found endpoint (t, .ok (some sa))
  | nowhere {t : ClientTrace} (h : ∀ sa, ¬ Located surroundings localHasIpv6 endpoint sa)
      (haddress : ¬ NoAddress surroundings localHasIpv6 endpoint) (ht : applied t = []) :
      Found endpoint (t, .ok none)
  | failed {t : ClientTrace} {e : ClientError} (h : NoAddress surroundings localHasIpv6 endpoint)
      (ht : applied t = []) : Found endpoint (t, .error e)

theorem eval_ask {α : Type} (e : ClientEffect) (f : e.Answer → Client α) :
    (ask e >>= f).run.eval surroundings =
      (⟨e, surroundings e⟩ :: ((f (surroundings e)).run.eval surroundings).1,
        ((f (surroundings e)).run.eval surroundings).2) := rfl

theorem found_local (ipv6 : Option Ipv6Addr) (lanAddrs : List IpNet) (wgPort : UInt16) :
    Found surroundings localHasIpv6 (.localNetwork ipv6 lanAddrs wgPort)
      ((localEndpoint localHasIpv6 ipv6 lanAddrs wgPort).run.eval surroundings) := by
  rw [localEndpoint]
  cases hip : usableIpv6 localHasIpv6 ipv6 with
  | some ip => exact .located (.localIpv6 hip) rfl
  | none =>
    cases hours : surroundings .getLanAddrs with
    | ok ourLanAddrs =>
      have heval : (findLanCandidates lanAddrs).run.eval surroundings =
          ([⟨.getLanAddrs, .ok ourLanAddrs⟩], .ok (lanCandidates ourLanAddrs lanAddrs)) := by
        rw [findLanCandidates, eval_ask, hours]
        rfl
      dsimp only
      rw [eval_try_ok heval]
      cases hhead : (lanCandidates ourLanAddrs lanAddrs).head? with
      | none =>
        refine .nowhere (fun sa h ↦ ?_) id rfl
        cases h with
        | localIpv6 hip' => cases hip.symm.trans hip'
        | lan _ hours' haddr =>
          cases hours.symm.trans hours'
          cases hhead.symm.trans haddr
      | some addr => exact .located (.lan hip hours hhead) rfl
    | error e =>
      have heval : (findLanCandidates lanAddrs).run.eval surroundings =
          ([⟨.getLanAddrs, .error e⟩], .ok []) := by
        rw [findLanCandidates, eval_ask, hours]
        rfl
      dsimp only
      rw [eval_try_ok heval]
      refine .nowhere (fun sa h ↦ ?_) id rfl
      cases h with
      | localIpv6 hip' => cases hip.symm.trans hip'
      | lan _ hours' _ => cases hours.symm.trans hours'

theorem found_remote (ipv4 : Option Ipv4Addr) (ipv6 : Option Ipv6Addr) (wgPort : UInt16) :
    Found surroundings localHasIpv6 (.remoteNetwork ipv4 ipv6 wgPort)
      ((remoteEndpoint localHasIpv6 ipv4 ipv6 wgPort).run.eval surroundings) := by
  unfold remoteEndpoint
  cases hip : usableIpv6 localHasIpv6 ipv6 with
  | some ip => exact .located (.remoteIpv6 hip) rfl
  | none =>
    cases ipv4 with
    | some ip => exact .located (.remoteIpv4 hip) rfl
    | none => exact .failed ⟨rfl, hip⟩ rfl

theorem found_relay (id : UInt64) (port : UInt16) :
    Found surroundings localHasIpv6 (.relay id port)
      ((relayEndpoint port).run.eval surroundings) := by
  cases hrelay : surroundings (.resolveRelay port) with
  | error e =>
    have heval : (orFail (ask (.resolveRelay port))).run.eval surroundings =
        ([⟨.resolveRelay port, .error e⟩], .error (.io e)) := by
      rw [orFail, eval_ask, hrelay]
      rfl
    rw [relayEndpoint, eval_try_error heval]
    refine .failed (fun relay h ↦ ?_) rfl
    cases hrelay.symm.trans h
  | ok found =>
    have heval : (orFail (ask (.resolveRelay port))).run.eval surroundings =
        ([⟨.resolveRelay port, .ok found⟩], .ok found) := by
      rw [orFail, eval_ask, hrelay]
      rfl
    rw [relayEndpoint, eval_try_ok heval]
    cases found with
    | some relay => exact .located (.relay hrelay) rfl
    | none =>
      refine .failed (fun relay h ↦ ?_) rfl
      cases hrelay.symm.trans h

variable (surroundings localHasIpv6) in
theorem found_endpoint (endpoint : WireplugEndpoint) :
    Found surroundings localHasIpv6 endpoint
      ((endpointToUse localHasIpv6 endpoint).run.eval surroundings) := by
  cases endpoint with
  | unknown => exact .nowhere (fun sa h ↦ by cases h) id rfl
  | localNetwork ipv6 lanAddrs wgPort => exact found_local ipv6 lanAddrs wgPort
  | remoteNetwork ipv4 ipv6 wgPort => exact found_remote ipv4 ipv6 wgPort
  | relay id port => exact found_relay id port

theorem Located.unique {endpoint : WireplugEndpoint} {sa sa' : SocketAddr}
    (h : Located surroundings localHasIpv6 endpoint sa)
    (h' : Located surroundings localHasIpv6 endpoint sa') : sa = sa' := by
  cases h with
  | localIpv6 hip =>
    cases h' with
    | localIpv6 hip' =>
      cases hip.symm.trans hip'
      rfl
    | lan hip' => cases hip.symm.trans hip'
  | lan hip hours haddr =>
    cases h' with
    | localIpv6 hip' => cases hip.symm.trans hip'
    | lan _ hours' haddr' =>
      cases hours.symm.trans hours'
      cases haddr.symm.trans haddr'
      rfl
  | remoteIpv6 hip =>
    cases h' with
    | remoteIpv6 hip' =>
      cases hip.symm.trans hip'
      rfl
    | remoteIpv4 hip' => cases hip.symm.trans hip'
  | remoteIpv4 hip =>
    cases h' with
    | remoteIpv6 hip' => cases hip.symm.trans hip'
    | remoteIpv4 => rfl
  | relay hrelay =>
    cases h' with
    | relay hrelay' =>
      cases hrelay.symm.trans hrelay'
      rfl

theorem Located.not_noAddress {endpoint : WireplugEndpoint} {sa : SocketAddr}
    (h : Located surroundings localHasIpv6 endpoint sa) :
    ¬ NoAddress surroundings localHasIpv6 endpoint := by
  intro hno
  cases h with
  | localIpv6 | lan => exact hno
  | remoteIpv6 hip => cases hip.symm.trans hno.2
  | remoteIpv4 => cases hno.1
  | relay hrelay => exact hno _ hrelay

variable {fromBase64 : String → Option Key} {acc : PeerTracker × List Key}
  {entry : String × WireplugEndpoint} {k : Key} {sa : SocketAddr}

theorem Usable.not_fails {peerTracker : PeerTracker}
    (h : Usable surroundings localHasIpv6 fromBase64 peerTracker entry k sa) :
    ¬ Fails surroundings localHasIpv6 fromBase64 peerTracker entry := by
  intro hfails
  obtain ⟨info, hinfo, hnew⟩ := h.tracked
  cases hfails with
  | noAddress hkey hno => exact h.located.not_noAddress hno
  | untracked hkey hlocated hnone =>
    cases h.key.symm.trans hkey
    cases hinfo.symm.trans hnone
  | refused hkey hlocated _ _ hrefused =>
    cases h.key.symm.trans hkey
    cases h.located.unique hlocated
    cases h.taken.symm.trans hrefused

variable (surroundings localHasIpv6 fromBase64) in
/-- What a round of the loop of `update_peers` leads to. -/
inductive Entered (acc : PeerTracker × List Key) (entry : String × WireplugEndpoint) :
    ClientTrace × Except ClientError (PeerTracker × List Key) → Prop
  | skipped {t : ClientTrace}
      (hfails : ¬ Fails surroundings localHasIpv6 fromBase64 acc.1 entry)
      (husable : ∀ k sa, ¬ Usable surroundings localHasIpv6 fromBase64 acc.1 entry k sa)
      (ht : applied t = []) : Entered acc entry (t, .ok acc)
  | failed {t : ClientTrace} {e : ClientError}
      (h : Fails surroundings localHasIpv6 fromBase64 acc.1 entry) (ht : applied t = []) :
      Entered acc entry (t, .error e)
  | applied {t : ClientTrace} {k : Key} {sa : SocketAddr}
      (h : Usable surroundings localHasIpv6 fromBase64 acc.1 entry k sa)
      (ht : applied t = [(k, sa)]) :
      Entered acc entry (t, .ok (acc.1.setEndpoint k sa, acc.2 ++ [k]))

theorem Entered.after {t : ClientTrace} (ht : Wireplug.applied t = [])
    {r : ClientTrace × Except ClientError (PeerTracker × List Key)}
    (h : Entered surroundings localHasIpv6 fromBase64 acc entry r) :
    Entered surroundings localHasIpv6 fromBase64 acc entry (t ++ r.1, r.2) := by
  cases h with
  | skipped hfails husable hu => exact .skipped hfails husable (by rw [applied_append, ht, hu]; rfl)
  | failed h hu => exact .failed h (by rw [applied_append, ht, hu]; rfl)
  | applied h hu => exact .applied h (by rw [applied_append, ht, hu]; rfl)

theorem entered_located (hkey : fromBase64 entry.1 = some k)
    (hlocated : Located surroundings localHasIpv6 entry.2 sa) {t : ClientTrace}
    (ht : Wireplug.applied t = [])
    (heval : (endpointToUse localHasIpv6 entry.2).run.eval surroundings = (t, .ok (some sa))) :
    Entered surroundings localHasIpv6 fromBase64 acc entry
      ((updateEntry fromBase64 localHasIpv6 acc entry).run.eval surroundings) := by
  rw [updateEntry, hkey]
  dsimp only
  rw [eval_try_ok heval]
  refine Entered.after ht ?_
  dsimp only
  rw [updatePeer]
  cases hinfo : acc.1.peers.get? k with
  | none => exact .failed (.untracked hkey hlocated hinfo) rfl
  | some info =>
    dsimp only
    by_cases hnew : info.currentEndpoint = some sa
    · rw [if_pos hnew]
      refine .skipped (fun h ↦ ?_) (fun k' sa' h ↦ ?_) rfl
      · cases h with
        | noAddress _ hno => exact hlocated.not_noAddress hno
        | untracked hkey' _ hnone =>
          cases hkey.symm.trans hkey'
          cases hinfo.symm.trans hnone
        | refused hkey' hlocated' hinfo' hnew' =>
          cases hkey.symm.trans hkey'
          cases hlocated.unique hlocated'
          cases hinfo.symm.trans hinfo'
          exact hnew' hnew
      · cases hkey.symm.trans h.key
        cases hlocated.unique h.located
        obtain ⟨info', hinfo', hnew'⟩ := h.tracked
        cases hinfo.symm.trans hinfo'
        exact hnew' hnew
    · rw [if_neg hnew]
      cases htaken : surroundings (.setEndpoint k sa) with
      | error e =>
        have hset : (orFail (ask (.setEndpoint k sa))).run.eval surroundings =
            ([⟨.setEndpoint k sa, .error e⟩], .error (.io e)) := by
          rw [orFail, eval_ask, htaken]
          rfl
        rw [bind_assoc, eval_try_error hset]
        exact .failed (.refused hkey hlocated hinfo hnew htaken) rfl
      | ok taken =>
        have hset : (orFail (ask (.setEndpoint k sa))).run.eval surroundings =
            ([⟨.setEndpoint k sa, .ok taken⟩], .ok taken) := by
          rw [orFail, eval_ask, htaken]
          rfl
        rw [bind_assoc, eval_try_ok hset]
        exact .applied ⟨hkey, hlocated, ⟨info, hinfo, hnew⟩, htaken⟩ rfl

variable (surroundings localHasIpv6 fromBase64) in
theorem entered_entry (acc : PeerTracker × List Key) (entry : String × WireplugEndpoint) :
    Entered surroundings localHasIpv6 fromBase64 acc entry
      ((updateEntry fromBase64 localHasIpv6 acc entry).run.eval surroundings) := by
  cases hkey : fromBase64 entry.1 with
  | none =>
    rw [updateEntry, hkey]
    refine .skipped (fun h ↦ ?_) (fun k sa h ↦ ?_) rfl
    · cases h with
      | noAddress hkey' | untracked hkey' | refused hkey' => cases hkey.symm.trans hkey'
    · cases hkey.symm.trans h.key
  | some k =>
    have hfound := found_endpoint surroundings localHasIpv6 entry.2
    cases heval : (endpointToUse localHasIpv6 entry.2).run.eval surroundings with
    | mk t r =>
      rw [heval] at hfound
      cases hfound with
      | located hlocated ht => exact entered_located hkey hlocated ht heval
      | nowhere hnowhere haddress ht =>
        rw [updateEntry, hkey]
        dsimp only
        rw [eval_try_ok heval]
        refine .after ht (.skipped (fun h ↦ ?_) (fun k sa h ↦ hnowhere sa h.located) rfl)
        cases h with
        | noAddress _ hno => exact haddress hno
        | untracked _ hlocated | refused _ hlocated => exact hnowhere _ hlocated
      | failed hno ht =>
        rw [updateEntry, hkey]
        dsimp only
        rw [eval_try_error heval]
        exact .failed (.noAddress hkey hno) ht

theorem Usable.congr {peerTracker peerTracker' : PeerTracker}
    (heq : ∀ k, fromBase64 entry.1 = some k →
      peerTracker.peers.get? k = peerTracker'.peers.get? k)
    (h : Usable surroundings localHasIpv6 fromBase64 peerTracker entry k sa) :
    Usable surroundings localHasIpv6 fromBase64 peerTracker' entry k sa :=
  ⟨h.key, h.located, heq k h.key ▸ h.tracked, h.taken⟩

theorem Fails.congr {peerTracker peerTracker' : PeerTracker}
    (heq : ∀ k, fromBase64 entry.1 = some k →
      peerTracker.peers.get? k = peerTracker'.peers.get? k)
    (h : Fails surroundings localHasIpv6 fromBase64 peerTracker entry) :
    Fails surroundings localHasIpv6 fromBase64 peerTracker' entry := by
  cases h with
  | noAddress hkey h => exact .noAddress hkey h
  | untracked hkey hlocated h => exact .untracked hkey hlocated (heq _ hkey ▸ h)
  | refused hkey hlocated hinfo hnew h =>
    exact .refused hkey hlocated (heq _ hkey ▸ hinfo) hnew h

variable (surroundings localHasIpv6 fromBase64) in
def updated (acc : PeerTracker × List Key) (entries : List (String × WireplugEndpoint)) :
    ClientTrace × Except ClientError (PeerTracker × List Key) :=
  (entries.foldlM (updateEntry fromBase64 localHasIpv6) acc).run.eval surroundings

variable {entries : List (String × WireplugEndpoint)}

theorem updated_cons_ok {acc' : PeerTracker × List Key} {t : ClientTrace}
    (h : (updateEntry fromBase64 localHasIpv6 acc entry).run.eval surroundings = (t, .ok acc')) :
    updated surroundings localHasIpv6 fromBase64 acc (entry :: entries) =
      (t ++ (updated surroundings localHasIpv6 fromBase64 acc' entries).1,
        (updated surroundings localHasIpv6 fromBase64 acc' entries).2) := by
  rw [updated, List.foldlM_cons, eval_try_ok h]
  rfl

theorem updated_cons_error {t : ClientTrace} {e : ClientError}
    (h : (updateEntry fromBase64 localHasIpv6 acc entry).run.eval surroundings = (t, .error e)) :
    updated surroundings localHasIpv6 fromBase64 acc (entry :: entries) = (t, .error e) := by
  rw [updated, List.foldlM_cons, eval_try_error h]

variable (surroundings localHasIpv6 fromBase64) in
theorem updated_cons (acc : PeerTracker × List Key) (entry : String × WireplugEndpoint)
    (entries : List (String × WireplugEndpoint)) :
    ∃ t r, Entered surroundings localHasIpv6 fromBase64 acc entry (t, r) ∧
      updated surroundings localHasIpv6 fromBase64 acc (entry :: entries) =
        (match r with
        | .ok acc' => (t ++ (updated surroundings localHasIpv6 fromBase64 acc' entries).1,
            (updated surroundings localHasIpv6 fromBase64 acc' entries).2)
        | .error e => (t, .error e)) := by
  have hentered := entered_entry surroundings localHasIpv6 fromBase64 acc entry
  cases heval : (updateEntry fromBase64 localHasIpv6 acc entry).run.eval surroundings with
  | mk t r =>
    rw [heval] at hentered
    refine ⟨t, r, hentered, ?_⟩
    cases r with
    | ok acc' => exact updated_cons_ok heval
    | error e => exact updated_cons_error heval

theorem updated_ok {out : PeerTracker × List Key}
    (h : (updated surroundings localHasIpv6 fromBase64 acc entries).2 = .ok out) :
    out = (acc.1.setEndpoints
        (applied (updated surroundings localHasIpv6 fromBase64 acc entries).1),
      acc.2 ++ (applied (updated surroundings localHasIpv6 fromBase64 acc entries).1).map
        Prod.fst) := by
  induction entries generalizing acc with
  | nil =>
    cases h
    exact Prod.ext rfl (List.append_nil _).symm
  | cons entry entries ih =>
    obtain ⟨t, r, hentered, heq⟩ := updated_cons surroundings localHasIpv6 fromBase64 acc entry entries
    rw [heq] at h ⊢
    cases hentered with
    | skipped _ _ ht =>
      rw [ih h]
      simp only [applied_append, ht, List.nil_append]
    | failed => cases h
    | applied _ ht =>
      rw [ih h]
      simp only [applied_append, ht, PeerTracker.setEndpoints, List.singleton_append,
        List.foldl_cons, List.map_cons, List.append_assoc]

theorem updated_unusable
    (h : ∀ entry ∈ entries, ∀ k sa,
      ¬ Usable surroundings localHasIpv6 fromBase64 acc.1 entry k sa) :
    applied (updated surroundings localHasIpv6 fromBase64 acc entries).1 = [] := by
  induction entries with
  | nil => rfl
  | cons entry entries ih =>
    obtain ⟨t, r, hentered, heq⟩ := updated_cons surroundings localHasIpv6 fromBase64 acc entry entries
    rw [heq]
    cases hentered with
    | skipped _ _ ht =>
      rw [applied_append, ht, ih fun entry hentry ↦ h entry (List.mem_cons_of_mem _ hentry)]
      rfl
    | failed _ ht => exact ht
    | applied husable => exact (h entry List.mem_cons_self _ _ husable).elim

theorem updated_fails (h : Fails surroundings localHasIpv6 fromBase64 acc.1 entry) :
    ∃ t e, updated surroundings localHasIpv6 fromBase64 acc (entry :: entries) = (t, .error e) ∧
      applied t = [] := by
  obtain ⟨t, r, hentered, heq⟩ := updated_cons surroundings localHasIpv6 fromBase64 acc entry entries
  rw [heq]
  cases hentered with
  | skipped hfails => exact (hfails h).elim
  | failed _ ht => exact ⟨t, _, rfl, ht⟩
  | applied husable => exact (husable.not_fails h).elim

theorem updated_usable (h : Usable surroundings localHasIpv6 fromBase64 acc.1 entry k sa) :
    ∃ t, applied t = [(k, sa)] ∧
      updated surroundings localHasIpv6 fromBase64 acc (entry :: entries) =
        (t ++ (updated surroundings localHasIpv6 fromBase64
          (acc.1.setEndpoint k sa, acc.2 ++ [k]) entries).1,
        (updated surroundings localHasIpv6 fromBase64
          (acc.1.setEndpoint k sa, acc.2 ++ [k]) entries).2) := by
  obtain ⟨t, r, hentered, heq⟩ := updated_cons surroundings localHasIpv6 fromBase64 acc entry entries
  rw [heq]
  cases hentered with
  | skipped _ hnone => exact (hnone k sa h).elim
  | failed hfails => exact (h.not_fails hfails).elim
  | applied h' ht =>
    cases h.key.symm.trans h'.key
    cases h.located.unique h'.located
    exact ⟨t, ht, rfl⟩

variable (surroundings localHasIpv6 fromBase64) in
/-- Nothing more comes of the entry. -/
structure Settled (peerTracker : PeerTracker) (entry : String × WireplugEndpoint) : Prop where
  unusable : ∀ k sa, ¬ Usable surroundings localHasIpv6 fromBase64 peerTracker entry k sa
  not_fails : ¬ Fails surroundings localHasIpv6 fromBase64 peerTracker entry

theorem Settled.congr {peerTracker peerTracker' : PeerTracker}
    (h : Settled surroundings localHasIpv6 fromBase64 peerTracker entry)
    (heq : ∀ k, fromBase64 entry.1 = some k →
      peerTracker.peers.get? k = peerTracker'.peers.get? k) :
    Settled surroundings localHasIpv6 fromBase64 peerTracker' entry where
  unusable k sa husable := h.unusable k sa (husable.congr fun k hk ↦ (heq k hk).symm)
  not_fails hfails := h.not_fails (hfails.congr fun k hk ↦ (heq k hk).symm)

theorem Settled.current {peerTracker : PeerTracker}
    (h : Settled surroundings localHasIpv6 fromBase64 peerTracker entry)
    (hkey : fromBase64 entry.1 = some k) (hlocated : Located surroundings localHasIpv6 entry.2 sa) :
    ∃ info, peerTracker.peers.get? k = some info ∧ info.currentEndpoint = some sa := by
  cases hinfo : peerTracker.peers.get? k with
  | none => exact (h.not_fails (.untracked hkey hlocated hinfo)).elim
  | some info =>
    refine ⟨info, rfl, by_contra fun hnew ↦ ?_⟩
    cases htaken : surroundings (.setEndpoint k sa) with
    | error e => exact h.not_fails (.refused hkey hlocated hinfo hnew htaken)
    | ok taken => exact h.unusable k sa ⟨hkey, hlocated, ⟨info, hinfo, hnew⟩, htaken⟩

theorem settled_setEndpoint {peerTracker : PeerTracker} {info : WireplugPeerInfo}
    (hinfo : peerTracker.peers.get? k = some info) (hkey : fromBase64 entry.1 = some k)
    (hsame : ∀ sa', Located surroundings localHasIpv6 entry.2 sa' → sa' = sa)
    (haddress : ¬ NoAddress surroundings localHasIpv6 entry.2) :
    Settled surroundings localHasIpv6 fromBase64 (peerTracker.setEndpoint k sa) entry := by
  have hset : (peerTracker.setEndpoint k sa).peers.get? k =
      some { info with currentEndpoint := some sa } := by
    rw [PeerTracker.get?_setEndpoint, if_pos rfl, hinfo, Option.map_some]
  constructor
  · intro k' sa' husable
    cases hkey.symm.trans husable.key
    obtain rfl := hsame sa' husable.located
    obtain ⟨info', hinfo', hnew⟩ := husable.tracked
    cases hset.symm.trans hinfo'
    exact hnew rfl
  · intro hfails
    cases hfails with
    | noAddress _ hno => exact haddress hno
    | untracked hkey' _ hnone =>
      cases hkey.symm.trans hkey'
      cases hset.symm.trans hnone
    | @refused _ sa' _ _ hkey' hlocated hinfo' hnew =>
      cases hkey.symm.trans hkey'
      obtain rfl := hsame sa' hlocated
      cases hset.symm.trans hinfo'
      exact hnew rfl

theorem Usable.settled {peerTracker : PeerTracker}
    (h : Usable surroundings localHasIpv6 fromBase64 peerTracker entry k sa) :
    Settled surroundings localHasIpv6 fromBase64 (peerTracker.setEndpoint k sa) entry := by
  obtain ⟨info, hinfo, -⟩ := h.tracked
  exact settled_setEndpoint hinfo h.key (fun _ h' ↦ h'.unique h.located) h.located.not_noAddress

theorem updated_last {out : PeerTracker × List Key}
    (h : (updated surroundings localHasIpv6 fromBase64 acc (entries ++ [entry])).2 = .ok out) :
    Settled surroundings localHasIpv6 fromBase64 out.1 entry := by
  induction entries generalizing acc with
  | nil =>
    obtain ⟨t, r, hentered, heq⟩ := updated_cons surroundings localHasIpv6 fromBase64 acc entry []
    rw [List.nil_append, heq] at h
    cases hentered with
    | skipped hfails husable =>
      cases h
      exact ⟨husable, hfails⟩
    | failed => cases h
    | applied husable =>
      cases h
      exact husable.settled
  | cons first entries ih =>
    obtain ⟨t, r, hentered, heq⟩ :=
      updated_cons surroundings localHasIpv6 fromBase64 acc first (entries ++ [entry])
    rw [List.cons_append, heq] at h
    cases hentered with
    | skipped | applied => exact ih h
    | failed => cases h

/-- No two entries are about the same peer. -/
def OnePerPeer (fromBase64 : String → Option Key) (entries : List (String × WireplugEndpoint)) :
    Prop :=
  entries.Pairwise fun a b ↦ ∀ k, fromBase64 a.1 = some k → fromBase64 b.1 ≠ some k

variable (surroundings localHasIpv6 fromBase64) in
def OneAddress (peerTracker : PeerTracker) (entries : List (String × WireplugEndpoint)) : Prop :=
  ∀ entry ∈ entries, ∀ entry' ∈ entries, ∀ k sa sa',
    Usable surroundings localHasIpv6 fromBase64 peerTracker entry k sa →
      fromBase64 entry'.1 = some k → Located surroundings localHasIpv6 entry'.2 sa' → sa' = sa

theorem OnePerPeer.oneAddress (h : OnePerPeer fromBase64 entries) (peerTracker : PeerTracker) :
    OneAddress surroundings localHasIpv6 fromBase64 peerTracker entries := by
  intro entry hentry entry' hentry' k sa sa' husable hkey hlocated
  have hsymm : Std.Symm fun a b : String × WireplugEndpoint ↦
      ∀ k, fromBase64 a.1 = some k → fromBase64 b.1 ≠ some k := ⟨fun a b h k hb ha ↦ h k ha hb⟩
  obtain rfl : entry = entry' := by
    by_contra hne
    exact List.Pairwise.forall h hentry hentry' hne k husable.key hkey
  exact hlocated.unique husable.located

section Later

variable {peerTracker : PeerTracker} {k₀ : Key} {sa₀ : SocketAddr} {entry' : String × WireplugEndpoint}

/-- Once an entry is applied, those that follow are settled, or about other peers, which are
tracked as before. -/
theorem OneAddress.later
    (hone : OneAddress surroundings localHasIpv6 fromBase64 peerTracker (entry :: entries))
    (husable : Usable surroundings localHasIpv6 fromBase64 peerTracker entry k₀ sa₀)
    (hentry' : entry' ∈ entries)
    (hnot : ¬ Fails surroundings localHasIpv6 fromBase64 peerTracker entry') :
    Settled surroundings localHasIpv6 fromBase64 (peerTracker.setEndpoint k₀ sa₀) entry' ∧
        fromBase64 entry'.1 = some k₀ ∨
      ∀ k, fromBase64 entry'.1 = some k →
        k ≠ k₀ ∧ (peerTracker.setEndpoint k₀ sa₀).peers.get? k = peerTracker.peers.get? k := by
  by_cases hk : fromBase64 entry'.1 = some k₀
  · obtain ⟨info, hinfo, -⟩ := husable.tracked
    refine .inl ⟨settled_setEndpoint hinfo hk (fun sa hsa ↦ ?_) fun hno ↦ hnot (.noAddress hk hno),
      hk⟩
    exact hone entry List.mem_cons_self entry' (List.mem_cons_of_mem _ hentry') k₀ sa₀ sa husable
      hk hsa
  · refine .inr fun k hk' ↦ ?_
    have hne : k ≠ k₀ := fun heq ↦ hk (heq ▸ hk')
    exact ⟨hne, by rw [PeerTracker.get?_setEndpoint, if_neg hne]⟩

theorem OneAddress.usable_later
    (hone : OneAddress surroundings localHasIpv6 fromBase64 peerTracker (entry :: entries))
    (husable : Usable surroundings localHasIpv6 fromBase64 peerTracker entry k₀ sa₀)
    (hentry' : entry' ∈ entries)
    (hnot : ¬ Fails surroundings localHasIpv6 fromBase64 peerTracker entry') (k : Key)
    (sa : SocketAddr) :
    Usable surroundings localHasIpv6 fromBase64 (peerTracker.setEndpoint k₀ sa₀) entry' k sa ↔
      Usable surroundings localHasIpv6 fromBase64 peerTracker entry' k sa ∧ k ≠ k₀ := by
  rcases hone.later husable hentry' hnot with ⟨hsettled, hk⟩ | hother
  · refine iff_of_false (hsettled.unusable k sa) fun h ↦ h.2 ?_
    exact Option.some.inj (h.1.key.symm.trans hk)
  · exact ⟨fun h ↦ ⟨h.congr fun k hk ↦ (hother k hk).2, (hother k h.key).1⟩,
      fun h ↦ h.1.congr fun k hk ↦ (hother k hk).2.symm⟩

theorem OneAddress.not_fails_later
    (hone : OneAddress surroundings localHasIpv6 fromBase64 peerTracker (entry :: entries))
    (husable : Usable surroundings localHasIpv6 fromBase64 peerTracker entry k₀ sa₀)
    (hentry' : entry' ∈ entries)
    (hnot : ¬ Fails surroundings localHasIpv6 fromBase64 peerTracker entry') :
    ¬ Fails surroundings localHasIpv6 fromBase64 (peerTracker.setEndpoint k₀ sa₀) entry' := by
  intro hfails
  rcases hone.later husable hentry' hnot with ⟨hsettled, -⟩ | hother
  · exact hsettled.not_fails hfails
  · exact hnot (hfails.congr fun k hk ↦ (hother k hk).2)

end Later

/-- Without entries that fail, the usable ones are applied, and no others. -/
theorem updated_all
    (hone : OneAddress surroundings localHasIpv6 fromBase64 acc.1 entries)
    (h : ∀ entry ∈ entries, ¬ Fails surroundings localHasIpv6 fromBase64 acc.1 entry) :
    (∃ out, (updated surroundings localHasIpv6 fromBase64 acc entries).2 = .ok out) ∧
      ∀ k sa, (k, sa) ∈ applied (updated surroundings localHasIpv6 fromBase64 acc entries).1 ↔
        ∃ entry ∈ entries, Usable surroundings localHasIpv6 fromBase64 acc.1 entry k sa := by
  induction entries generalizing acc with
  | nil =>
    refine ⟨⟨acc, rfl⟩, fun k sa ↦ ⟨fun hmem ↦ (by cases hmem), fun hentry ↦ ?_⟩⟩
    obtain ⟨entry, hmem, -⟩ := hentry
    cases hmem
  | cons entry entries ih =>
    obtain ⟨hfirst, hrest⟩ := List.forall_mem_cons.mp h
    have hone' : OneAddress surroundings localHasIpv6 fromBase64 acc.1 entries :=
      fun a ha b hb ↦ hone a (List.mem_cons_of_mem _ ha) b (List.mem_cons_of_mem _ hb)
    obtain ⟨t, r, hentered, heq⟩ :=
      updated_cons surroundings localHasIpv6 fromBase64 acc entry entries
    rw [heq]
    simp only [List.exists_mem_cons_iff]
    cases hentered with
    | failed hfails => exact (hfirst hfails).elim
    | skipped _ husable ht =>
      obtain ⟨hout, hmem⟩ := ih hone' hrest
      refine ⟨hout, fun k sa ↦ ?_⟩
      rw [applied_append, ht, List.nil_append, hmem, or_iff_right (husable k sa)]
    | @applied _ k₀ sa₀ husable ht =>
      have hlater (entry' : String × WireplugEndpoint) (hentry' : entry' ∈ entries) :=
        hone.usable_later husable hentry' (hrest entry' hentry')
      obtain ⟨hout, hmem⟩ := @ih (acc.1.setEndpoint k₀ sa₀, acc.2 ++ [k₀])
        (fun a ha b hb k sa sa' h ↦ hone' a ha b hb k sa sa' ((hlater a ha k sa).mp h).1)
        fun entry' hentry' ↦ hone.not_fails_later husable hentry' (hrest entry' hentry')
      refine ⟨hout, fun k sa ↦ ?_⟩
      rw [applied_append, ht, List.singleton_append, List.mem_cons, hmem, Prod.mk.injEq]
      constructor
      · rintro (⟨rfl, rfl⟩ | ⟨entry', hentry', h⟩)
        · exact .inl husable
        · exact .inr ⟨entry', hentry', ((hlater entry' hentry' k sa).mp h).1⟩
      · rintro (h | ⟨entry', hentry', h⟩)
        · cases husable.key.symm.trans h.key
          exact .inl ⟨rfl, h.located.unique husable.located⟩
        · by_cases hk : k = k₀
          · subst hk
            exact .inl ⟨rfl, hone entry List.mem_cons_self entry' (List.mem_cons_of_mem _ hentry')
              k sa₀ sa husable h.key h.located⟩
          · exact .inr ⟨entry', hentry', (hlater entry' hentry' k sa).mpr ⟨h, hk⟩⟩

end Outcome

section Order

variable (surroundings : (e : ClientEffect) → e.Answer) (fromBase64 : String → Option Key)
  (peerTracker : PeerTracker) (localHasIpv6 : Bool)

/-- The calls and the result of `update_peers`. -/
def updating (newEndpoints : HashMap String WireplugEndpoint) :
    ClientTrace × Except ClientError (PeerTracker × List Key) :=
  (updatePeers fromBase64 peerTracker newEndpoints localHasIpv6).run.eval surroundings

/-- The peers that get an endpoint, whether or not the loop then fails. -/
def given (newEndpoints : HashMap String WireplugEndpoint) : List (Key × SocketAddr) :=
  applied (updating surroundings fromBase64 peerTracker localHasIpv6 newEndpoints).1

/-- In whatever order the response is gone through, the same peers get an endpoint, the tracker
ends the same, no usable entry is left out, and the caller learns of all who got one. -/
structure Independent (newEndpoints : HashMap String WireplugEndpoint) : Prop where
  samePeers : ∀ m : HashMap String WireplugEndpoint, m.entries.Perm newEndpoints.entries →
    ∀ p, p ∈ given surroundings fromBase64 peerTracker localHasIpv6 m ↔
      p ∈ given surroundings fromBase64 peerTracker localHasIpv6 newEndpoints
  sameTracker : ∀ m : HashMap String WireplugEndpoint, m.entries.Perm newEndpoints.entries →
    (peerTracker.setEndpoints (given surroundings fromBase64 peerTracker localHasIpv6 m)).peers.Equiv
      (peerTracker.setEndpoints
        (given surroundings fromBase64 peerTracker localHasIpv6 newEndpoints)).peers
  noneLeftOut : ∀ m : HashMap String WireplugEndpoint, m.entries.Perm newEndpoints.entries →
    ∀ entry ∈ m.entries, ∀ k sa,
      Usable surroundings localHasIpv6 fromBase64 peerTracker entry k sa →
        (k, sa) ∈ given surroundings fromBase64 peerTracker localHasIpv6 m
  reported : ∀ m : HashMap String WireplugEndpoint, m.entries.Perm newEndpoints.entries →
    ∀ p ∈ given surroundings fromBase64 peerTracker localHasIpv6 m, ∃ peerTracker' peersUpdated,
      (updating surroundings fromBase64 peerTracker localHasIpv6 m).2 =
        .ok (peerTracker', peersUpdated) ∧ p.1 ∈ peersUpdated

end Order

section Orders

variable {surroundings : (e : ClientEffect) → e.Answer} {fromBase64 : String → Option Key}
  {peerTracker : PeerTracker} {localHasIpv6 : Bool} {m newEndpoints : HashMap String WireplugEndpoint}
  {entry entry' : String × WireplugEndpoint} {k : Key} {sa sa' : SocketAddr}

theorem mem_given
    (hone : OneAddress surroundings localHasIpv6 fromBase64 peerTracker m.entries)
    (h : ∀ entry ∈ m.entries, ¬ Fails surroundings localHasIpv6 fromBase64 peerTracker entry)
    (k : Key) (sa : SocketAddr) : (k, sa) ∈ given surroundings fromBase64 peerTracker localHasIpv6 m ↔
      ∃ entry ∈ m.entries, Usable surroundings localHasIpv6 fromBase64 peerTracker entry k sa :=
  (@updated_all surroundings localHasIpv6 fromBase64 (peerTracker, []) _ hone h).2 k sa

theorem independent_of_not_fails
    (hone : OneAddress surroundings localHasIpv6 fromBase64 peerTracker newEndpoints.entries)
    (h : ∀ entry ∈ newEndpoints.entries,
      ¬ Fails surroundings localHasIpv6 fromBase64 peerTracker entry) :
    Independent surroundings fromBase64 peerTracker localHasIpv6 newEndpoints := by
  have hall (m : HashMap String WireplugEndpoint) (hm : m.entries.Perm newEndpoints.entries) :
      ∀ entry ∈ m.entries, ¬ Fails surroundings localHasIpv6 fromBase64 peerTracker entry :=
    fun entry hentry ↦ h entry (hm.mem_iff.mp hentry)
  have hones (m : HashMap String WireplugEndpoint) (hm : m.entries.Perm newEndpoints.entries) :
      OneAddress surroundings localHasIpv6 fromBase64 peerTracker m.entries :=
    fun a ha b hb ↦ hone a (hm.mem_iff.mp ha) b (hm.mem_iff.mp hb)
  have hsame (m : HashMap String WireplugEndpoint) (hm : m.entries.Perm newEndpoints.entries) :
      ∀ p, p ∈ given surroundings fromBase64 peerTracker localHasIpv6 m ↔
        p ∈ given surroundings fromBase64 peerTracker localHasIpv6 newEndpoints := by
    rintro ⟨k, sa⟩
    simp only [mem_given (hones m hm) (hall m hm), mem_given hone h, hm.mem_iff]
  refine ⟨hsame, fun m hm ↦ ?_, fun m hm entry hentry k sa husable ↦ ?_, fun m hm p hp ↦ ?_⟩
  · refine PeerTracker.setEndpoints_equiv (hsame m hm) fun k sa sa' hsa hsa' ↦ ?_
    obtain ⟨entry, hentry, husable⟩ := (mem_given (hones m hm) (hall m hm) k sa).mp hsa
    obtain ⟨entry', hentry', husable'⟩ := (mem_given (hones m hm) (hall m hm) k sa').mp hsa'
    exact hones m hm entry hentry entry' hentry' k sa sa' husable husable'.key husable'.located
  · exact (mem_given (hones m hm) (hall m hm) k sa).mpr ⟨entry, hentry, husable⟩
  · obtain ⟨out, hout⟩ := (@updated_all surroundings localHasIpv6 fromBase64 (peerTracker, []) _
      (hones m hm) (hall m hm)).1
    refine ⟨out.1, out.2, hout, ?_⟩
    rw [updated_ok hout]
    exact List.mem_map_of_mem hp

theorem independent_of_not_usable
    (h : ∀ entry ∈ newEndpoints.entries, ∀ k sa,
      ¬ Usable surroundings localHasIpv6 fromBase64 peerTracker entry k sa) :
    Independent surroundings fromBase64 peerTracker localHasIpv6 newEndpoints := by
  have hnone (m : HashMap String WireplugEndpoint) (hm : m.entries.Perm newEndpoints.entries) :
      given surroundings fromBase64 peerTracker localHasIpv6 m = [] :=
    @updated_unusable surroundings localHasIpv6 fromBase64 (peerTracker, []) _
      fun entry hentry ↦ h entry (hm.mem_iff.mp hentry)
  have hself := hnone newEndpoints (List.Perm.refl _)
  refine ⟨fun m hm p ↦ ?_, fun m hm k ↦ ?_, fun m hm entry hentry k sa husable ↦ ?_,
    fun m hm p hp ↦ ?_⟩
  · rw [hnone m hm, hself]
  · rw [hnone m hm, hself]
  · exact (h entry (hm.mem_iff.mp hentry) k sa husable).elim
  · rw [hnone m hm] at hp
    cases hp

theorem exists_order_of_fails (hentry : entry ∈ newEndpoints.entries)
    (h : Fails surroundings localHasIpv6 fromBase64 peerTracker entry) :
    ∃ m : HashMap String WireplugEndpoint, m.entries.Perm newEndpoints.entries ∧
      given surroundings fromBase64 peerTracker localHasIpv6 m = [] := by
  obtain ⟨before, later, heq⟩ := List.append_of_mem hentry
  have hperm : (entry :: (before ++ later)).Perm newEndpoints.entries := by
    rw [heq]
    exact List.perm_middle.symm
  have hnodup := ((hperm.map Prod.fst).nodup_iff).mpr newEndpoints.nodup
  obtain ⟨t, e, hupdated, ht⟩ := @updated_fails surroundings localHasIpv6 fromBase64
    (peerTracker, []) entry (before ++ later) h
  refine ⟨⟨entry :: (before ++ later), hnodup⟩, hperm, ?_⟩
  have htrace : (updating surroundings fromBase64 peerTracker localHasIpv6
      ⟨entry :: (before ++ later), hnodup⟩).1 = t := congrArg Prod.fst hupdated
  rw [given, htrace, ht]

/-- If peers are updated independently, the tracker ends with what any of the entries says. -/
theorem Independent.current (h : Independent surroundings fromBase64 peerTracker localHasIpv6
      newEndpoints) {entry₀ : String × WireplugEndpoint} (hentry₀ : entry₀ ∈ newEndpoints.entries)
    (husable : ∃ k sa, Usable surroundings localHasIpv6 fromBase64 peerTracker entry₀ k sa)
    (hentry : entry ∈ newEndpoints.entries) (hkey : fromBase64 entry.1 = some k)
    (hlocated : Located surroundings localHasIpv6 entry.2 sa) :
    ∃ info, (peerTracker.setEndpoints (given surroundings fromBase64 peerTracker localHasIpv6
      newEndpoints)).peers.get? k = some info ∧ info.currentEndpoint = some sa := by
  obtain ⟨before, later, heq⟩ := List.append_of_mem hentry
  have hperm : (before ++ later ++ [entry]).Perm newEndpoints.entries := by
    rw [heq]
    exact (List.perm_append_singleton entry (before ++ later)).trans List.perm_middle.symm
  have hnodup := ((hperm.map Prod.fst).nodup_iff).mpr newEndpoints.nodup
  obtain ⟨k₀, sa₀, husable⟩ := husable
  have hgiven := h.noneLeftOut ⟨_, hnodup⟩ hperm entry₀ (hperm.mem_iff.mpr hentry₀) k₀ sa₀ husable
  obtain ⟨peerTracker', peersUpdated, hupdated, -⟩ := h.reported ⟨_, hnodup⟩ hperm _ hgiven
  have hsettled := @updated_last surroundings localHasIpv6 fromBase64 (peerTracker, []) entry
    (before ++ later) _ hupdated
  have htracker := congrArg Prod.fst
    (@updated_ok surroundings localHasIpv6 fromBase64 (peerTracker, []) _ _ hupdated)
  obtain ⟨info, hinfo, hcurrent⟩ := hsettled.current hkey hlocated
  refine ⟨info, ?_, hcurrent⟩
  rw [← h.sameTracker ⟨_, hnodup⟩ hperm k, ← hinfo]
  exact congrArg (fun peerTracker : PeerTracker ↦ peerTracker.peers.get? k) htracker.symm

/-- The tracker that a successful `update_peers` returns is that of the endpoints given, and peers
are updated independently exactly if no entry of the response fails and no peer with a usable entry
has another address in the response, or none of the entries is usable. -/
theorem updates_independent_iff (peerTracker : PeerTracker)
    (newEndpoints : HashMap String WireplugEndpoint) :
    (∀ peerTracker' peersUpdated,
      (updating surroundings fromBase64 peerTracker localHasIpv6 newEndpoints).2 =
          .ok (peerTracker', peersUpdated) →
        peerTracker' = peerTracker.setEndpoints
          (given surroundings fromBase64 peerTracker localHasIpv6 newEndpoints)) ∧
      (Independent surroundings fromBase64 peerTracker localHasIpv6 newEndpoints ↔
        (∀ entry ∈ newEndpoints.entries,
          ¬ Fails surroundings localHasIpv6 fromBase64 peerTracker entry) ∧
            OneAddress surroundings localHasIpv6 fromBase64 peerTracker newEndpoints.entries ∨
        ∀ entry ∈ newEndpoints.entries, ∀ k sa,
          ¬ Usable surroundings localHasIpv6 fromBase64 peerTracker entry k sa) := by
  refine ⟨fun peerTracker' peersUpdated h ↦ ?_, fun h ↦ ?_, fun h ↦ ?_⟩
  · exact congrArg Prod.fst (@updated_ok surroundings localHasIpv6 fromBase64 (peerTracker, []) _ _ h)
  · by_cases hnone : ∀ entry ∈ newEndpoints.entries, ∀ k sa,
        ¬ Usable surroundings localHasIpv6 fromBase64 peerTracker entry k sa
    · exact .inr hnone
    refine .inl ⟨fun entry hentry hfails ↦ ?_,
      fun entry hentry entry' hentry' k sa sa' husable hkey hlocated ↦ ?_⟩
    · simp only [not_forall, not_not] at hnone
      obtain ⟨entry', hentry', k, sa, husable⟩ := hnone
      obtain ⟨m, hm, hempty⟩ := exists_order_of_fails hentry hfails
      have hgiven := h.noneLeftOut m hm entry' (hm.mem_iff.mpr hentry') k sa husable
      rw [hempty] at hgiven
      cases hgiven
    · obtain ⟨info, hinfo, hcurrent⟩ :=
        h.current hentry ⟨k, sa, husable⟩ hentry husable.key husable.located
      obtain ⟨info', hinfo', hcurrent'⟩ := h.current hentry ⟨k, sa, husable⟩ hentry' hkey hlocated
      cases hinfo.symm.trans hinfo'
      exact Option.some.inj (hcurrent'.symm.trans hcurrent)
  · rcases h with ⟨h, hone⟩ | h
    · exact independent_of_not_fails hone h
    · exact independent_of_not_usable h

end Orders

def obligingAnswers : (e : ClientEffect) → e.Answer
  | .getBoth | .getIp64OverHttps => (some homeIp, none)
  | .getLanAddrs => .ok [homeLan]
  | .checked _ | .sleep _ => ()
  | .getRandomPort => drawn
  | .detectKind _ => .ok .easy
  | .now => 0
  | .deviceGet _ => .ok (wgDevice [])
  | .updatePort _ | .setEndpoint _ _ | .connect => .ok ()
  | .sendAnnouncement _ => .error .outdated
  | .resolveRelay _ => .ok none

def pairTracker : PeerTracker :=
  ⟨(HashMap.empty.insert (.filled 2) ⟨none, 0⟩).insert (.filled 3) ⟨none, 0⟩⟩

def ipv6OnlyEntry : String × WireplugEndpoint :=
  ((Key.filled 2).toBase64, .remoteNetwork none (some ⟨.replicate 16 1⟩) 51820)

def ipv4Entry : String × WireplugEndpoint :=
  ((Key.filled 3).toBase64, .remoteNetwork (some homeIp) none 51820)

theorem filled_toBase64_ne : (Key.filled 2).toBase64 ≠ (Key.filled 3).toBase64 := by
  intro h
  have hkeys := toBase64_injective h
  revert hkeys
  decide

def pairResponse (endpoint : WireplugEndpoint) : HashMap String WireplugEndpoint where
  entries := [((Key.filled 2).toBase64, endpoint), ipv4Entry]
  nodup := by simpa [ipv4Entry] using filled_toBase64_ne

def ipv6OnlyLast : HashMap String WireplugEndpoint where
  entries := [ipv4Entry, ipv6OnlyEntry]
  nodup := by simpa [ipv4Entry, ipv6OnlyEntry] using filled_toBase64_ne.symm

theorem usable_ipv4Entry : Usable obligingAnswers false strictBase64 pairTracker ipv4Entry
    (.filled 3) (.new (.v4 homeIp) 51820) := by
  refine ⟨strictBase64_toBase64 _, .remoteIpv4 rfl, ⟨⟨none, 0⟩, ?_, by simp⟩, rfl⟩
  simp [pairTracker]

theorem fails_ipv6OnlyEntry (peerTracker : PeerTracker) :
    Fails obligingAnswers false strictBase64 peerTracker ipv6OnlyEntry :=
  .noAddress (strictBase64_toBase64 _) ⟨rfl, rfl⟩

theorem pairResponse_onePerPeer (endpoint : WireplugEndpoint) :
    OnePerPeer strictBase64 (pairResponse endpoint).entries := by
  rw [OnePerPeer, pairResponse, List.pairwise_pair, ipv4Entry]
  intro k hk hk'
  rw [strictBase64_toBase64] at hk hk'
  cases hk
  cases hk'

theorem updates_independent_iff_unknown :
    Independent obligingAnswers strictBase64 pairTracker false (pairResponse .unknown) := by
  refine (updates_independent_iff pairTracker (pairResponse .unknown)).2.mpr
    (.inl ⟨fun entry hentry hfails ↦ ?_, (pairResponse_onePerPeer _).oneAddress _⟩)
  simp only [pairResponse, List.mem_cons, List.not_mem_nil, or_false] at hentry
  rcases hentry with rfl | rfl
  · cases hfails with
    | noAddress _ hno => exact hno
    | untracked _ hlocated | refused _ hlocated => cases hlocated
  · exact usable_ipv4Entry.not_fails hfails

/-- One peer can only be reached over IPv6, which we lack. If the response begins with it, the
other peer gets no endpoint; otherwise the caller does not learn that it got one. -/
theorem ipv6_only_peer_blocks :
    given obligingAnswers strictBase64 pairTracker false (pairResponse ipv6OnlyEntry.2) = [] ∧
      given obligingAnswers strictBase64 pairTracker false ipv6OnlyLast =
        [(.filled 3, .new (.v4 homeIp) 51820)] ∧
      (∃ e, (updating obligingAnswers strictBase64 pairTracker false ipv6OnlyLast).2 =
        .error e) ∧
      ¬ Independent obligingAnswers strictBase64 pairTracker false
        (pairResponse ipv6OnlyEntry.2) := by
  have hfirst : given obligingAnswers strictBase64 pairTracker false
      (pairResponse ipv6OnlyEntry.2) = [] := by
    obtain ⟨t, e, hupdated, ht⟩ := @updated_fails obligingAnswers false strictBase64
      (pairTracker, []) ipv6OnlyEntry [ipv4Entry] (fails_ipv6OnlyEntry pairTracker)
    have htrace : (updating obligingAnswers strictBase64 pairTracker false
      (pairResponse ipv6OnlyEntry.2)).1 = t := congrArg Prod.fst hupdated
    rw [given, htrace, ht]
  have hlast : given obligingAnswers strictBase64 pairTracker false ipv6OnlyLast =
      [(.filled 3, .new (.v4 homeIp) 51820)] ∧
        ∃ e, (updating obligingAnswers strictBase64 pairTracker false ipv6OnlyLast).2 =
          .error e := by
    obtain ⟨t, ht, hupdated⟩ := @updated_usable obligingAnswers false strictBase64
      (pairTracker, []) ipv4Entry _ _ [ipv6OnlyEntry] usable_ipv4Entry
    obtain ⟨u, e, hrest, hu⟩ := @updated_fails obligingAnswers false strictBase64
      (pairTracker.setEndpoint (.filled 3) (.new (.v4 homeIp) 51820), [.filled 3]) ipv6OnlyEntry []
      (fails_ipv6OnlyEntry _)
    rw [List.nil_append, hrest] at hupdated
    have hupdating : updating obligingAnswers strictBase64 pairTracker false ipv6OnlyLast =
      (t ++ u, .error e) := hupdated
    rw [given, hupdating, applied_append, ht, hu]
    exact ⟨rfl, e, rfl⟩
  refine ⟨hfirst, hlast.1, hlast.2, fun h ↦ ?_⟩
  have hsame := h.samePeers ipv6OnlyLast (List.Perm.swap _ _ _)
    (.filled 3, .new (.v4 homeIp) 51820)
  rw [hfirst, hlast.1] at hsame
  cases hsame.mp (List.mem_singleton.mpr rfl)

end Wireplug
