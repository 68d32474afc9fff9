import Wireplug.Session

namespace Wireplug

open Foundation Foundation.Program Postcard ByteStream

abbrev ClientProgram := Program ByteStream.Answer (Except AnnounceError WireplugResponse)

/-- A client in the middle of `send_announcement`. The server sees it at `addr`. -/
structure NetworkClient where
  addr : SocketAddr
  program : ClientProgram

structure Network where
  server : ServerConfig
  clients : ℕ → Option NetworkClient
  toServer : ℕ → Pipe
  toClient : ℕ → Pipe

def Network.start : Network :=
  ⟨.start .new, fun _ ↦ none, fun _ ↦ .empty, fun _ ↦ .empty⟩

def Network.setPipes (n : Network) (i : ℕ) (toServer toClient : Pipe) : Network :=
  { n with
    toServer := Function.update n.toServer i toServer
    toClient := Function.update n.toClient i toClient }

inductive NetworkLabel where
  | connects (i : ℕ) (addr : SocketAddr) (a : WireplugAnnouncement)
  | injects (i : ℕ) (bytes : Bytes)
  | sends (i : ℕ) (e : ByteStream.Effect) (r : ByteStream.Answer e)
  | serves (l : ServerLabel)

/-- A connection may also be opened by something that is no client. Nothing is
known about what it sends. -/
inductive NetworkStep : Network → NetworkLabel → Network → Prop
  | connects {n : Network} {i : ℕ} (addr : SocketAddr) (a : WireplugAnnouncement)
      (hclient : n.clients i = none) (hthread : n.server.threads i = none)
      (hserver : n.toServer i = .empty) (hpipe : n.toClient i = .empty) :
      NetworkStep n (.connects i addr a)
        { n with clients := Function.update n.clients i (some ⟨addr, (sendAnnouncement a).run⟩) }
  | injects {n : Network} {i : ℕ} (bytes : Bytes) (hclient : n.clients i = none) :
      NetworkStep n (.injects i bytes) (n.setPipes i ((n.toServer i).put bytes) (n.toClient i))
  | sends {n : Network} {i : ℕ} {addr : SocketAddr} {e : ByteStream.Effect}
      {k : ByteStream.Answer e → ClientProgram} {r : ByteStream.Answer e} {input output : Pipe}
      (hclient : n.clients i = some ⟨addr, .call e k⟩)
      (htransfers : Transfers e r (n.toClient i, n.toServer i) (input, output)) :
      NetworkStep n (.sends i e r) { n.setPipes i output input with
        clients := Function.update n.clients i (some ⟨addr, k r⟩) }
  | streams {n : Network} {i : ℕ} {e : ByteStream.Effect} {r : ByteStream.Answer e}
      {server' : ServerConfig} {input output : Pipe}
      (hserver : server.Step n.server (.called i (.stream e) r) server')
      (htransfers : Transfers e r (n.toServer i, n.toClient i) (input, output)) :
      NetworkStep n (.serves (.called i (.stream e) r))
        { n.setPipes i input output with server := server' }
  | serves {n : Network} {l : ServerLabel} {server' : ServerConfig}
      (hserver : server.Step n.server l server') (hl : ∀ i e r, l ≠ .called i (.stream e) r)
      (haddr : ∀ i addr, l = .opened i addr → ∀ client, n.clients i = some client →
        client.addr = addr) :
      NetworkStep n (.serves l) { n with server := server' }

inductive NetworkRun : List NetworkLabel → Network → Prop
  | start : NetworkRun [] .start
  | snoc {ls : List NetworkLabel} {l : NetworkLabel} {n n' : Network} :
      NetworkRun ls n → NetworkStep n l n' → NetworkRun (ls ++ [l]) n'

/-- What the server does in a run. -/
def served (ls : List NetworkLabel) : List ServerLabel :=
  ls.filterMap fun
    | .serves l => some l
    | _ => none

theorem served_append (ls ms : List NetworkLabel) :
    served (ls ++ ms) = served ls ++ served ms := List.filterMap_append

variable {ls : List NetworkLabel} {l : NetworkLabel} {n n' : Network} {i : ℕ}
  {a : WireplugAnnouncement} {addr : SocketAddr} {t : ServerTrace}

theorem NetworkRun.server (h : NetworkRun ls n) :
    server.Run (ServerConfig.start .new) (served ls) n.server := by
  induction h with
  | start => exact .nil
  | snoc _ hstep ih =>
    rw [served_append]
    cases hstep with
    | connects | injects | sends => rwa [show served [_] = [] from rfl, List.append_nil]
    | streams hserver htransfers => exact .snoc ih hserver
    | serves hserver hl haddr => exact .snoc ih hserver

theorem answers_stream (s : ServerState) (i : ℕ) {e : ByteStream.Effect} {r : ByteStream.Answer e}
    (h : Full ⟨e, r⟩) : ServerAnswers s i (.stream e) r s := by
  cases e with
  | readExact n =>
    cases r with
    | error e => exact .readError s i n e
    | ok bytes =>
      have hbytes : bytes.length = n := h
      subst hbytes
      exact .readExact s i bytes
  | writeAll bytes => exact .writeAll s i bytes r
  | shutdown => exact .shutdown s i r

abbrev ServerProgram := Program ServerEffect.Answer (Except ServerError Unit)

/-- A client at `addr` announces `a` to a thread of the server that has called `t`. -/
structure InSession (a : WireplugAnnouncement) (addr : SocketAddr) (client : Option NetworkClient)
    (thread : Option ServerProgram) (toServer toClient : Pipe) (t : ServerTrace) : Prop where
  client : ∃ p u, client = some ⟨addr, p⟩ ∧ p.Ensures anyFull (ClientCalls a) ClientEnds u ∧
    Endpoint u toClient toServer
  thread : (thread = none ∧ t = []) ∨ ∃ p, thread = some p ∧
    p.Ensures (Hears (announcedText a)) (SessionCalls a addr) (SessionEnds a addr) t
  endpoint : Endpoint (streamed t) toServer toClient
  announced : toServer.sent <+: announcedText a
  responded : toClient.sent = [] ∨ ∃ m, LookedUp a addr m t ∧
    (encodeResponse ⟨m⟩).length < 2 ^ 32 ∧ toClient.sent <+: frame (encodeResponse ⟨m⟩)
  stored : ∀ b source now, ⟨.insertRecords b source, now⟩ ∈ t → b = a ∧ addr.ip = .v4 source ∧
    ∃ m, LookedUp a addr m t ∧ toClient.sent = frame (encodeResponse ⟨m⟩)

theorem inSession_start (a : WireplugAnnouncement) (addr : SocketAddr) :
    InSession a addr (some ⟨addr, (sendAnnouncement a).run⟩) none .empty .empty [] where
  client := ⟨_, [], rfl, sendAnnouncement_ensures a, endpoint_nil⟩
  thread := .inl ⟨rfl, rfl⟩
  endpoint := endpoint_nil
  announced := List.nil_prefix
  responded := .inl rfl
  stored := by
    intro b source now h
    cases h

namespace InSession

variable {client : Option NetworkClient} {thread : Option ServerProgram}
  {toServer toClient input output : Pipe}

theorem sends {addr' : SocketAddr} {e : ByteStream.Effect} {r : ByteStream.Answer e}
    {k : ByteStream.Answer e → ClientProgram}
    (h : InSession a addr (some ⟨addr', .call e k⟩) thread toServer toClient t)
    (htransfers : Transfers e r (toClient, toServer) (input, output)) :
    InSession a addr (some ⟨addr', k r⟩) thread output input t := by
  obtain ⟨p, u, hclient, hensures, hendpoint⟩ := h.client
  cases hclient
  obtain ⟨hcalls, hnext⟩ := hensures
  refine ⟨⟨_, _, rfl, hnext r htransfers.full, hendpoint.transfers htransfers⟩, h.thread,
    h.endpoint.opposite htransfers, ?_, ?_, ?_⟩
  · exact sent_begins hendpoint h.announced
      (fun bytes he ↦ ⟨hcalls.clean, hcalls.writes bytes he⟩) htransfers
  · rw [htransfers.input_sent]
    exact h.responded
  · rw [htransfers.input_sent]
    exact h.stored

theorem responded_streams {e : ByteStream.Effect} {r : ByteStream.Answer e}
    (h : InSession a addr client thread toServer toClient t)
    (hcalls : SessionCalls a addr t (.stream e))
    (htransfers : Transfers e r (toServer, toClient) (input, output)) :
    output.sent = [] ∨ ∃ m, LookedUp a addr m (t ++ [⟨.stream e, r⟩]) ∧
      (encodeResponse ⟨m⟩).length < 2 ^ 32 ∧ output.sent <+: frame (encodeResponse ⟨m⟩) := by
  have hlater {m : HashMap String WireplugEndpoint} (hlooked : LookedUp a addr m t) :
      LookedUp a addr m (t ++ [⟨.stream e, r⟩]) := hlooked.snoc fun _ _ ↦ ServerEffect.noConfusion
  rcases h.responded with hnothing | ⟨m, hlooked, hlen, hbegins⟩
  · cases e with
    | writeAll bytes =>
      obtain ⟨m, hlooked, hlen, hwritten⟩ := hcalls.writes bytes rfl
      refine .inr ⟨m, hlater hlooked, hlen,
        sent_begins h.endpoint ?_ (fun bytes' he ↦ ?_) htransfers⟩
      · rw [hnothing]
        exact List.nil_prefix
      · cases he
        exact ⟨hcalls.clean, hwritten⟩
    | readExact | shutdown =>
      refine .inl (List.prefix_nil.mp (sent_begins h.endpoint ?_ (fun bytes he ↦ ?_) htransfers))
      · exact hnothing ▸ List.prefix_rfl
      · cases he
  · refine .inr ⟨m, hlater hlooked, hlen,
      sent_begins h.endpoint hbegins (fun bytes he ↦ ⟨hcalls.clean, ?_⟩) htransfers⟩
    obtain ⟨m', hlooked', -, hwritten⟩ := hcalls.writes bytes (congrArg _ he)
    rwa [hlooked'.unique hlooked] at hwritten

theorem stored_streams {e : ByteStream.Effect} {r : ByteStream.Answer e}
    (h : InSession a addr client thread toServer toClient t)
    (hcalls : SessionCalls a addr t (.stream e))
    (htransfers : Transfers e r (toServer, toClient) (input, output)) {b : WireplugAnnouncement}
    {source : Ipv4Addr} {now : ℕ → SystemTime}
    (hmem : ⟨.insertRecords b source, now⟩ ∈ t ++ [⟨.stream e, r⟩]) :
    b = a ∧ addr.ip = .v4 source ∧ ∃ m, LookedUp a addr m (t ++ [⟨.stream e, r⟩]) ∧
      output.sent = frame (encodeResponse ⟨m⟩) := by
  have hbefore : ⟨.insertRecords b source, now⟩ ∈ t := by
    rcases List.mem_append.mp hmem with hmem | hmem
    · exact hmem
    · cases List.mem_singleton.mp hmem
  obtain ⟨rfl, hsource, m, hlooked, hsent⟩ := h.stored b source now hbefore
  have hlater : LookedUp b addr m (t ++ [⟨.stream e, r⟩]) :=
    hlooked.snoc fun _ _ ↦ ServerEffect.noConfusion
  have hgrown : frame (encodeResponse ⟨m⟩) <+: output.sent := hsent ▸ htransfers.sent_le
  refine ⟨rfl, hsource, m, hlater, ?_⟩
  rcases h.responded_streams hcalls htransfers with hnothing | ⟨m', hlooked', -, hbegins⟩
  · rw [hnothing] at hgrown ⊢
    exact (List.prefix_nil.mp hgrown).symm
  · rw [hlooked'.unique hlater] at hbegins
    exact hbegins.eq_of_length_le hgrown.length_le

theorem streams {e : ByteStream.Effect} {r : ByteStream.Answer e}
    {k : ByteStream.Answer e → ServerProgram}
    (h : InSession a addr client (some (.call (.stream e) k)) toServer toClient t)
    (htransfers : Transfers e r (toServer, toClient) (input, output)) :
    InSession a addr client (some (k r)) input output (t ++ [⟨.stream e, r⟩]) := by
  rcases h.thread with ⟨hnone, -⟩ | ⟨p, hthread, hensures⟩
  · cases hnone
  cases hthread
  obtain ⟨hcalls, hnext⟩ := hensures
  have hhears : Hears (announcedText a) t (.stream e) r := by
    intro ev hev
    cases List.mem_singleton.mp hev
    exact h.endpoint.readsFrom hcalls.clean h.announced htransfers
  obtain ⟨p, u, hclient, hrest, hendpoint⟩ := h.client
  refine ⟨⟨p, u, hclient, hrest, hendpoint.opposite htransfers⟩, .inr ⟨_, rfl, hnext r hhears⟩, ?_,
    ?_, h.responded_streams hcalls htransfers, fun _ _ _ ↦ h.stored_streams hcalls htransfers⟩
  · rw [streamed_stream]
    exact h.endpoint.transfers htransfers
  · rw [htransfers.input_sent]
    exact h.announced

theorem lookedUp_calls {e : ServerEffect} {r : e.Answer} {m : HashMap String WireplugEndpoint}
    (hcalls : SessionCalls a addr t e) (hlooked : LookedUp a addr m t) :
    LookedUp a addr m (t ++ [⟨e, r⟩]) := by
  refine hlooked.snoc fun b addr' hlookup ↦ ?_
  have hmem : ⟨.getPeerEndpoints a addr, m⟩ ∈ t := (hlooked a addr m).mpr ⟨rfl, rfl, rfl⟩
  obtain ⟨e', he'⟩ := (hcalls.looks_up b addr' hlookup).2.2 _ hmem
  cases he'

theorem calls {e : ServerEffect} {r : e.Answer} {k : e.Answer → ServerProgram}
    (he : ∀ e', e ≠ .stream e')
    (h : InSession a addr client (some (.call e k)) toServer toClient t) :
    InSession a addr client (some (k r)) toServer toClient (t ++ [⟨e, r⟩]) := by
  have hquiet : streamed [⟨e, r⟩] = [] := by
    cases e with
    | stream e' => exact (he e' rfl).elim
    | getPeerEndpoints | insertRecords | incRelaysNeeded => rfl
  have hstreamed : streamed (t ++ [⟨e, r⟩]) = streamed t := by
    rw [streamed_append, hquiet, List.append_nil]
  rcases h.thread with ⟨hnone, -⟩ | ⟨p, hthread, hensures⟩
  · cases hnone
  cases hthread
  obtain ⟨hcalls, hnext⟩ := hensures
  refine ⟨h.client, .inr ⟨_, rfl, hnext r fun ev hev ↦ ?_⟩, ?_, h.announced, ?_, ?_⟩
  · rw [hquiet] at hev
    cases hev
  · rw [hstreamed]
    exact h.endpoint
  · refine h.responded.imp id fun hresponded ↦ ?_
    obtain ⟨m, hlooked, hrest⟩ := hresponded
    exact ⟨m, lookedUp_calls hcalls hlooked, hrest⟩
  · intro b source now hmem
    rcases List.mem_append.mp hmem with hmem | hmem
    · obtain ⟨hb, hsource, m, hlooked, hsent⟩ := h.stored b source now hmem
      exact ⟨hb, hsource, m, lookedUp_calls hcalls hlooked, hsent⟩
    · cases List.mem_singleton.mp hmem
      obtain ⟨hb, hsource, hclean, m, hlooked, -, hwritten⟩ := hcalls.stores b source rfl
      exact ⟨hb, hsource, m, lookedUp_calls hcalls hlooked,
        (h.endpoint.written hclean).symm.trans hwritten⟩

theorem opened (h : InSession a addr client none toServer toClient t) :
    InSession a addr client (some (handleConnection addr).run) toServer toClient t := by
  rcases h.thread with ⟨-, rfl⟩ | ⟨p, hthread, -⟩
  · exact ⟨h.client, .inr ⟨_, rfl, handleConnection_session a addr⟩, h.endpoint, h.announced,
      h.responded, h.stored⟩
  · cases hthread

end InSession

abbrev Network.Connected (n : Network) (i : ℕ) (a : WireplugAnnouncement) (addr : SocketAddr)
    (t : ServerTrace) : Prop :=
  InSession a addr (n.clients i) (n.server.threads i) (n.toServer i) (n.toClient i) t

theorem connected_served {l : ServerLabel} {server' : ServerConfig}
    (h : n.Connected i a addr t) (hserver : server.Step n.server l server')
    (hl : ∀ i e r, l ≠ .called i (.stream e) r)
    (haddr : ∀ i addr, l = .opened i addr → ∀ client, n.clients i = some client →
      client.addr = addr) :
    { n with server := server' }.Connected i a addr (t ++ System.calls i [l]) := by
  cases hserver with
  | @opened j d hfree =>
    rw [show System.calls i [.opened j d] = [] from rfl, List.append_nil]
    by_cases hj : j = i
    · subst hj
      obtain ⟨p, u, hclient, -⟩ := h.client
      obtain rfl : addr = d := haddr j d rfl _ hclient
      rw [Network.Connected, hfree] at h
      have hopened : server.program addr = (handleConnection addr).run := rfl
      simpa only [Network.Connected, Function.update_self, hopened] using h.opened
    · simpa only [Network.Connected, Function.update_of_ne (Ne.symm hj)] using h
  | @called j e k r s hthread hs =>
    by_cases hj : j = i
    · subst hj
      rw [Network.Connected, hthread] at h
      rw [System.calls_self]
      simpa only [Network.Connected, Function.update_self] using h.calls fun e' he ↦ by
        subst he
        exact hl j e' r rfl
    · rw [System.calls_other hj, List.append_nil]
      simpa only [Network.Connected, Function.update_of_ne (Ne.symm hj)] using h
  | @happened b s hs =>
    rw [show System.calls i [.happened b] = [] from rfl, List.append_nil]
    exact h

theorem connected_step (h : n.Connected i a addr t) (hstep : NetworkStep n l n') :
    n'.Connected i a addr (t ++ System.calls i (served [l])) := by
  obtain ⟨p, u, hclient, -⟩ := h.client
  cases hstep with
  | @connects j addr' a' hnew =>
    have hj : i ≠ j := by
      rintro rfl
      cases hclient.symm.trans hnew
    rw [show served [_] = [] from rfl, show System.calls i [] = [] from rfl, List.append_nil]
    simpa only [Network.Connected, Function.update_of_ne hj] using h
  | @injects j bytes hnew =>
    have hj : i ≠ j := by
      rintro rfl
      cases hclient.symm.trans hnew
    rw [show served [_] = [] from rfl, show System.calls i [] = [] from rfl, List.append_nil]
    simpa only [Network.Connected, Network.setPipes, Function.update_of_ne hj] using h
  | @sends j addr' e k r input output hcall htransfers =>
    rw [show served [_] = [] from rfl, show System.calls i [] = [] from rfl, List.append_nil]
    by_cases hj : i = j
    · subst hj
      rw [Network.Connected, hcall] at h
      simpa only [Network.Connected, Network.setPipes, Function.update_self]
        using h.sends htransfers
    · simpa only [Network.Connected, Network.setPipes, Function.update_of_ne hj] using h
  | @streams j e r server' input output hserver htransfers =>
    cases hserver with
    | @called _ _ k _ s hthread hs =>
      by_cases hj : i = j
      · subst hj
        rw [Network.Connected, hthread] at h
        rw [show served [_] = [_] from rfl, System.calls_self]
        simpa only [Network.Connected, Network.setPipes, Function.update_self] using
          h.streams htransfers
      · rw [show served [_] = [_] from rfl, System.calls_other (Ne.symm hj), List.append_nil]
        simpa only [Network.Connected, Network.setPipes, Function.update_of_ne hj] using h
  | serves hserver hl haddr => exact connected_served h hserver hl haddr

theorem NetworkRun.connected (h : NetworkRun ls n) (hconnects : .connects i addr a ∈ ls) :
    n.Connected i a addr (System.calls i (served ls)) := by
  induction h with
  | start => cases hconnects
  | @snoc ls l n n' h hstep ih =>
    rw [served_append, System.calls_append]
    rcases List.mem_append.mp hconnects with hbefore | hlast
    · exact connected_step (ih hbefore) hstep
    · cases List.mem_singleton.mp hlast
      cases hstep with
      | connects _ _ hclient hthread hserver hpipe =>
        have hverified := connection_verified h.server i
        rw [hthread] at hverified
        rw [hverified.1, List.nil_append, show served [_] = [] from rfl,
          show System.calls i [] = [] from rfl]
        simpa only [Network.Connected, Function.update_self, hthread, hserver, hpipe] using
          inSession_start a addr

end Wireplug
