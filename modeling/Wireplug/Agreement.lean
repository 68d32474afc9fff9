import Wireplug.Completion

namespace Wireplug

open Foundation Foundation.Program Postcard ByteStream

variable {ls : List NetworkLabel} {n : Network} {i : ℕ} {a : WireplugAnnouncement}
  {addr : SocketAddr} {t : ServerTrace}

theorem response_of_session {client : Option NetworkClient} {thread : Option ServerProgram}
    {toServer toClient : Pipe} {response : WireplugResponse}
    (h : InSession a addr client thread toServer toClient t)
    (hclient : client = some ⟨addr, .done (.ok response)⟩) :
    ∃ m, LookedUp a addr m t ∧ response.peerEndpoints.Equiv m := by
  obtain ⟨p, u, hp, hends, hendpoint⟩ := h.client
  rw [hclient] at hp
  cases hp
  obtain ⟨hclean, length, payload, hlength, hpayload, hfits, hdecode, hread⟩ :=
    hends.read response rfl
  have hbegins : bytesRead u <+: toClient.sent := hendpoint.read_begins hclean
  rw [hread] at hbegins
  rcases h.responded with hnothing | ⟨m, hlooked, hlen, hsent⟩
  · rw [hnothing, List.prefix_nil] at hbegins
    cases hbegins
  · obtain ⟨-, hsize, hbody⟩ := parts_of_frame rfl hlength (hbegins.trans hsent)
    rw [hsize, fromLE_toLE hlen] at hpayload
    obtain rfl := hbody.eq_of_length hpayload
    obtain ⟨m', hequiv, hdec⟩ := decodes_response m (.refl _) (Nat.lt_trans hlen (by decide))
    refine ⟨m, hlooked, ?_⟩
    rw [encodeResponse, fromBytes_of_decodes hdec] at hdecode
    cases hdecode
    exact hequiv

/-- What a client is told by a server that has done `before`. -/
structure Told (before : List ServerLabel) (a : WireplugAnnouncement) (addr : SocketAddr)
    (response : WireplugResponse) : Prop where
  keys : ∀ peer, peer ∈ response.peerEndpoints.keys ↔ peer ∈ a.peerPubkeys
  endpoints : ∀ peer ∈ a.peerPubkeys,
    ((∀ b source, ¬ LastStored before peer a.initiatorPubkey b source) ∧
        response.peerEndpoints.get? peer = some .unknown) ∨
      ∃ b source, LastStored before peer a.initiatorPubkey b source ∧
        response.peerEndpoints.get? peer = some (directEndpoint b source addr)

theorem told_of_lookup {before after : List ServerLabel} {c : ServerConfig}
    {m : HashMap String WireplugEndpoint} {response : WireplugResponse}
    (h : server.Run (ServerConfig.start .new)
      (before ++ .called i (.getPeerEndpoints a addr) m :: after) c)
    (hequiv : response.peerEndpoints.Equiv m) : Told before a addr response := by
  obtain ⟨s, s', hbefore, hstep, -⟩ := h.split_at
  cases hstep with
  | called _ hlookup =>
    constructor
    · intro peer
      rw [HashMap.mem_keys, hequiv peer, ← HashMap.mem_keys, mem_keys_lookup hlookup]
    · intro peer hpeer
      rw [hequiv peer, get?_lookup hlookup, if_pos hpeer]
      simpa only [Option.some.injEq] using lookupEndpoint_eq hbefore addr

theorem told_of_session (h : NetworkRun ls n) (hconnects : .connects i addr a ∈ ls)
    {response : WireplugResponse} (hclient : n.clients i = some ⟨addr, .done (.ok response)⟩)
    {before after : List ServerLabel} {m : HashMap String WireplugEndpoint}
    (hserved : served ls = before ++ .called i (.getPeerEndpoints a addr) m :: after) :
    Told before a addr response := by
  obtain ⟨m', hlooked, hequiv⟩ := response_of_session (h.connected hconnects) hclient
  have hmem : .called i (.getPeerEndpoints a addr) m ∈ served ls := by
    rw [hserved]
    exact List.mem_append_right _ List.mem_cons_self
  obtain ⟨-, -, rfl⟩ := (hlooked a addr m).mp (System.mem_calls.mpr hmem)
  have hrun := h.server
  rw [hserved] at hrun
  exact told_of_lookup hrun hequiv

theorem lookup_of_session (h : NetworkRun ls n) (hconnects : .connects i addr a ∈ ls)
    {response : WireplugResponse} (hclient : n.clients i = some ⟨addr, .done (.ok response)⟩) :
    ∃ before m after, served ls = before ++ .called i (.getPeerEndpoints a addr) m :: after := by
  obtain ⟨m, hlooked, -⟩ := response_of_session (h.connected hconnects) hclient
  have hmem := System.mem_calls.mp ((hlooked a addr m).mpr ⟨rfl, rfl, rfl⟩)
  obtain ⟨before, after, hserved⟩ := List.append_of_mem hmem
  exact ⟨before, m, after, hserved⟩

theorem valid_of_served (h : NetworkRun ls n) {before after : List ServerLabel}
    {m : HashMap String WireplugEndpoint}
    (hserved : served ls = before ++ .called i (.getPeerEndpoints a addr) m :: after) :
    a.valid = true := by
  have hrun := h.server
  rw [hserved] at hrun
  obtain ⟨addr', -, hcalls⟩ := connection_calls hrun
  exact (hcalls.looks_up a addr rfl).2

/-- Whatever else goes on, both ends of a connection agree: the response that a
client ends with is the server's answer to this very announcement, and what the server
stores is the announcement, from the client's address, once all of the response is out. -/
theorem session_agreement (h : NetworkRun ls n) (hconnects : .connects i addr a ∈ ls) :
    (∀ response, n.clients i = some ⟨addr, .done (.ok response)⟩ →
      ∃ before m after, served ls = before ++ .called i (.getPeerEndpoints a addr) m :: after ∧
        a.valid = true ∧ Told before a addr response) ∧
    ∀ b source now, .called i (.insertRecords b source) now ∈ served ls →
      b = a ∧ addr.ip = .v4 source ∧ ∃ m, .called i (.getPeerEndpoints a addr) m ∈ served ls ∧
        (n.toClient i).sent = frame (encodeResponse ⟨m⟩) := by
  refine ⟨fun response hclient ↦ ?_, fun b source now hmem ↦ ?_⟩
  · obtain ⟨before, m, after, hserved⟩ := lookup_of_session h hconnects hclient
    exact ⟨before, m, after, hserved, valid_of_served h hserved,
      told_of_session h hconnects hclient hserved⟩
  obtain ⟨rfl, hsource, m, hlooked, hsent⟩ :=
    (h.connected hconnects).stored b source now (System.mem_calls.mpr hmem)
  exact ⟨rfl, hsource, m, System.mem_calls.mp ((hlooked b addr m).mpr ⟨rfl, rfl, rfl⟩), hsent⟩

theorem run_meeting_bare : let a := bareAnnouncement (.filled 0) (.filled 1)
    let b := bareAnnouncement (.filled 1) (.filled 0)
    let addr : SocketAddr := .v4 (.new 203 0 113 5) 51820
    let addr' : SocketAddr := .v4 (.new 198 51 100 7) 51820
    ∃ (ls : List NetworkLabel) (n : Network) (response : WireplugResponse), NetworkRun ls n ∧
      .connects 0 addr a ∈ ls ∧ .connects 1 addr' b ∈ ls ∧
      n.clients 1 = some ⟨addr', .done (.ok response)⟩ ∧
      response.peerEndpoints.get? a.initiatorPubkey =
        some (.remoteNetwork (some (.new 203 0 113 5)) none 51820) ∧
      .called 0 (.insertRecords a (.new 203 0 113 5)) (fun _ ↦ 0) ∈ served ls := by
  intro a b addr addr'
  have hlen (initiator peer : Key) :
      (encodeAnnouncement (bareAnnouncement initiator peer)).length ≤ maxMessageSize := by
    rw [bareAnnouncement_length]
    decide
  have hsource : addr.ip = .v4 (.new 203 0 113 5) := rfl
  have hsource' : addr'.ip = .v4 (.new 198 51 100 7) := rfl
  obtain ⟨ls₁, ls₂, n, response, hrun, hclient, hget, -, hstores, -⟩ := run_meeting (i := 0)
    (j := 1) (a := a) (b := b) .start (by decide) rfl rfl (bareAnnouncement_valid _ _)
    (bareAnnouncement_valid _ _) (hlen _ _) (hlen _ _) (List.mem_singleton_self _)
    (List.mem_singleton_self _) hsource hsource' (fun _ ↦ 0)
    ((encodeResponse_new_bare (.filled 0) (.filled 1) _).trans_le (by decide)) (by decide +kernel)
  refine ⟨_, n, response, hrun, by simp, by simp, hclient, hget, ?_⟩
  obtain ⟨label, hlabel, hstored⟩ := List.mem_filterMap.mp hstores
  exact List.mem_filterMap.mpr ⟨label, by simp [hlabel], hstored⟩

theorem session_agreement_met : let a := bareAnnouncement (.filled 0) (.filled 1)
    let b := bareAnnouncement (.filled 1) (.filled 0)
    let addr : SocketAddr := .v4 (.new 203 0 113 5) 51820
    let addr' : SocketAddr := .v4 (.new 198 51 100 7) 51820
    ∃ (ls : List NetworkLabel) (n : Network) (response : WireplugResponse) (before : _) (m : _)
      (after : _), n.clients 1 = some ⟨addr', .done (.ok response)⟩ ∧
        response.peerEndpoints.get? a.initiatorPubkey =
          some (.remoteNetwork (some (.new 203 0 113 5)) none 51820) ∧
        served ls = before ++ .called 1 (.getPeerEndpoints b addr') m :: after ∧
        Told before b addr' response ∧
        ∃ m', .called 0 (.getPeerEndpoints a addr) m' ∈ served ls ∧
          (n.toClient 0).sent = frame (encodeResponse ⟨m'⟩) := by
  intro a b addr addr'
  obtain ⟨ls, n, response, hrun, hfirst, hsecond, hclient, hget, hstores⟩ := run_meeting_bare
  obtain ⟨before, m, after, hserved, -, htold⟩ :=
    (session_agreement hrun hsecond).1 response hclient
  obtain ⟨-, -, hanswered⟩ := (session_agreement hrun hfirst).2 _ _ _ hstores
  exact ⟨ls, n, response, before, m, after, hclient, hget, hserved, htold, hanswered⟩

/-- A step of connection `i` in which nothing fails. -/
def NetworkLabel.Advances (i : ℕ) : NetworkLabel → Prop
  | .sends j e r => j = i ∧ Succeeds ⟨e, r⟩
  | .serves (.called j (.stream e) r) => j = i ∧ Succeeds ⟨e, r⟩
  | .serves (.called j _ _) => j = i
  | _ => False

theorem StaysIn.le_rest {u : Trace ByteStream.Answer} {input output : Pipe} {k : ℕ}
    {payload : Bytes} (h : StaysIn u k) (hendpoint : Endpoint u input output) (hclean : Clean u)
    (hsent : input.sent = frame payload) (hlen : payload.length < 2 ^ 32) :
    k ≤ input.rest.length := by
  have hread := hendpoint.read hclean
  have hbegins : bytesRead u <+: frame payload := hsent ▸ hendpoint.read_begins hclean
  have hfits := h payload hlen hbegins
  rw [hread, List.length_take_of_le input.taken_le, ← hsent] at hfits
  rw [Pipe.rest, List.length_drop]
  omega

/-- As long as the client waits, there is something left that can be done for it, unless
the server has failed or has refused the announcement. -/
theorem session_progress (h : NetworkRun ls n) (hconnects : .connects i addr a ∈ ls)
    (hvalid : a.valid = true) {e : ByteStream.Effect} {k : ByteStream.Answer e → ClientProgram}
    (hclient : n.clients i = some ⟨addr, .call e k⟩) {p : ServerProgram}
    (hthread : n.server.threads i = some p) (hp : ∀ err, p ≠ .done (.error err)) :
    ∃ l n', NetworkStep n l n' ∧ l.Advances i := by
  have hsession := h.connected hconnects
  obtain ⟨q, u, hq, hensures, hendpoint⟩ := hsession.client
  rw [hclient] at hq
  cases hq
  have hcalls : ClientCalls a u e := hensures.1
  have hsends (hbytes : ∀ k, e = .readExact k → k ≤ (n.toClient i).rest.length) :
      ∃ l n', NetworkStep n l n' ∧ l.Advances i := by
    obtain ⟨r, input, output, htransfers, hsucceeds⟩ := exists_transfers (n.toServer i) hbytes
    exact ⟨_, _, .sends hclient htransfers, rfl, hsucceeds⟩
  obtain ⟨q, hq, hensures⟩ : ∃ q, n.server.threads i = some q ∧
      q.Ensures (Hears (announcedText a)) (SessionCalls a addr) (SessionEnds a addr)
        (System.calls i (served ls)) := by
    rcases hsession.thread with ⟨hnone, -⟩ | hsome
    · cases hthread.symm.trans hnone
    · exact hsome
  cases hthread.symm.trans hq
  cases p with
  | done r =>
    cases r with
    | error err => exact (hp err rfl).elim
    | ok _ =>
      obtain ⟨⟨hclean, m, -, hlen, hwritten⟩, -⟩ := SessionEnds.stored hensures rfl hvalid
      refine hsends fun k he ↦ ?_
      exact (hcalls.reads k he).2.2.le_rest hendpoint hcalls.clean
        ((hsession.endpoint.written hclean).symm.trans hwritten) hlen
  | call e' k' =>
    obtain ⟨hserver, -⟩ := hensures
    by_cases hstream : ∃ e'', e' = .stream e''
    · obtain ⟨e'', rfl⟩ := hstream
      by_cases hread : ∃ k, e = .readExact k
      · -- a client that reads has sent all it has to say
        obtain ⟨size, rfl⟩ := hread
        obtain ⟨hlen, hwritten, -⟩ := hcalls.reads size rfl
        have hsent : (n.toServer i).sent = frame (encodeAnnouncement a) := by
          rw [← hendpoint.written hcalls.clean, hwritten, announcedText_eq hlen]
        obtain ⟨r, input, output, htransfers, hsucceeds⟩ := exists_transfers (n.toClient i)
          fun k' he ↦ (hserver.reads k' (congrArg _ he)).le_rest hsession.endpoint hserver.clean
            hsent hlen
        exact ⟨_, _, .streams (.called hthread (answers_stream _ i htransfers.full)) htransfers,
          rfl, hsucceeds⟩
      · exact hsends fun k he ↦ (hread ⟨k, he⟩).elim
    · obtain ⟨r, s, hanswer⟩ := exists_answer n.server.shared i e'
      refine ⟨.serves (.called i e' r), _, .serves (.called hthread hanswer) ?_ ?_, ?_⟩
      · intro j e'' r' heq
        cases heq
        exact hstream ⟨_, rfl⟩
      · intro j addr' heq
        cases heq
      · cases e' with
        | stream e'' => exact (hstream ⟨e'', rfl⟩).elim
        | getPeerEndpoints | insertRecords | incRelaysNeeded => rfl

theorem session_progress_waiting :
    ∃ n : Network, n.clients 0 = some ⟨.v4 (.new 203 0 113 5) 51820, readResponse.run⟩ ∧
      ∃ l n', NetworkStep n l n' ∧ l.Advances 0 := by
  have hlen := bareAnnouncement_length (.filled 0) (.filled 1)
  obtain ⟨ls, n, hrun, hclient, hserver, -⟩ := run_announced (i := 0)
    (a := bareAnnouncement (.filled 0) (.filled 1)) .start rfl (by rw [hlen]; decide)
    (.v4 (.new 203 0 113 5) 51820)
  have hthread : n.server.threads 0 = none := by
    rw [hserver]
    rfl
  have hopens := hrun.snoc (.serves (.opened (.v4 (.new 203 0 113 5) 51820) hthread) (by simp)
    fun j addr heq client hj ↦ by
      cases heq
      cases hclient.symm.trans hj
      rfl)
  have hconnects := List.mem_append_right [] (List.mem_cons_self (a := NetworkLabel.connects 0
    (.v4 (.new 203 0 113 5) 51820) (bareAnnouncement (.filled 0) (.filled 1))) (l := ls))
  have hopened := Function.update_self (0 : ℕ)
    (some (handleConnection (.v4 (.new 203 0 113 5) 51820)).run) n.server.threads
  have hprogress := session_progress hopens (List.mem_append_left _ hconnects)
    (bareAnnouncement_valid _ _) hclient hopened fun err h ↦ by cases h
  refine ⟨_, ?_, hprogress⟩
  exact hclient

/-- Whatever has gone on before, two clients that name each other can meet: the second to
announce itself learns where the first one is, and the first one, when it announces itself
again, where the second is. -/
theorem announcements_meet {b : WireplugAnnouncement} {j k : ℕ} {addr' : SocketAddr}
    {source source' : Ipv4Addr} (h : NetworkRun ls n) (hij : j ≠ i) (hik : k ≠ i) (hjk : k ≠ j)
    (hnew : ∀ l ∈ [i, j, k], n.connection l = (none, none, .empty, .empty))
    (ha : a.valid = true) (hb : b.valid = true)
    (hlen : (encodeAnnouncement a).length ≤ maxMessageSize)
    (hlen' : (encodeAnnouncement b).length ≤ maxMessageSize)
    (hnames : b.initiatorPubkey ∈ a.peerPubkeys) (hnamed : a.initiatorPubkey ∈ b.peerPubkeys)
    (hsource : addr.ip = .v4 source) (hsource' : addr'.ip = .v4 source') (now : ℕ → SystemTime)
    (hfits : (encodeResponse ⟨lookedUp n.server.shared.storage a addr⟩).length ≤ maxMessageSize)
    (hfits' : (encodeResponse ⟨lookedUp (n.server.shared.storage.insertRecords a source now) b
      addr'⟩).length ≤ maxMessageSize)
    (hfits'' : (encodeResponse ⟨lookedUp ((n.server.shared.storage.insertRecords a source
      now).insertRecords b source' now) a addr⟩).length ≤ maxMessageSize) :
    ∃ ls₁ ls₂ ls₃ n' response response', NetworkRun (ls ++ .connects i addr a :: ls₁ ++
        .connects j addr' b :: ls₂ ++ .connects k addr a :: ls₃) n' ∧
      n'.clients j = some ⟨addr', .done (.ok response)⟩ ∧
      response.peerEndpoints.get? a.initiatorPubkey = some (directEndpoint a source addr') ∧
      n'.clients k = some ⟨addr, .done (.ok response')⟩ ∧
      response'.peerEndpoints.get? b.initiatorPubkey = some (directEndpoint b source' addr) := by
  obtain ⟨ls₁, ls₂, n₁, response, hrun₁, hclient₁, hget₁, hstorage₁, -, hothers₁⟩ :=
    run_meeting h hij (hnew i (by simp)) (hnew j (by simp)) ha hb hlen hlen' hnames hnamed hsource
      hsource' now hfits hfits'
  rw [← hstorage₁] at hfits''
  obtain ⟨ls₃, n₂, response', hrun₂, hclient₂, hequiv, -, -, hothers₂⟩ :=
    run_session hrun₁ ((hothers₁ k hik hjk).trans (hnew k (by simp))) ha hlen hfits'' hsource now
  rw [hstorage₁] at hequiv
  have hkeep := (connection_eq (hothers₂ j (Ne.symm hjk))).1
  refine ⟨ls₁, ls₂, ls₃, n₂, response, response', hrun₂, hkeep.trans hclient₁, hget₁, hclient₂, ?_⟩
  rw [hequiv]
  exact get?_lookedUp_stored hnamed hnames _ source' now addr

theorem announcements_meet_bare : let a := bareAnnouncement (.filled 0) (.filled 1)
    let b := bareAnnouncement (.filled 1) (.filled 0)
    ∃ (ls : List NetworkLabel) (n : Network) (response response' : WireplugResponse),
      NetworkRun ls n ∧
        response.peerEndpoints.get? a.initiatorPubkey =
          some (.remoteNetwork (some (.new 203 0 113 5)) none a.wgPort) ∧
        response'.peerEndpoints.get? b.initiatorPubkey =
          some (.remoteNetwork (some (.new 198 51 100 7)) none b.wgPort) := by
  intro a b
  have hlen (initiator peer : Key) :
      (encodeAnnouncement (bareAnnouncement initiator peer)).length ≤ maxMessageSize := by
    rw [bareAnnouncement_length]
    decide
  obtain ⟨ls₁, ls₂, ls₃, n, response, response', hrun, -, hget, -, hget'⟩ := announcements_meet
    (i := 0) (j := 1) (k := 2) (a := a) (b := b) .start (by decide) (by decide) (by decide)
    (fun _ _ ↦ rfl) (bareAnnouncement_valid _ _) (bareAnnouncement_valid _ _) (hlen _ _)
    (hlen _ _) (List.mem_singleton_self _) (List.mem_singleton_self _)
    (show (SocketAddr.v4 (.new 203 0 113 5) 51820).ip = .v4 (.new 203 0 113 5) from rfl)
    (show (SocketAddr.v4 (.new 198 51 100 7) 51820).ip = .v4 (.new 198 51 100 7) from rfl)
    (fun _ ↦ 0) ((encodeResponse_new_bare (.filled 0) (.filled 1) _).trans_le (by decide))
    (by decide +kernel) (by decide +kernel)
  exact ⟨_, n, response, response', hrun, hget, hget'⟩

end Wireplug
