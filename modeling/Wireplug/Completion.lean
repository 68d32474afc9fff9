import Wireplug.Network

namespace Wireplug

open Foundation Foundation.Program Postcard ByteStream

variable {ls : List NetworkLabel} {n : Network} {i : ℕ} {a : WireplugAnnouncement}
  {addr : SocketAddr} {input output : Pipe} {u : Trace ByteStream.Answer}

/-- Connection `j` with both its ends. -/
def Network.connection (n : Network) (j : ℕ) :
    Option NetworkClient × Option ServerProgram × Pipe × Pipe :=
  (n.clients j, n.server.threads j, n.toServer j, n.toClient j)

theorem connection_eq {client : Option NetworkClient} {thread : Option ServerProgram}
    (h : n.connection i = (client, thread, input, output)) : n.clients i = client ∧
      n.server.threads i = thread ∧ n.toServer i = input ∧ n.toClient i = output := by
  simpa only [Network.connection, Prod.mk.injEq] using h

def OthersAlone (i : ℕ) (n n' : Network) : Prop := ∀ j, j ≠ i → n'.connection j = n.connection j

theorem OthersAlone.trans {n n' n'' : Network} (h : OthersAlone i n n')
    (h' : OthersAlone i n' n'') : OthersAlone i n n'' :=
  fun j hj ↦ (h' j hj).trans (h j hj)

theorem sends_along {p q : ClientProgram} (h : NetworkRun ls n)
    (hclient : n.clients i = some ⟨addr, p⟩) (hpath : p.Path u q)
    (hexchanges : Exchanges u (n.toClient i, n.toServer i) (input, output)) :
    ∃ n', NetworkRun (ls ++ u.map fun ev ↦ .sends i ev.1 ev.2) n' ∧
      n'.clients i = some ⟨addr, q⟩ ∧ n'.toClient i = input ∧ n'.toServer i = output ∧
        n'.server = n.server ∧ OthersAlone i n n' := by
  induction hpath generalizing ls n with
  | nil p =>
    cases hexchanges
    exact ⟨n, by rwa [List.map_nil, List.append_nil], hclient, rfl, rfl, rfl, fun _ _ ↦ rfl⟩
  | @cons e k r u q _ ih =>
    cases hexchanges with
    | @cons _ _ _ _ pipes _ htransfers hexchanges =>
      obtain ⟨input₁, output₁⟩ := pipes
      have hstep := h.snoc (.sends hclient htransfers)
      obtain ⟨n', hrun, hclient', hinput, houtput, hserver, hothers⟩ :=
        ih hstep (Function.update_self i _ _) (by
          simpa only [Network.setPipes, Function.update_self] using hexchanges)
      refine ⟨n', ?_, hclient', hinput, houtput, hserver, OthersAlone.trans ?_ hothers⟩
      · rw [List.map_cons, List.append_cons]
        exact hrun
      · intro j hj
        simp only [Network.connection, Network.setPipes, Function.update_of_ne hj]

def onStreamEvent (ev : Event ByteStream.Answer) : Event ServerEffect.Answer :=
  ⟨.stream ev.1, ev.2⟩

theorem serves_along {p q : ServerProgram} (h : NetworkRun ls n)
    (hthread : n.server.threads i = some p) (hpath : p.Path (u.map onStreamEvent) q)
    (hexchanges : Exchanges u (n.toServer i, n.toClient i) (input, output)) :
    ∃ n', NetworkRun (ls ++ u.map fun ev ↦ .serves (.called i (.stream ev.1) ev.2)) n' ∧
      n'.server.threads i = some q ∧ n'.toServer i = input ∧ n'.toClient i = output ∧
        n'.clients = n.clients ∧ n'.server.shared = n.server.shared ∧ OthersAlone i n n' := by
  induction u generalizing p ls n with
  | nil =>
    cases hexchanges
    cases hpath
    exact ⟨n, by rwa [List.map_nil, List.append_nil], hthread, rfl, rfl, rfl, rfl, fun _ _ ↦ rfl⟩
  | cons ev u ih =>
    cases hpath with
    | @cons _ k _ _ _ hpath =>
      cases hexchanges with
      | @cons _ _ _ _ pipes _ htransfers hexchanges =>
        obtain ⟨input₁, output₁⟩ := pipes
        have hstep := h.snoc (.streams
          (.called hthread (answers_stream n.server.shared i htransfers.full)) htransfers)
        obtain ⟨n', hrun, hthread', hinput, houtput, hclients, hshared, hothers⟩ :=
          ih hstep (Function.update_self i _ _) hpath (by
            simpa only [Network.setPipes, Function.update_self] using hexchanges)
        refine ⟨n', ?_, hthread', hinput, houtput, hclients, hshared, OthersAlone.trans ?_ hothers⟩
        · rw [List.map_cons, List.append_cons]
          exact hrun
        · intro j hj
          simp only [Network.connection, Network.setPipes, Function.update_of_ne hj]

theorem path_onStream {α : Type} {p q : Program ByteStream.Answer α} (h : p.Path u q) :
    (p.embed ServerEffect.stream fun _ r ↦ r).Path (u.map onStreamEvent)
      (q.embed ServerEffect.stream fun _ r ↦ r) := by
  induction h with
  | nil => exact .nil _
  | cons _ ih => exact .cons ih

theorem run_announced (h : NetworkRun ls n)
    (hnew : n.connection i = (none, none, .empty, .empty))
    (hlen : (encodeAnnouncement a).length < 2 ^ 32) (addr : SocketAddr) :
    ∃ ls' n', NetworkRun (ls ++ .connects i addr a :: ls') n' ∧
      n'.clients i = some ⟨addr, readResponse.run⟩ ∧ n'.server = n.server ∧
        (n'.toServer i).rest = frame (encodeAnnouncement a) ∧ (n'.toClient i).rest = [] ∧
          OthersAlone i n n' := by
  obtain ⟨hclient, hthread, hserver, hpipe⟩ := connection_eq hnew
  have hconnects := h.snoc (.connects addr a hclient hthread hserver hpipe)
  obtain ⟨u, input, output, hpath, hexchanges, hinput, houtput⟩ :=
    exists_exchanges (writeAnnouncement a).run .empty .empty
  rw [run_writeAnnouncement hlen] at hpath hinput houtput
  obtain ⟨n', hrun, hclient', rfl, rfl, hserver', hothers⟩ := sends_along hconnects
    (Function.update_self i _ _) (Path.try (writeAnnouncement a) (fun _ ↦ readResponse) hpath)
    (by simpa only [hserver, hpipe] using hexchanges)
  rw [← List.append_cons] at hrun
  refine ⟨_, n', hrun, hclient', hserver', ?_, ?_, OthersAlone.trans ?_ hothers⟩
  · rw [houtput]
    rfl
  · rw [hinput]
    rfl
  · intro j hj
    simp only [Network.connection, Function.update_of_ne hj]

theorem run_looked_up {p : ClientProgram} (h : NetworkRun ls n)
    (hclient : n.clients i = some ⟨addr, p⟩) (hthread : n.server.threads i = none)
    (hvalid : a.valid = true) (hlen : (encodeAnnouncement a).length ≤ maxMessageSize)
    (hserver : (n.toServer i).rest = frame (encodeAnnouncement a)) :
    ∃ ls' n', NetworkRun (ls ++ ls') n' ∧ n'.clients i = some ⟨addr, p⟩ ∧
      n'.server.threads i = some (onStream (writeResponse
        ⟨lookedUp n.server.shared.storage a addr⟩) >>= fun _ ↦ finishAnnouncement a addr).run ∧
      n'.server.shared = n.server.shared ∧ (n'.toClient i).rest = (n.toClient i).rest ∧
        OthersAlone i n n' := by
  have hopens := h.snoc (.serves (.opened addr hthread) (by simp) fun j addr' heq client hj ↦ by
    cases heq
    rw [hclient] at hj
    cases hj
    rfl)
  obtain ⟨u, input, output, hpath, hexchanges, -, houtput⟩ :=
    exists_exchanges readAnnouncement.run (n.toServer i) (n.toClient i)
  have hread := readAnnouncement_sendAnnouncement hlen [] []
  rw [written_sendAnnouncement (Nat.lt_of_le_of_lt hlen (by decide)), List.append_nil] at hread
  rw [hserver, hread] at hpath houtput
  have hreceived : (handleConnection addr).run.Path (u.map onStreamEvent)
      (if a.valid then answerAnnouncement a addr else onStream shutdown).run :=
    Path.try (onStream readAnnouncement) _ (path_onStream hpath)
  rw [if_pos hvalid] at hreceived
  obtain ⟨n₁, hrun₁, hthread₁, -, rfl, hclients₁, hshared₁, hothers₁⟩ :=
    serves_along hopens (Function.update_self i _ _) hreceived hexchanges
  have hlookup : ServerAnswers n₁.server.shared i (.getPeerEndpoints a addr)
      (lookedUp n.server.shared.storage a addr) n₁.server.shared := by
    rw [hshared₁]
    exact answers_lookedUp _ i a addr
  have hstep := hrun₁.snoc (.serves (.called hthread₁ hlookup) (by simp) (by simp))
  rw [List.append_assoc, List.append_assoc] at hstep
  refine ⟨_, _, hstep, ?_, Function.update_self i _ _, hshared₁,
    houtput.trans (List.append_nil _), fun j hj ↦ ?_⟩
  · rw [← hclient]
    exact congrFun hclients₁ i
  · have hone := hothers₁ j hj
    simp only [Network.connection, Function.update_of_ne hj] at hone ⊢
    exact hone

theorem mem_served {l : ServerLabel} (h : .serves l ∈ ls) : l ∈ served ls :=
  List.mem_filterMap.mpr ⟨_, h, rfl⟩

theorem run_stored {client : NetworkClient} {m : HashMap String WireplugEndpoint}
    {source : Ipv4Addr} (h : NetworkRun ls n) (hclient : n.clients i = some client)
    (hthread : n.server.threads i = some (onStream (writeResponse ⟨m⟩) >>= fun _ ↦
      finishAnnouncement a addr).run) (hlen : (encodeResponse ⟨m⟩).length < 2 ^ 32)
    (hsource : addr.ip = .v4 source) (now : ℕ → SystemTime) :
    ∃ ls' n', NetworkRun (ls ++ ls' ++ [.serves (.called i (.insertRecords a source) now)]) n' ∧
      n'.clients i = some client ∧
      (n'.toClient i).rest = (n.toClient i).rest ++ frame (encodeResponse ⟨m⟩) ∧
        n'.server.shared.storage = n.server.shared.storage.insertRecords a source now ∧
          OthersAlone i n n' := by
  obtain ⟨u, input, output, hpath, hexchanges, -, houtput⟩ :=
    exists_exchanges (writeResponse ⟨m⟩).run (n.toServer i) (n.toClient i)
  rw [run_writeResponse hlen] at hpath houtput
  have hshut : (finishAnnouncement a addr).run.Path ([⟨.shutdown, .ok ()⟩].map onStreamEvent)
      (recordAnnouncement a addr).run := .cons (.nil _)
  have hwritten := (Path.try (onStream (writeResponse ⟨m⟩)) (fun _ ↦ finishAnnouncement a addr)
    (path_onStream hpath)).trans hshut
  rw [← List.map_append] at hwritten
  obtain ⟨n₁, hrun₁, hthread₁, -, rfl, hclients₁, hshared₁, hothers₁⟩ := serves_along h hthread
    hwritten (hexchanges.trans (.cons (.shutdown (.ok ())) (.nil _)))
  have hrecord : ∃ k, (recordAnnouncement a addr).run = .call (.insertRecords a source) k := by
    rw [recordAnnouncement, processAnnouncement, hsource]
    exact ⟨_, rfl⟩
  obtain ⟨k, hk⟩ := hrecord
  rw [hk] at hthread₁
  have hstep := hrun₁.snoc (.serves
    (.called hthread₁ (.insertRecords n₁.server.shared i a source now)) (by simp) (by simp))
  refine ⟨_, _, hstep, ?_, houtput, ?_, fun j hj ↦ ?_⟩
  · rw [← hclient]
    exact congrFun hclients₁ i
  · rw [← hshared₁]
  · have hone := hothers₁ j hj
    simp only [Network.connection, Function.update_of_ne hj] at hone ⊢
    exact hone

theorem run_read {m : HashMap String WireplugEndpoint} (h : NetworkRun ls n)
    (hclient : n.clients i = some ⟨addr, readResponse.run⟩)
    (hpipe : (n.toClient i).rest = frame (encodeResponse ⟨m⟩))
    (hlen : (encodeResponse ⟨m⟩).length ≤ maxMessageSize) :
    ∃ ls' n' response, NetworkRun (ls ++ ls') n' ∧
      n'.clients i = some ⟨addr, .done (.ok response)⟩ ∧ response.peerEndpoints.Equiv m ∧
        n'.server = n.server ∧ OthersAlone i n n' := by
  obtain ⟨u, input, output, hpath, hexchanges, -, -⟩ :=
    exists_exchanges readResponse.run (n.toClient i) (n.toServer i)
  obtain ⟨read, hread, hequiv⟩ := readResponse_writeResponse (.refl m.entries) hlen [] []
  rw [run_writeResponse (Nat.lt_of_le_of_lt hlen (by decide)), List.append_nil] at hread
  rw [hpipe, hread] at hpath
  obtain ⟨n', hrun, hclient', -, -, hserver, hothers⟩ := sends_along h hclient hpath hexchanges
  exact ⟨_, n', ⟨read⟩, hrun, hclient', hequiv, hserver, hothers⟩

/-- In whatever state the server is, and whatever else has gone on, a client that now
connects can have its announcement stored and its response, if both fit a message. -/
theorem run_session {source : Ipv4Addr} (h : NetworkRun ls n)
    (hnew : n.connection i = (none, none, .empty, .empty)) (hvalid : a.valid = true)
    (hlen : (encodeAnnouncement a).length ≤ maxMessageSize)
    (hresponse : (encodeResponse ⟨lookedUp n.server.shared.storage a addr⟩).length ≤
      maxMessageSize)
    (hsource : addr.ip = .v4 source) (now : ℕ → SystemTime) :
    ∃ ls' n' response, NetworkRun (ls ++ .connects i addr a :: ls') n' ∧
      n'.clients i = some ⟨addr, .done (.ok response)⟩ ∧
      response.peerEndpoints.Equiv (lookedUp n.server.shared.storage a addr) ∧
      n'.server.shared.storage = n.server.shared.storage.insertRecords a source now ∧
      .called i (.insertRecords a source) now ∈ served ls' ∧ OthersAlone i n n' := by
  have hthread := (connection_eq hnew).2.1
  obtain ⟨ls₁, n₁, hrun₁, hclient₁, hserver₁, hpipe₁, hrest₁, hothers₁⟩ :=
    run_announced h hnew (Nat.lt_of_le_of_lt hlen (by decide)) addr
  obtain ⟨ls₂, n₂, hrun₂, hclient₂, hthread₂, hshared₂, hrest₂, hothers₂⟩ :=
    run_looked_up hrun₁ hclient₁ (by rw [hserver₁, hthread]) hvalid hlen hpipe₁
  rw [hserver₁] at hthread₂ hshared₂
  obtain ⟨ls₃, n₃, hrun₃, hclient₃, hrest₃, hstorage₃, hothers₃⟩ := run_stored hrun₂ hclient₂
    hthread₂ (Nat.lt_of_le_of_lt hresponse (by decide)) hsource now
  rw [hrest₂, hrest₁, List.nil_append] at hrest₃
  obtain ⟨ls₄, n₄, response, hrun₄, hclient₄, hequiv, hserver₄, hothers₄⟩ :=
    run_read hrun₃ hclient₃ hrest₃ hresponse
  refine ⟨ls₁ ++ ls₂ ++ ls₃ ++ [.serves (.called i (.insertRecords a source) now)] ++ ls₄, n₄,
    response, ?_, hclient₄, hequiv, ?_,
    mem_served (by simp only [List.mem_append, List.mem_singleton, true_or, or_true]),
    ((hothers₁.trans hothers₂).trans hothers₃).trans hothers₄⟩
  · simpa only [List.append_assoc, List.cons_append] using hrun₄
  · rw [hserver₄, hstorage₃, hshared₂]

theorem get?_lookedUp_stored {b : WireplugAnnouncement} (hnames : b.initiatorPubkey ∈ a.peerPubkeys)
    (hnamed : a.initiatorPubkey ∈ b.peerPubkeys) (storage : Storage) (source : Ipv4Addr)
    (now : ℕ → SystemTime) (addr : SocketAddr) :
    (lookedUp (storage.insertRecords a source now) b addr).get? a.initiatorPubkey =
      some (directEndpoint a source addr) := by
  obtain ⟨record, hrecord, hcarries⟩ := get?_insertRecords hnames storage source now
  rw [get?_lookedUp, if_pos hnamed, lookupEndpoint, hrecord]
  exact congrArg some (endpointFor_of_carries hcarries addr)

theorem run_meeting {b : WireplugAnnouncement} {j : ℕ} {addr' : SocketAddr}
    {source source' : Ipv4Addr} (h : NetworkRun ls n) (hij : j ≠ i)
    (hi : n.connection i = (none, none, .empty, .empty))
    (hj : n.connection j = (none, none, .empty, .empty))
    (ha : a.valid = true) (hb : b.valid = true)
    (hlen : (encodeAnnouncement a).length ≤ maxMessageSize)
    (hlen' : (encodeAnnouncement b).length ≤ maxMessageSize)
    (hnames : b.initiatorPubkey ∈ a.peerPubkeys) (hnamed : a.initiatorPubkey ∈ b.peerPubkeys)
    (hsource : addr.ip = .v4 source) (hsource' : addr'.ip = .v4 source') (now : ℕ → SystemTime)
    (hfits : (encodeResponse ⟨lookedUp n.server.shared.storage a addr⟩).length ≤ maxMessageSize)
    (hfits' : (encodeResponse ⟨lookedUp (n.server.shared.storage.insertRecords a source now) b
      addr'⟩).length ≤ maxMessageSize) :
    ∃ ls' ls'' n' response, NetworkRun (ls ++ .connects i addr a :: ls' ++
        .connects j addr' b :: ls'') n' ∧
      n'.clients j = some ⟨addr', .done (.ok response)⟩ ∧
      response.peerEndpoints.get? a.initiatorPubkey = some (directEndpoint a source addr') ∧
      n'.server.shared.storage =
        (n.server.shared.storage.insertRecords a source now).insertRecords b source' now ∧
      .called i (.insertRecords a source) now ∈ served ls' ∧
      ∀ k, k ≠ i → k ≠ j → n'.connection k = n.connection k := by
  obtain ⟨ls₁, n₁, -, hrun₁, -, -, hstorage₁, hstores₁, hothers₁⟩ :=
    run_session h hi ha hlen hfits hsource now
  rw [← hstorage₁] at hfits'
  obtain ⟨ls₂, n₂, response, hrun₂, hclient₂, hequiv, hstorage₂, -, hothers₂⟩ :=
    run_session hrun₁ ((hothers₁ j hij).trans hj) hb hlen' hfits' hsource' now
  rw [hstorage₁] at hequiv hstorage₂
  refine ⟨ls₁, ls₂, n₂, response, hrun₂, hclient₂, ?_, hstorage₂, hstores₁,
    fun k hki hkj ↦ (hothers₂ k hkj).trans (hothers₁ k hki)⟩
  rw [hequiv]
  exact get?_lookedUp_stored hnames hnamed _ source now addr'

end Wireplug
