import Wireplug.Connection
import Wireplug.Exchange

namespace Wireplug

open Foundation Foundation.Program ByteStream

variable {a : WireplugAnnouncement} {addr : SocketAddr} {m : HashMap String WireplugEndpoint}

theorem path_embed {α : Type} (p : Program ByteStream.Answer α) (input : Bytes) (s : ServerState)
    (i : ℕ) : ∃ t : ServerTrace,
      (p.embed ServerEffect.stream fun _ r ↦ r).Path t (.done (run p input).result) ∧
        ∀ ev ∈ t, (∃ e, ev.1 = .stream e) ∧ ServerAnswers s i ev.1 ev.2 s := by
  have hcons {e : ByteStream.Effect} {r : ByteStream.Answer e} {t : ServerTrace}
      (hr : ServerAnswers s i (.stream e) r s)
      (ht : ∀ ev ∈ t, (∃ e, ev.1 = .stream e) ∧ ServerAnswers s i ev.1 ev.2 s) :
      ∀ ev ∈ (⟨.stream e, r⟩ : Event ServerEffect.Answer) :: t,
        (∃ e, ev.1 = .stream e) ∧ ServerAnswers s i ev.1 ev.2 s := by
    intro ev hev
    rcases List.mem_cons.mp hev with rfl | hev
    · exact ⟨⟨e, rfl⟩, hr⟩
    · exact ht ev hev
  induction p generalizing input with
  | done a => exact ⟨[], .nil _, by simp⟩
  | call e k ih =>
    cases e with
    | readExact n =>
      rw [run]
      split
      · next hlen =>
        obtain ⟨t, hpath, ht⟩ := ih (.ok (input.take n)) (input.drop n)
        have hread : ServerAnswers s i (.stream (.readExact n)) (.ok (input.take n)) s := by
          have h := ServerAnswers.readExact s i (input.take n)
          rwa [List.length_take_of_le hlen] at h
        exact ⟨_, .cons hpath, hcons hread ht⟩
      · obtain ⟨t, hpath, ht⟩ := ih (.error .unexpectedEof) []
        exact ⟨_, .cons hpath, hcons (.readError s i n _) ht⟩
    | writeAll bytes =>
      obtain ⟨t, hpath, ht⟩ := ih (.ok ()) input
      exact ⟨_, .cons hpath, hcons (.writeAll s i bytes _) ht⟩
    | shutdown =>
      obtain ⟨t, hpath, ht⟩ := ih (.ok ()) input
      exact ⟨_, .cons hpath, hcons (.shutdown s i _) ht⟩

theorem path_received (hvalid : a.valid = true)
    (hlen : (encodeAnnouncement a).length ≤ maxMessageSize) (addr : SocketAddr) (s : ServerState)
    (i : ℕ) : ∃ t : ServerTrace,
      (handleConnection addr).run.Path t (answerAnnouncement a addr).run ∧
        ∀ ev ∈ t, (∃ e, ev.1 = .stream e) ∧ ServerAnswers s i ev.1 ev.2 s := by
  obtain ⟨t, hpath, ht⟩ := path_embed readAnnouncement.run
    ((run (sendAnnouncement a).run []).written ++ []) s i
  rw [readAnnouncement_sendAnnouncement hlen] at hpath
  refine ⟨t, ?_, ht⟩
  have h : (handleConnection addr).run.Path t
      (if a.valid then answerAnnouncement a addr else onStream shutdown).run :=
    Path.try (onStream readAnnouncement) _ hpath
  rw [if_pos hvalid] at h
  exact h

def finishAnnouncement (a : WireplugAnnouncement) (addr : SocketAddr) : Handler Unit := do
  onStream shutdown
  recordAnnouncement a addr

theorem path_answered (hlen : (encodeResponse ⟨m⟩).length < 2 ^ 32) :
    (answerAnnouncement a addr).run.Path (answered a addr m) (finishAnnouncement a addr).run := by
  have hwrite : (onStream (writeResponse ⟨m⟩)).run.Path
      ((responseFrame m).map fun bytes ↦ ⟨.stream (.writeAll bytes), .ok ()⟩) (.done (.ok ())) := by
    rw [writeResponse_eq, if_pos hlen]
    exact .cons (.cons (.cons (.cons (.nil _))))
  exact .cons (Path.try (onStream (writeResponse ⟨m⟩)) _ hwrite)

theorem answers_lookedUp (s : ServerState) (i : ℕ) (a : WireplugAnnouncement) (addr : SocketAddr) :
    ServerAnswers s i (.getPeerEndpoints a addr) (lookedUp s.storage a addr) s :=
  .getPeerEndpoints s i (getPeerEndpoints_eq a addr s.storage s.relayManager) _ (.refl _)

theorem answers_closed (s : ServerState) (i : ℕ) (a : WireplugAnnouncement) (addr : SocketAddr)
    (r : Except IoError Unit) :
    ∀ ev ∈ closed a addr (lookedUp s.storage a addr) r, ServerAnswers s i ev.1 ev.2 s := by
  intro ev hev
  rcases List.mem_append.mp hev with hev | hev
  · rcases List.mem_cons.mp hev with rfl | hev
    · exact answers_lookedUp s i a addr
    · obtain ⟨bytes, -, rfl⟩ := List.mem_map.mp hev
      exact .writeAll s i bytes _
  · rw [List.mem_singleton.mp hev]
    exact ServerAnswers.shutdown s i r

theorem path_closed {s : ServerState} {r : Except IoError Unit}
    {q : Program ServerEffect.Answer (Except ServerError Unit)} (hvalid : a.valid = true)
    (hlen : (encodeAnnouncement a).length ≤ maxMessageSize)
    (hresponse : (encodeResponse ⟨lookedUp s.storage a addr⟩).length < 2 ^ 32)
    (hend : (finishAnnouncement a addr).run.Path [⟨.stream .shutdown, r⟩] q) (i : ℕ) :
    ∃ t : ServerTrace, (∀ ev ∈ t, ∃ e, ev.1 = .stream e) ∧
      (handleConnection addr).run.Path (t ++ closed a addr (lookedUp s.storage a addr) r) q ∧
      ∀ ev ∈ t ++ closed a addr (lookedUp s.storage a addr) r,
        ServerAnswers s i ev.1 ev.2 s := by
  obtain ⟨t, hreceived, ht⟩ := path_received hvalid hlen addr s i
  refine ⟨t, fun ev hev ↦ (ht ev hev).1,
    hreceived.trans ((path_answered hresponse).trans hend), fun ev hev ↦ ?_⟩
  rcases List.mem_append.mp hev with hev | hev
  · exact (ht ev hev).2
  · exact answers_closed s i a addr r ev hev

theorem run_answered {c : ServerConfig} {i : ℕ} {r : Except IoError Unit}
    {q : Program ServerEffect.Answer (Except ServerError Unit)} (hfree : c.threads i = none)
    (hvalid : a.valid = true) (hlen : (encodeAnnouncement a).length ≤ maxMessageSize)
    (hresponse : (encodeResponse ⟨lookedUp c.shared.storage a addr⟩).length < 2 ^ 32)
    (hend : (finishAnnouncement a addr).run.Path [⟨.stream .shutdown, r⟩] q) :
    ∃ t : ServerTrace, (∀ ev ∈ t, ∃ e, ev.1 = .stream e) ∧
      server.Run c ([.opened i addr] ++
          (t ++ closed a addr (lookedUp c.shared.storage a addr) r).map fun ev ↦
            .called i ev.1 ev.2)
        ⟨c.shared, Function.update c.threads i (some q)⟩ := by
  obtain ⟨t, ht, hpath, hanswers⟩ := path_closed hvalid hlen hresponse hend i
  refine ⟨t, ht, ?_⟩
  have hopen : server.Step c (.opened i addr)
      ⟨c.shared, Function.update c.threads i (some (handleConnection addr).run)⟩ :=
    .opened addr hfree
  have hsolo : server.Run
      ⟨c.shared, Function.update c.threads i (some (handleConnection addr).run)⟩
      ((t ++ closed a addr (lookedUp c.shared.storage a addr) r).map fun ev ↦
        .called i ev.1 ev.2)
      ⟨c.shared, Function.update (Function.update c.threads i (some (handleConnection addr).run)) i
        (some q)⟩ :=
    System.Run.solo (Function.update_self i _ _) hpath hanswers
  rw [Function.update_idem] at hsolo
  exact (System.Run.one hopen).trans hsolo

/-- A connection from an IPv4 address that meets no failure is answered and
stored, while nobody else moves. -/
theorem run_complete {c : ServerConfig} {i : ℕ} {source : Ipv4Addr} (hfree : c.threads i = none)
    (hvalid : a.valid = true) (hlen : (encodeAnnouncement a).length ≤ maxMessageSize)
    (hsource : addr.ip = .v4 source) (hrelay : a.needsRelay = false)
    (hresponse : (encodeResponse ⟨lookedUp c.shared.storage a addr⟩).length < 2 ^ 32)
    (now : ℕ → SystemTime) : ∃ ls c', server.Run c ls c' ∧
      c'.threads i = some (.done (.ok ())) ∧ (∀ j, j ≠ i → c'.threads j = c.threads j) ∧
      c'.shared.storage = c.shared.storage.insertRecords a source now := by
  have hend : (finishAnnouncement a addr).run.Path [⟨.stream .shutdown, .ok ()⟩]
      (.call (.insertRecords a source) fun _ ↦ .done (.ok ())) := by
    refine .cons ?_
    have hrecord : (recordAnnouncement a addr).run =
        .call (.insertRecords a source) fun _ ↦ .done (.ok ()) := by
      rw [recordAnnouncement, processAnnouncement, hsource, hrelay]
      rfl
    exact hrecord ▸ .nil _
  obtain ⟨t, -, hrun⟩ := run_answered hfree hvalid hlen hresponse hend
  have hstep : server.Step
      ⟨c.shared, Function.update c.threads i
        (some (.call (.insertRecords a source) fun _ ↦ .done (.ok ())))⟩
      (.called i (.insertRecords a source) now)
      ⟨{ c.shared with storage := c.shared.storage.insertRecords a source now }, _⟩ :=
    .called (Function.update_self i _ _) (ServerAnswers.insertRecords c.shared i a source now)
  exact ⟨_, _, hrun.trans (.one hstep), by simp, fun j hj ↦ by simp [hj], rfl⟩

theorem lookedUp_new_bare (initiator peer : Key) (addr : SocketAddr) :
    (lookedUp .new (bareAnnouncement initiator peer) addr).entries =
      [(peer.toBase64, .unknown)] := rfl

theorem encodeResponse_new_bare (initiator peer : Key) (addr : SocketAddr) :
    (encodeResponse ⟨lookedUp .new (bareAnnouncement initiator peer) addr⟩).length = 47 := by
  have hkeys : ∀ k ∈ (lookedUp .new (bareAnnouncement initiator peer) addr).keys,
      k.utf8ByteSize = 44 := by
    intro k hk
    rw [HashMap.keys, lookedUp_new_bare] at hk
    rw [List.mem_singleton.mp hk]
    exact utf8ByteSize_toBase64 peer
  rw [encodeResponse_length hkeys, responseSize, lookedUp_new_bare]
  change Postcard.varintSize 64 1 + 46 = 47
  decide +kernel

theorem run_answered_bare {c : ServerConfig} {i : ℕ} {r : Except IoError Unit}
    {q : Program ServerEffect.Answer (Except ServerError Unit)} (hfree : c.threads i = none)
    (hnew : c.shared.storage = .new) (initiator peer : Key)
    (hend : (finishAnnouncement (bareAnnouncement initiator peer) addr).run.Path
      [⟨.stream .shutdown, r⟩] q) :
    ∃ t : ServerTrace, (∀ ev ∈ t, ∃ e, ev.1 = .stream e) ∧
      server.Run c ([.opened i addr] ++
          (t ++ closed (bareAnnouncement initiator peer) addr
            (lookedUp .new (bareAnnouncement initiator peer) addr) r).map fun ev ↦
              .called i ev.1 ev.2)
        ⟨c.shared, Function.update c.threads i (some q)⟩ := by
  rw [← hnew]
  refine run_answered hfree (bareAnnouncement_valid _ _) ?_ ?_ hend
  · rw [bareAnnouncement_length]
    decide
  · rw [hnew, encodeResponse_new_bare]
    decide

theorem stream_or_lookup {t : ServerTrace} (ht : ∀ ev ∈ t, ∃ e, ev.1 = .stream e)
    {a : WireplugAnnouncement} {m : HashMap String WireplugEndpoint} {r : Except IoError Unit}
    {ev : Event ServerEffect.Answer} (hev : ev ∈ t ++ closed a addr m r) :
    (∃ e, ev.1 = .stream e) ∨ ev.1 = .getPeerEndpoints a addr := by
  rcases List.mem_append.mp hev with hev | hev
  · exact .inl (ht ev hev)
  · simp only [closed, answered, List.cons_append, List.mem_cons, List.mem_append, List.mem_map,
      List.not_mem_nil, or_false] at hev
    rcases hev with rfl | ⟨bytes, -, rfl⟩ | rfl
    · exact .inr rfl
    · exact .inl ⟨_, rfl⟩
    · exact .inl ⟨_, rfl⟩

theorem run_to_record {c : ServerConfig} {i : ℕ} (hfree : c.threads i = none)
    (initiator peer : Key) (addr : SocketAddr) (hresponse : (encodeResponse
      ⟨lookedUp c.shared.storage (bareAnnouncement initiator peer) addr⟩).length < 2 ^ 32) :
    ∃ ls c', server.Run c (.opened i addr :: ls) c' ∧
      (∀ l ∈ ls, ∃ e r, l = .called i e r ∧ ∀ a source, e ≠ .insertRecords a source) ∧
      answered (bareAnnouncement initiator peer) addr
        (lookedUp c.shared.storage (bareAnnouncement initiator peer) addr) <:+:
          System.calls i ls ∧
      c'.threads i = some (recordAnnouncement (bareAnnouncement initiator peer) addr).run ∧
      (∀ j, j ≠ i → c'.threads j = c.threads j) ∧ c'.shared = c.shared := by
  have hend : (finishAnnouncement (bareAnnouncement initiator peer) addr).run.Path
      [⟨.stream .shutdown, .ok ()⟩]
      (recordAnnouncement (bareAnnouncement initiator peer) addr).run := .cons (.nil _)
  have hlen : (encodeAnnouncement (bareAnnouncement initiator peer)).length ≤ maxMessageSize := by
    rw [bareAnnouncement_length]
    decide
  obtain ⟨t, ht, hrun⟩ := run_answered hfree (bareAnnouncement_valid _ _) hlen hresponse hend
  rw [List.singleton_append] at hrun
  refine ⟨_, _, hrun, fun l hl ↦ ?_, ?_, by simp, fun j hj ↦ by simp [hj], rfl⟩
  · obtain ⟨ev, hev, rfl⟩ := List.mem_map.mp hl
    refine ⟨ev.1, ev.2, rfl, fun a source heq ↦ ?_⟩
    rcases stream_or_lookup ht hev with ⟨e, he⟩ | he
    · cases he.symm.trans heq
    · cases he.symm.trans heq
  · rw [System.calls_map_self]
    exact ⟨t, [⟨.stream .shutdown, .ok ()⟩], List.append_assoc _ _ _⟩

theorem no_sweep_of_calls {ls : List ServerLabel} {i : ℕ}
    (h : ∀ l ∈ ls, ∃ e r, l = .called i e r ∧ ∀ a source, e ≠ .insertRecords a source)
    (now : SystemTime) : .happened (.sweeps now) ∉ ls := by
  intro hmem
  obtain ⟨e, r, heq, -⟩ := h _ hmem
  cases heq

theorem lookup_of_answered {ls : List ServerLabel} {i : ℕ}
    (h : answered a addr m <:+: System.calls i ls) :
    .called i (.getPeerEndpoints a addr) m ∈ ls :=
  System.mem_calls.mp (h.subset List.mem_cons_self)

theorem run_store {c : ServerConfig} {i : ℕ} {initiator peer : Key} {source : Ipv4Addr} {port : UInt16}
    (hthread : c.threads i =
      some (recordAnnouncement (bareAnnouncement initiator peer) (.v4 source port)).run)
    (now : ℕ → SystemTime) : ∃ c',
      server.Step c (.called i (.insertRecords (bareAnnouncement initiator peer) source) now) c' ∧
      c'.threads i = some (.done (.ok ())) ∧ (∀ j, j ≠ i → c'.threads j = c.threads j) ∧
      c'.shared = { c.shared with storage :=
        c.shared.storage.insertRecords (bareAnnouncement initiator peer) source now } := by
  have hstep : server.Step c
      (.called i (.insertRecords (bareAnnouncement initiator peer) source) now)
      ⟨_, Function.update c.threads i (some (.done (.ok ())))⟩ :=
    .called hthread (ServerAnswers.insertRecords c.shared i _ source _)
  exact ⟨_, hstep, by simp, fun j hj ↦ by simp [hj], rfl⟩

end Wireplug
