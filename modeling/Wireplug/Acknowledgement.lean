import Wireplug.AnnouncementLog

namespace Wireplug

open Foundation Foundation.Program ByteStream

def StoresAll (c : ServerConfig) (a : WireplugAnnouncement) (source : Ipv4Addr) : Prop :=
  ∀ peer ∈ a.peerPubkeys, ∃ record,
    c.shared.storage.peeringRecords.get? (a.initiatorPubkey, peer) = some record ∧
      record.Carries a source

theorem storesAll_of_step {c c' : ServerConfig} {i : ℕ} {a : WireplugAnnouncement}
    {source : Ipv4Addr} {now : ℕ → SystemTime}
    (h : server.Step c (.called i (.insertRecords a source) now) c') : StoresAll c' a source := by
  cases h with
  | called _ h =>
    cases h
    exact fun peer hpeer ↦ get?_insertRecords hpeer _ _ _

variable {storage : Storage} {ls : List ServerLabel} {c : ServerConfig} {i : ℕ}
  {a : WireplugAnnouncement} {addr : SocketAddr} {m : HashMap String WireplugEndpoint}

/-- A client at an IPv4 address that has its response, on a stream that was shut
down without an error, is stored: it already is, or that is the next thing its
connection does. -/
theorem acknowledged_is_stored {source : Ipv4Addr}
    (h : server.Run (ServerConfig.start storage) ls c) (hopened : .opened i addr ∈ ls)
    (hsource : addr.ip = .v4 source) (hack : acknowledged a addr m <:+: System.calls i ls) :
    (∃ before now after c', ls = before ++ .called i (.insertRecords a source) now :: after ∧
        server.Run (ServerConfig.start storage)
          (before ++ [.called i (.insertRecords a source) now]) c' ∧ StoresAll c' a source) ∨
      (∃ k, c.threads i = some (.call (.insertRecords a source) k)) ∧
        ∀ e r c', server.Step c (.called i e r) c' → StoresAll c' a source := by
  obtain ⟨t, u, htrace⟩ := hack
  cases u with
  | cons ev u =>
    obtain ⟨e, r⟩ := ev
    obtain ⟨before, after, rfl, hbefore⟩ := System.calls_eq_append_cons htrace.symm
    obtain ⟨addr', hopened', hcalls⟩ := connection_calls h
    obtain rfl := opened_unique h hopened (List.mem_append_left _ hopened')
    obtain rfl := hcalls.goes_on a m source (hbefore ▸ List.suffix_append t _) hsource
    obtain ⟨s, s', hrun, hstep, -⟩ := h.split_at
    exact .inl ⟨before, r, after, s', rfl, .snoc hrun hstep, storesAll_of_step hstep⟩
  | nil =>
    rw [List.append_nil] at htrace
    obtain ⟨p, hthread, -, hensures⟩ := verified_of_opened h hopened
    cases p with
    | done r => exact (hensures.not_acknowledged a m source ⟨t, htrace⟩ hsource).elim
    | call e k =>
      obtain rfl := hensures.1.goes_on a m source ⟨t, htrace⟩ hsource
      refine .inr ⟨⟨k, hthread⟩, ?_⟩
      intro e r c' hstep
      cases hstep with
      | called hi ha =>
        rw [hthread] at hi
        cases hi
        exact storesAll_of_step (.called hthread ha)

theorem run_first {r : Except IoError Unit}
    {q : Program ServerEffect.Answer (Except ServerError Unit)} (initiator peer : Key)
    (hend : (finishAnnouncement (bareAnnouncement initiator peer) addr).run.Path
      [⟨.stream .shutdown, r⟩] q) :
    ∃ ls c, server.Run (ServerConfig.start .new) ls c ∧ .opened 0 addr ∈ ls ∧
      closed (bareAnnouncement initiator peer) addr
          (lookedUp .new (bareAnnouncement initiator peer) addr) r <:+: System.calls 0 ls ∧
      (∀ b source now, .called 0 (.insertRecords b source) now ∉ ls) ∧
      c.threads 0 = some q ∧ c.shared.storage = .new := by
  obtain ⟨t, ht, hrun⟩ :=
    @run_answered_bare addr (ServerConfig.start .new) 0 _ _ rfl rfl initiator peer hend
  refine ⟨_, _, hrun, by simp, ⟨t, [], ?_⟩, fun b source now hmem ↦ ?_, by simp, rfl⟩
  · rw [System.calls_append, System.calls_map_self]
    simp [System.calls]
  · rw [← System.mem_calls, System.calls_append, System.calls_map_self] at hmem
    rcases List.mem_append.mp hmem with hmem | hmem
    · cases hmem
    · rcases List.mem_append.mp hmem with hmem | hmem
      · obtain ⟨e, he⟩ := ht _ hmem
        cases he
      · simp [closed, answered, responseFrame] at hmem

theorem acknowledged_is_stored_first :
    let a := bareAnnouncement (.filled 0) (.filled 1)
    let source : Ipv4Addr := ⟨Vector.replicate 4 10⟩
    ∃ c k, c.threads 0 = some (.call (.insertRecords a source) k) ∧
      ∀ e r c', server.Step c (.called 0 e r) c' → StoresAll c' a source := by
  intro a source
  obtain ⟨ls, c, hrun, hopened, hack, hnot, -, -⟩ :=
    @run_first (.v4 source 51820) _ _ (.filled 0) (.filled 1) (.cons (.nil _))
  rcases acknowledged_is_stored hrun hopened rfl hack with
    ⟨before, now, after, c', rfl, -, -⟩ | ⟨⟨k, hk⟩, hstep⟩
  · exact (hnot _ _ _ (List.mem_append_right before List.mem_cons_self)).elim
  · exact ⟨c, k, hk, hstep⟩

/-- The records of an answered client are lost when it has an IPv6 address, or
when it hangs up before the shutdown. -/
theorem answered_but_not_stored :
    let a := bareAnnouncement (.filled 0) (.filled 1)
    let v6 : SocketAddr := .v6 ⟨Vector.replicate 16 1⟩ 51820 0 0
    let v4 : SocketAddr := .v4 ⟨Vector.replicate 4 10⟩ 51820
    a.valid = true ∧
      (∃ ls c, server.Run (ServerConfig.start .new) ls c ∧ .opened 0 v6 ∈ ls ∧
        closed a v6 (lookedUp .new a v6) (.ok ()) <:+: System.calls 0 ls ∧
        (∀ b source now, .called 0 (.insertRecords b source) now ∉ ls) ∧
        c.threads 0 = some (.done (.error (.io (.other "bad ip")))) ∧ c.shared.storage = .new) ∧
      ∃ ls c, server.Run (ServerConfig.start .new) ls c ∧ .opened 0 v4 ∈ ls ∧
        closed a v4 (lookedUp .new a v4) (.error .failed) <:+: System.calls 0 ls ∧
        (∀ b source now, .called 0 (.insertRecords b source) now ∉ ls) ∧
        c.threads 0 = some (.done (.error (.io .failed))) ∧ c.shared.storage = .new :=
  ⟨bareAnnouncement_valid _ _, run_first _ _ (.cons (.nil _)), run_first _ _ (.cons (.nil _))⟩

end Wireplug
