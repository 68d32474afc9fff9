import Wireplug.AnnouncementLog

namespace Wireplug

open Foundation Foundation.Program ByteStream WriteLog

theorem mem_order {α : Type} {a b : α} {l : List α} (ha : a ∈ l) (hb : b ∈ l) (hne : a ≠ b) :
    (∃ u m v, l = u ++ a :: (m ++ b :: v)) ∨ ∃ u m v, l = u ++ b :: (m ++ a :: v) := by
  obtain ⟨u, v, rfl⟩ := List.append_of_mem ha
  rcases List.mem_append.mp hb with hb | hb
  · obtain ⟨u, m, rfl⟩ := List.append_of_mem hb
    exact .inr ⟨u, m, v, by rw [List.append_assoc, List.cons_append]⟩
  · rcases List.mem_cons.mp hb with rfl | hb
    · exact (hne rfl).elim
    · obtain ⟨m, v, rfl⟩ := List.append_of_mem hb
      exact .inl ⟨u, m, v, rfl⟩

theorem order_cases {α : Type} {a b : α} {l : List α} (ha : a ∈ l) (hb : b ∈ l) (hne : a ≠ b) :
    (∃ u m v, l = u ++ a :: (m ++ b :: v)) ∨ [b, a].Sublist l := by
  refine (mem_order ha hb hne).imp_right fun horder ↦ ?_
  obtain ⟨u, m, v, rfl⟩ := horder
  have ha : [a].Sublist (m ++ a :: v) := List.singleton_sublist.mpr (by simp)
  exact (List.Sublist.cons_cons b ha).trans (List.sublist_append_right u _)

variable {storage : Storage} {before during ls : List ServerLabel} {c c' : ServerConfig}
  {x y : ℕ} {addrX addrY : SocketAddr} {aX aY : WireplugAnnouncement}
  {mX mY : HashMap String WireplugEndpoint}

def Knows (c : ServerConfig) (initiator peer : String) : Prop :=
  (c.shared.storage.peeringRecords.get? (initiator, peer)).isSome = true

theorem knows_step {initiator peer : String} {l : ServerLabel} (h : server.Step c l c')
    (hl : ∀ now, l ≠ .happened (.sweeps now)) (hc : Knows c initiator peer) :
    Knows c' initiator peer := by
  rw [Knows, peeringRecords_step h]
  cases hop : logOp l with
  | none => exact hc
  | some op =>
    cases op with
    | write updates =>
      change (((Op.write updates).apply c.shared.storage.peeringRecords).get? _).isSome = true
      rw [get?_write, Option.isSome_or, Bool.or_eq_true]
      exact .inr hc
    | sweep keep =>
      cases l with
      | happened ev =>
        cases ev with
        | sweeps now => exact (hl now rfl).elim
        | tlsError | sweepStarts => cases hop
      | opened i addr => cases hop
      | called i e r => cases e <;> cases hop

theorem knows_run {initiator peer : String} (h : server.Run c ls c')
    (hsweep : ∀ now, .happened (.sweeps now) ∉ ls) (hc : Knows c initiator peer) :
    Knows c' initiator peer := by
  induction h with
  | nil => exact hc
  | snoc _ hs ih =>
    refine knows_step hs (fun now heq ↦ hsweep now ?_) (ih fun now hmem ↦ hsweep now ?_)
    · rw [heq]
      simp
    · exact List.mem_append_left _ hmem

theorem knows_of_store {source : Ipv4Addr} {now : ℕ → SystemTime} {peer : String}
    (h : server.Step c (.called x (.insertRecords aX source) now) c')
    (hpeer : peer ∈ aX.peerPubkeys) : Knows c' aX.initiatorPubkey peer := by
  cases h with
  | called _ h =>
    cases h
    obtain ⟨record, hrecord, -⟩ := get?_insertRecords hpeer _ source now
    rw [Knows, hrecord, Option.isSome_some]

theorem lookup_of_knows {peer : String}
    (h : server.Step c (.called y (.getPeerEndpoints aY addrY) mY) c')
    (hpeer : peer ∈ aY.peerPubkeys) (hknows : Knows c peer aY.initiatorPubkey) :
    ∃ endpoint, mY.get? peer = some endpoint ∧ endpoint ≠ .unknown := by
  cases h with
  | called _ h =>
    obtain ⟨record, hrecord⟩ := Option.isSome_iff_exists.mp hknows
    refine ⟨record.endpointFor addrY, ?_, ?_⟩
    · rw [get?_lookup h, if_pos hpeer, lookupEndpoint, hrecord]
    · rw [Record.endpointFor]
      split <;> exact WireplugEndpoint.noConfusion

theorem found_of_store_before_lookup {a : ServerConfig} {u m v : List ServerLabel}
    {source : Ipv4Addr} {now : ℕ → SystemTime}
    (h : server.Run a (u ++ .called x (.insertRecords aX source) now ::
      (m ++ .called y (.getPeerEndpoints aY addrY) mY :: v)) c)
    (hsweep : ∀ t, .happened (.sweeps t) ∉ m)
    (hX : aX.initiatorPubkey ∈ aY.peerPubkeys) (hY : aY.initiatorPubkey ∈ aX.peerPubkeys) :
    ∃ endpoint, mY.get? aX.initiatorPubkey = some endpoint ∧ endpoint ≠ .unknown := by
  obtain ⟨s₁, s₂, -, hstore, hrest⟩ := h.split_at
  obtain ⟨s₃, s₄, hmid, hlookup, -⟩ := hrest.split_at
  exact lookup_of_knows hlookup hX (knows_run hmid hsweep (knows_of_store hstore hY))

theorem stored_of_done (h : server.Run (ServerConfig.start storage) (before ++ during) c)
    (hopened : .opened x addrX ∈ during)
    (hlookup : .called x (.getPeerEndpoints aX addrX) mX ∈ during)
    (hdone : c.threads x = some (.done (.ok ()))) :
    answered aX addrX mX <:+: System.calls x (before ++ during) ∧
      ∃ source now, addrX.ip = .v4 source ∧
        .called x (.insertRecords aX source) now ∈ during := by
  obtain ⟨p, hthread, -, hends⟩ := verified_of_opened h (List.mem_append_right before hopened)
  cases hdone.symm.trans hthread
  obtain ⟨hanswered, source, now, hsource, hstore⟩ := hends.stored rfl aX addrX mX
    (System.mem_calls.mpr (List.mem_append_right before hlookup))
  refine ⟨hanswered, source, now, hsource, ?_⟩
  rcases List.mem_append.mp (System.mem_calls.mp hstore) with hbefore | hduring
  · obtain ⟨u, v, rfl⟩ := List.append_of_mem hopened
    rw [← List.append_assoc] at h
    have hmem := System.mem_calls.mpr (List.mem_append_left u hbefore)
    rw [calls_before_opened h] at hmem
    cases hmem
  · exact hduring

/-- Two clients that announce each other miss each other only if both lookups
come before both stores. -/
theorem rendezvous_unless_crossed
    (h : server.Run (ServerConfig.start storage) (before ++ during) c)
    (hsweep : ∀ now, .happened (.sweeps now) ∉ during)
    (hopenedX : .opened x addrX ∈ during) (hopenedY : .opened y addrY ∈ during)
    (hlookupX : .called x (.getPeerEndpoints aX addrX) mX ∈ during)
    (hlookupY : .called y (.getPeerEndpoints aY addrY) mY ∈ during)
    (hX : aX.initiatorPubkey ∈ aY.peerPubkeys) (hY : aY.initiatorPubkey ∈ aX.peerPubkeys)
    (hdoneX : c.threads x = some (.done (.ok ()))) (hdoneY : c.threads y = some (.done (.ok ()))) :
    answered aX addrX mX <:+: System.calls x (before ++ during) ∧
      answered aY addrY mY <:+: System.calls y (before ++ during) ∧
      ((∃ endpoint, mX.get? aY.initiatorPubkey = some endpoint ∧ endpoint ≠ .unknown) ∨
        (∃ endpoint, mY.get? aX.initiatorPubkey = some endpoint ∧ endpoint ≠ .unknown) ∨
        ∃ sourceX nowX sourceY nowY,
          [.called y (.getPeerEndpoints aY addrY) mY,
            .called x (.insertRecords aX sourceX) nowX].Sublist during ∧
          [.called x (.getPeerEndpoints aX addrX) mX,
            .called y (.insertRecords aY sourceY) nowY].Sublist during) := by
  obtain ⟨hanswerX, sourceX, nowX, -, hstoreX⟩ := stored_of_done h hopenedX hlookupX hdoneX
  obtain ⟨hanswerY, sourceY, nowY, -, hstoreY⟩ := stored_of_done h hopenedY hlookupY hdoneY
  refine ⟨hanswerX, hanswerY, ?_⟩
  obtain ⟨s, -, hduring⟩ := h.split
  rcases order_cases hstoreX hlookupY (fun heq ↦ by cases heq) with ⟨u, m, v, rfl⟩ | hcrossX
  · refine .inr (.inl (found_of_store_before_lookup hduring (fun t ht ↦ hsweep t ?_) hX hY))
    simp [ht]
  · rcases order_cases hstoreY hlookupX (fun heq ↦ by cases heq) with ⟨u, m, v, rfl⟩ | hcrossY
    · refine .inl (found_of_store_before_lookup hduring (fun t ht ↦ hsweep t ?_) hY hX)
      simp [ht]
    · exact .inr (.inr ⟨sourceX, nowX, sourceY, nowY, hcrossX, hcrossY⟩)

theorem run_to_store {i : ℕ} (hfree : c.threads i = none) (hnew : c.shared.storage = .new)
    (initiator peer : Key) (source : Ipv4Addr) (port : UInt16) :
    ∃ ls c', server.Run c (.opened i (.v4 source port) :: ls) c' ∧
      (∀ l ∈ ls, ∃ e r, l = .called i e r ∧ ∀ a source, e ≠ .insertRecords a source) ∧
      answered (bareAnnouncement initiator peer) (.v4 source port)
        (lookedUp .new (bareAnnouncement initiator peer) (.v4 source port)) <:+:
          System.calls i ls ∧
      c'.threads i =
        some (recordAnnouncement (bareAnnouncement initiator peer) (.v4 source port)).run ∧
      (∀ j, j ≠ i → c'.threads j = c.threads j) ∧ c'.shared = c.shared := by
  rw [← hnew]
  refine run_to_record hfree initiator peer (.v4 source port) ?_
  rw [hnew, encodeResponse_new_bare]
  decide

theorem run_crossed (X Y : Key) (sourceX sourceY : Ipv4Addr) (port : UInt16) :
    ∃ ls c, server.Run (ServerConfig.start .new) ls c ∧
      (∀ now, .happened (.sweeps now) ∉ ls) ∧
      .opened 0 (.v4 sourceX port) ∈ ls ∧ .opened 1 (.v4 sourceY port) ∈ ls ∧
      .called 0 (.getPeerEndpoints (bareAnnouncement X Y) (.v4 sourceX port))
        (lookedUp .new (bareAnnouncement X Y) (.v4 sourceX port)) ∈ ls ∧
      .called 1 (.getPeerEndpoints (bareAnnouncement Y X) (.v4 sourceY port))
        (lookedUp .new (bareAnnouncement Y X) (.v4 sourceY port)) ∈ ls ∧
      c.threads 0 = some (.done (.ok ())) ∧ c.threads 1 = some (.done (.ok ())) := by
  obtain ⟨ls₁, c₁, hrun₁, hcalls₁, hanswered₁, hthread₁, hother₁, hshared₁⟩ :=
    @run_to_store (ServerConfig.start .new) 0 rfl rfl X Y sourceX port
  obtain ⟨ls₂, c₂, hrun₂, hcalls₂, hanswered₂, hthread₂, hother₂, -⟩ :=
    @run_to_store c₁ 1 (hother₁ 1 (by decide)) (by rw [hshared₁]; rfl) Y X sourceY port
  obtain ⟨c₃, hstep₃, hdone₃, hother₃, -⟩ :=
    run_store ((hother₂ 0 (by decide)).trans hthread₁) fun _ ↦ 0
  obtain ⟨c₄, hstep₄, hdone₄, hother₄, -⟩ :=
    run_store ((hother₃ 1 (by decide)).trans hthread₂) fun _ ↦ 0
  refine ⟨_, c₄, ((hrun₁.trans hrun₂).snoc hstep₃).snoc hstep₄, ?_, ?_, ?_, ?_, ?_,
    (hother₄ 0 (by decide)).trans hdone₃, hdone₄⟩
  · simp [no_sweep_of_calls hcalls₁, no_sweep_of_calls hcalls₂]
  all_goals simp [lookup_of_answered hanswered₁, lookup_of_answered hanswered₂]

theorem rendezvous_unless_crossed_empty :
    let aX := bareAnnouncement (.filled 0) (.filled 1)
    let aY := bareAnnouncement (.filled 1) (.filled 0)
    let source : Ipv4Addr := ⟨Vector.replicate 4 10⟩
    ∃ ls : List ServerLabel, ∃ mX mY,
      answered aX (.v4 source 51820) mX <:+: System.calls 0 ls ∧
        answered aY (.v4 source 51820) mY <:+: System.calls 1 ls := by
  intro aX aY source
  obtain ⟨ls, c, hrun, hsweep, hopenedX, hopenedY, hlookupX, hlookupY, hdoneX, hdoneY⟩ :=
    run_crossed (.filled 0) (.filled 1) source source 51820
  rw [← List.nil_append ls] at hrun
  obtain ⟨hX, hY, -⟩ := rendezvous_unless_crossed hrun hsweep hopenedX hopenedY hlookupX hlookupY
    List.mem_cons_self List.mem_cons_self hdoneX hdoneY
  exact ⟨ls, _, _, hX, hY⟩

/-- Two clients that announce each other at the same time are both told that the
other is unknown. -/
theorem crossed_lookups_miss :
    let X : Key := .filled 0
    let Y : Key := .filled 1
    let addrX : SocketAddr := .v4 ⟨Vector.replicate 4 10⟩ 51820
    let addrY : SocketAddr := .v4 ⟨Vector.replicate 4 20⟩ 51820
    X.toBase64 ≠ Y.toBase64 ∧
      (bareAnnouncement X Y).valid = true ∧ (bareAnnouncement Y X).valid = true ∧
      ∃ ls c mX mY, server.Run (ServerConfig.start .new) ls c ∧
        (∀ now, .happened (.sweeps now) ∉ ls) ∧ .opened 0 addrX ∈ ls ∧ .opened 1 addrY ∈ ls ∧
        .called 0 (.getPeerEndpoints (bareAnnouncement X Y) addrX) mX ∈ ls ∧
        .called 1 (.getPeerEndpoints (bareAnnouncement Y X) addrY) mY ∈ ls ∧
        c.threads 0 = some (.done (.ok ())) ∧ c.threads 1 = some (.done (.ok ())) ∧
        mX.get? Y.toBase64 = some .unknown ∧ mY.get? X.toBase64 = some .unknown := by
  intro X Y addrX addrY
  obtain ⟨ls, c, hrun, hsweep, hopenedX, hopenedY, hlookupX, hlookupY, hdoneX, hdoneY⟩ :=
    run_crossed X Y ⟨Vector.replicate 4 10⟩ ⟨Vector.replicate 4 20⟩ 51820
  refine ⟨fun heq ↦ ?_, bareAnnouncement_valid _ _, bareAnnouncement_valid _ _, ls, c, _, _, hrun,
    hsweep, hopenedX, hopenedY, hlookupX, hlookupY, hdoneX, hdoneY, ?_, ?_⟩
  · exact absurd (toBase64_injective heq) (by decide)
  · exact HashMap.get?_eq_some.mpr (lookedUp_new_bare X Y addrX ▸ List.mem_singleton_self _)
  · exact HashMap.get?_eq_some.mpr (lookedUp_new_bare Y X addrY ▸ List.mem_singleton_self _)

end Wireplug
