import Wireplug.Rendezvous

namespace Wireplug

open Foundation Foundation.Program ByteStream WriteLog

/-- The record that `c` has for `peer` under `initiator` is the one built from
`a`, if the steps since it was stored have left it alone. -/
def Keeps (c : ServerConfig) (initiator peer : String) (a : WireplugAnnouncement)
    (source : Ipv4Addr) (now : ℕ → SystemTime) (since : List ServerLabel) : Prop :=
  ∃ record, lastUpdate (announcedRecords a source now) (initiator, peer) = some record ∧
    (Undisturbed initiator peer record since →
      c.shared.storage.peeringRecords.get? (initiator, peer) = some record)

/-- Connection `i` stores `a` after the step `other`, and its record is kept. -/
def StoredAfter (other : ServerLabel) (ls : List ServerLabel) (c : ServerConfig)
    (initiator peer : String) (i : ℕ) (a : WireplugAnnouncement) (source : Ipv4Addr)
    (now : ℕ → SystemTime) : Prop :=
  ∃ u m v, ls = u ++ other :: (m ++ .called i (.insertRecords a source) now :: v) ∧
    Keeps c initiator peer a source now v

variable {storage : Storage} {before after : List ServerLabel} {c : ServerConfig}
  {x y : ℕ} {addrX addrY : SocketAddr} {aX aY : WireplugAnnouncement}
  {mX mY : HashMap String WireplugEndpoint} {initiator peer : String}

theorem keeps_of_store {a : WireplugAnnouncement} {source : Ipv4Addr} {now : ℕ → SystemTime}
    (h : server.Run (ServerConfig.start storage)
      (before ++ .called x (.insertRecords a source) now :: after) c)
    (hinitiator : a.initiatorPubkey = initiator) (hpeer : peer ∈ a.peerPubkeys) :
    Keeps c initiator peer a source now after := by
  have hwritten : (lastUpdate (announcedRecords a source now) (initiator, peer)).isSome :=
    lastUpdate_announced_isSome.mpr ⟨hinitiator, hpeer⟩
  obtain ⟨record, hrecord⟩ := Option.isSome_iff_exists.mp hwritten
  refine ⟨record, hrecord, fun hafter ↦ ?_⟩
  rw [peeringRecords_eq_replay h]
  exact (current_of_undisturbed hrecord hafter).get?_replay _

theorem storedAfter_of_append {other : ServerLabel} {i : ℕ} {a : WireplugAnnouncement}
    {source : Ipv4Addr} {now : ℕ → SystemTime} {u m v : List ServerLabel}
    (h : server.Run (ServerConfig.start storage)
      (u ++ other :: (m ++ .called i (.insertRecords a source) now :: v)) c)
    (hinitiator : a.initiatorPubkey = initiator) (hpeer : peer ∈ a.peerPubkeys) :
    StoredAfter other (u ++ other :: (m ++ .called i (.insertRecords a source) now :: v)) c
      initiator peer i a source now := by
  refine ⟨u, m, v, rfl, ?_⟩
  rw [← List.cons_append, ← List.append_assoc] at h
  exact keeps_of_store h hinitiator hpeer

/-- Of two announcements for the same peer that are both stored, the one stored
last is kept. It is the second one whenever the first was stored before the
connection of the second was opened. -/
theorem stored_last_is_kept
    (h : server.Run (ServerConfig.start storage) (before ++ .opened y addrY :: after) c)
    (hopened : .opened x addrX ∈ before)
    (hanswered : answered aX addrX mX <:+: System.calls x before)
    (hlookup : .called y (.getPeerEndpoints aY addrY) mY ∈ after)
    (hX : aX.initiatorPubkey = initiator) (hY : aY.initiatorPubkey = initiator)
    (hpeerX : peer ∈ aX.peerPubkeys) (hpeerY : peer ∈ aY.peerPubkeys)
    (hdoneX : c.threads x = some (.done (.ok ()))) (hdoneY : c.threads y = some (.done (.ok ()))) :
    ∃ sourceX nowX sourceY nowY, addrX.ip = .v4 sourceX ∧ addrY.ip = .v4 sourceY ∧
      let storeX : ServerLabel := .called x (.insertRecords aX sourceX) nowX
      let storeY : ServerLabel := .called y (.insertRecords aY sourceY) nowY
      let ls := before ++ .opened y addrY :: after
      (StoredAfter storeX ls c initiator peer y aY sourceY nowY ∨
          StoredAfter storeY ls c initiator peer x aX sourceX nowX) ∧
        (storeX ∈ before → StoredAfter storeX ls c initiator peer y aY sourceY nowY) := by
  have hlookupX := lookup_of_answered hanswered
  have hne : x ≠ y := by
    intro heq
    subst heq
    have hcalls := System.mem_calls.mpr hlookupX
    rw [calls_before_opened h] at hcalls
    cases hcalls
  obtain ⟨-, sourceX, nowX, hsourceX, hstoreX⟩ := @stored_of_done _ [] _ _ _ _ _ _ h
    (List.mem_append_left _ hopened) (List.mem_append_left _ hlookupX) hdoneX
  obtain ⟨-, sourceY, nowY, hsourceY, hstoreY⟩ :=
    stored_of_done h List.mem_cons_self (List.mem_cons_of_mem _ hlookup) hdoneY
  refine ⟨sourceX, nowX, sourceY, nowY, hsourceX, hsourceY, ?_, fun hbefore ↦ ?_⟩
  · have hstores : (.called x (.insertRecords aX sourceX) nowX : ServerLabel) ≠
        .called y (.insertRecords aY sourceY) nowY := fun heq ↦ hne (by cases heq; rfl)
    have hmem : .called x (.insertRecords aX sourceX) nowX ∈ before ++ .opened y addrY :: after :=
      hstoreX
    rcases mem_order hmem (List.mem_append_right before hstoreY) hstores with
      ⟨u, m, v, heq⟩ | ⟨u, m, v, heq⟩
    · rw [heq] at h ⊢
      exact .inl (storedAfter_of_append h hY hpeerY)
    · rw [heq] at h ⊢
      exact .inr (storedAfter_of_append h hX hpeerX)
  · obtain ⟨u, m, rfl⟩ := List.append_of_mem hbefore
    obtain ⟨m', v, heq⟩ := List.append_of_mem hstoreY
    rw [heq, List.append_assoc, List.cons_append, ← List.append_assoc] at h ⊢
    exact storedAfter_of_append h hY hpeerY

theorem run_overtaken (X Y : Key) (sourceX sourceY : Ipv4Addr) (port : UInt16) :
    ∃ before after c mX mY record,
      server.Run (ServerConfig.start .new) (before ++ .opened 1 (.v4 sourceY port) :: after) c ∧
      .opened 0 (.v4 sourceX port) ∈ before ∧
      answered (bareAnnouncement X Y) (.v4 sourceX port) mX <:+: System.calls 0 before ∧
      .called 1 (.getPeerEndpoints (bareAnnouncement X Y) (.v4 sourceY port)) mY ∈ after ∧
      c.threads 0 = some (.done (.ok ())) ∧ c.threads 1 = some (.done (.ok ())) ∧
      c.shared.storage.peeringRecords.get? (X.toBase64, Y.toBase64) = some record ∧
      record.wanIpv4 = sourceX := by
  obtain ⟨ls₁, c₁, hrun₁, -, hanswered₁, hthread₁, hother₁, hshared₁⟩ :=
    @run_to_store (ServerConfig.start .new) 0 rfl rfl X Y sourceX port
  obtain ⟨ls₂, c₂, hrun₂, -, hanswered₂, hthread₂, hother₂, -⟩ :=
    @run_to_store c₁ 1 (hother₁ 1 (by decide)) (by rw [hshared₁]; rfl) X Y sourceY port
  obtain ⟨c₃, hstep₃, hdone₃, hother₃, -⟩ := run_store hthread₂ fun _ ↦ 0
  obtain ⟨c₄, hstep₄, hdone₄, hother₄, hshared₄⟩ :=
    run_store (((hother₃ 0 (by decide)).trans (hother₂ 0 (by decide))).trans hthread₁) fun _ ↦ 0
  have hrun := hrun₁.trans ((hrun₂.snoc hstep₃).snoc hstep₄)
  obtain ⟨record, hrecord, hcarries⟩ :=
    get?_insertRecords (mem_peerPubkeys_bare X Y) c₃.shared.storage sourceX fun _ ↦ 0
  refine ⟨.opened 0 (.v4 sourceX port) :: ls₁, _, c₄, _, _, record, hrun,
    List.mem_cons_self, hanswered₁,
    List.mem_append_left _ (List.mem_append_left _ (lookup_of_answered hanswered₂)),
    hdone₄, (hother₄ 1 (by decide)).trans hdone₃, ?_, hcarries.wanIpv4⟩
  rw [hshared₄]
  exact hrecord

theorem stored_last_is_kept_overtaken :
    let a := bareAnnouncement (.filled 0) (.filled 1)
    let sourceX : Ipv4Addr := .new 203 0 113 5
    let sourceY : Ipv4Addr := .new 198 51 100 7
    ∃ ls c nowX nowY,
      let storeX : ServerLabel := .called 0 (.insertRecords a sourceX) nowX
      let storeY : ServerLabel := .called 1 (.insertRecords a sourceY) nowY
      StoredAfter storeX ls c a.initiatorPubkey (Key.filled 1).toBase64 1 a sourceY nowY ∨
        StoredAfter storeY ls c a.initiatorPubkey (Key.filled 1).toBase64 0 a sourceX nowX := by
  intro a sourceX sourceY
  obtain ⟨before, after, c, mX, mY, -, hrun, hopened, hanswered, hlookup, hdoneX, hdoneY, -, -⟩ :=
    run_overtaken (.filled 0) (.filled 1) sourceX sourceY 51820
  obtain ⟨_, nowX, _, nowY, hsourceX, hsourceY, hstored, -⟩ :=
    stored_last_is_kept hrun hopened hanswered hlookup rfl rfl List.mem_cons_self
      List.mem_cons_self hdoneX hdoneY
  cases hsourceX
  cases hsourceY
  exact ⟨_, c, nowX, nowY, hstored⟩

/-- A client announces from a new address after it got the whole response to
its announcement from the old one, and the old address stays stored. -/
theorem overtaken_update_is_lost :
    let X : Key := .filled 0
    let Y : Key := .filled 1
    let addrX : SocketAddr := .v4 (.new 203 0 113 5) 51820
    let addrY : SocketAddr := .v4 (.new 198 51 100 7) 51820
    (bareAnnouncement X Y).valid = true ∧
      ∃ before after c mX mY record,
        server.Run (ServerConfig.start .new) (before ++ .opened 1 addrY :: after) c ∧
        .opened 0 addrX ∈ before ∧
        answered (bareAnnouncement X Y) addrX mX <:+: System.calls 0 before ∧
        .called 1 (.getPeerEndpoints (bareAnnouncement X Y) addrY) mY ∈ after ∧
        c.threads 0 = some (.done (.ok ())) ∧ c.threads 1 = some (.done (.ok ())) ∧
        c.shared.storage.peeringRecords.get? (X.toBase64, Y.toBase64) = some record ∧
        record.wanIpv4 = .new 203 0 113 5 :=
  ⟨bareAnnouncement_valid _ _, run_overtaken _ _ _ _ _⟩

end Wireplug
