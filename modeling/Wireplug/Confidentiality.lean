import Wireplug.TwoRuns

namespace Wireplug

open Foundation Foundation.Program ByteStream WriteLog

variable {X : String} {P : ℕ → Prop} {far : Ipv4Addr → Prop}

structure SameRecord (far : Ipv4Addr → Prop) (r₁ r₂ : Record) : Prop where
  wanIpv4 : r₁.wanIpv4 = r₂.wanIpv4
  wanIpv6 : r₁.wanIpv6 = r₂.wanIpv6
  lanAddrs : r₁.lanAddrs = r₂.lanAddrs ∨ far r₁.wanIpv4
  wgPort : r₁.wgPort = r₂.wgPort
  timestamp : r₁.timestamp = r₂.timestamp

def SameRecords (X : String) (far : Ipv4Addr → Prop) (m₁ m₂ : PeeringRecords) : Prop :=
  ∀ peer, Option.Rel (SameRecord far) (m₁.get? (peer, X)) (m₂.get? (peer, X))

theorem SameRecord.refl (r : Record) : SameRecord far r r := ⟨rfl, rfl, .inl rfl, rfl, rfl⟩

theorem SameRecord.endpointFor {r₁ r₂ : Record} (h : SameRecord far r₁ r₂) {addr : SocketAddr}
    (hnear : ∀ ip, addr.ip = .v4 ip → ¬ far ip) : r₁.endpointFor addr = r₂.endpointFor addr := by
  rw [Record.endpointFor, Record.endpointFor, ← h.wanIpv4, h.wanIpv6, h.wgPort]
  by_cases hip : addr.ip = .v4 r₁.wanIpv4
  · rw [if_pos hip, if_pos hip, h.lanAddrs.resolve_right (hnear _ hip)]
  · rw [if_neg hip, if_neg hip]

theorem SameRecords.lookupEndpoint {s₁ s₂ : Storage}
    (h : SameRecords X far s₁.peeringRecords s₂.peeringRecords) {addr : SocketAddr}
    (hnear : ∀ ip, addr.ip = .v4 ip → ¬ far ip) (peer : String) :
    lookupEndpoint s₁ X addr peer = lookupEndpoint s₂ X addr peer := by
  have hrecord := h peer
  rw [Wireplug.lookupEndpoint, Wireplug.lookupEndpoint]
  generalize s₁.peeringRecords.get? (peer, X) = o₁, s₂.peeringRecords.get? (peer, X) = o₂ at hrecord
  cases hrecord with
  | none => rfl
  | some hsame => exact hsame.endpointFor hnear

inductive SameOp (far : Ipv4Addr → Prop) :
    Option (Op (String × String) Record) → Option (Op (String × String) Record) → Prop
  | none : SameOp far none none
  | write {updates₁ updates₂ : List ((String × String) × Record)}
      (h : List.Forall₂ (fun p q ↦ p.1 = q.1 ∧ SameRecord far p.2 q.2) updates₁ updates₂) :
      SameOp far (some (.write updates₁)) (some (.write updates₂))
  | sweep (now : SystemTime) : SameOp far (some (.sweep (fresh now))) (some (.sweep (fresh now)))

theorem SameRecords.replay {m₁ m₂ : PeeringRecords} (h : SameRecords X far m₁ m₂)
    {o₁ o₂ : Option (Op (String × String) Record)} (hop : SameOp far o₁ o₂) :
    SameRecords X far (replay o₁.toList m₁) (replay o₂.toList m₂) := by
  intro peer
  cases hop with
  | none => exact h peer
  | write hupdates => exact get?_write_rel (lastUpdate_rel hupdates (peer, X)) (h peer)
  | sweep now =>
    refine get?_sweep_rel (fun r₁ r₂ hr ↦ ?_) (h peer)
    rw [fresh, fresh, hr.timestamp]

theorem announcedRecords_rel {addr : SocketAddr} {a₁ a₂ : WireplugAnnouncement}
    (h : Alike X far addr a₁ a₂) {ipv4 : Ipv4Addr} (hip : addr.ip = .v4 ipv4)
    (now : ℕ → SystemTime) :
    List.Forall₂ (fun p q ↦ p.1 = q.1 ∧ SameRecord far p.2 q.2)
      (announcedRecords a₁ ipv4 now) (announcedRecords a₂ ipv4 now) := by
  rcases h with rfl | ⟨-, hfar, heq⟩
  · exact List.forall₂_same.mpr fun p _ ↦ ⟨rfl, .refl p.2⟩
  · rw [heq, announcedRecords, announcedRecords, List.forall₂_map_left_iff,
      List.forall₂_map_right_iff]
    exact List.forall₂_same.mpr fun p _ ↦ ⟨rfl, rfl, rfl, .inr (hfar ipv4 hip), rfl, rfl⟩

theorem SameProgress.sameOp {t₁ t₂ : ServerTrace} {e₁ e₂ : ServerEffect}
    {k₁ : e₁.Answer → Connection} {k₂ : e₂.Answer → Connection} {r₁ : e₁.Answer} {r₂ : e₂.Answer}
    (h : SameProgress X far t₁ t₂ (some (.call e₁ k₁)) (some (.call e₂ k₂)))
    (hagree : Agree X far ⟨e₁, r₁⟩ ⟨e₂, r₂⟩) (i : ℕ) :
    SameOp far (logOp (.called i e₁ r₁)) (logOp (.called i e₂ r₂)) := by
  cases h with
  | reading _ _ hp₁ hp₂ =>
    have hquiet {addr : SocketAddr} {e : ServerEffect} {k : e.Answer → Connection}
        (hp : Reading addr (.call e k)) (r : e.Answer) : logOp (.called i e r) = none := by
      rcases hp.call with ⟨⟨e', rfl⟩, -⟩ | ⟨a, heq⟩
      · rfl
      · cases heq
        rfl
    rw [hquiet hp₁, hquiet hp₂]
    exact .none
  | answering _ _ halike _ _ hp =>
    cases hp.1 with
    | writes | shutsDown | counts => exact .none
    | stores hip =>
      cases hagree with
      | other _ _ hnow =>
        obtain rfl : r₁ = r₂ := hnow
        exact .write (announcedRecords_rel halike hip r₁)

/-- What `X` may learn is the same in both runs, and so is the progress of the
connections in `P`. -/
structure SameView (X : String) (P : ℕ → Prop) (far : Ipv4Addr → Prop) (ls₁ : List ServerLabel)
    (c₁ : ServerConfig) (ls₂ : List ServerLabel) (c₂ : ServerConfig) : Prop where
  records : SameRecords X far c₁.shared.storage.peeringRecords c₂.shared.storage.peeringRecords
  connections : ∀ i, P i →
    SameProgress X far (System.calls i ls₁) (System.calls i ls₂) (c₁.threads i) (c₂.threads i)

def Outside (P : ℕ → Prop) : ServerLabel → Prop
  | .opened i _ => ¬ P i
  | .called i _ _ => ¬ P i
  | .happened _ => True

theorem Unrelated.outside {l : ServerLabel} (h : Unrelated X P l) : Outside P l := by
  cases h with
  | opened hi _ => exact hi
  | called hi _ _ => exact hi
  | tlsError => exact trivial

theorem Outside.calls {l : ServerLabel} (h : Outside P l) {i : ℕ} (hi : P i)
    (ls : List ServerLabel) : System.calls i (ls ++ [l]) = System.calls i ls := by
  rw [System.calls_append]
  cases l with
  | opened j addr => exact List.append_nil _
  | called j e r =>
    have hj : j ≠ i := fun heq ↦ h (heq ▸ hi)
    rw [System.calls_other hj, List.append_nil]
  | happened ev => exact List.append_nil _

theorem Outside.threads {l : ServerLabel} (h : Outside P l) {i : ℕ} (hi : P i)
    {c c' : ServerConfig} (hstep : server.Step c l c') : c'.threads i = c.threads i := by
  cases hstep with
  | @opened j _ _ =>
    have hj : i ≠ j := fun heq ↦ h (heq ▸ hi)
    exact Function.update_of_ne hj _ _
  | @called j _ _ _ _ _ _ =>
    have hj : i ≠ j := fun heq ↦ h (heq ▸ hi)
    exact Function.update_of_ne hj _ _
  | happened _ => rfl

theorem get?_unrelated {ls : List ServerLabel} {l : ServerLabel} {c c' : ServerConfig}
    (hrun : server.Run (ServerConfig.start .new) ls c) (hstep : server.Step c l c')
    (hl : Unrelated X P l)
    (hpast : ∀ i a addr m, ¬ P i → .called i (.getPeerEndpoints a addr) m ∈ ls → ¬ Concerns X a)
    (peer : String) : c'.shared.storage.peeringRecords.get? (peer, X) =
      c.shared.storage.peeringRecords.get? (peer, X) := by
  rw [peeringRecords_step hstep]
  cases hl with
  | opened _ _ => rfl
  | tlsError => rfl
  | @called i e hi _ r =>
    cases e with
    | stream | getPeerEndpoints | incRelaysNeeded => rfl
    | insertRecords a ipv4 =>
      obtain ⟨addr, -, hcalls⟩ := connection_calls (hrun.snoc hstep)
      obtain ⟨-, -, m, hack⟩ := hcalls.stores a ipv4 rfl
      have hconcerns := hpast i a addr m hi
        (System.mem_calls.mp (hack.subset lookup_mem_acknowledged))
      have hnone : lastUpdate (announcedRecords a ipv4 r) (peer, X) = none := by
        rw [← Option.not_isSome_iff_eq_none, lastUpdate_announced_isSome]
        exact fun h ↦ hconcerns (.inr h.2)
      refine (get?_write _ _ _).trans ?_
      rw [hnone, Option.none_or]

section Steps

variable {ls₁ ls₂ : List ServerLabel} {l : ServerLabel} {c₁ c₂ c₁' c₂' : ServerConfig}

theorem SameView.left (h : SameView X P far ls₁ c₁ ls₂ c₂) (hl : Outside P l)
    (hstep : server.Step c₁ l c₁')
    (hget : ∀ peer, c₁'.shared.storage.peeringRecords.get? (peer, X) =
      c₁.shared.storage.peeringRecords.get? (peer, X)) :
    SameView X P far (ls₁ ++ [l]) c₁' ls₂ c₂ where
  records peer := by
    rw [hget]
    exact h.records peer
  connections i hi := by
    rw [hl.calls hi, hl.threads hi hstep]
    exact h.connections i hi

theorem SameView.right (h : SameView X P far ls₁ c₁ ls₂ c₂) (hl : Outside P l)
    (hstep : server.Step c₂ l c₂')
    (hget : ∀ peer, c₂'.shared.storage.peeringRecords.get? (peer, X) =
      c₂.shared.storage.peeringRecords.get? (peer, X)) :
    SameView X P far ls₁ c₁ (ls₂ ++ [l]) c₂' where
  records peer := by
    rw [hget]
    exact h.records peer
  connections i hi := by
    rw [hl.calls hi, hl.threads hi hstep]
    exact h.connections i hi

theorem SameView.opened (h : SameView X P far ls₁ c₁ ls₂ c₂) {i : ℕ} {addr : SocketAddr}
    (hstep₁ : server.Step c₁ (.opened i addr) c₁') (hstep₂ : server.Step c₂ (.opened i addr) c₂') :
    SameView X P far (ls₁ ++ [.opened i addr]) c₁' (ls₂ ++ [.opened i addr]) c₂' := by
  cases hstep₁ with
  | opened _ hfree₁ =>
  cases hstep₂ with
  | opened _ hfree₂ =>
  refine ⟨h.records, fun j hj ↦ ?_⟩
  have hprogress := h.connections j hj
  have hcalls (ls : List ServerLabel) :
      System.calls j (ls ++ [.opened i addr]) = System.calls j ls := by
    rw [System.calls_append]
    exact List.append_nil _
  rw [hcalls, hcalls]
  by_cases heq : j = i
  · subst heq
    rw [hfree₁, hfree₂] at hprogress
    dsimp only
    rw [Function.update_self, Function.update_self]
    generalize System.calls j ls₁ = t₁, System.calls j ls₂ = t₂ at hprogress
    cases hprogress with
    | unopened =>
      exact .reading (fun _ hev ↦ by cases hev) (fun _ hev ↦ by cases hev)
        (reading_start addr) (reading_start addr)
  · dsimp only
    rw [Function.update_of_ne heq, Function.update_of_ne heq]
    exact hprogress

theorem SameView.happened (h : SameView X P far ls₁ c₁ ls₂ c₂) {ev : ServerEvent}
    (hstep₁ : server.Step c₁ (.happened ev) c₁') (hstep₂ : server.Step c₂ (.happened ev) c₂') :
    SameView X P far (ls₁ ++ [.happened ev]) c₁' (ls₂ ++ [.happened ev]) c₂' := by
  refine ⟨?_, fun i hi ↦ ?_⟩
  · have hop : SameOp far (logOp (.happened ev)) (logOp (.happened ev)) := by
      cases ev with
      | sweeps now => exact .sweep now
      | tlsError | sweepStarts => exact .none
    rw [peeringRecords_step hstep₁, peeringRecords_step hstep₂]
    exact h.records.replay hop
  · have hl : Outside P (.happened ev) := trivial
    rw [hl.calls hi, hl.calls hi, hl.threads hi hstep₁, hl.threads hi hstep₂]
    exact h.connections i hi

theorem equiv_of_lookups {s₁ s₂ s₁' s₂' : ServerState} {i : ℕ} {a : WireplugAnnouncement}
    {addr : SocketAddr} {m₁ m₂ : HashMap String WireplugEndpoint}
    (h : SameRecords X far s₁.storage.peeringRecords s₂.storage.peeringRecords)
    (hX : a.initiatorPubkey = X) (hnear : ∀ ip, addr.ip = .v4 ip → ¬ far ip)
    (h₁ : ServerAnswers s₁ i (.getPeerEndpoints a addr) m₁ s₁')
    (h₂ : ServerAnswers s₂ i (.getPeerEndpoints a addr) m₂ s₂') : m₁.Equiv m₂ := by
  intro peer
  rw [get?_lookup h₁, get?_lookup h₂, hX, h.lookupEndpoint hnear]

theorem SameView.called (h : SameView X P far ls₁ c₁ ls₂ c₂) {i : ℕ} (hi : P i)
    {e₁ e₂ : ServerEffect} {r₁ : e₁.Answer} {r₂ : e₂.Answer} (hagree : Agree X far ⟨e₁, r₁⟩ ⟨e₂, r₂⟩)
    (hrun₁ : server.Run (ServerConfig.start .new) ls₁ c₁)
    (hrun₂ : server.Run (ServerConfig.start .new) ls₂ c₂)
    (hstep₁ : server.Step c₁ (.called i e₁ r₁) c₁') (hstep₂ : server.Step c₂ (.called i e₂ r₂) c₂')
    (hnear : ∀ a addr, e₁ = .getPeerEndpoints a addr → a.initiatorPubkey = X →
      ∀ ip, addr.ip = .v4 ip → ¬ far ip) :
    SameView X P far (ls₁ ++ [.called i e₁ r₁]) c₁' (ls₂ ++ [.called i e₂ r₂]) c₂' := by
  have hrecords₁ := peeringRecords_step hstep₁
  have hrecords₂ := peeringRecords_step hstep₂
  have hlast₁ := hrun₁.snoc hstep₁
  have hlast₂ := hrun₂.snoc hstep₂
  cases hstep₁ with
  | called hi₁ hanswer₁ =>
  cases hstep₂ with
  | called hi₂ hanswer₂ =>
  have hprogress := h.connections i hi
  rw [hi₁, hi₂] at hprogress
  refine ⟨?_, fun j hj ↦ ?_⟩
  · rw [hrecords₁, hrecords₂]
    exact h.records.replay (hprogress.sameOp hagree i)
  · dsimp only
    by_cases heq : j = i
    · subst heq
      rw [Function.update_self, Function.update_self, System.calls_append, System.calls_append,
        System.calls_self, System.calls_self]
      refine hprogress.advance hagree fun a₁ a₂ addr m₁ m₂ heq₁ heq₂ halike ↦ ?_
      cases heq₁
      cases heq₂
      refine ⟨fun hX ↦ ?_, response_fits hlast₁, response_fits hlast₂⟩
      obtain rfl := halike.eq hX
      exact equiv_of_lookups h.records hX (hnear _ _ rfl hX) hanswer₁ hanswer₂
    · rw [Function.update_of_ne heq, Function.update_of_ne heq, System.calls_append,
        System.calls_append, System.calls_other (Ne.symm heq), System.calls_other (Ne.symm heq),
        List.append_nil, List.append_nil]
      exact h.connections j hj

end Steps

theorem not_concerns {i : ℕ} {a : WireplugAnnouncement} {addr : SocketAddr}
    {m : HashMap String WireplugEndpoint} (hi : ¬ P i)
    (h : Unrelated X P (.called i (.getPeerEndpoints a addr) m) ∨ P i) : ¬ Concerns X a := by
  cases h.resolve_right hi with
  | called _ hlookup _ => exact hlookup a addr rfl

section Theorem

variable {ls₁ ls₂ : List ServerLabel} {c₁ c₂ : ServerConfig}

theorem not_concerns_left (h : Twins (Unrelated X P) (Matching X P far) ls₁ ls₂) {i : ℕ}
    {a : WireplugAnnouncement} {addr : SocketAddr} {m : HashMap String WireplugEndpoint}
    (hi : ¬ P i) (hmem : .called i (.getPeerEndpoints a addr) m ∈ ls₁) : ¬ Concerns X a := by
  refine not_concerns hi ((h.of_mem_left hmem).imp_right fun hpair ↦ ?_)
  obtain ⟨l, hpair⟩ := hpair
  cases hpair with
  | called hi _ => exact hi

theorem not_concerns_right (h : Twins (Unrelated X P) (Matching X P far) ls₁ ls₂) {i : ℕ}
    {a : WireplugAnnouncement} {addr : SocketAddr} {m : HashMap String WireplugEndpoint}
    (hi : ¬ P i) (hmem : .called i (.getPeerEndpoints a addr) m ∈ ls₂) : ¬ Concerns X a := by
  refine not_concerns hi ((h.of_mem_right hmem).imp_right fun hpair ↦ ?_)
  obtain ⟨l, hpair⟩ := hpair
  cases hpair with
  | called hi _ => exact hi

/-- Matching steps, a lookup by `X` being made from nowhere far. -/
def Near (X : String) (P : ℕ → Prop) (far : Ipv4Addr → Prop) (l₁ l₂ : ServerLabel) : Prop :=
  Matching X P far l₁ l₂ ∧ ∀ i a addr m, l₁ = .called i (.getPeerEndpoints a addr) m →
    a.initiatorPubkey = X → ∀ ip, addr.ip = .v4 ip → ¬ far ip

theorem sameView_of_runs (h : Twins (Unrelated X P) (Near X P far) ls₁ ls₂)
    (hrun₁ : server.Run (ServerConfig.start .new) ls₁ c₁)
    (hrun₂ : server.Run (ServerConfig.start .new) ls₂ c₂) : SameView X P far ls₁ c₁ ls₂ c₂ := by
  have hmatching {ls₁ ls₂ : List ServerLabel} (h : Twins (Unrelated X P) (Near X P far) ls₁ ls₂) :
      Twins (Unrelated X P) (Matching X P far) ls₁ ls₂ := h.mono fun _ _ _ hpair ↦ hpair.1
  refine h.unwind ?_ ?_ ?_ ?_ hrun₁ hrun₂
  · exact ⟨fun peer ↦ .none, fun i _ ↦ .unopened⟩
  · intro ls₁ b₁ l c₁ ls₂ b₂ h hrun₁ hrun₂ hview hl hstep
    exact hview.left hl.outside hstep (get?_unrelated hrun₁ hstep hl
      fun i a addr m hi hmem ↦ not_concerns_left (hmatching h) hi hmem)
  · intro ls₁ b₁ ls₂ b₂ l c₂ h hrun₁ hrun₂ hview hl hstep
    exact hview.right hl.outside hstep (get?_unrelated hrun₂ hstep hl
      fun i a addr m hi hmem ↦ not_concerns_right (hmatching h) hi hmem)
  · intro ls₁ b₁ l₁ c₁ ls₂ b₂ l₂ c₂ h hrun₁ hrun₂ hview hpair hstep₁ hstep₂
    obtain ⟨hpair, hnear⟩ := hpair
    cases hpair with
    | opened _ addr => exact hview.opened hstep₁ hstep₂
    | called hi hagree =>
      refine hview.called hi hagree hrun₁ hrun₂ hstep₁ hstep₂ fun a addr he hX ↦ ?_
      subst he
      exact hnear _ a addr _ rfl hX
    | happened ev => exact hview.happened hstep₁ hstep₂

/-- What other clients tell each other, and their LAN addresses as long as they
are elsewhere, make no difference to the responses that `X` gets. -/
theorem responses_confidential (hrun₁ : server.Run (ServerConfig.start .new) ls₁ c₁)
    (hrun₂ : server.Run (ServerConfig.start .new) ls₂ c₂)
    (h : Twins (Unrelated X P) (Matching X P (FarFrom X ls₁)) ls₁ ls₂) (i : ℕ) :
    SameResponse X (System.calls i ls₁) (System.calls i ls₂) := by
  by_cases hi : P i
  · have hnear : Twins (Unrelated X P) (Near X P (FarFrom X ls₁)) ls₁ ls₂ := by
      refine h.mono fun l₁ hmem l₂ hpair ↦ ⟨hpair, fun j a addr m hl hX ip hip hfar ↦ ?_⟩
      subst hl
      exact hfar j a addr m hmem hX hip
    exact ((sameView_of_runs hnear hrun₁ hrun₂).connections i hi).response
  · refine .none (fun ev hev a addr hlookup hX ↦ ?_) fun ev hev a addr hlookup hX ↦ ?_
    · obtain ⟨e, m⟩ := ev
      subst hlookup
      exact not_concerns_left h hi (System.mem_calls.mp hev) (.inl hX)
    · obtain ⟨e, m⟩ := ev
      subst hlookup
      exact not_concerns_right h hi (System.mem_calls.mp hev) (.inl hX)

end Theorem

theorem twins_preceded {i : ℕ} (addr : SocketAddr) (t : ServerTrace) (ms : List ServerLabel)
    (hms : ∀ l ∈ ms, Unrelated X (· = i) l) : Twins (Unrelated X (· = i)) (Matching X (· = i) far)
      ([.opened i addr] ++ t.map fun ev ↦ .called i ev.1 ev.2)
      (ms ++ ([.opened i addr] ++ t.map fun ev ↦ .called i ev.1 ev.2)) := by
  refine (Twins.nil.right_append ms hms).append _ fun l hl ↦ ?_
  rcases List.mem_cons.mp hl with rfl | hl
  · exact @Matching.opened X (· = i) far i rfl addr
  · obtain ⟨ev, -, rfl⟩ := List.mem_map.mp hl
    exact @Matching.called X (· = i) far i _ _ _ _ rfl (.refl _)

theorem answers_stream_anywhere {s : ServerState} {i : ℕ} {ev : Event ServerEffect.Answer}
    (he : ∃ e, ev.1 = .stream e) (h : ServerAnswers s i ev.1 ev.2 s) (s' : ServerState) :
    ServerAnswers s' i ev.1 ev.2 s' := by
  obtain ⟨e, r⟩ := ev
  obtain ⟨e, rfl⟩ := he
  cases h with
  | readExact => exact .readExact _ _ _
  | readError => exact .readError _ _ _ _
  | writeAll => exact .writeAll _ _ _ _
  | shutdown => exact .shutdown _ _ _

theorem unconcerned : ¬ Concerns (bareAnnouncement (.filled 0) (.filled 1)).initiatorPubkey
    (bareAnnouncement (.filled 2) (.filled 3)) := by
  have hkey {k k' : Key} (h : k ≠ k') : k.toBase64 ≠ k'.toBase64 :=
    fun heq ↦ h (toBase64_injective heq)
  intro h
  rcases h with h | h
  · exact hkey (by decide) h
  · exact hkey (by decide) (List.mem_singleton.mp h)

theorem lookedUp_others (storage : Storage) (source : Ipv4Addr) (now : ℕ → SystemTime)
    (addr : SocketAddr) :
    lookedUp (storage.insertRecords (bareAnnouncement (.filled 2) (.filled 3)) source now)
        (bareAnnouncement (.filled 0) (.filled 1)) addr =
      lookedUp storage (bareAnnouncement (.filled 0) (.filled 1)) addr := by
  have hother : (bareAnnouncement (.filled 2) (.filled 3)).initiatorPubkey ≠
      (Key.filled 1).toBase64 :=
    fun heq ↦ absurd (toBase64_injective heq) (by decide)
  have hsame : lookupEndpoint
      (storage.insertRecords (bareAnnouncement (.filled 2) (.filled 3)) source now)
      (Key.filled 0).toBase64 addr (Key.filled 1).toBase64 =
        lookupEndpoint storage (Key.filled 0).toBase64 addr (Key.filled 1).toBase64 := by
    rw [lookupEndpoint, get?_insertRecords_of_ne hother, lookupEndpoint]
  exact congrArg (fun endpoint ↦ HashMap.ofEntries [((Key.filled 1).toBase64, endpoint)]) hsame

/-- What a client has done on one server it can do on every other one with the same answer for it,
step by step. -/
theorem run_served {a : WireplugAnnouncement} {addr : SocketAddr} {t : ServerTrace} {i : ℕ}
    {s : ServerState} {q : Program ServerEffect.Answer (Except ServerError Unit)}
    {m : HashMap String WireplugEndpoint} {r : Except IoError Unit}
    (ht : ∀ ev ∈ t, ∃ e, ev.1 = .stream e)
    (hpath : (handleConnection addr).run.Path (t ++ closed a addr m r) q)
    (hanswers : ∀ ev ∈ t ++ closed a addr m r, ServerAnswers s i ev.1 ev.2 s) {c : ServerConfig}
    (hfree : c.threads i = none) (hlookup : lookedUp c.shared.storage a addr = m) :
    ∃ c', server.Run c ([.opened i addr] ++
      (t ++ closed a addr m r).map fun ev ↦ .called i ev.1 ev.2) c' := by
  have hopen : server.Step c (.opened i addr)
      ⟨c.shared, Function.update c.threads i (some (handleConnection addr).run)⟩ :=
    .opened addr hfree
  refine ⟨_, (System.Run.one hopen).trans
    (System.Run.along hpath (.still fun ev hev ↦ ?_) c.threads)⟩
  rcases List.mem_append.mp hev with hev' | hev'
  · exact answers_stream_anywhere (ht ev hev') (hanswers ev hev) _
  · refine answers_closed c.shared i a addr r ev ?_
    rwa [hlookup]

/-- The other client announces itself and is stored, on a connection of its own. -/
theorem unrelated_stored {t : ServerTrace} (ht : ∀ ev ∈ t, ∃ e, ev.1 = .stream e)
    (addr : SocketAddr) (source : Ipv4Addr) (m : HashMap String WireplugEndpoint)
    (r : Except IoError Unit) (now : ℕ → SystemTime) :
    let a := bareAnnouncement (.filled 0) (.filled 1)
    let b := bareAnnouncement (.filled 2) (.filled 3)
    ∀ l ∈ ([.opened 0 addr] ++ (t ++ closed b addr m r).map fun ev ↦ .called 0 ev.1 ev.2) ++
      [.called 0 (.insertRecords b source) now], Unrelated a.initiatorPubkey (· = 1) l := by
  intro a b l hl
  rcases List.mem_append.mp hl with hl | hl
  · rcases List.mem_cons.mp hl with rfl | hl
    · exact @Unrelated.opened _ (· = 1) 0 Nat.zero_ne_one _
    · obtain ⟨ev, hev, rfl⟩ := List.mem_map.mp hl
      refine @Unrelated.called _ (· = 1) 0 _ Nat.zero_ne_one (fun b' d hlookup hconcerns ↦ ?_) ev.2
      rcases stream_or_lookup ht hev with ⟨e, he⟩ | he
      · cases he.symm.trans hlookup
      · cases he.symm.trans hlookup
        exact unconcerned hconcerns
  · cases List.mem_singleton.mp hl
    exact @Unrelated.called _ (· = 1) 0 _ Nat.zero_ne_one (fun b' d hlookup ↦ by cases hlookup) _

/-- A client gets its response; in one of the runs another one has been stored before. -/
theorem responses_confidential_others :
    let a := bareAnnouncement (.filled 0) (.filled 1)
    let b := bareAnnouncement (.filled 2) (.filled 3)
    let source : Ipv4Addr := .new 198 51 100 7
    let addr : SocketAddr := .v4 (.new 203 0 113 5) 51820
    ∃ (ls ms : List ServerLabel) (m : HashMap String WireplugEndpoint),
      ⟨.getPeerEndpoints a addr, m⟩ ∈ System.calls 1 ls ∧
      SameResponse a.initiatorPubkey (System.calls 1 ls)
        (System.calls 1 (ms ++ [.called 0 (.insertRecords b source) fun _ ↦ 0] ++ ls)) := by
  intro a b source addr
  have hlen : (encodeAnnouncement a).length ≤ maxMessageSize := by
    rw [bareAnnouncement_length]
    decide
  have hresponse : (encodeResponse ⟨lookedUp .new a addr⟩).length < 2 ^ 32 := by
    rw [encodeResponse_new_bare]
    decide
  obtain ⟨t, ht, hpath, hanswers⟩ := @path_closed a addr (.start .new) (.ok ()) _
    (bareAnnouncement_valid _ _) hlen hresponse (.cons (.nil _)) 1
  obtain ⟨t', ht', hrun'⟩ := @run_answered_bare (.v4 source 51820) (ServerConfig.start .new) 0
    (.ok ()) (recordAnnouncement b (.v4 source 51820)).run rfl rfl (.filled 2) (.filled 3)
    (.cons (.nil _))
  obtain ⟨c₁, hrun', hthread, hfree₁, hshared₁⟩ : ∃ c₁, server.Run (ServerConfig.start .new) _ c₁ ∧
      c₁.threads 0 = some (recordAnnouncement b (.v4 source 51820)).run ∧ c₁.threads 1 = none ∧
      c₁.shared = .start .new :=
    ⟨_, hrun', rfl, rfl, rfl⟩
  obtain ⟨c₂, hstore, -, hother, hshared₂⟩ := run_store hthread fun _ ↦ 0
  have hbefore := hrun'.snoc hstore
  obtain ⟨c₃, halone⟩ := @run_served _ _ _ _ _ _ _ _ ht hpath hanswers (.start .new) rfl rfl
  obtain ⟨c₄, hafter⟩ := @run_served _ _ _ _ _ _ _ _ ht hpath hanswers c₂
    ((hother 1 (by decide)).trans hfree₁) (by
      rw [hshared₂, hshared₁]
      exact lookedUp_others _ _ _ _)
  have hsame := @responses_confidential a.initiatorPubkey (· = 1) _ _ _ _ halone
    (hbefore.trans hafter) (twins_preceded addr _ _ (unrelated_stored ht' _ _ _ _ _)) 1
  refine ⟨_, _, lookedUp .new a addr, ?_, hsame⟩
  rw [System.calls_append, System.calls_map_self]
  exact List.mem_append_right _ (List.mem_append_right _ (List.mem_append_left _ List.mem_cons_self))

end Wireplug
