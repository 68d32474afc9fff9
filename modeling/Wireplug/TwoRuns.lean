import Wireplug.Foundation.Relational
import Wireplug.ResponseBound

namespace Wireplug

open Foundation Foundation.Program ByteStream

def Concerns (X : String) (a : WireplugAnnouncement) : Prop :=
  a.initiatorPubkey = X ∨ X ∈ a.peerPubkeys

/-- No connection that announces as `X` has the address `ip`. -/
def FarFrom (X : String) (ls : List ServerLabel) (ip : Ipv4Addr) : Prop :=
  ∀ i a addr m, .called i (.getPeerEndpoints a addr) m ∈ ls → a.initiatorPubkey = X →
    addr.ip ≠ .v4 ip

/-- One announcement from `addr` in two runs. Only the LAN addresses may differ,
and only far from `X`. -/
def Alike (X : String) (far : Ipv4Addr → Prop) (addr : SocketAddr)
    (a₁ a₂ : WireplugAnnouncement) : Prop :=
  a₁ = a₂ ∨ a₁.initiatorPubkey ≠ X ∧ (∀ ip, addr.ip = .v4 ip → far ip) ∧
    a₂ = { a₁ with lanAddrs := a₂.lanAddrs }

/-- The transport fails in both runs or in neither, and the clock reads the same. -/
def SameResult : Event ServerEffect.Answer → Event ServerEffect.Answer → Prop
  | ⟨.stream (.writeAll _), r⟩, ⟨.stream (.writeAll _), r'⟩ => r = r'
  | ⟨.stream .shutdown, r⟩, ⟨.stream .shutdown, r'⟩ => r = r'
  | ⟨.insertRecords _ _, now⟩, ⟨.insertRecords _ _, now'⟩ => now = now'
  | _, _ => True

inductive Agree (X : String) (far : Ipv4Addr → Prop) :
    Event ServerEffect.Answer → Event ServerEffect.Answer → Prop
  | announcing {a₁ a₂ : WireplugAnnouncement} {addr₁ addr₂ : SocketAddr}
      {m₁ m₂ : HashMap String WireplugEndpoint} (h : Alike X far addr₁ a₁ a₂) :
      Agree X far ⟨.getPeerEndpoints a₁ addr₁, m₁⟩ ⟨.getPeerEndpoints a₂ addr₂, m₂⟩
  | other {ev₁ ev₂ : Event ServerEffect.Answer}
      (h₁ : ∀ a addr, ev₁.1 ≠ .getPeerEndpoints a addr)
      (h₂ : ∀ a addr, ev₂.1 ≠ .getPeerEndpoints a addr) (h : SameResult ev₁ ev₂) :
      Agree X far ev₁ ev₂

/-- One step of the schedule in two runs, `P` being the connections in both. -/
inductive Matching (X : String) (P : ℕ → Prop) (far : Ipv4Addr → Prop) :
    ServerLabel → ServerLabel → Prop
  | opened {i : ℕ} (hi : P i) (addr : SocketAddr) :
      Matching X P far (.opened i addr) (.opened i addr)
  | called {i : ℕ} {e₁ e₂ : ServerEffect} {r₁ : e₁.Answer} {r₂ : e₂.Answer} (hi : P i)
      (h : Agree X far ⟨e₁, r₁⟩ ⟨e₂, r₂⟩) : Matching X P far (.called i e₁ r₁) (.called i e₂ r₂)
  | happened (ev : ServerEvent) : Matching X P far (.happened ev) (.happened ev)

inductive Unrelated (X : String) (P : ℕ → Prop) : ServerLabel → Prop
  | opened {i : ℕ} (hi : ¬ P i) (addr : SocketAddr) : Unrelated X P (.opened i addr)
  | called {i : ℕ} {e : ServerEffect} (hi : ¬ P i)
      (h : ∀ a addr, e = .getPeerEndpoints a addr → ¬ Concerns X a) (r : e.Answer) :
      Unrelated X P (.called i e r)
  | tlsError : Unrelated X P (.happened .tlsError)

inductive SameCall (addr : SocketAddr) (a₁ a₂ : WireplugAnnouncement)
    (m₁ m₂ : HashMap String WireplugEndpoint) : ServerEffect → ServerEffect → Prop
  | writes (k : ℕ) {bytes₁ bytes₂ : Bytes} (h₁ : (responseFrame m₁)[k]? = some bytes₁)
      (h₂ : (responseFrame m₂)[k]? = some bytes₂) :
      SameCall addr a₁ a₂ m₁ m₂ (.stream (.writeAll bytes₁)) (.stream (.writeAll bytes₂))
  | shutsDown : SameCall addr a₁ a₂ m₁ m₂ (.stream .shutdown) (.stream .shutdown)
  | stores {ipv4 : Ipv4Addr} (h : addr.ip = .v4 ipv4) :
      SameCall addr a₁ a₂ m₁ m₂ (.insertRecords a₁ ipv4) (.insertRecords a₂ ipv4)
  | counts : SameCall addr a₁ a₂ m₁ m₂ .incRelaysNeeded .incRelaysNeeded

def SameSent (addr : SocketAddr) (a₁ a₂ : WireplugAnnouncement)
    (m₁ m₂ : HashMap String WireplugEndpoint) (ev₁ ev₂ : Event ServerEffect.Answer) : Prop :=
  SameCall addr a₁ a₂ m₁ m₂ ev₁.1 ev₂.1 ∧ SameResult ev₁ ev₂

def OnlyStream (t : ServerTrace) : Prop := ∀ ev ∈ t, ∃ e, ev.1 = .stream e

def Unasked (X : String) (t : ServerTrace) : Prop :=
  ∀ ev ∈ t, ∀ a addr, ev.1 = .getPeerEndpoints a addr → a.initiatorPubkey ≠ X

/-- The connection gives `X` the same response in both runs: the same entries,
and the same pieces in the same steps, but for the order in which the entries
are written. -/
inductive SameResponse (X : String) : ServerTrace → ServerTrace → Prop
  | none {t₁ t₂ : ServerTrace} (h₁ : Unasked X t₁) (h₂ : Unasked X t₂) : SameResponse X t₁ t₂
  | sent {read₁ read₂ sent₁ sent₂ : ServerTrace} {a : WireplugAnnouncement} {addr : SocketAddr}
      {m₁ m₂ : HashMap String WireplugEndpoint} (hread₁ : OnlyStream read₁)
      (hread₂ : OnlyStream read₂) (hX : a.initiatorPubkey = X) (hm : m₁.Equiv m₂)
      (hsent : List.Forall₂ (SameSent addr a a m₁ m₂) sent₁ sent₂) :
      SameResponse X (read₁ ++ ⟨.getPeerEndpoints a addr, m₁⟩ :: sent₁)
        (read₂ ++ ⟨.getPeerEndpoints a addr, m₂⟩ :: sent₂)

variable {X : String} {far : Ipv4Addr → Prop} {addr : SocketAddr} {a₁ a₂ : WireplugAnnouncement}
  {m₁ m₂ : HashMap String WireplugEndpoint}

theorem Alike.initiatorPubkey (h : Alike X far addr a₁ a₂) :
    a₁.initiatorPubkey = a₂.initiatorPubkey := by
  rcases h with rfl | ⟨-, -, h⟩
  · rfl
  · rw [h]

theorem Alike.needsRelay (h : Alike X far addr a₁ a₂) : a₁.needsRelay = a₂.needsRelay := by
  rcases h with rfl | ⟨-, -, h⟩
  · rfl
  · rw [h]

theorem Alike.eq (h : Alike X far addr a₁ a₂) (hX : a₁.initiatorPubkey = X) : a₁ = a₂ := by
  rcases h with rfl | ⟨hne, -⟩
  · rfl
  · exact (hne hX).elim

theorem Agree.refl (ev : Event ServerEffect.Answer) : Agree X far ev ev := by
  obtain ⟨e, r⟩ := ev
  cases e with
  | getPeerEndpoints a addr => exact .announcing (.inl rfl)
  | stream e =>
    refine .other (fun _ _ h ↦ by cases h) (fun _ _ h ↦ by cases h) ?_
    cases e with
    | readExact n => exact trivial
    | writeAll _ | shutdown => exact rfl
  | insertRecords a ipv4 => exact .other (fun _ _ h ↦ by cases h) (fun _ _ h ↦ by cases h) rfl
  | incRelaysNeeded => exact .other (fun _ _ h ↦ by cases h) (fun _ _ h ↦ by cases h) trivial

abbrev Connection := Program ServerEffect.Answer (Except ServerError Unit)

theorem related_writes {C : ServerEffect → ServerEffect → Prop} {pieces₁ pieces₂ : List Bytes}
    (h : List.Forall₂ (fun bytes₁ bytes₂ ↦
      C (.stream (.writeAll bytes₁)) (.stream (.writeAll bytes₂))) pieces₁ pieces₂)
    {f₁ f₂ : Unit → Handler Unit}
    (hf : (f₁ ()).run.Related C SameResult (fun _ _ ↦ True) (f₂ ()).run) :
    (onStream (pieces₁.forM writeAll) >>= f₁).run.Related C SameResult (fun _ _ ↦ True)
      (onStream (pieces₂.forM writeAll) >>= f₂).run := by
  induction h with
  | nil => exact hf
  | cons hpiece _ ih =>
    refine Related.call hpiece fun r r' hr ↦ ?_
    obtain rfl : r = r' := hr
    cases r with
    | error e => exact trivial
    | ok _ => exact ih

theorem related_recordAnnouncement (h : Alike X far addr a₁ a₂) :
    (recordAnnouncement a₁ addr).run.Related (SameCall addr a₁ a₂ m₁ m₂) SameResult
      (fun _ _ ↦ True) (recordAnnouncement a₂ addr).run := by
  rw [recordAnnouncement, recordAnnouncement, processAnnouncement, processAnnouncement]
  cases hip : addr.ip with
  | v6 ip => exact trivial
  | v4 ipv4 =>
    refine Related.call (.stores hip) fun now now' _ ↦ ?_
    rw [← h.needsRelay]
    cases a₁.needsRelay with
    | false => exact trivial
    | true => exact Related.call .counts fun _ _ _ ↦ trivial

theorem related_finishAnnouncement (h : Alike X far addr a₁ a₂) :
    (finishAnnouncement a₁ addr).run.Related (SameCall addr a₁ a₂ m₁ m₂) SameResult
      (fun _ _ ↦ True) (finishAnnouncement a₂ addr).run := by
  refine Related.call .shutsDown fun r r' hr ↦ ?_
  obtain rfl : r = r' := hr
  cases r with
  | error e => exact trivial
  | ok _ => exact related_recordAnnouncement h

theorem related_response (h : Alike X far addr a₁ a₂)
    (hfits₁ : (encodeResponse ⟨m₁⟩).length < 2 ^ 32)
    (hfits₂ : (encodeResponse ⟨m₂⟩).length < 2 ^ 32) :
    (onStream (writeResponse ⟨m₁⟩) >>= fun _ ↦ finishAnnouncement a₁ addr).run.Related
      (SameCall addr a₁ a₂ m₁ m₂) SameResult (fun _ _ ↦ True)
      (onStream (writeResponse ⟨m₂⟩) >>= fun _ ↦ finishAnnouncement a₂ addr).run := by
  have hpieces : List.Forall₂ (fun bytes₁ bytes₂ ↦ SameCall addr a₁ a₂ m₁ m₂
      (.stream (.writeAll bytes₁)) (.stream (.writeAll bytes₂)))
      (responseFrame m₁) (responseFrame m₂) :=
    .cons (.writes 0 rfl rfl) (.cons (.writes 1 rfl rfl)
      (.cons (.writes 2 rfl rfl) (.cons (.writes 3 rfl rfl) .nil)))
  rw [writeResponse_eq, writeResponse_eq, if_pos hfits₁, if_pos hfits₂]
  exact related_writes hpieces (related_finishAnnouncement h)

def Reading (addr : SocketAddr) (p : Connection) : Prop :=
  p.Leads (fun e ↦ ∃ e', e = .stream e') fun q ↦
    (∃ r, q = .done r) ∨ ∃ a, q = (answerAnnouncement a addr).run

theorem reading_start (addr : SocketAddr) : Reading addr (handleConnection addr).run := by
  refine (only_embed _ _ _).leads fun r _ ↦ ?_
  rcases r with e | _ | a
  · exact .here (.inl ⟨_, rfl⟩)
  · exact .here (.inl ⟨_, rfl⟩)
  · change Reading addr
      (if a.valid then answerAnnouncement a addr else onStream shutdown : Handler Unit).run
    split
    · exact .here (.inr ⟨a, rfl⟩)
    · refine .inr ⟨⟨_, rfl⟩, fun r ↦ ?_⟩
      cases r <;> exact .inl ⟨_, rfl⟩

theorem Reading.call {e : ServerEffect} {k : e.Answer → Connection}
    (h : Reading addr (.call e k)) : ((∃ e', e = .stream e') ∧ ∀ r, Reading addr (k r)) ∨
      ∃ a, (.call e k : Connection) = (answerAnnouncement a addr).run := by
  rcases h with (⟨r, h⟩ | h) | h
  · cases h
  · exact .inr h
  · exact .inl h

/-- How far one connection has come in two runs. -/
inductive SameProgress (X : String) (far : Ipv4Addr → Prop) :
    ServerTrace → ServerTrace → Option Connection → Option Connection → Prop
  | unopened : SameProgress X far [] [] none none
  | reading {t₁ t₂ : ServerTrace} {addr : SocketAddr} {p₁ p₂ : Connection} (ht₁ : OnlyStream t₁)
      (ht₂ : OnlyStream t₂) (hp₁ : Reading addr p₁) (hp₂ : Reading addr p₂) :
      SameProgress X far t₁ t₂ (some p₁) (some p₂)
  | answering {read₁ read₂ sent₁ sent₂ : ServerTrace} {addr : SocketAddr}
      {a₁ a₂ : WireplugAnnouncement} {m₁ m₂ : HashMap String WireplugEndpoint}
      {p₁ p₂ : Connection} (hread₁ : OnlyStream read₁) (hread₂ : OnlyStream read₂)
      (halike : Alike X far addr a₁ a₂) (hm : a₁.initiatorPubkey = X → m₁.Equiv m₂)
      (hsent : List.Forall₂ (SameSent addr a₁ a₂ m₁ m₂) sent₁ sent₂)
      (hp : p₁.Related (SameCall addr a₁ a₂ m₁ m₂) SameResult (fun _ _ ↦ True) p₂) :
      SameProgress X far (read₁ ++ ⟨.getPeerEndpoints a₁ addr, m₁⟩ :: sent₁)
        (read₂ ++ ⟨.getPeerEndpoints a₂ addr, m₂⟩ :: sent₂) (some p₁) (some p₂)

theorem OnlyStream.snoc {t : ServerTrace} (h : OnlyStream t) (e : ByteStream.Effect)
    (r : ByteStream.Answer e) : OnlyStream (t ++ [⟨.stream e, r⟩]) := by
  intro ev hev
  rcases List.mem_append.mp hev with hev | hev
  · exact h ev hev
  · exact ⟨e, congrArg Sigma.fst (List.mem_singleton.mp hev)⟩

section Advance

variable {t₁ t₂ : ServerTrace} {e₁ e₂ : ServerEffect} {k₁ : e₁.Answer → Connection}
  {k₂ : e₂.Answer → Connection} {r₁ : e₁.Answer} {r₂ : e₂.Answer}

/-- A pair of steps is both reading, both the lookup, or both part of the answer. -/
theorem SameProgress.advance
    (h : SameProgress X far t₁ t₂ (some (.call e₁ k₁)) (some (.call e₂ k₂)))
    (hagree : Agree X far ⟨e₁, r₁⟩ ⟨e₂, r₂⟩)
    (hlookup : ∀ a₁ a₂ addr m₁ m₂, (⟨e₁, r₁⟩ : Event ServerEffect.Answer) =
        ⟨.getPeerEndpoints a₁ addr, m₁⟩ →
      (⟨e₂, r₂⟩ : Event ServerEffect.Answer) = ⟨.getPeerEndpoints a₂ addr, m₂⟩ →
      Alike X far addr a₁ a₂ → (a₁.initiatorPubkey = X → m₁.Equiv m₂) ∧
        (encodeResponse ⟨m₁⟩).length < 2 ^ 32 ∧ (encodeResponse ⟨m₂⟩).length < 2 ^ 32) :
    SameProgress X far (t₁ ++ [⟨e₁, r₁⟩]) (t₂ ++ [⟨e₂, r₂⟩]) (some (k₁ r₁)) (some (k₂ r₂)) := by
  cases h with
  | @reading _ _ addr _ _ ht₁ ht₂ hp₁ hp₂ =>
    rcases hp₁.call with ⟨⟨e, rfl⟩, hk₁⟩ | ⟨a₁, heq₁⟩
    · rcases hp₂.call with ⟨⟨e', rfl⟩, hk₂⟩ | ⟨a₂, heq₂⟩
      · exact .reading (ht₁.snoc e r₁) (ht₂.snoc e' r₂) (hk₁ r₁) (hk₂ r₂)
      · cases heq₂
        cases hagree with
        | other _ h₂ _ => exact (h₂ _ _ rfl).elim
    · cases heq₁
      rcases hp₂.call with ⟨⟨e', rfl⟩, -⟩ | ⟨a₂, heq₂⟩
      · cases hagree with
        | other h₁ _ _ => exact (h₁ _ _ rfl).elim
      · cases heq₂
        cases hagree with
        | announcing halike =>
          obtain ⟨hm, hfits₁, hfits₂⟩ := hlookup a₁ a₂ addr r₁ r₂ rfl rfl halike
          exact .answering ht₁ ht₂ halike hm .nil (related_response halike hfits₁ hfits₂)
        | other h₁ _ _ => exact (h₁ _ _ rfl).elim
  | @answering read₁ read₂ sent₁ sent₂ addr a₁ a₂ m₁ m₂ _ _ hread₁ hread₂ halike hm hsent hp =>
    obtain ⟨hcall, hk⟩ := hp
    have hresult : SameResult ⟨e₁, r₁⟩ ⟨e₂, r₂⟩ := by
      cases hagree with
      | announcing _ => cases hcall
      | other _ _ hresult => exact hresult
    rw [List.append_assoc, List.append_assoc]
    refine .answering hread₁ hread₂ halike hm ?_ (hk r₁ r₂ hresult)
    exact List.rel_append hsent (.cons ⟨hcall, hresult⟩ .nil)

end Advance

theorem OnlyStream.unasked {t : ServerTrace} (h : OnlyStream t) : Unasked X t := by
  intro ev hev a addr hlookup
  obtain ⟨e, he⟩ := h ev hev
  cases he.symm.trans hlookup

theorem unasked_answering {read sent : ServerTrace} {a : WireplugAnnouncement}
    {m : HashMap String WireplugEndpoint} (hread : OnlyStream read) (ha : a.initiatorPubkey ≠ X)
    (hsent : Unasked X sent) : Unasked X (read ++ ⟨.getPeerEndpoints a addr, m⟩ :: sent) := by
  intro ev hev
  rcases List.mem_append.mp hev with hev | hev
  · exact hread.unasked ev hev
  · rcases List.mem_cons.mp hev with rfl | hev
    · intro a' addr' hlookup
      cases hlookup
      exact ha
    · exact hsent ev hev

theorem SameCall.not_lookup {e₁ e₂ : ServerEffect} (h : SameCall addr a₁ a₂ m₁ m₂ e₁ e₂) :
    (∀ a addr, e₁ ≠ .getPeerEndpoints a addr) ∧ ∀ a addr, e₂ ≠ .getPeerEndpoints a addr := by
  cases h <;> simp

theorem unasked_nil : Unasked X [] := fun _ hev ↦ by cases hev

theorem Unasked.cons {ev : Event ServerEffect.Answer} {t : ServerTrace}
    (hev : ∀ a addr, ev.1 ≠ .getPeerEndpoints a addr) (ht : Unasked X t) :
    Unasked X (ev :: t) := by
  intro ev' hmem a addr hlookup
  rcases List.mem_cons.mp hmem with rfl | hmem
  · exact (hev a addr hlookup).elim
  · exact ht ev' hmem a addr hlookup

theorem unasked_sent {sent₁ sent₂ : ServerTrace}
    (h : List.Forall₂ (SameSent addr a₁ a₂ m₁ m₂) sent₁ sent₂) :
    Unasked X sent₁ ∧ Unasked X sent₂ := by
  induction h with
  | nil => exact ⟨unasked_nil, unasked_nil⟩
  | cons hsame _ ih => exact ⟨.cons hsame.1.not_lookup.1 ih.1, .cons hsame.1.not_lookup.2 ih.2⟩

theorem SameProgress.response {t₁ t₂ : ServerTrace} {o₁ o₂ : Option Connection}
    (h : SameProgress X far t₁ t₂ o₁ o₂) : SameResponse X t₁ t₂ := by
  cases h with
  | unopened => exact .none unasked_nil unasked_nil
  | reading ht₁ ht₂ _ _ => exact .none ht₁.unasked ht₂.unasked
  | @answering read₁ read₂ sent₁ sent₂ addr a₁ a₂ m₁ m₂ p₁ p₂ hread₁ hread₂ halike hm hsent hp =>
    by_cases hX : a₁.initiatorPubkey = X
    · obtain rfl := halike.eq hX
      exact .sent hread₁ hread₂ hX (hm hX) hsent
    · obtain ⟨hsent₁, hsent₂⟩ := unasked_sent hsent
      refine .none (unasked_answering hread₁ hX hsent₁) (unasked_answering hread₂ ?_ hsent₂)
      rwa [← halike.initiatorPubkey]

end Wireplug
