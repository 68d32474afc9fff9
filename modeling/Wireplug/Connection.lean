import Wireplug.Server

namespace Wireplug

open Foundation Foundation.Program ByteStream

abbrev ServerTrace := Trace ServerEffect.Answer

def responseFrame (m : HashMap String WireplugEndpoint) : List Bytes :=
  [wireplugProtocolMagic, wireplugProtocolVersion, toLE 4 (encodeResponse ⟨m⟩).length,
    encodeResponse ⟨m⟩]

def answered (a : WireplugAnnouncement) (addr : SocketAddr) (m : HashMap String WireplugEndpoint) :
    ServerTrace :=
  ⟨.getPeerEndpoints a addr, m⟩ ::
    (responseFrame m).map fun bytes ↦ ⟨.stream (.writeAll bytes), .ok ()⟩

/-- The response is complete and the stream was shut down, with the result `r`. -/
def closed (a : WireplugAnnouncement) (addr : SocketAddr) (m : HashMap String WireplugEndpoint)
    (r : Except IoError Unit) : ServerTrace :=
  answered a addr m ++ [⟨.stream .shutdown, r⟩]

abbrev acknowledged (a : WireplugAnnouncement) (addr : SocketAddr)
    (m : HashMap String WireplugEndpoint) : ServerTrace := closed a addr m (.ok ())

/-- What a connection from `addr` that has called `t` may call next. -/
structure HandlerCalls (addr : SocketAddr) (t : ServerTrace) (e : ServerEffect) : Prop where
  looks_up : ∀ a addr', e = .getPeerEndpoints a addr' → addr' = addr ∧ a.valid = true
  writes : ∀ bytes, e = .stream (.writeAll bytes) →
    ∀ a addr' m, ⟨.getPeerEndpoints a addr', m⟩ ∈ t → bytes ∈ responseFrame m
  stores : ∀ a ipv4, e = .insertRecords a ipv4 → addr.ip = .v4 ipv4 ∧ a.valid = true ∧
    ∃ m, acknowledged a addr m <:+ t
  goes_on : ∀ a m ipv4, acknowledged a addr m <:+ t → addr.ip = .v4 ipv4 →
    e = .insertRecords a ipv4

structure HandlerEnds (addr : SocketAddr) (r : Except ServerError Unit) (t : ServerTrace) :
    Prop where
  stored : r = .ok () → ∀ a addr' m, ⟨.getPeerEndpoints a addr', m⟩ ∈ t →
    answered a addr m <:+: t ∧
      ∃ ipv4 now, addr.ip = .v4 ipv4 ∧ ⟨.insertRecords a ipv4, now⟩ ∈ t
  not_acknowledged : ∀ a m ipv4, acknowledged a addr m <:+ t → addr.ip ≠ .v4 ipv4

def anyAnswer (_ : SocketAddr) (_ : ServerTrace) (e : ServerEffect) (_ : e.Answer) : Prop := True

variable {addr : SocketAddr} {a : WireplugAnnouncement} {m : HashMap String WireplugEndpoint}
  {t : ServerTrace}

theorem last_of_acknowledged {ev : Event ServerEffect.Answer}
    (h : acknowledged a addr m <:+ t ++ [ev]) : ev = ⟨.stream .shutdown, .ok ()⟩ := by
  obtain ⟨before, hb⟩ := h
  rw [acknowledged, closed, ← List.append_assoc] at hb
  obtain ⟨_, hlast⟩ := List.append_inj' hb rfl
  exact (List.cons.inj hlast).1.symm

theorem lookup_mem_acknowledged : ⟨.getPeerEndpoints a addr, m⟩ ∈ acknowledged a addr m :=
  List.mem_append_left _ List.mem_cons_self

theorem acknowledged_inj {a' : WireplugAnnouncement} {addr' : SocketAddr}
    {m' : HashMap String WireplugEndpoint}
    (h : acknowledged a' addr' m' <:+ t ++ acknowledged a addr m) : a' = a := by
  obtain ⟨before, hb⟩ := h
  obtain ⟨_, heq⟩ := List.append_inj' hb rfl
  have hhead := (List.cons.inj heq).1
  cases hhead
  rfl

theorem not_acknowledged_of_stream (ht : ∀ ev ∈ t, ∃ e, ev.1 = ServerEffect.stream e) :
    ¬ acknowledged a addr m <:+ t := by
  intro h
  obtain ⟨e, he⟩ := ht _ (h.subset lookup_mem_acknowledged)
  cases he

theorem HandlerCalls.of_stream (ht : ∀ ev ∈ t, ∃ e, ev.1 = ServerEffect.stream e)
    (e : ByteStream.Effect) : HandlerCalls addr t (.stream e) where
  looks_up _ _ h := by cases h
  stores _ _ h := by cases h
  writes _ _ a addr' m hm := by
    obtain ⟨e, he⟩ := ht _ hm
    cases he
  goes_on _ _ _ h := (not_acknowledged_of_stream ht h).elim

theorem HandlerEnds.of_stream (ht : ∀ ev ∈ t, ∃ e, ev.1 = ServerEffect.stream e)
    (r : Except ServerError Unit) : HandlerEnds addr r t where
  not_acknowledged _ _ _ h := (not_acknowledged_of_stream ht h).elim
  stored _ a addr' m hm := by
    obtain ⟨e, he⟩ := ht _ hm
    cases he

/-- After the lookup for `a` was answered by `m`, and before the acknowledgement. -/
structure Answering (a : WireplugAnnouncement) (addr : SocketAddr)
    (m : HashMap String WireplugEndpoint) (t : ServerTrace) : Prop where
  looked_up : ∀ a' addr' m', ⟨.getPeerEndpoints a' addr', m'⟩ ∈ t → a' = a ∧ m' = m
  not_acknowledged : ∀ a' m', ¬ acknowledged a' addr m' <:+ t

theorem Answering.calls (h : Answering a addr m t) {e : ByteStream.Effect}
    (he : ∀ bytes, e = .writeAll bytes → bytes ∈ responseFrame m) :
    HandlerCalls addr t (.stream e) where
  looks_up _ _ h := by cases h
  stores _ _ h := by cases h
  goes_on a m' _ hack := (h.not_acknowledged a m' hack).elim
  writes bytes hb a addr' m' hm := by
    cases hb
    rw [(h.looked_up a addr' m' hm).2]
    exact he bytes rfl

theorem Answering.fails (h : Answering a addr m t) (e : ServerError) :
    HandlerEnds addr (.error e) t where
  stored hr := by cases hr
  not_acknowledged a m' _ hack := (h.not_acknowledged a m' hack).elim

theorem Answering.snoc (h : Answering a addr m t) {e : ByteStream.Effect} {r : ByteStream.Answer e}
    (hev : (⟨.stream e, r⟩ : Event ServerEffect.Answer) ≠ ⟨.stream .shutdown, .ok ()⟩) :
    Answering a addr m (t ++ [⟨.stream e, r⟩]) where
  looked_up a addr' m' hm := by
    rcases List.mem_append.mp hm with hm | hm
    · exact h.looked_up a addr' m' hm
    · cases List.mem_singleton.mp hm
  not_acknowledged a m' hack := hev (last_of_acknowledged hack)

theorem Answering.start (ht : ∀ ev ∈ t, ∃ e, ev.1 = ServerEffect.stream e)
    (m : HashMap String WireplugEndpoint) :
    Answering a addr m (t ++ [⟨.getPeerEndpoints a addr, m⟩]) where
  looked_up a' addr' m' hm := by
    rcases List.mem_append.mp hm with hm | hm
    · obtain ⟨e, he⟩ := ht _ hm
      cases he
    · cases List.mem_singleton.mp hm
      exact ⟨rfl, rfl⟩
  not_acknowledged a' m' hack := by cases last_of_acknowledged hack

theorem writeResponse_eq (m : HashMap String WireplugEndpoint) : writeResponse ⟨m⟩ =
    if (encodeResponse ⟨m⟩).length < 2 ^ 32 then (responseFrame m).forM writeAll
    else throw .tryFromInt := by
  have hlast (bytes : Bytes) : (writeAll bytes : ExceptT ServerError (Program _) Unit) =
      writeAll bytes >>= fun _ ↦ pure () :=
    congrArg (Program.call _) (funext fun r ↦ by cases r <;> rfl)
  rw [writeResponse, hlast (encodeResponse _)]
  rfl

section Writes

variable {assumes : ServerTrace → (e : ServerEffect) → e.Answer → Prop}
  {requires : ServerTrace → ServerEffect → Prop} {I : ServerTrace → Prop}
  {post : Except ServerError Unit → ServerTrace → Prop}

theorem ensures_writes (pieces : List Bytes)
    (hcall : ∀ u, I u → ∀ bytes ∈ pieces, requires u (.stream (.writeAll bytes)))
    (hsnoc : ∀ u bytes r, I u → I (u ++ [⟨.stream (.writeAll bytes), r⟩])) (h : I t)
    (herr : ∀ e u, I u → post (.error e) u)
    (hok : ∀ u, I u →
      u = t ++ pieces.map (fun bytes ↦ ⟨.stream (.writeAll bytes), .ok ()⟩) → post (.ok ()) u) :
    (onStream (pieces.forM writeAll)).run.Ensures assumes requires post t := by
  induction pieces generalizing t with
  | nil => exact hok t h (List.append_nil t).symm
  | cons bytes pieces ih =>
    refine Ensures.call (hcall t h bytes List.mem_cons_self) fun r _ ↦ ?_
    cases r with
    | error e => exact herr _ _ (hsnoc t bytes _ h)
    | ok _ =>
      refine ih (fun u hu b hb ↦ hcall u hu b (List.mem_cons_of_mem _ hb)) (hsnoc t bytes _ h)
        fun u hu heq ↦ hok u hu ?_
      rw [heq, List.append_assoc]
      rfl

theorem ensures_writeResponse
    (hcall : ∀ u, I u → ∀ bytes ∈ responseFrame m, requires u (.stream (.writeAll bytes)))
    (hsnoc : ∀ u bytes r, I u → I (u ++ [⟨.stream (.writeAll bytes), r⟩])) (h : I t)
    (herr : ∀ e u, I u → post (.error e) u)
    (hok : ∀ u, I u →
      u = t ++ (responseFrame m).map (fun bytes ↦ ⟨.stream (.writeAll bytes), .ok ()⟩) →
      post (.ok ()) u) :
    (onStream (writeResponse ⟨m⟩)).run.Ensures assumes requires post t := by
  rw [writeResponse_eq]
  split
  · exact ensures_writes (responseFrame m) hcall hsnoc h herr hok
  · exact herr _ _ h

end Writes

theorem HandlerCalls.insertRecords {ipv4 : Ipv4Addr} (hvalid : a.valid = true)
    (hip : addr.ip = .v4 ipv4) (before : ServerTrace) :
    HandlerCalls addr (before ++ acknowledged a addr m) (.insertRecords a ipv4) := by
  refine ⟨fun _ _ h ↦ ?_, fun _ h ↦ ?_, fun a' ipv4' h ↦ ?_, fun a' m' ipv4' hack h ↦ ?_⟩
  · cases h
  · cases h
  · cases h
    exact ⟨hip, hvalid, m, before, rfl⟩
  · obtain rfl := acknowledged_inj hack
    rw [hip] at h
    cases h
    rfl

theorem HandlerEnds.recorded {ipv4 : Ipv4Addr} {before u : ServerTrace} (hip : addr.ip = .v4 ipv4)
    (hlook : ∀ a' addr' m', ⟨.getPeerEndpoints a' addr', m'⟩ ∈ before ++ acknowledged a addr m →
      a' = a ∧ m' = m) (now : ℕ → SystemTime) (r : Except ServerError Unit)
    (hu : u = [] ∨ u = [⟨.incRelaysNeeded, ()⟩]) : HandlerEnds addr r
      (before ++ acknowledged a addr m ++ [⟨.insertRecords a ipv4, now⟩] ++ u) := by
  refine ⟨fun _ a' addr' m' hm ↦ ?_, fun a' m' ipv4' hack ↦ ?_⟩
  · have hmem : ⟨.getPeerEndpoints a' addr', m'⟩ ∈ before ++ acknowledged a addr m := by
      rcases hu with rfl | rfl <;> simpa using hm
    obtain ⟨rfl, rfl⟩ := hlook a' addr' m' hmem
    refine ⟨⟨before, ⟨.stream .shutdown, .ok ()⟩ :: ⟨.insertRecords a' ipv4, now⟩ :: u, ?_⟩,
      ipv4, now, hip, by simp⟩
    simp [closed]
  · rcases hu with rfl | rfl
    · rw [List.append_nil] at hack
      cases last_of_acknowledged hack
    · cases last_of_acknowledged hack

theorem recordAnnouncement_ensures (hvalid : a.valid = true) (ht : acknowledged a addr m <:+ t)
    (hlook : ∀ a' addr' m', ⟨.getPeerEndpoints a' addr', m'⟩ ∈ t → a' = a ∧ m' = m) :
    (recordAnnouncement a addr).run.Ensures
      (anyAnswer addr) (HandlerCalls addr) (HandlerEnds addr) t := by
  obtain ⟨before, rfl⟩ := ht
  rw [recordAnnouncement, processAnnouncement]
  cases hip : addr.ip with
  | v6 ip =>
    refine ⟨fun hr ↦ ?_, fun a' m' ipv4 _ h ↦ ?_⟩
    · cases hr
    · rw [hip] at h
      cases h
  | v4 ipv4 =>
    refine Ensures.call (.insertRecords hvalid hip before) fun now _ ↦ ?_
    cases a.needsRelay with
    | false =>
      have h := HandlerEnds.recorded hip hlook now (.ok ()) (.inl rfl)
      rwa [List.append_nil] at h
    | true =>
      refine Ensures.call ⟨fun _ _ h ↦ ?_, fun _ h ↦ ?_, fun _ _ h ↦ ?_, fun a' m' _ hack ↦ ?_⟩
        fun _ _ ↦ .recorded hip hlook now (.ok ()) (.inr rfl)
      · cases h
      · cases h
      · cases h
      · cases last_of_acknowledged hack

theorem answerAnnouncement_ensures (hvalid : a.valid = true)
    (ht : ∀ ev ∈ t, ∃ e, ev.1 = ServerEffect.stream e) :
    (answerAnnouncement a addr).run.Ensures
      (anyAnswer addr) (HandlerCalls addr) (HandlerEnds addr) t := by
  have hcall : HandlerCalls addr t (.getPeerEndpoints a addr) := by
    refine ⟨fun a' addr' h ↦ ?_, fun _ h ↦ ?_, fun _ _ h ↦ ?_, fun _ _ _ hack ↦ ?_⟩
    · cases h
      exact ⟨rfl, hvalid⟩
    · cases h
    · cases h
    · exact (not_acknowledged_of_stream ht hack).elim
  refine Ensures.call hcall fun m _ ↦ ?_
  have hstart : Answering a addr m (t ++ [⟨.getPeerEndpoints a addr, m⟩]) := .start ht m
  have hwrite (u : ServerTrace) (hu : Answering a addr m u) (bytes : Bytes)
      (hb : bytes ∈ responseFrame m) : HandlerCalls addr u (.stream (.writeAll bytes)) :=
    hu.calls fun _ heq ↦ by cases heq; exact hb
  refine (ensures_try _ _ _).mpr (ensures_writeResponse hwrite
    (fun u bytes r hu ↦ hu.snoc (by simp)) hstart (fun e u hu ↦ hu.fails e) ?_)
  intro u hu hframe
  have hshut : HandlerCalls addr u (.stream .shutdown) := hu.calls fun _ h ↦ by cases h
  refine Ensures.call hshut fun r _ ↦ ?_
  cases r with
  | error e => exact (hu.snoc (by simp)).fails _
  | ok _ =>
    have hack : acknowledged a addr m <:+ u ++ [⟨.stream .shutdown, .ok ()⟩] := by
      rw [hframe, List.append_assoc, List.append_assoc]
      exact List.suffix_append _ _
    refine recordAnnouncement_ensures hvalid hack fun a' addr' m' hm ↦ ?_
    rcases List.mem_append.mp hm with hm | hm
    · exact hu.looked_up a' addr' m' hm
    · cases List.mem_singleton.mp hm

theorem handleConnection_ensures (addr : SocketAddr) : (handleConnection addr).run.Ensures
    (anyAnswer addr) (HandlerCalls addr) (HandlerEnds addr) [] := by
  refine (ensures_try _ _ _).mpr ((only_embed _ _ _).ensures ?_ ?_)
  · intro u hu _ h
    obtain ⟨e, rfl⟩ := h
    exact .of_stream hu e
  · rintro u hu (e | _ | a) -
    · exact .of_stream hu _
    · exact .of_stream hu _
    · dsimp only
      split
      · next hvalid => exact answerAnnouncement_ensures hvalid hu
      · refine Ensures.call (.of_stream hu _) fun r _ ↦ ?_
        have hsnoc : ∀ ev ∈ u ++ [⟨.stream .shutdown, r⟩], ∃ e, ev.1 = ServerEffect.stream e := by
          intro ev hev
          rcases List.mem_append.mp hev with hev | hev
          · exact hu ev hev
          · rw [List.mem_singleton.mp hev]
            exact ⟨.shutdown, rfl⟩
        cases r <;> exact .of_stream hsnoc _

section Pool

variable {storage : Storage} {ls ms : List ServerLabel} {c : ServerConfig} {i : ℕ}

theorem connection_verified (h : server.Run (ServerConfig.start storage) ls c) (i : ℕ) :
    System.Verified anyAnswer HandlerCalls HandlerEnds i ls (c.threads i) :=
  h.verified (fun _ ↦ rfl) handleConnection_ensures (fun _ _ _ _ _ _ _ _ ↦ trivial) i

theorem connection_calls {e : ServerEffect} {r : e.Answer}
    (h : server.Run (ServerConfig.start storage) (ls ++ .called i e r :: ms) c) :
    ∃ addr, .opened i addr ∈ ls ∧ HandlerCalls addr (System.calls i ls) e :=
  h.requires_called (fun _ ↦ rfl) handleConnection_ensures (fun _ _ _ _ _ _ _ _ ↦ trivial)

theorem verified_of_opened {addr : SocketAddr}
    (h : server.Run (ServerConfig.start storage) ls c) (hopened : .opened i addr ∈ ls) :
    ∃ p, c.threads i = some p ∧ (∀ addr', .opened i addr' ∈ ls ↔ addr' = addr) ∧
      p.Ensures (anyAnswer addr) (HandlerCalls addr) (HandlerEnds addr) (System.calls i ls) := by
  have hverified := connection_verified h i
  cases hthread : c.threads i with
  | none =>
    rw [hthread] at hverified
    exact (hverified.2 addr hopened).elim
  | some p =>
    rw [hthread] at hverified
    obtain ⟨d, huniq, hensures⟩ := hverified
    obtain rfl := (huniq addr).mp hopened
    exact ⟨p, rfl, huniq, hensures⟩

theorem opened_unique {addr addr' : SocketAddr} (h : server.Run (ServerConfig.start storage) ls c)
    (hopened : .opened i addr ∈ ls) (hopened' : .opened i addr' ∈ ls) : addr = addr' := by
  obtain ⟨p, -, huniq, -⟩ := verified_of_opened h hopened
  exact ((huniq addr').mp hopened').symm

theorem calls_before_opened {addr : SocketAddr}
    (h : server.Run (ServerConfig.start storage) (ls ++ .opened i addr :: ms) c) :
    System.calls i ls = [] := by
  obtain ⟨s, s', hrun, hstep, -⟩ := h.split_at
  cases hstep with
  | opened _ hfree =>
    have hnone := connection_verified hrun i
    rw [hfree] at hnone
    exact hnone.1

end Pool

end Wireplug
