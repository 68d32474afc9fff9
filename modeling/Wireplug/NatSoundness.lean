import Wireplug.NatProbe

namespace Wireplug

open Foundation Foundation.Program Probe

section Network

variable {hosts : StunHosts} {ls : List StunLabel} {c : StunConfig} {i : ℕ}

def SeenFrom (ls : List StunLabel) (server : StunServer) (i : ℕ) (port : UInt16) : Prop :=
  ∃ request source, .happened (.arrives server request source) ∈ ls ∧ request.run = i ∧
    source.port = port

def KindSeen (ls : List StunLabel) (i : ℕ) (localPort : UInt16) : NatKind → Prop
  | .easy => SeenFrom ls .stun1 i localPort ∧ SeenFrom ls .stun2 i localPort
  | .fixedPortMapping nat =>
    SeenFrom ls .stun1 i nat.observedPort ∧ SeenFrom ls .stun2 i nat.observedPort
  | .hard => ∃ port₁ port₂, port₁ ≠ port₂ ∧ SeenFrom ls .stun1 i port₁ ∧ SeenFrom ls .stun2 i port₂

def PortsSay (localPort port₁ port₂ : UInt16) : NatKind → Prop
  | .easy => port₁ = localPort ∧ port₂ = localPort
  | .fixedPortMapping nat => port₁ = nat.observedPort ∧ port₂ = nat.observedPort
  | .hard => port₁ ≠ port₂

theorem answerStunRequest_result (localPort port : UInt16) :
    (answerStunRequest port ⟨localPort⟩).result =
      if port = localPort then .samePort else .differentPort port := by
  rw [answerStunRequest]
  split <;> rfl

theorem portsSay_of_natKind {localPort port₁ port₂ : UInt16} {kind : NatKind}
    (h : natKind localPort (answerStunRequest port₁ ⟨localPort⟩).result
      (answerStunRequest port₂ ⟨localPort⟩).result = some kind) :
    PortsSay localPort port₁ port₂ kind := by
  rw [answerStunRequest_result, answerStunRequest_result] at h
  by_cases h₁ : port₁ = localPort
  · by_cases h₂ : port₂ = localPort
    · rw [if_pos h₁, if_pos h₂] at h
      cases h
      exact ⟨h₁, h₂⟩
    · rw [if_pos h₁, if_neg h₂] at h
      cases h
  · by_cases h₂ : port₂ = localPort
    · rw [if_neg h₁, if_pos h₂] at h
      cases h
    · rw [if_neg h₁, if_neg h₂, natKind] at h
      by_cases heq : port₁ = port₂
      · rw [if_pos heq] at h
        cases h
        exact ⟨rfl, heq.symm⟩
      · rw [if_neg heq] at h
        cases h
        exact heq

theorem kindSeen_of_ports {localPort port₁ port₂ : UInt16} {kind : NatKind}
    (h : PortsSay localPort port₁ port₂ kind) (h₁ : SeenFrom ls .stun1 i port₁)
    (h₂ : SeenFrom ls .stun2 i port₂) : KindSeen ls i localPort kind := by
  cases kind with
  | easy =>
    obtain ⟨rfl, rfl⟩ := h
    exact ⟨h₁, h₂⟩
  | fixedPortMapping nat => exact ⟨h.1 ▸ h₁, h.2 ▸ h₂⟩
  | hard => exact ⟨port₁, port₂, h, h₁, h₂⟩

def AnsweredBy (i : ℕ) (server : StunServer) (reply : SentReply) : Prop :=
  reply.server = server ∧ reply.request.run = i

theorem Genuine.seenFrom {localPort : UInt16} {reply : SentReply} {server : StunServer}
    (h : Genuine hosts ls localPort reply) (hanswered : AnsweredBy i server reply) :
    SeenFrom ls server i reply.source.port :=
  ⟨reply.request, reply.source, hanswered.1 ▸ h.arrived, hanswered.2, rfl⟩

theorem genuine_of_taken {localPort : UInt16} {reply : SentReply}
    (h : (stunSystem hosts).Run StunConfig.start ls c)
    (hcall : ⟨.recv localPort, .ok reply⟩ ∈ System.calls i ls) :
    Genuine hosts ls localPort reply := by
  obtain ⟨before, after, rfl⟩ := List.append_of_mem (System.mem_calls.mp hcall)
  exact (genuine_of_recv h).mono (List.subset_append_left _ _)

theorem first_answeredBy {localPort : UInt16} {dst₁ dst₂ : SocketAddr} {reply₁ : SentReply}
    {u : ProbeTrace} (h : (stunSystem hosts).Run StunConfig.start ls c)
    (hcalls : System.calls i ls = resolvedBoth dst₁ dst₂ ++ asked localPort dst₁ reply₁ ++ u)
    (hrun : reply₁.request.run = i) : AnsweredBy i .stun1 reply₁ := by
  have hresolved : dst₁ = hosts.addr .stun1 := by
    refine resolved_addr (i := i) h ?_
    rw [hcalls]
    exact List.mem_cons_self
  obtain ⟨before, after, rfl, hbefore⟩ := @System.calls_eq_append_cons _ _ _ _ _ _ ls i _ _
    (resolvedBoth dst₁ dst₂ ++ [⟨.bind localPort, .ok ()⟩, ⟨.setReadTimeout localPort 500, .ok ()⟩,
      ⟨.sendTo localPort (stunRequestDatagram localPort) dst₁,
        .ok (stunRequestDatagram localPort).length⟩]) u hcalls
  have hgenuine := genuine_of_recv h
  have hsent := System.mem_calls.mpr hgenuine.sent
  rw [hrun, hbefore] at hsent
  have hdst : reply₁.request.dst = dst₁ := by
    simp only [resolvedBoth, List.cons_append, List.nil_append, List.mem_cons,
      List.not_mem_nil, or_false] at hsent
    rcases hsent with hsent | hsent | hsent | hsent | hsent
    · cases hsent
    · cases hsent
    · cases hsent
    · cases hsent
    · exact (ProbeEffect.sendTo.inj (congrArg Sigma.fst hsent)).2.2
  refine ⟨?_, hrun⟩
  have haddr := hgenuine.addressed
  rw [hdst, hresolved] at haddr
  cases hserver : reply₁.server with
  | stun1 => rfl
  | stun2 =>
    rw [hserver] at haddr
    exact (hosts.distinct haddr.symm).elim

theorem probe_of_done {localPort : UInt16} {kind : NatKind}
    (h : (stunSystem hosts).Run StunConfig.start ls c) (hopened : .opened i localPort ∈ ls)
    (hdone : c.threads i = some (.done (.ok kind))) :
    ∃ dst₁ dst₂ reply₁ reply₂ response₁ response₂,
      System.calls i ls =
        resolvedBoth dst₁ dst₂ ++ asked localPort dst₁ reply₁ ++ asked localPort dst₂ reply₂ ∧
      readStunResponse reply₁.data = some response₁ ∧
      readStunResponse reply₂.data = some response₂ ∧
      natKind localPort response₁.result response₂.result = some kind := by
  have hverified := probe_verified h i
  rw [hdone] at hverified
  obtain ⟨d, huniq, hends⟩ := hverified
  obtain rfl := (huniq localPort).mp hopened
  exact hends kind rfl

/-- The classification says which ports the two servers saw, whatever becomes of
the datagrams, as long as each answer is from the server that was asked. -/
theorem detectKind_sound {localPort : UInt16} {kind : NatKind}
    (h : (stunSystem hosts).Run StunConfig.start ls c) (hopened : .opened i localPort ∈ ls)
    (hdone : c.threads i = some (.done (.ok kind))) :
    ∃ reply₁ reply₂, answersTaken (System.calls i ls) = [reply₁, reply₂] ∧
      Genuine hosts ls localPort reply₁ ∧ Genuine hosts ls localPort reply₂ ∧
      PortsSay localPort reply₁.source.port reply₂.source.port kind ∧
      ((∀ j, .opened j localPort ∈ ls → j = i) →
        AnsweredBy i .stun1 reply₁ ∧ reply₂.request.run = i) ∧
      (AnsweredBy i .stun1 reply₁ → AnsweredBy i .stun2 reply₂ → KindSeen ls i localPort kind) := by
  obtain ⟨dst₁, dst₂, reply₁, reply₂, response₁, response₂, hcalls, hread₁, hread₂, hkind⟩ :=
    probe_of_done h hopened hdone
  have hgenuine₁ : Genuine hosts ls localPort reply₁ :=
    genuine_of_taken (i := i) h (by rw [hcalls]; simp [asked])
  have hgenuine₂ : Genuine hosts ls localPort reply₂ :=
    genuine_of_taken (i := i) h (by rw [hcalls]; simp [asked])
  rw [hgenuine₁.answer, Option.some.injEq] at hread₁
  rw [hgenuine₂.answer, Option.some.injEq] at hread₂
  rw [← hread₁, ← hread₂] at hkind
  have hports := portsSay_of_natKind hkind
  refine ⟨reply₁, reply₂, by rw [hcalls]; rfl, hgenuine₁, hgenuine₂, hports, fun halone ↦ ?_,
    fun hanswered₁ hanswered₂ ↦ ?_⟩
  · exact ⟨first_answeredBy h hcalls (halone _ hgenuine₁.opened), halone _ hgenuine₂.opened⟩
  · exact kindSeen_of_ports hports (hgenuine₁.seenFrom hanswered₁) (hgenuine₂.seenFrom hanswered₂)

end Network

section Runs

variable {localPort : UInt16} {source : SocketAddr}

def requested (localPort : UInt16) (dst : SocketAddr) : ProbeTrace :=
  [⟨.bind localPort, .ok ()⟩, ⟨.setReadTimeout localPort 500, .ok ()⟩,
    ⟨.sendTo localPort (stunRequestDatagram localPort) dst,
      .ok (stunRequestDatagram localPort).length⟩]

theorem path_requested {α : Type} (localPort : UInt16) (dst : SocketAddr)
    (f : WireplugStunResponse → Probe α) :
    (sendStunRequest dst localPort >>= f).run.Path (requested localPort dst)
      (recvStunResponse localPort >>= f).run := by
  have hsent : ((if (stunRequestDatagram localPort).length ≠ (stunRequestDatagram localPort).length
      then throw (.io (.other "send_stun_request() failed")) else recvStunResponse localPort :
        Probe WireplugStunResponse) >>= f).run.Path [] (recvStunResponse localPort >>= f).run := by
    rw [if_neg (not_not.mpr rfl)]
    exact .nil _
  exact .cons (.cons (.cons hsent))

theorem path_received_reply {α : Type} {reply : SentReply} {response : WireplugStunResponse}
    (hread : readStunResponse reply.data = some response) (localPort : UInt16)
    (f : WireplugStunResponse → Probe α) :
    (recvStunResponse localPort >>= f).run.Path [⟨.recv localPort, .ok reply⟩] (f response).run := by
  have hanswer : (orError .encoding (readStunResponse reply.data) >>= f).run.Path []
      (f response).run := by
    rw [hread]
    exact .nil _
  rw [recvStunResponse, bind_assoc]
  exact .cons hanswer

theorem path_asked {α : Type} {dst : SocketAddr} {reply : SentReply}
    {response : WireplugStunResponse} (hread : readStunResponse reply.data = some response)
    (f : WireplugStunResponse → Probe α) :
    (sendStunRequest dst localPort >>= f).run.Path (asked localPort dst reply)
      (f response).run :=
  (path_requested localPort dst f).trans (path_received_reply hread localPort f)

def classified (localPort : UInt16) (response1 response2 : WireplugStunResponse) : Probe NatKind :=
  orError (.io (.other "NAT inconsistent result"))
    (natKind localPort response1.result response2.result)

theorem path_resolved (localPort : UInt16) (dst₁ dst₂ : SocketAddr) :
    (detectKind localPort).run.Path (resolvedBoth dst₁ dst₂)
      (sendStunRequest dst₁ localPort >>= fun response1 ↦
        sendStunRequest dst₂ localPort >>= classified localPort response1).run :=
  .cons (.cons (.nil _))

variable (hosts : StunHosts) (localPort : UInt16) (source : SocketAddr)

def requestTo (server : StunServer) : SentRequest :=
  ⟨0, localPort, stunRequestDatagram localPort, hosts.addr server⟩

def answerAs : WireplugStunResponse := answerStunRequest source.port ⟨localPort⟩

def replyOf (server : StunServer) : SentReply :=
  ⟨server, requestTo hosts localPort server, source,
    encodeStunResponse (answerAs localPort source)⟩

theorem read_replyOf (server : StunServer) :
    readStunResponse (replyOf hosts localPort source server).data =
      some (answerAs localPort source) := readStunResponse_encode _

theorem mem_replies_serve {s : StunNetwork} {server : StunServer}
    (hbuf : (s.buffers server).length = stunBufferSize) :
    replyOf hosts localPort source server ∈
      (s.serve server (requestTo hosts localPort server) source).replies := by
  have hreply : stunReply (receiveInto (s.buffers server) (stunRequestDatagram localPort))
      source.port = some (encodeStunResponse (answerAs localPort source)) := by
    rw [stunReply, readStunRequest_receiveInto hbuf]
    rfl
  refine List.mem_append_right _ (List.mem_map.mpr
    ⟨(encodeStunResponse (answerAs localPort source), source), ?_, rfl⟩)
  rw [Option.mem_toList]
  exact Option.map_eq_some_iff.mpr ⟨_, hreply, rfl⟩

theorem moves_requested (s : StunNetwork) (server : StunServer) :
    (stunSystem hosts).Moves 0 s (requested localPort (hosts.addr server))
      (s.send (requestTo hosts localPort server)) :=
  .cons (.bind s 0 localPort _) (.cons (.setReadTimeout s 0 localPort 500 _)
    (.cons (.sendTo s 0 localPort _ _) (.nil _)))

def untilSecond : List StunLabel :=
  [.opened 0 localPort] ++ (resolvedBoth (hosts.addr .stun1) (hosts.addr .stun2) ++
      requested localPort (hosts.addr .stun1)).map (fun ev ↦ .called 0 ev.1 ev.2) ++
    [.happened (.arrives .stun1 (requestTo hosts localPort .stun1) source)] ++
    (⟨.recv localPort, .ok (replyOf hosts localPort source .stun1)⟩ ::
      requested localPort (hosts.addr .stun2)).map (fun ev ↦ .called 0 ev.1 ev.2)

theorem run_arrives (s : StunNetwork) (server : StunServer)
    (h : requestTo hosts localPort server ∈ s.requests)
    (threads : ℕ → Option (Program ProbeEffect.Answer (Except StunError NatKind))) :
    (stunSystem hosts).Run ⟨s, threads⟩
      [.happened (.arrives server (requestTo hosts localPort server) source)]
      ⟨s.serve server (requestTo hosts localPort server) source, threads⟩ := by
  have hhappens : StunHappens hosts s _ _ := .arrives s source h rfl
  exact .one (.happened hhappens)

theorem run_untilSecond : ∃ s : StunNetwork,
    (stunSystem hosts).Run StunConfig.start (untilSecond hosts localPort source)
      ⟨s, Function.update (fun _ ↦ none) 0
        (some (recvStunResponse localPort >>= classified localPort (answerAs localPort source)).run)⟩ ∧
      replyOf hosts localPort source .stun1 ∈ s.replies ∧
      requestTo hosts localPort .stun2 ∈ s.requests ∧
      ∀ server, (s.buffers server).length = stunBufferSize := by
  let dst (server : StunServer) := hosts.addr server
  let s₁ := StunNetwork.start.send (requestTo hosts localPort .stun1)
  let s₂ := s₁.serve .stun1 (requestTo hosts localPort .stun1) source
  have hopened : (stunSystem hosts).Run StunConfig.start [.opened 0 localPort] _ :=
    .one (.opened localPort rfl)
  have hfirst : (stunSystem hosts).Moves 0 StunNetwork.start
      (resolvedBoth (dst .stun1) (dst .stun2) ++ requested localPort (dst .stun1)) s₁ :=
    .cons (.resolve _ 0 .stun1) (.cons (.resolve _ 0 .stun2) (moves_requested hosts localPort _ _))
  have hasked := System.Run.along ((path_resolved localPort _ _).trans
    (path_requested localPort _ _)) hfirst fun _ ↦ none
  have harrives := run_arrives hosts localPort source s₁ .stun1 (List.mem_singleton_self _)
  have hreply : replyOf hosts localPort source .stun1 ∈ s₂.replies :=
    mem_replies_serve hosts localPort source length_emptyBuffer
  have hsecond : (stunSystem hosts).Moves 0 s₂
      (⟨.recv localPort, .ok (replyOf hosts localPort source .stun1)⟩ ::
        requested localPort (dst .stun2)) (s₂.send (requestTo hosts localPort .stun2)) :=
    .cons (.recv s₂ 0 hreply) (moves_requested hosts localPort _ _)
  have hpath := (path_received_reply (read_replyOf hosts localPort source .stun1) localPort fun response1 ↦
    sendStunRequest (dst .stun2) localPort >>= classified localPort response1).trans
      (path_requested localPort _ _)
  have hanswered := System.Run.along hpath hsecond fun _ ↦ none
  have hrun := ((hopened.trans hasked).trans (harrives _)).trans hanswered
  exact ⟨_, hrun, hreply, List.mem_append_right _ (List.mem_singleton_self _),
    (accounted_of_run hrun).buffers⟩

theorem run_classified {source' : SocketAddr} {s : StunNetwork} {ls : List StunLabel}
    {reply : SentReply}
    (hrun : (stunSystem hosts).Run StunConfig.start ls ⟨s, Function.update (fun _ ↦ none) 0
      (some (recvStunResponse localPort >>= classified localPort (answerAs localPort source)).run)⟩)
    (hreply : reply ∈ s.replies) (hport : reply.request.localPort = localPort)
    (hread : readStunResponse reply.data = some (answerAs localPort source')) :
    (stunSystem hosts).Run StunConfig.start (ls ++ [.called 0 (.recv localPort) (.ok reply)])
      ⟨s, Function.update (fun _ ↦ none) 0
        (some (classified localPort (answerAs localPort source) (answerAs localPort source')).run)⟩ := by
  have hpath := path_received_reply hread localPort (classified localPort (answerAs localPort source))
  subst hport
  have hmoves : (stunSystem hosts).Moves 0 s [⟨.recv reply.request.localPort, .ok reply⟩] s :=
    .cons (.recv s 0 hreply) (.nil s)
  exact hrun.trans (System.Run.along hpath hmoves fun _ ↦ none)

end Runs

def exampleHosts : StunHosts where
  addr
    | .stun1 => .v4 (.new 192 0 2 1) 4455
    | .stun2 => .v4 (.new 192 0 2 2) 4455
  distinct := by decide

/-- The reply of the first server arrives twice, and the second server has not
heard of the client when it is found behind an easy NAT. -/
theorem duplicate_reply_taken : ∃ ls c, (stunSystem exampleHosts).Run StunConfig.start ls c ∧
    .opened 0 51820 ∈ ls ∧ (∀ i localPort, .opened i localPort ∈ ls → i = 0) ∧
    c.threads 0 = some (.done (.ok .easy)) ∧ ¬ KindSeen ls 0 51820 .easy := by
  let source : SocketAddr := .v4 (.new 203 0 113 5) 51820
  obtain ⟨s, hrun, hreply, -, -⟩ := run_untilSecond exampleHosts 51820 source
  have hdone := run_classified exampleHosts 51820 source hrun hreply rfl
    (read_replyOf exampleHosts 51820 source .stun1)
  refine ⟨_, _, hdone, by simp [untilSecond], fun i localPort hmem ↦ ?_, rfl, fun hseen ↦ ?_⟩
  · simp [untilSecond] at hmem
    exact hmem.1
  · obtain ⟨-, request, addr, hmem, -⟩ := hseen
    simp [untilSecond] at hmem

/-- Both servers answer a client behind an easy NAT. -/
theorem detectKind_sound_easy : ∃ ls c, (stunSystem exampleHosts).Run StunConfig.start ls c ∧
    c.threads 0 = some (.done (.ok .easy)) ∧ KindSeen ls 0 51820 .easy := by
  let source : SocketAddr := .v4 (.new 203 0 113 5) 51820
  obtain ⟨s, hrun, -, hrequest, hbuf⟩ := run_untilSecond exampleHosts 51820 source
  have harrived := hrun.trans (run_arrives exampleHosts 51820 source s .stun2 hrequest _)
  have hreply := mem_replies_serve exampleHosts 51820 source (hbuf .stun2)
  have hdone := run_classified exampleHosts 51820 source harrived hreply rfl
    (read_replyOf exampleHosts 51820 source .stun2)
  obtain ⟨reply₁, reply₂, htaken, -, -, -, -, hseen⟩ :=
    detectKind_sound hdone (List.mem_append_left _ (List.mem_append_left _ List.mem_cons_self)) rfl
  have hreplies : [replyOf exampleHosts 51820 source .stun1, replyOf exampleHosts 51820 source .stun2] =
      [reply₁, reply₂] := htaken
  cases hreplies
  exact ⟨_, _, hdone, rfl, hseen ⟨rfl, rfl⟩ ⟨rfl, rfl⟩⟩

end Wireplug
