import Wireplug.NatDetection

namespace Wireplug

open Foundation Foundation.Program ByteStream Probe

def asked (localPort : UInt16) (dst : SocketAddr) (reply : SentReply) : ProbeTrace :=
  [⟨.bind localPort, .ok ()⟩, ⟨.setReadTimeout localPort 500, .ok ()⟩,
    ⟨.sendTo localPort (stunRequestDatagram localPort) dst,
      .ok (stunRequestDatagram localPort).length⟩,
    ⟨.recv localPort, .ok reply⟩]

def resolvedBoth (dst₁ dst₂ : SocketAddr) : ProbeTrace :=
  [⟨.resolve .stun1, .ok (some dst₁)⟩, ⟨.resolve .stun2, .ok (some dst₂)⟩]

def answersTaken (t : ProbeTrace) : List SentReply :=
  t.filterMap fun
    | ⟨.recv _, .ok reply⟩ => some reply
    | _ => none

structure ProbeCalls (localPort : UInt16) (_ : ProbeTrace) (e : ProbeEffect) : Prop where
  sends : ∀ port buf dst, e = .sendTo port buf dst →
    port = localPort ∧ buf = stunRequestDatagram localPort
  listens : ∀ port, e = .recv port → port = localPort

/-- A run that ends with a result has asked one server after the other, and
judges the answers alone. -/
def ProbeEnds (localPort : UInt16) (r : Except StunError NatKind) (t : ProbeTrace) : Prop :=
  ∀ kind, r = .ok kind → ∃ dst₁ dst₂ reply₁ reply₂ response₁ response₂,
    t = resolvedBoth dst₁ dst₂ ++ asked localPort dst₁ reply₁ ++ asked localPort dst₂ reply₂ ∧
    readStunResponse reply₁.data = some response₁ ∧
    readStunResponse reply₂.data = some response₂ ∧
    natKind localPort response₁.result response₂.result = some kind

def anyProbed (_ : UInt16) (_ : ProbeTrace) (e : ProbeEffect) (_ : e.Answer) : Prop := True

variable {localPort : UInt16} {t : ProbeTrace}

theorem probeEnds_error (e : StunError) : ProbeEnds localPort (.error e) t :=
  fun _ h ↦ by cases h

theorem probeCalls_resolve (server : StunServer) : ProbeCalls localPort t (.resolve server) :=
  ⟨fun _ _ _ h ↦ (by cases h), fun _ h ↦ by cases h⟩

section Rules

variable {α : Type} {requires : ProbeTrace → ProbeEffect → Prop}
  {assumes : ProbeTrace → (e : ProbeEffect) → e.Answer → Prop}
  {post : Except StunError α → ProbeTrace → Prop}

theorem ensures_resolveStun {server : StunServer} {f : SocketAddr → Probe α}
    (hcall : requires t (.resolve server)) (herr : ∀ e u, post (.error e) u)
    (hok : ∀ addr, (f addr).run.Ensures assumes requires post
      (t ++ [⟨.resolve server, .ok (some addr)⟩])) :
    (resolveStun server >>= f).run.Ensures assumes requires post t := by
  refine Ensures.call hcall fun r _ ↦ ?_
  rcases r with e | _ | addr
  · exact herr _ _
  · exact herr _ _
  · exact hok addr

theorem ensures_recv {f : SentReply → Probe α} (hcall : requires t (.recv localPort))
    (herr : ∀ e u, post (.error e) u)
    (hok : ∀ reply, (f reply).run.Ensures assumes requires post
      (t ++ [⟨.recv localPort, .ok reply⟩])) :
    (orFail (ask (.recv localPort)) >>= f).run.Ensures assumes requires post t := by
  refine Ensures.call hcall fun r _ ↦ ?_
  cases r with
  | error e => exact herr _ _
  | ok reply => exact hok reply

theorem ensures_recvStunResponse {f : WireplugStunResponse → Probe α}
    (hcall : requires t (.recv localPort)) (herr : ∀ e u, post (.error e) u)
    (hok : ∀ reply response, readStunResponse reply.data = some response →
      (f response).run.Ensures assumes requires post (t ++ [⟨.recv localPort, .ok reply⟩])) :
    (recvStunResponse localPort >>= f).run.Ensures assumes requires post t := by
  rw [recvStunResponse, bind_assoc]
  refine ensures_recv hcall herr fun reply ↦ ?_
  cases hread : readStunResponse reply.data with
  | none => exact herr _ _
  | some response => exact hok reply response hread

theorem ensures_sendStunRequest {dst : SocketAddr} {f : WireplugStunResponse → Probe α}
    (hcall : ∀ u e, ProbeCalls localPort u e → requires u e) (herr : ∀ e u, post (.error e) u)
    (hok : ∀ reply response, readStunResponse reply.data = some response →
      (f response).run.Ensures assumes requires post (t ++ asked localPort dst reply)) :
    (sendStunRequest dst localPort >>= f).run.Ensures assumes requires post t := by
  have hquiet {u : ProbeTrace} {e : ProbeEffect} (hsend : ∀ port buf dst, e ≠ .sendTo port buf dst)
      (hrecv : ∀ port, e ≠ .recv port) : requires u e :=
    hcall u e ⟨fun port buf dst h ↦ (hsend port buf dst h).elim, fun port h ↦ (hrecv port h).elim⟩
  refine Ensures.call (hquiet (fun _ _ _ h ↦ by cases h) fun _ h ↦ by cases h) fun r _ ↦ ?_
  cases r with
  | error e => exact herr _ _
  | ok _ =>
  refine Ensures.call (hquiet (fun _ _ _ h ↦ by cases h) fun _ h ↦ by cases h) fun r _ ↦ ?_
  cases r with
  | error e => exact herr _ _
  | ok _ =>
  refine Ensures.call (hcall _ _ ⟨fun _ _ _ h ↦ ?_, fun _ h ↦ by cases h⟩) fun r _ ↦ ?_
  · cases h
    exact ⟨rfl, rfl⟩
  cases r with
  | error e => exact herr _ _
  | ok sent =>
    change ((if (stunRequestDatagram localPort).length ≠ sent then
      throw (.io (.other "send_stun_request() failed")) else recvStunResponse localPort :
        Probe WireplugStunResponse) >>= f).run.Ensures assumes requires post _
    split
    · exact herr _ _
    · next hsent =>
      obtain rfl := not_not.mp hsent
      refine ensures_recvStunResponse (hcall _ _ ⟨fun _ _ _ h ↦ (by cases h), fun _ h ↦ ?_⟩) herr
        fun reply response hread ↦ ?_
      · cases h
        rfl
      · rw [List.append_assoc, List.append_assoc, List.append_assoc]
        exact hok reply response hread

end Rules

theorem detectKind_ensures (localPort : UInt16) : (detectKind localPort).run.Ensures
    (anyProbed localPort) (ProbeCalls localPort) (ProbeEnds localPort) [] := by
  refine ensures_resolveStun (probeCalls_resolve _) (fun e u ↦ probeEnds_error e) fun dst₁ ↦ ?_
  refine ensures_resolveStun (probeCalls_resolve _) (fun e u ↦ probeEnds_error e) fun dst₂ ↦ ?_
  refine ensures_sendStunRequest (fun u e h ↦ h) (fun e u ↦ probeEnds_error e)
    fun reply₁ response₁ hread₁ ↦ ?_
  refine ensures_sendStunRequest (fun u e h ↦ h) (fun e u ↦ probeEnds_error e)
    fun reply₂ response₂ hread₂ ↦ ?_
  cases hkind : natKind localPort response₁.result response₂.result with
  | none => exact probeEnds_error _
  | some kind =>
    intro kind' heq
    cases heq
    exact ⟨dst₁, dst₂, reply₁, reply₂, response₁, response₂, rfl, hread₁, hread₂, hkind⟩

section Network

variable {hosts : StunHosts} {ls : List StunLabel} {c : StunConfig} {i : ℕ}

def SentBy (ls : List StunLabel) (request : SentRequest) : Prop :=
  .called request.run (.sendTo request.localPort request.payload request.dst)
    (.ok request.payload.length) ∈ ls

structure RepliedBy (hosts : StunHosts) (ls : List StunLabel) (reply : SentReply) : Prop where
  arrived : .happened (.arrives reply.server reply.request reply.source) ∈ ls
  sent : SentBy ls reply.request
  addressed : hosts.addr reply.server = reply.request.dst
  reply : ∃ buf, buf.length = stunBufferSize ∧
    stunReply (receiveInto buf reply.request.payload) reply.source.port = some reply.data

/-- The network makes nothing up. -/
structure Accounted (hosts : StunHosts) (ls : List StunLabel) (s : StunNetwork) : Prop where
  requests : ∀ request ∈ s.requests, SentBy ls request
  replies : ∀ reply ∈ s.replies, RepliedBy hosts ls reply
  buffers : ∀ server, (s.buffers server).length = stunBufferSize

theorem RepliedBy.mono {ls' : List StunLabel} {reply : SentReply} (h : RepliedBy hosts ls reply)
    (hls : ls ⊆ ls') : RepliedBy hosts ls' reply :=
  ⟨hls h.arrived, hls h.sent, h.addressed, h.reply⟩

theorem Accounted.mono {ls' : List StunLabel} {s : StunNetwork} (h : Accounted hosts ls s)
    (hls : ls ⊆ ls') : Accounted hosts ls' s :=
  ⟨fun request hrequest ↦ hls (h.requests request hrequest),
    fun reply hreply ↦ (h.replies reply hreply).mono hls, h.buffers⟩

theorem length_served (buf : Bytes) (r : Received) : (serveDatagram buf r).1.length = buf.length := by
  cases r with
  | error e => rfl
  | ok d => exact length_receiveInto buf d.1

theorem Accounted.receive {s : StunNetwork} (h : Accounted hosts ls s) (server : StunServer)
    (r : Received) : Accounted hosts ls (s.receive server r) := by
  refine ⟨h.requests, h.replies, fun server' ↦ ?_⟩
  rw [StunNetwork.receive]
  by_cases hserver : server' = server
  · subst hserver
    dsimp only
    rw [Function.update_self, length_served]
    exact h.buffers server'
  · dsimp only
    rw [Function.update_of_ne hserver]
    exact h.buffers server'

theorem Accounted.serve {s : StunNetwork} (h : Accounted hosts ls s) {server : StunServer}
    {request : SentRequest} {source : SocketAddr} (hrequest : request ∈ s.requests)
    (hdst : hosts.addr server = request.dst)
    (harrived : .happened (.arrives server request source) ∈ ls) :
    Accounted hosts ls (s.serve server request source) := by
  refine ⟨h.requests, fun reply hreply ↦ ?_, (h.receive server _).buffers⟩
  rcases List.mem_append.mp hreply with hreply | hreply
  · exact h.replies reply hreply
  · obtain ⟨⟨data, addr⟩, hdata, rfl⟩ := List.mem_map.mp hreply
    rw [Option.mem_toList] at hdata
    obtain ⟨data', hdata', heq⟩ := Option.map_eq_some_iff.mp hdata
    cases heq
    exact ⟨harrived, h.requests request hrequest, hdst, _, h.buffers server, hdata'⟩

theorem accounted_of_run (h : (stunSystem hosts).Run StunConfig.start ls c) :
    Accounted hosts ls c.shared := by
  induction h with
  | nil => exact ⟨fun _ h ↦ (by cases h), fun _ h ↦ (by cases h), fun _ ↦ length_emptyBuffer⟩
  | @snoc b c ls l hrun hstep ih =>
    have hls : ls ⊆ ls ++ [l] := List.subset_append_left _ _
    have hlast : l ∈ ls ++ [l] := List.mem_append_right _ (List.mem_singleton_self l)
    cases hstep with
    | opened _ _ => exact ih.mono hls
    | called hi hanswer =>
      cases hanswer with
      | sendTo localPort buf dst =>
        refine ⟨fun request hrequest ↦ ?_, (ih.mono hls).replies, ih.buffers⟩
        rcases List.mem_append.mp hrequest with hrequest | hrequest
        · exact (ih.mono hls).requests request hrequest
        · rw [List.mem_singleton.mp hrequest]
          exact hlast
      | resolve | unresolved | bind | setReadTimeout | notSent | recv | recvError =>
        exact ih.mono hls
    | happened hhappens =>
      cases hhappens with
      | arrives _ hrequest hdst => exact (ih.mono hls).serve hrequest hdst hlast
      | receives server r => exact (ih.mono hls).receive server r

theorem probe_verified (h : (stunSystem hosts).Run StunConfig.start ls c) (i : ℕ) :
    System.Verified anyProbed ProbeCalls ProbeEnds i ls (c.threads i) :=
  h.verified (fun _ ↦ rfl) detectKind_ensures (fun _ _ _ _ _ _ _ _ ↦ trivial) i

theorem probe_calls {ms : List StunLabel} {e : ProbeEffect} {r : e.Answer}
    (h : (stunSystem hosts).Run StunConfig.start (ls ++ .called i e r :: ms) c) :
    ∃ localPort, .opened i localPort ∈ ls ∧ ProbeCalls localPort (System.calls i ls) e :=
  h.requires_called (fun _ ↦ rfl) detectKind_ensures fun _ _ _ _ _ _ _ _ ↦ trivial

/-- One of the two servers has seen a request that was sent from `localPort`,
and the reply is its answer. -/
structure Genuine (hosts : StunHosts) (ls : List StunLabel) (localPort : UInt16)
    (reply : SentReply) : Prop where
  sent : SentBy ls reply.request
  opened : .opened reply.request.run localPort ∈ ls
  port : reply.request.localPort = localPort
  addressed : hosts.addr reply.server = reply.request.dst
  arrived : .happened (.arrives reply.server reply.request reply.source) ∈ ls
  answer : readStunResponse reply.data = some (answerStunRequest reply.source.port ⟨localPort⟩)

theorem Genuine.mono {ls' : List StunLabel} {localPort : UInt16} {reply : SentReply}
    (h : Genuine hosts ls localPort reply) (hls : ls ⊆ ls') : Genuine hosts ls' localPort reply :=
  ⟨hls h.sent, hls h.opened, h.port, h.addressed, hls h.arrived, h.answer⟩

theorem genuine_of_recv {ms : List StunLabel} {localPort : UInt16} {reply : SentReply}
    (h : (stunSystem hosts).Run StunConfig.start
      (ls ++ .called i (.recv localPort) (.ok reply) :: ms) c) :
    Genuine hosts ls localPort reply := by
  obtain ⟨b, b', hrun, hstep, -⟩ := h.split_at
  have hreply : reply ∈ b.shared.replies ∧ reply.request.localPort = localPort := by
    cases hstep with
    | called _ hanswer =>
      cases hanswer with
      | recv hreply => exact ⟨hreply, rfl⟩
  obtain ⟨hreply, rfl⟩ := hreply
  have hreplied := (accounted_of_run hrun).replies reply hreply
  obtain ⟨before, after, rfl⟩ := List.append_of_mem hreplied.sent
  obtain ⟨port, hopened, hcalls⟩ := probe_calls hrun
  obtain ⟨rfl, hpayload⟩ := hcalls.sends _ _ _ rfl
  obtain ⟨buf, hbuf, hdata⟩ := hreplied.reply
  rw [hpayload, stunReply, readStunRequest_receiveInto hbuf] at hdata
  have hdata : encodeStunResponse _ = reply.data := Option.some.inj hdata
  refine ⟨hreplied.sent, List.mem_append_left _ hopened, rfl, hreplied.addressed,
    hreplied.arrived, ?_⟩
  rw [← hdata]
  exact readStunResponse_encode _

theorem resolved_addr (h : (stunSystem hosts).Run StunConfig.start ls c)
    {server : StunServer} {dst : SocketAddr}
    (hcall : ⟨.resolve server, .ok (some dst)⟩ ∈ System.calls i ls) : dst = hosts.addr server := by
  obtain ⟨before, after, rfl⟩ := List.append_of_mem (System.mem_calls.mp hcall)
  obtain ⟨b, b', -, hstep, -⟩ := h.split_at
  cases hstep with
  | called _ hanswer =>
    cases hanswer with
    | resolve => rfl
    | unresolved _ _ hnone => exact (hnone dst rfl).elim

end Network

end Wireplug
