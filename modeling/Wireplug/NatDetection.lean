import Wireplug.Foundation.Interleaving
import Wireplug.StunService

namespace Wireplug

open Foundation Program ByteStream

inductive StunServer where
  | stun1
  | stun2
  deriving DecidableEq

/-- A request on its way, with the run of `detect_kind` that has sent it. -/
structure SentRequest where
  run : ℕ
  localPort : UInt16
  payload : Bytes
  dst : SocketAddr
  deriving DecidableEq

/-- A reply on its way, with the request it answers and the source address that
the server saw. Only `data` is in the datagram. -/
structure SentReply where
  server : StunServer
  request : SentRequest
  source : SocketAddr
  data : Bytes
  deriving DecidableEq

/-- A socket is named by the port it is bound to. -/
inductive ProbeEffect where
  | resolve (server : StunServer)
  | bind (localPort : UInt16)
  | setReadTimeout (localPort : UInt16) (millis : ℕ)
  | sendTo (localPort : UInt16) (buf : Bytes) (dst : SocketAddr)
  | recv (localPort : UInt16)
  deriving DecidableEq

@[reducible] def ProbeEffect.Answer : ProbeEffect → Type
  | .resolve _ => Except IoError (Option SocketAddr)
  | .bind _ => Except IoError Unit
  | .setReadTimeout _ _ => Except IoError Unit
  | .sendTo _ _ _ => Except IoError ℕ
  | .recv _ => Except IoError SentReply

abbrev Probe (α : Type) := ExceptT StunError (Program ProbeEffect.Answer) α

abbrev ProbeTrace := Trace ProbeEffect.Answer

def Probe.ask (e : ProbeEffect) : Probe e.Answer := ExceptT.mk (.call e fun r ↦ .done (.ok r))

def Probe.orFail {α : Type} (x : Probe (Except IoError α)) : Probe α := do
  let r ← x
  ExceptT.mk (.done (raise r))

def Probe.orError {α : Type} (e : StunError) : Option α → Probe α
  | some a => pure a
  | none => throw e

open Probe

def resolveStun (server : StunServer) : Probe SocketAddr := do
  let addr ← orFail (ask (.resolve server))
  orError .unresolved addr

/-- The rest of `send_stun_request` once the request is sent. Whoever sends it, the
next datagram is taken for the answer. -/
def recvStunResponse (localPort : UInt16) : Probe WireplugStunResponse := do
  let reply ← orFail (ask (.recv localPort))
  orError .encoding (readStunResponse reply.data)

def sendStunRequest (dst : SocketAddr) (localPort : UInt16) : Probe WireplugStunResponse := do
  let buf := stunRequestDatagram localPort
  orFail (ask (.bind localPort))
  orFail (ask (.setReadTimeout localPort 500))
  let sent ← orFail (ask (.sendTo localPort buf dst))
  if buf.length ≠ sent then throw (.io (.other "send_stun_request() failed"))
  else recvStunResponse localPort

def detectKind (localPort : UInt16) : Probe NatKind := do
  let stun1 ← resolveStun .stun1
  let stun2 ← resolveStun .stun2
  let response1 ← sendStunRequest stun1 localPort
  let response2 ← sendStunRequest stun2 localPort
  orError (.io (.other "NAT inconsistent result"))
    (natKind localPort response1.result response2.result)

structure StunHosts where
  addr : StunServer → SocketAddr
  distinct : addr .stun1 ≠ addr .stun2

/-- Every datagram that was ever sent may still arrive, any number of times. -/
structure StunNetwork where
  requests : List SentRequest
  replies : List SentReply
  buffers : StunServer → Bytes

def StunNetwork.start : StunNetwork := ⟨[], [], fun _ ↦ emptyBuffer⟩

def StunNetwork.send (s : StunNetwork) (request : SentRequest) : StunNetwork :=
  { s with requests := s.requests ++ [request] }

def StunNetwork.receive (s : StunNetwork) (server : StunServer) (r : Received) : StunNetwork :=
  { s with buffers := Function.update s.buffers server (serveDatagram (s.buffers server) r).1 }

def StunNetwork.serve (s : StunNetwork) (server : StunServer) (request : SentRequest)
    (source : SocketAddr) : StunNetwork :=
  let round := serveDatagram (s.buffers server) (.ok (request.payload, source))
  { s.receive server (.ok (request.payload, source)) with
    replies := s.replies ++ round.2.toList.map fun reply ↦ ⟨server, request, source, reply.1⟩ }

variable (hosts : StunHosts)

/-- The NAT passes a reply to the port that the request came from. -/
inductive ProbeAnswers : StunNetwork → ℕ → (e : ProbeEffect) → e.Answer → StunNetwork → Prop
  | resolve (s : StunNetwork) (i : ℕ) (server : StunServer) :
      ProbeAnswers s i (.resolve server) (.ok (some (hosts.addr server))) s
  | unresolved (s : StunNetwork) (i : ℕ) (server : StunServer) (r : Except IoError (Option SocketAddr))
      (h : ∀ addr, r ≠ .ok (some addr)) : ProbeAnswers s i (.resolve server) r s
  | bind (s : StunNetwork) (i : ℕ) (localPort : UInt16) (r : Except IoError Unit) :
      ProbeAnswers s i (.bind localPort) r s
  | setReadTimeout (s : StunNetwork) (i : ℕ) (localPort : UInt16) (millis : ℕ)
      (r : Except IoError Unit) : ProbeAnswers s i (.setReadTimeout localPort millis) r s
  | sendTo (s : StunNetwork) (i : ℕ) (localPort : UInt16) (buf : Bytes) (dst : SocketAddr) :
      ProbeAnswers s i (.sendTo localPort buf dst) (.ok buf.length) (s.send ⟨i, localPort, buf, dst⟩)
  | notSent (s : StunNetwork) (i : ℕ) (localPort : UInt16) (buf : Bytes) (dst : SocketAddr)
      (r : Except IoError ℕ) (h : r ≠ .ok buf.length) :
      ProbeAnswers s i (.sendTo localPort buf dst) r s
  | recv (s : StunNetwork) (i : ℕ) {reply : SentReply} (h : reply ∈ s.replies) :
      ProbeAnswers s i (.recv reply.request.localPort) (.ok reply) s
  | recvError (s : StunNetwork) (i : ℕ) (localPort : UInt16) (e : IoError) :
      ProbeAnswers s i (.recv localPort) (.error e) s

/-- `source` is the address that the NAT gives to a request on its way. -/
inductive StunEvent where
  | arrives (server : StunServer) (request : SentRequest) (source : SocketAddr)
  | receives (server : StunServer) (r : Received)

/-- `receives` is what the servers hear from others. -/
inductive StunHappens : StunNetwork → StunEvent → StunNetwork → Prop
  | arrives (s : StunNetwork) {server : StunServer} {request : SentRequest} (source : SocketAddr)
      (h : request ∈ s.requests) (hdst : hosts.addr server = request.dst) :
      StunHappens s (.arrives server request source) (s.serve server request source)
  | receives (s : StunNetwork) (server : StunServer) (r : Received) :
      StunHappens s (.receives server r) (s.receive server r)

abbrev StunLabel := Label ℕ UInt16 ProbeEffect.Answer StunEvent

abbrev StunConfig := Config ℕ ProbeEffect.Answer (Except StunError NatKind) StunNetwork

/-- The runs of `detect_kind`, each with its local port, and the two servers. -/
def stunSystem : System ℕ UInt16 ProbeEffect.Answer (Except StunError NatKind) StunNetwork
    StunEvent where
  program localPort := (detectKind localPort).run
  opens s _ _ := s
  answers := ProbeAnswers hosts
  background := StunHappens hosts

def StunConfig.start : StunConfig := ⟨.start, fun _ ↦ none⟩

end Wireplug
