import Wireplug.Announce
import Wireplug.Peering
import Wireplug.Stun

namespace Wireplug

open Foundation Program ByteStream

structure PeerInfo where
  publicKey : Key
  endpoint : Option SocketAddr
  rxBytes : UInt64
  lastHandshakeTime : Option SystemTime
  deriving DecidableEq

structure Device where
  publicKey : Option Key
  peers : List PeerInfo
  deriving DecidableEq

inductive DeviceReader where
  | initPeersActivity
  | getAllPeers
  | getInactivePeersByRx
  | announce
  deriving DecidableEq

/-- Nanoseconds of the monotonic clock. -/
abbrev Instant := ℕ

def seconds (n : ℕ) : Instant := n * 1000000000

/-- The range of `get_random_port`. -/
abbrev RandomPort := { port : UInt16 // 1024 ≤ port }

/-- `checked` marks the result of `check_status` in the trace; the others are
calls. The name of the interface has been parsed before the first of them. -/
inductive ClientEffect where
  | getBoth
  | getIp64OverHttps
  | getLanAddrs
  | checked (status : NetStatus)
  | getRandomPort
  | detectKind (localPort : UInt16)
  | sleep (secs : ℕ)
  | now
  | deviceGet (reader : DeviceReader)
  | updatePort (newPort : UInt16)
  | setEndpoint (peer : Key) (endpoint : SocketAddr)
  | connect
  | sendAnnouncement (announcement : WireplugAnnouncement)
  | resolveRelay (port : UInt16)
  deriving DecidableEq

@[reducible] def ClientEffect.Answer : ClientEffect → Type
  | .getBoth => Option Ipv4Addr × Option Ipv6Addr
  | .getIp64OverHttps => Option Ipv4Addr × Option Ipv6Addr
  | .getLanAddrs => Except IoError (List IpNet)
  | .checked _ => Unit
  | .getRandomPort => RandomPort
  | .detectKind _ => Except StunError NatKind
  | .sleep _ => Unit
  | .now => Instant
  | .deviceGet _ => Except IoError Device
  | .updatePort _ => Except IoError Unit
  | .setEndpoint _ _ => Except IoError Unit
  | .connect => Except IoError Unit
  | .sendAnnouncement _ => Except AnnounceError WireplugResponse
  | .resolveRelay _ => Except IoError (Option SocketAddr)

inductive ClientError where
  | io (e : IoError)
  | other (text : String)
  /-- `process::exit(1)` in `send_announcement`. -/
  | exit
  | panic
  deriving DecidableEq

instance : FromIoError ClientError := ⟨.io⟩

abbrev Client (α : Type) := ExceptT ClientError (Program ClientEffect.Answer) α

abbrev ClientTrace := Trace ClientEffect.Answer

namespace Client

variable {α β : Type}

def ask (e : ClientEffect) : Client e.Answer := ExceptT.mk (.call e fun r ↦ .done (.ok r))

/-- A call whose error the caller passes on. -/
def orFail (x : Client (Except IoError α)) : Client α := do
  let r ← x
  ExceptT.mk (.done (raise r))

/-- The result of a function whose errors the caller looks at. A panic or an
exit goes through. -/
def attempt (x : Client α) : Client (Except ClientError α) := ExceptT.mk do
  match ← x.run with
  | .error .exit => .done (.error .exit)
  | .error .panic => .done (.error .panic)
  | r => .done (.ok r)

def sleep (secs : ℕ) : Client Unit := ask (.sleep secs)

def deviceGet (reader : DeviceReader) : Client Device := orFail (ask (.deviceGet reader))

variable {P : ClientEffect → Prop} {Q : α → Prop} {F : ClientError → Prop}

theorem only_ask {e : ClientEffect} (he : P e) : (ask e).run.Only P (Ends (fun _ ↦ True) F) :=
  ⟨he, fun _ ↦ trivial⟩

theorem only_orFail {x : Client (Except IoError α)} (hx : x.run.Only P (Ends (fun _ ↦ True) F))
    (hF : ∀ e, F (.io e)) : (orFail x).run.Only P (Ends (fun _ ↦ True) F) := by
  refine hx.try fun r _ ↦ ?_
  cases r with
  | ok a => trivial
  | error e => exact hF e

theorem ensures_ask {assumes : ClientTrace → (e : ClientEffect) → e.Answer → Prop}
    {requires : ClientTrace → ClientEffect → Prop} {t : ClientTrace} {e : ClientEffect}
    {f : e.Answer → Client α} {post : Except ClientError α → ClientTrace → Prop}
    (he : requires t e)
    (hf : ∀ r, assumes t e r → (f r).run.Ensures assumes requires post (t ++ [⟨e, r⟩])) :
    (ask e >>= f).run.Ensures assumes requires post t := ⟨he, hf⟩

abbrev Calls (P : ClientEffect → Prop) (x : Client α) : Prop :=
  x.run.Only P (Ends (fun _ ↦ True) fun _ ↦ True)

theorem calls_of_only {P' : ClientEffect → Prop} {x : Client α} (hx : x.run.Only P (Ends Q F))
    (hP : ∀ e, P e → P' e) : Calls P' x :=
  hx.mono hP (Ends.mono (fun _ _ ↦ trivial) fun _ _ ↦ trivial)

theorem calls_attempt {x : Client α} (hx : Calls P x) : Calls P (attempt x) := by
  refine (only_bind x.run _).mpr (hx.mono (fun _ he ↦ he) fun r _ ↦ ?_)
  cases r with
  | ok a => trivial
  | error e => cases e <;> trivial

end Client

end Wireplug
