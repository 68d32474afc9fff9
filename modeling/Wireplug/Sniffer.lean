import Wireplug.Address
import Wireplug.Foundation.ByteStream
import Wireplug.Stun
import Mathlib.Algebra.Group.Int.Defs

namespace Wireplug

open Foundation Program

namespace Bpf

/-- The layout of `struct bpf_hdr`: its size, and where two of its fields lie. -/
structure BpfHdr where
  size : ℕ
  caplenAt : ℕ
  hdrlenAt : ℕ
  caplenAt_le : caplenAt + 4 ≤ size
  hdrlenAt_le : hdrlenAt + 2 ≤ size
  bigEndian : Bool

def sizeofEtherHeader : ℕ := 14

def sizeofIp : ℕ := 20

def sizeofUdphdr : ℕ := 8

def bufLen : ℕ := 1024

def snaplen : ℕ := sizeofEtherHeader + sizeofIp + sizeofUdphdr + 4

def field (bytes : Bytes) (offset size : ℕ) : Bytes := (bytes.drop offset).take size

/-- A number in the byte order of the machine. -/
def BpfHdr.number (hdr : BpfHdr) (bytes : Bytes) : ℕ :=
  if hdr.bigEndian then toNumber bytes else fromLE bytes

def BpfHdr.caplen (hdr : BpfHdr) (bytes : Bytes) : ℕ := hdr.number (field bytes hdr.caplenAt 4)

def BpfHdr.hdrlen (hdr : BpfHdr) (bytes : Bytes) : ℕ := hdr.number (field bytes hdr.hdrlenAt 2)

/-- The length of the IP header in words, from the frame itself. -/
def headerLength (frame : Bytes) : ℕ := toNumber (field frame sizeofEtherHeader 1) % 16

def udpAt (frame : Bytes) : ℕ := sizeofEtherHeader + 4 * headerLength frame

def sourcePort (frame : Bytes) : Bytes := field frame (udpAt frame) 2

def udpLength (frame : Bytes) : ℕ := toNumber (field frame (udpAt frame + 4) 2)

def portBytes (port : UInt16) : Bytes := [(port / 256).toUInt8, (port % 256).toUInt8]

/-- The hosts are the IPv4 addresses that their names in the filter stand for. -/
structure Filter where
  srcHost : List Ipv4Addr
  dstHost : List Ipv4Addr
  dstPort : UInt16

/-- The compiled filter: UDP over IPv4 from host to host, not in a later fragment, with the
port and the payload found behind the IP header of the frame. -/
def Filter.accepts (filter : Filter) (frame : Bytes) : Bool :=
  field frame 12 2 = [0x08, 0x00] && field frame 23 1 = [17] &&
    toNumber (field frame 20 2) % 8192 = 0 &&
    filter.srcHost.any (fun ip ↦ field frame 26 4 = ip.octets.toList) &&
    filter.dstHost.any (fun ip ↦ field frame 30 4 = ip.octets.toList) &&
    field frame (udpAt frame + 2) 2 = portBytes filter.dstPort &&
    field frame (udpAt frame + 8) 4 = [0x01, 0x00, 0x00, 0x00]

/-- What a `read` puts into the buffer, and the frame at the start of it. As much of the
frame is there as the filter's length and the bytes read allow. -/
structure Capture (hdr : BpfHdr) (filter : Filter) where
  bytes : Bytes
  bounded : bytes.length ≤ bufLen
  frame : Bytes
  accepted : filter.accepts frame = true
  caplen_eq : hdr.size ≤ bytes.length → hdr.caplen bytes = min snaplen frame.length
  captured : hdr.size ≤ bytes.length → ∀ i < min snaplen frame.length,
    hdr.hdrlen bytes + i < bytes.length → bytes[hdr.hdrlen bytes + i]? = frame[i]?

inductive BpfEffect where
  | unveil (path permissions : Option String)
  | pcapCompile (snapshot : ℕ) (filter : String)
  | getBpfSock (ifName : String)
  | pledge (promises : String)
  | read
  | load (offset size : ℕ)
  | write (bytes : Bytes)

/-- A `read` that fails has no answer; a `load` looks into the buffer. -/
@[reducible] def BpfEffect.Answer (hdr : BpfHdr) (filter : Filter) : BpfEffect → Type
  | .unveil _ _ => Bool
  | .pcapCompile _ _ => Bool
  | .getBpfSock _ => Bool
  | .pledge _ => Bool
  | .read => Option (Capture hdr filter)
  | .load _ _ => Bytes
  | .write _ => ℤ

/-- The conversion of `ssize_t` to `size_t`. -/
def toSize (sz : ℤ) : ℕ := (sz % 2 ^ 64).toNat

/-- Zero where the text is not a number in the range. -/
def strtonum (s : String) (minval maxval : ℤ) : ℤ :=
  let s := s.toList.dropWhile fun c ↦ c.toNat = 32 || 9 ≤ c.toNat && c.toNat ≤ 13
  let (negative, digits) := match s with
    | '-' :: digits => (true, digits)
    | '+' :: digits => (false, digits)
    | digits => (false, digits)
  let n := digits.foldl (fun n c ↦ n * 10 + (c.toNat - '0'.toNat)) 0
  let value : ℤ := if negative then -n else n
  if digits = [] || digits.any (fun c ↦ c < '0' || '9' < c) then 0
  else if minval ≤ value ∧ value ≤ maxval then value else 0

/-- The filter as far as it fits the buffer of `snprintf`. -/
def filterText (rlyIp srcIp port : String) : String :=
  let text :=
    s!"udp and src host {srcIp} and dst host {rlyIp} and dst port {port} and udp[8:4] = 0x01000000"
  String.ofList (text.toList.take (bufLen - 1))

section Program

variable (hdr : BpfHdr) (filter : Filter)

abbrev Sniffer (α : Type) := Program (BpfEffect.Answer hdr filter) α

abbrev SnifferTrace := Trace (BpfEffect.Answer hdr filter)

variable {hdr filter} in
def perform (e : BpfEffect) : Sniffer hdr filter (e.Answer hdr filter) := .call e .done

/-- One round of the loop, which leaves it with an exit status; `none` is its `continue`. -/
def round : Sniffer hdr filter (Option ℕ) := do
  let r ← perform .read
  let sz : ℤ := match r with
    | none => -1
    | some capture => capture.bytes.length
  if sz = -1 then pure none
  else if toSize sz < hdr.size then pure none
  else do
    let caplen ← perform (.load hdr.caplenAt 4)
    if hdr.number caplen ≠ snaplen then pure none
    else do
      let hdrlen ← perform (.load hdr.hdrlenAt 2)
      let ipDataOffset := hdr.number hdrlen + sizeofEtherHeader + sizeofIp
      if toSize sz < ipDataOffset + sizeofUdphdr + 4 then pure none
      else do
        let ulen ← perform (.load (ipDataOffset + 4) 2)
        if toNumber ulen ≠ 156 then pure none
        else do
          let sport ← perform (.load ipDataOffset 2)
          let n ← perform (.write sport)
          pure (some (if n ≠ 2 then 1 else 0))

def loop : ℕ → Sniffer hdr filter ℕ
  | 0 => pure 1
  | retries + 1 => do
    match ← round hdr filter with
    | none => loop retries
    | some status => pure status

/-- The exit status; `err` and `errx` exit with 1 as well. -/
def main : List String → Sniffer hdr filter ℕ
  | [_, ifName, rlyIp, srcIp, port] => do
    if !(← perform (.unveil (some "/dev/bpf") (some "r"))) then pure 1
    else if !(← perform (.unveil none none)) then pure 1
    else if strtonum port 1024 65535 = 0 then pure 1
    else if !(← perform (.pcapCompile snaplen (filterText rlyIp srcIp port))) then pure 1
    else if !(← perform (.getBpfSock ifName)) then pure 1
    else if !(← perform (.pledge "stdio")) then pure 1
    else loop hdr filter 3
  | _ => pure 1

end Program

end Bpf

end Wireplug
