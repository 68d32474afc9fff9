import Wireplug.Address

namespace Wireplug

open Foundation

/-- A reader of text. The text is left as it was where reading fails. -/
abbrev TextReader (α : Type) := StateT (List Char) Option α

def toDigit (radix : ℕ) (c : Char) : Option ℕ :=
  let n := if '0' ≤ c ∧ c ≤ '9' then c.toNat - '0'.toNat
    else if 'a' ≤ c ∧ c ≤ 'z' then c.toNat - 'a'.toNat + 10
    else if 'A' ≤ c ∧ c ≤ 'Z' then c.toNat - 'A'.toNat + 10
    else radix
  if n < radix then some n else none

def readGivenChar (target : Char) : TextReader Unit
  | [] => none
  | c :: cs => if c = target then some ((), cs) else none

/-- The separator is read in front of all parts but the first. -/
def readSeparator {α : Type} (sep : Char) (index : ℕ) (inner : TextReader α) : TextReader α := do
  if 0 < index then readGivenChar sep
  inner

def readNumber (radix maxDigits bound : ℕ) (allowZeroPrefix : Bool) : TextReader ℕ := fun s ↦
  let digits := (s.map (toDigit radix)).takeWhile Option.isSome
  let result := digits.foldl (fun n digit ↦ n * radix + digit.getD 0) 0
  if digits.length = 0 || maxDigits < digits.length ||
      !allowZeroPrefix && s.head? = some '0' && 1 < digits.length || bound ≤ result then none
  else some (result, s.drop digits.length)

def readOctet (index : ℕ) : TextReader UInt8 := do
  let n ← readSeparator '.' index (readNumber 10 3 256 false)
  pure (UInt8.ofNat n)

def readIpv4Addr : TextReader Ipv4Addr := do
  let a ← readOctet 0
  let b ← readOctet 1
  let c ← readOctet 2
  let d ← readOctet 3
  pure (.new a b c d)

def fromBeBytes (hi lo : UInt8) : UInt16 := hi.toUInt16 * 256 + lo.toUInt16

/-- Groups of an IPv6 address from `index` on, `left` at most. The groups end with an
embedded IPv4 address where one can be read. -/
def readGroups (index : ℕ) : ℕ → List Char → List UInt16 × Bool × List Char
  | 0, s => ([], false, s)
  | left + 1, s =>
    match if 0 < left then readSeparator ':' index readIpv4Addr s else none with
    | some (ip, s) =>
      ([fromBeBytes ip.octets[0] ip.octets[1], fromBeBytes ip.octets[2] ip.octets[3]], true, s)
    | none =>
      match readSeparator ':' index (readNumber 16 4 65536 true) s with
      | some (group, s) =>
        let (groups, ipv4, s) := readGroups (index + 1) left s
        (UInt16.ofNat group :: groups, ipv4, s)
      | none => ([], false, s)

def ofGroups (groups : List UInt16) : Option Ipv6Addr :=
  (Postcard.toVector 16
    (groups.flatMap fun g ↦ [(g / 256).toUInt8, (g % 256).toUInt8])).map Ipv6Addr.mk

def readIpv6Addr : TextReader Ipv6Addr := fun s ↦
  let (head, headIpv4, s) := readGroups 0 8 s
  if head.length = 8 then (ofGroups head).map fun ip ↦ (ip, s)
  else if headIpv4 then none
  else do
    let ((), s) ← readGivenChar ':' s
    let ((), s) ← readGivenChar ':' s
    let (tail, _, s) := readGroups 0 (8 - (head.length + 1)) s
    let ip ← ofGroups (head ++ List.replicate (8 - head.length - tail.length) 0 ++ tail)
    some (ip, s)

def readIpAddr : TextReader IpAddr := fun s ↦
  match readIpv4Addr s with
  | some (ip, s) => some (.v4 ip, s)
  | none => (readIpv6Addr s).map fun (ip, s) ↦ (.v6 ip, s)

/-- `IpAddr::from_str`: the whole text is an address. -/
def IpAddr.fromStr (s : String) : Option IpAddr :=
  match readIpAddr s.toList with
  | some (ip, []) => some ip
  | _ => none

end Wireplug
