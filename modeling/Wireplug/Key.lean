import Wireplug.Foundation.Base64
import Wireplug.Protocol

namespace Wireplug

open Foundation

structure Key where
  bytes : Vector UInt8 32
  deriving DecidableEq

def Key.toBase64 (k : Key) : String := String.ofList (Base64.encode k.bytes.toList)

/-- A `from_base64` for runs on fixed inputs: standard base64 of exactly 32 bytes. What the real one
does with other strings is left open, it is a parameter. -/
def strictBase64 (s : String) : Option Key := do
  let bytes ← Base64.decode s.toList
  let key ← Postcard.toVector 32 bytes
  some ⟨key⟩

theorem strictBase64_toBase64 (k : Key) : strictBase64 k.toBase64 = some k := by
  obtain ⟨⟨⟨l⟩, hl⟩⟩ := k
  rw [strictBase64, Key.toBase64, String.toList_ofList, Base64.decode_encode]
  simp only [Vector.toList, Option.bind_eq_bind, Option.bind_some, Postcard.toVector, dif_pos hl]

theorem toBase64_injective {k k' : Key} (h : k.toBase64 = k'.toBase64) : k = k' := by
  have heq : strictBase64 k.toBase64 = strictBase64 k'.toBase64 := by rw [h]
  rw [strictBase64_toBase64, strictBase64_toBase64] at heq
  exact Option.some.inj heq

theorem utf8ByteSize_toBase64 (k : Key) : k.toBase64.utf8ByteSize = 44 := by
  rw [Key.toBase64, Base64.utf8ByteSize_encode, Vector.length_toList]

theorem isValidWgkey_toBase64 (k : Key) : isValidWgkey k.toBase64 = true := by
  have hdigit (n : ℕ) (hn : n < 64) : ((Base64.digit n).isAlphanum || Base64.digit n = '+' ||
      Base64.digit n = '/' || Base64.digit n = '=') = true := by
    have h : ∀ i : Fin 64, ((Base64.digit i).isAlphanum || Base64.digit i = '+' ||
      Base64.digit i = '/' || Base64.digit i = '=') = true := by decide
    exact h ⟨n, hn⟩
  rw [isValidWgkey, if_neg (by rw [utf8ByteSize_toBase64]; decide), Key.toBase64,
    String.toList_ofList, List.all_eq_true]
  exact Base64.forall_mem_encode hdigit (by decide) k.bytes.toList

def Key.filled (b : UInt8) : Key := ⟨Vector.replicate 32 b⟩

def bareAnnouncement (initiator peer : Key) : WireplugAnnouncement where
  initiatorPubkey := initiator.toBase64
  peerPubkeys := [peer.toBase64]
  ipv6 := none
  wgPort := 51820
  lanAddrs := []
  needsRelay := false

theorem mem_peerPubkeys_bare (initiator peer : Key) :
    peer.toBase64 ∈ (bareAnnouncement initiator peer).peerPubkeys := List.mem_cons_self

theorem bareAnnouncement_valid (initiator peer : Key) :
    (bareAnnouncement initiator peer).valid = true := by
  simp only [WireplugAnnouncement.valid, bareAnnouncement, isValidWgkey_toBase64, List.all_cons,
    List.all_nil]
  rfl

end Wireplug
