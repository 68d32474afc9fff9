import Wireplug.Foundation.Allocation
import Wireplug.Key
import Wireplug.Relay
import Mathlib.Data.Sym.Sym2

namespace Wireplug

open Foundation

def RelayKind.port : RelayKind → UInt16
  | .proto port => port
  | .pending port => port
  | .established port => port

/-- The arguments of `get_relay_port`, the announcing peer first. -/
structure RelayCall where
  peerA : String
  peerB : String
  announcingIp : IpAddr

def RelayCall.ends (c : RelayCall) : String × String := (c.peerA, c.peerB)

def RelayCall.pair (c : RelayCall) : Sym2 String := s(c.peerA, c.peerB)

theorem RelayCall.pair_eq_iff {c c' : RelayCall} :
    c.pair = c'.pair ↔ c.ends = c'.ends ∨ c'.ends = c.ends.swap := by
  simp only [pair, ends, Sym2.eq_iff, Prod.mk.injEq, Prod.swap_prod_mk]
  constructor
  · rintro (h | ⟨h, h'⟩)
    · exact .inl h
    · exact .inr ⟨h'.symm, h.symm⟩
  · rintro (h | ⟨h, h'⟩)
    · exact .inl h
    · exact .inr ⟨h'.symm, h.symm⟩

/-- Every key is turned into the same bytes. -/
theorem getNormalized_eq (a b c d : String) : getNormalized a b = getNormalized c d := rfl

namespace RelayManager

inductive Uses (rm : RelayManager) : UInt16 → Prop
  | proto {k : String × String} {relay : ProtoRelay} :
      rm.proto.get? k = some relay → Uses rm relay.relayPort
  | pending {k : String × String} {relay : PendingRelay} :
      rm.pending.get? k = some relay → Uses rm relay.relayPort
  | established {k : NormalizedKey} {relay : EstablishedRelay} :
      rm.established.get? k = some relay → Uses rm relay.relayPort

def portFor (rm : RelayManager) (ends : String × String) : Option UInt16 :=
  match rm.established.get? (getNormalized ends.1 ends.2) with
  | some relay => some relay.relayPort
  | none => ((rm.pending.get? ends).map PendingRelay.relayPort).or
      (((rm.proto.get? ends).map ProtoRelay.relayPort).or
        ((rm.pending.get? ends.swap).map PendingRelay.relayPort))

variable {rm rm' : RelayManager} {ends : String × String} {freePort : Option UInt16}
  {a b : String} {ip : IpAddr} {kind : RelayKind} {p : UInt16}

theorem portFor_of_established {relay : EstablishedRelay}
    (h : rm.established.get? (getNormalized a b) = some relay) :
    rm.portFor ends = some relay.relayPort := by
  rw [getNormalized_eq a b ends.1 ends.2] at h
  rw [portFor, h]

theorem portFor_of_none (h : rm.established.get? (getNormalized a b) = none) :
    rm.portFor ends = ((rm.pending.get? ends).map PendingRelay.relayPort).or
      (((rm.proto.get? ends).map ProtoRelay.relayPort).or
        ((rm.pending.get? ends.swap).map PendingRelay.relayPort)) := by
  rw [getNormalized_eq a b ends.1 ends.2] at h
  rw [portFor, h]

theorem portFor_cases (h : rm.portFor ends = some p) :
    (∃ k relay, rm.established.get? k = some relay ∧ relay.relayPort = p) ∨
      (∃ relay, rm.pending.get? ends = some relay ∧ relay.relayPort = p) ∨
      (∃ relay, rm.proto.get? ends = some relay ∧ relay.relayPort = p) ∨
      ∃ relay, rm.pending.get? ends.swap = some relay ∧ relay.relayPort = p := by
  rw [portFor] at h
  split at h
  · next relay hrelay => exact .inl ⟨_, relay, hrelay, Option.some.inj h⟩
  · rw [Option.or_eq_some_iff, Option.or_eq_some_iff] at h
    rcases h with h | ⟨-, h | ⟨-, h⟩⟩
    · exact .inr (.inl (Option.map_eq_some_iff.mp h))
    · exact .inr (.inr (.inl (Option.map_eq_some_iff.mp h)))
    · exact .inr (.inr (.inr (Option.map_eq_some_iff.mp h)))

theorem uses_of_portFor (h : rm.portFor ends = some p) : rm.Uses p := by
  rcases portFor_cases h with ⟨k, relay, hrelay, rfl⟩ | ⟨relay, hrelay, rfl⟩ |
    ⟨relay, hrelay, rfl⟩ | ⟨relay, hrelay, rfl⟩
  · exact .established hrelay
  · exact .pending hrelay
  · exact .proto hrelay
  · exact .pending hrelay

def insertProto (rm : RelayManager) (k : String × String) (relay : ProtoRelay) : RelayManager :=
  { rm with proto := rm.proto.insert k relay }

theorem portFor_insertProto (hest : rm.established.get? (getNormalized a b) = none)
    (hpending : rm.pending.get? (a, b) = none) (relay : ProtoRelay) :
    (rm.insertProto (a, b) relay).portFor =
      Function.update rm.portFor (a, b) (some relay.relayPort) := by
  have hest' : (rm.insertProto (a, b) relay).established.get? (getNormalized a b) = none := hest
  funext ends
  rw [portFor_of_none hest', insertProto]
  by_cases hends : ends = (a, b)
  · subst hends
    rw [Function.update_self, hpending, HashMap.get?_insert, if_pos rfl]
    rfl
  · rw [Function.update_of_ne hends, portFor_of_none hest, HashMap.get?_insert, if_neg hends]

theorem uses_insertProto {k : String × String} (hproto : rm.proto.get? k = none)
    (relay : ProtoRelay) (q : UInt16) :
    (rm.insertProto k relay).Uses q ↔ rm.Uses q ∨ q = relay.relayPort := by
  constructor
  · rintro (@⟨k', relay', h⟩ | @⟨k', relay', h⟩ | @⟨k', relay', h⟩)
    · rw [insertProto, HashMap.get?_insert] at h
      split at h
      · cases h
        exact .inr rfl
      · exact .inl (.proto h)
    · exact .inl (.pending h)
    · exact .inl (.established h)
  · have hold {relay' : ProtoRelay} {k' : String × String}
        (h : rm.proto.get? k' = some relay') :
        (rm.insertProto k relay).proto.get? k' = some relay' := by
      have hne : k' ≠ k := fun heq ↦ by
        rw [heq, hproto] at h
        cases h
      rwa [insertProto, HashMap.get?_insert, if_neg hne]
    have hnew : (rm.insertProto k relay).proto.get? k = some relay := by
      rw [insertProto, HashMap.get?_insert, if_pos rfl]
    rintro ((@⟨k', relay', h⟩ | @⟨k', relay', h⟩ | @⟨k', relay', h⟩) | rfl)
    · exact .proto (hold h)
    · exact .pending h
    · exact .established h
    · exact .proto hnew

theorem insertProto_other (hest : rm.established.get? (getNormalized a b) = none)
    (hpending : rm.pending.get? (a, b) = none) (hproto : rm.proto.get? (a, b) = none)
    {other : PendingRelay} (hother : rm.pending.get? (b, a) = some other) :
    rm.portFor (a, b) = some other.relayPort ∧
      (rm.insertProto (a, b) ⟨ip, other.relayPort⟩).portFor = rm.portFor ∧
      ∀ q, (rm.insertProto (a, b) ⟨ip, other.relayPort⟩).Uses q ↔ rm.Uses q := by
  have hfor : rm.portFor (a, b) = some other.relayPort := by
    rw [portFor_of_none hest, hpending, hproto, Prod.swap_prod_mk, hother]
    rfl
  have hused : rm.Uses other.relayPort := .pending hother
  refine ⟨hfor, ?_, ?_⟩
  · rw [portFor_insertProto hest hpending, ← hfor, Function.update_eq_self]
  · intro q
    rw [uses_insertProto hproto]
    apply or_iff_left_of_imp
    rintro rfl
    exact hused

theorem getRelayPort_cases (h : rm.getRelayPort freePort a b ip = some (kind, rm')) :
    (rm.portFor (a, b) = some kind.port ∧ rm'.portFor = rm.portFor ∧
        ∀ q, rm'.Uses q ↔ rm.Uses q) ∨
      (rm.portFor (a, b) = none ∧ freePort = some kind.port ∧
        rm'.portFor = Function.update rm.portFor (a, b) (some kind.port) ∧
        ∀ q, rm'.Uses q ↔ rm.Uses q ∨ q = kind.port) := by
  rw [getRelayPort] at h
  cases hest : rm.established.get? (getNormalized a b) with
  | some relay =>
    rw [hest] at h
    cases h
    exact .inl ⟨portFor_of_established hest, rfl, fun _ ↦ Iff.rfl⟩
  | none =>
    have hfor : rm.portFor (a, b) = _ := portFor_of_none hest
    cases hpending : rm.pending.get? (a, b) with
    | some relay =>
      simp only [hest, hpending] at h
      cases h
      rw [hpending] at hfor
      exact .inl ⟨hfor, rfl, fun _ ↦ Iff.rfl⟩
    | none =>
      cases hproto : rm.proto.get? (a, b) with
      | some relay =>
        simp only [hest, hpending, hproto] at h
        cases h
        rw [hpending, hproto] at hfor
        exact .inl ⟨hfor, rfl, fun _ ↦ Iff.rfl⟩
      | none =>
        cases hother : rm.pending.get? (b, a) with
        | some other =>
          simp only [hest, hpending, hproto, hother] at h
          cases h
          exact .inl (insertProto_other hest hpending hproto hother)
        | none =>
          rw [hpending, hproto, Prod.swap_prod_mk, hother] at hfor
          cases freePort with
          | none => simp [hest, hpending, hproto, hother] at h
          | some port =>
            simp only [hest, hpending, hproto, hother] at h
            cases h
            exact .inr ⟨hfor, rfl, portFor_insertProto hest hpending _, uses_insertProto hproto _⟩

/-- Calls one after another, each with what it returns. `get_free_random_port` returns a
port that no entry uses. -/
inductive Calls : RelayManager → List (RelayCall × RelayKind) → RelayManager → Prop
  | nil (rm : RelayManager) : Calls rm [] rm
  | cons {rm rm' rm'' : RelayManager} {freePort : Option UInt16} {c : RelayCall}
      {kind : RelayKind} {l : List (RelayCall × RelayKind)} :
      (∀ p, freePort = some p → ¬rm.Uses p) →
      rm.getRelayPort freePort c.peerA c.peerB c.announcingIp = some (kind, rm') →
      Calls rm' l rm'' → Calls rm ((c, kind) :: l) rm''

variable {l : List (RelayCall × RelayKind)}

theorem Calls.allocation (h : Calls rm l rm') :
    Allocation rm.portFor rm.Uses (l.map fun x ↦ (x.1.ends, x.2.port)) rm'.portFor := by
  induction h with
  | nil rm => exact .nil _ _
  | cons hfree hcall _ ih =>
    rcases getRelayPort_cases hcall with ⟨hknown, hfor, huses⟩ | ⟨hnone, hport, hfor, huses⟩
    · rw [hfor, funext fun q ↦ propext (huses q)] at ih
      exact .known hknown ih
    · rw [hfor, funext fun q ↦ propext (huses q)] at ih
      exact .fresh hnone (hfree _ hport) ih

theorem Calls.port_eq_iff (h : Calls rm l rm') {x y : RelayCall × RelayKind} (hx : x ∈ l)
    (hy : y ∈ l) : x.2.port = y.2.port ↔ x.1.ends = y.1.ends ∨
      ∃ p, rm.portFor x.1.ends = some p ∧ rm.portFor y.1.ends = some p :=
  h.allocation.value_eq_iff (fun _ _ ↦ uses_of_portFor)
    (List.mem_map_of_mem (f := fun x : RelayCall × RelayKind ↦ (x.1.ends, x.2.port)) hx)
    (List.mem_map_of_mem (f := fun x : RelayCall × RelayKind ↦ (x.1.ends, x.2.port)) hy)

/-- An entry for the pair with the port. An established relay does not name its peers:
`madeFor` tells for which pair the relay under a key was established. -/
inductive HasEntry (rm : RelayManager) (madeFor : NormalizedKey → Sym2 String) :
    Sym2 String → UInt16 → Prop
  | proto {a b : String} {relay : ProtoRelay} :
      rm.proto.get? (a, b) = some relay → HasEntry rm madeFor s(a, b) relay.relayPort
  | pending {a b : String} {relay : PendingRelay} :
      rm.pending.get? (a, b) = some relay → HasEntry rm madeFor s(a, b) relay.relayPort
  | established {k : NormalizedKey} {relay : EstablishedRelay} :
      rm.established.get? k = some relay → HasEntry rm madeFor (madeFor k) relay.relayPort

def PortsIdentifyPairs (rm : RelayManager) (madeFor : NormalizedKey → Sym2 String) : Prop :=
  ∀ pair p pair' p', rm.HasEntry madeFor pair p → rm.HasEntry madeFor pair' p' →
    (p = p' ↔ pair = pair')

/-- An established relay answers for every pair, so there is none where pairs differ. And
where both ends of a pair ask, the port of one is found from the other. -/
structure TellsPairsApart (rm : RelayManager) (calls : List RelayCall) : Prop where
  noneEstablished : ∀ c ∈ calls, ∀ c' ∈ calls, c.pair ≠ c'.pair →
    rm.established.get? (getNormalized c.peerA c.peerB) = none
  otherFound : ∀ c ∈ calls, ∀ c' ∈ calls, c'.ends = c.ends.swap → c.ends ≠ c'.ends →
    rm.established.get? (getNormalized c.peerA c.peerB) = none →
    (rm.pending.get? c.ends).isSome ∨ (rm.pending.get? c'.ends).isSome ∨
      ((rm.proto.get? c.ends).isSome ∧ (rm.proto.get? c'.ends).isSome)

variable {madeFor : NormalizedKey → Sym2 String}

theorem hasEntry_of_portFor (hest : rm.established.get? (getNormalized a b) = none)
    (h : rm.portFor ends = some p) : rm.HasEntry madeFor s(ends.1, ends.2) p := by
  rw [portFor_of_none hest, Option.or_eq_some_iff, Option.or_eq_some_iff, Option.map_eq_some_iff,
    Option.map_eq_some_iff, Option.map_eq_some_iff] at h
  rcases h with ⟨relay, hrelay, rfl⟩ | ⟨-, ⟨relay, hrelay, rfl⟩ | ⟨-, relay, hrelay, rfl⟩⟩
  · exact .pending hrelay
  · exact .proto hrelay
  · rw [Sym2.eq_swap]
    exact .pending hrelay

theorem portFor_isSome_iff (hest : rm.established.get? (getNormalized a b) = none) :
    (rm.portFor ends).isSome ↔ (rm.pending.get? ends).isSome ∨ (rm.proto.get? ends).isSome ∨
      (rm.pending.get? ends.swap).isSome := by
  rw [portFor_of_none hest, Option.isSome_or, Option.isSome_or, Option.isSome_map,
    Option.isSome_map, Option.isSome_map, Bool.or_eq_true, Bool.or_eq_true]

theorem same_portFor_iff (hports : rm.PortsIdentifyPairs madeFor)
    (hest : rm.established.get? (getNormalized a b) = none) :
    (∃ p, rm.portFor ends = some p ∧ rm.portFor ends.swap = some p) ↔
      (rm.pending.get? ends).isSome ∨ (rm.pending.get? ends.swap).isSome ∨
        ((rm.proto.get? ends).isSome ∧ (rm.proto.get? ends.swap).isSome) := by
  have hboth : (∃ p, rm.portFor ends = some p ∧ rm.portFor ends.swap = some p) ↔
      (rm.portFor ends).isSome ∧ (rm.portFor ends.swap).isSome := by
    constructor
    · rintro ⟨p, hp, hp'⟩
      rw [hp, hp']
      exact ⟨rfl, rfl⟩
    · rintro ⟨h, h'⟩
      obtain ⟨p, hp⟩ := Option.isSome_iff_exists.mp h
      obtain ⟨p', hp'⟩ := Option.isSome_iff_exists.mp h'
      have heq : p = p' := (hports _ _ _ _ (hasEntry_of_portFor hest hp)
        (hasEntry_of_portFor hest hp')).mpr Sym2.eq_swap
      exact ⟨p, hp, heq ▸ hp'⟩
  rw [hboth, portFor_isSome_iff hest, portFor_isSome_iff hest, Prod.swap_swap]
  tauto

theorem Calls.tellsPairsApart (hports : rm.PortsIdentifyPairs madeFor) (h : Calls rm l rm')
    (hall : ∀ x ∈ l, ∀ y ∈ l, x.2.port = y.2.port ↔ x.1.pair = y.1.pair) :
    rm.TellsPairsApart (l.map Prod.fst) := by
  constructor
  · intro c hc c' hc' hne
    obtain ⟨x, hx, rfl⟩ := List.mem_map.mp hc
    obtain ⟨y, hy, rfl⟩ := List.mem_map.mp hc'
    cases hest : rm.established.get? (getNormalized x.1.peerA x.1.peerB) with
    | none => rfl
    | some relay =>
      have hsame : x.2.port = y.2.port := (h.port_eq_iff hx hy).mpr
        (.inr ⟨_, portFor_of_established hest, portFor_of_established hest⟩)
      exact (hne ((hall x hx y hy).mp hsame)).elim
  · intro c hc c' hc' hswap hne hest
    obtain ⟨x, hx, rfl⟩ := List.mem_map.mp hc
    obtain ⟨y, hy, rfl⟩ := List.mem_map.mp hc'
    have hpair : x.1.pair = y.1.pair := RelayCall.pair_eq_iff.mpr (.inr hswap)
    have hsame := ((h.port_eq_iff hx hy).mp ((hall x hx y hy).mpr hpair)).resolve_left hne
    rw [hswap] at hsame ⊢
    exact (same_portFor_iff hports hest).mp hsame

theorem TellsPairsApart.pair_of_portFor {calls : List RelayCall} {c c' : RelayCall}
    (happart : rm.TellsPairsApart calls) (hports : rm.PortsIdentifyPairs madeFor)
    (hc : c ∈ calls) (hc' : c' ∈ calls) (hp : rm.portFor c.ends = some p)
    (hp' : rm.portFor c'.ends = some p) : c.pair = c'.pair := by
  by_contra hne
  have hest := happart.noneEstablished c hc c' hc' hne
  exact hne ((hports _ _ _ _ (hasEntry_of_portFor hest hp)
    (hasEntry_of_portFor hest hp')).mp rfl)

theorem TellsPairsApart.portFor_of_pair {calls : List RelayCall} {c c' : RelayCall}
    (happart : rm.TellsPairsApart calls) (hports : rm.PortsIdentifyPairs madeFor)
    (hc : c ∈ calls) (hc' : c' ∈ calls) (hpair : c.pair = c'.pair) (hne : c.ends ≠ c'.ends) :
    ∃ p, rm.portFor c.ends = some p ∧ rm.portFor c'.ends = some p := by
  have hswap := (RelayCall.pair_eq_iff.mp hpair).resolve_left hne
  cases hest : rm.established.get? (getNormalized c.peerA c.peerB) with
  | some relay => exact ⟨_, portFor_of_established hest, portFor_of_established hest⟩
  | none =>
    have hfound := happart.otherFound c hc c' hc' hswap hne hest
    rw [hswap] at hfound ⊢
    exact (same_portFor_iff hports hest).mpr hfound

/-- Ports identify the pairs of the calls exactly where the code tells pairs apart. -/
theorem relay_ports_identify_pairs_iff (hports : rm.PortsIdentifyPairs madeFor)
    (h : Calls rm l rm') :
    (∀ x ∈ l, ∀ y ∈ l, x.2.port = y.2.port ↔ x.1.pair = y.1.pair) ↔
      rm.TellsPairsApart (l.map Prod.fst) := by
  constructor
  · exact h.tellsPairsApart hports
  · intro happart x hx y hy
    have hc : x.1 ∈ l.map Prod.fst := List.mem_map_of_mem hx
    have hc' : y.1 ∈ l.map Prod.fst := List.mem_map_of_mem hy
    rw [h.port_eq_iff hx hy]
    constructor
    · rintro (hends | ⟨p, hp, hp'⟩)
      · exact RelayCall.pair_eq_iff.mpr (.inl hends)
      · exact happart.pair_of_portFor hports hc hc' hp hp'
    · intro hpair
      by_cases hends : x.1.ends = y.1.ends
      · exact .inl hends
      · exact .inr (happart.portFor_of_pair hports hc hc' hpair hends)

def firstEnd : RelayCall :=
  ⟨(Key.filled 1).toBase64, (Key.filled 2).toBase64, .v4 (.new 203 0 113 7)⟩

def secondEnd : RelayCall :=
  ⟨(Key.filled 2).toBase64, (Key.filled 1).toBase64, .v4 (.new 198 51 100 7)⟩

theorem firstEnd_pair : firstEnd.pair = secondEnd.pair := Sym2.eq_swap

theorem firstEnd_ne_secondEnd : secondEnd.ends ≠ firstEnd.ends := by
  intro h
  have hkey := toBase64_injective (congrArg Prod.fst h)
  exact absurd hkey (by decide)

theorem not_uses_new {p : UInt16} : ¬new.Uses p := by
  rintro (h | h | h)
  · cases h
  · cases h
  · cases h

def firstPending : RelayManager :=
  { new with pending := HashMap.empty.insert firstEnd.ends ⟨firstEnd.announcingIp, 51820, 40000⟩ }

theorem firstPending_entry {madeFor : NormalizedKey → Sym2 String} {pair : Sym2 String}
    {p : UInt16} (h : firstPending.HasEntry madeFor pair p) : pair = firstEnd.pair ∧ p = 40000 := by
  cases h with
  | proto h => cases h
  | pending h =>
    rw [firstPending, HashMap.get?_insert] at h
    split at h
    · next hends =>
      cases h
      obtain ⟨ha, hb⟩ := Prod.mk.inj hends
      rw [ha, hb]
      exact ⟨rfl, rfl⟩
    · cases h
  | established h => cases h

/-- The second end gets the port that the first one is pending on. -/
theorem both_ends_one_port :
    Calls firstPending [(firstEnd, .pending 40000), (secondEnd, .proto 40000)]
        (firstPending.insertProto secondEnd.ends ⟨secondEnd.announcingIp, 40000⟩) ∧
      ∀ x ∈ [(firstEnd, RelayKind.pending 40000), (secondEnd, RelayKind.proto 40000)],
        ∀ y ∈ [(firstEnd, RelayKind.pending 40000), (secondEnd, RelayKind.proto 40000)],
          (x.2.port = y.2.port ↔ x.1.pair = y.1.pair) := by
  have hpending : firstPending.pending.get? (firstEnd.peerA, firstEnd.peerB) =
      some ⟨firstEnd.announcingIp, 51820, 40000⟩ :=
    (HashMap.get?_insert _ _ _ _).trans (if_pos rfl)
  have hother : firstPending.pending.get? (secondEnd.peerB, secondEnd.peerA) =
      some ⟨firstEnd.announcingIp, 51820, 40000⟩ := hpending
  have hnone : firstPending.pending.get? (secondEnd.peerA, secondEnd.peerB) = none :=
    (HashMap.get?_insert _ _ _ _).trans (if_neg firstEnd_ne_secondEnd)
  have hports : firstPending.PortsIdentifyPairs fun _ ↦ firstEnd.pair := by
    intro pair p pair' p' h h'
    obtain ⟨rfl, rfl⟩ := firstPending_entry h
    obtain ⟨rfl, rfl⟩ := firstPending_entry h'
    exact iff_of_true rfl rfl
  have hfirst : firstPending.getRelayPort none firstEnd.peerA firstEnd.peerB
      firstEnd.announcingIp = some (.pending 40000, firstPending) := by
    rw [getRelayPort, hpending]
    rfl
  have hsecond : firstPending.getRelayPort none secondEnd.peerA secondEnd.peerB
      secondEnd.announcingIp = some (.proto 40000,
        firstPending.insertProto secondEnd.ends ⟨secondEnd.announcingIp, 40000⟩) := by
    rw [getRelayPort, hnone, hother]
    rfl
  have hcalls : Calls firstPending [(firstEnd, .pending 40000), (secondEnd, .proto 40000)]
      (firstPending.insertProto secondEnd.ends ⟨secondEnd.announcingIp, 40000⟩) :=
    .cons (fun _ h ↦ by cases h) hfirst (.cons (fun _ h ↦ by cases h) hsecond (.nil _))
  refine ⟨hcalls, (relay_ports_identify_pairs_iff hports hcalls).mpr ⟨fun _ _ _ _ _ ↦ rfl, ?_⟩⟩
  intro c hc c' hc' hswap _ _
  rcases List.mem_pair.mp hc with rfl | rfl
  · exact .inl (Option.isSome_iff_exists.mpr ⟨_, hpending⟩)
  · refine .inr (.inl ?_)
    rw [hswap]
    exact Option.isSome_iff_exists.mpr ⟨_, hother⟩

/-- While neither end is pending, each gets a port of its own. -/
theorem both_ends_two_ports :
    (new.PortsIdentifyPairs fun _ ↦ firstEnd.pair) ∧
      (∃ rm', Calls new [(firstEnd, .proto 40000), (secondEnd, .proto 40001)] rm') ∧
      firstEnd.pair = secondEnd.pair ∧
      RelayKind.port (.proto 40000) ≠ RelayKind.port (.proto 40001) := by
  refine ⟨?_, ?_, firstEnd_pair, by decide⟩
  · intro _ _ _ _ h
    cases h with
    | proto h => cases h
    | pending h => cases h
    | established h => cases h
  · have hfirst : new.getRelayPort (some 40000) firstEnd.peerA firstEnd.peerB
        firstEnd.announcingIp = some (.proto 40000, new.insertProto firstEnd.ends
          ⟨firstEnd.announcingIp, 40000⟩) := rfl
    have hother : (new.insertProto firstEnd.ends ⟨firstEnd.announcingIp, 40000⟩).proto.get?
        secondEnd.ends = none := by
      rw [insertProto, HashMap.get?_insert, if_neg firstEnd_ne_secondEnd]
      rfl
    have hsecond : (new.insertProto firstEnd.ends ⟨firstEnd.announcingIp, 40000⟩).getRelayPort
        (some 40001) secondEnd.peerA secondEnd.peerB secondEnd.announcingIp = some (.proto 40001,
          (new.insertProto firstEnd.ends ⟨firstEnd.announcingIp, 40000⟩).insertProto
            secondEnd.ends ⟨secondEnd.announcingIp, 40001⟩) := by
      have hother' : (new.insertProto firstEnd.ends ⟨firstEnd.announcingIp, 40000⟩).proto.get?
        (secondEnd.peerA, secondEnd.peerB) = none := hother
      rw [getRelayPort, hother']
      rfl
    refine ⟨_, .cons ?_ hfirst (.cons ?_ hsecond (.nil _))⟩
    · intro p _ hp
      exact not_uses_new hp
    · intro p hp huses
      cases hp
      rcases (uses_insertProto rfl _ _).mp huses with hp | hp
      · exact not_uses_new hp
      · exact absurd hp (by decide)

end RelayManager

end Wireplug
