import Wireplug.AddressText
import Wireplug.KeyFormat
import Wireplug.Server

namespace Wireplug

open Foundation

def numberText (n : ℕ) : String := String.ofList (Nat.toDigits 10 n)

def hexText (n : ℕ) : String := String.ofList (Nat.toDigits 16 n)

def Ipv4Addr.text (ip : Ipv4Addr) : String :=
  ".".intercalate (ip.octets.toList.map fun octet ↦ numberText octet.toNat)

def segmentsOf : List UInt8 → List UInt16
  | hi :: lo :: octets => fromBeBytes hi lo :: segmentsOf octets
  | _ => []

def Ipv6Addr.segments (ip : Ipv6Addr) : List UInt16 := segmentsOf ip.octets.toList

def Ipv6Addr.toIpv4Mapped (ip : Ipv6Addr) : Option Ipv4Addr :=
  match ip.octets.toList with
  | [0, 0, 0, 0, 0, 0, 0, 0, 0, 0, 0xff, 0xff, a, b, c, d] => some (.new a b c d)
  | _ => none

structure Span where
  start : ℕ
  len : ℕ

/-- The longest run of zeros, and the first such. -/
def zeroSpan (segments : List UInt16) : Span :=
  (segments.zipIdx.foldl (fun (longest, current) (segment, i) ↦
    if segment = 0 then
      let current : Span := ⟨if current.len = 0 then i else current.start, current.len + 1⟩
      (if longest.len < current.len then current else longest, current)
    else (longest, ⟨0, 0⟩)) ((⟨0, 0⟩, ⟨0, 0⟩) : Span × Span)).1

def segmentsText (segments : List UInt16) : String :=
  ":".intercalate (segments.map fun segment ↦ hexText segment.toNat)

def Ipv6Addr.text (ip : Ipv6Addr) : String :=
  match ip.toIpv4Mapped with
  | some ipv4 => "::ffff:" ++ ipv4.text
  | none =>
    let zeroes := zeroSpan ip.segments
    if 1 < zeroes.len then
      segmentsText (ip.segments.take zeroes.start) ++ "::" ++
        segmentsText (ip.segments.drop (zeroes.start + zeroes.len))
    else segmentsText ip.segments

example : (Ipv6Addr.mk #v[0x20, 1, 0x0d, 0xb8, 0, 0, 0, 0, 0, 0, 0, 0, 0, 0, 0, 1]).text =
    "2001:db8::1" := by decide

def IpAddr.text : IpAddr → String
  | .v4 ip => ip.text
  | .v6 ip => ip.text

/-- What `:?` prints for an optional address. -/
def debugIpv6 : Option Ipv6Addr → String
  | some ip => String.join ["Some(", ip.text, ")"]
  | none => "None"

section Parts

variable (debugNet : IpNet → String)

def debugNets (nets : List IpNet) : String :=
  String.join ["[", ", ".intercalate (nets.map debugNet), "]"]

def recordLine (key : String × String) (record : Record) (sec : ℕ) : String :=
  String.join ["\t", key.1, " @", record.wanIpv4.text, "/", debugIpv6 record.wanIpv6, " (LAN: ",
    debugNets debugNet record.lanAddrs, " -> ", key.2, ") | ", numberText sec, " sec ago\n"]

/-- `Storage::write_to`, for the records in the order in which the map gives them. A record from
the future stops it. -/
def writeRecords (now : SystemTime) : List ((String × String) × Record) → Except ServerError String
  | [] => .ok ""
  | (key, record) :: records =>
    match durationSince now record.timestamp with
    | none => .error (.message "second time provided was later than self")
    | some duration => do
      let rest ← writeRecords now records
      pure (recordLine debugNet key record (duration / 1000000000) ++ rest)

end Parts

def protoLine (entry : (String × String) × ProtoRelay) : String :=
  String.join [entry.1.1, " => ", entry.1.2, " waiting for ", entry.2.aIp.text, " on port:",
    numberText entry.2.relayPort.toNat, " (proto)\n"]

def pendingLine (entry : (String × String) × PendingRelay) : String :=
  String.join [entry.1.1, " => ", entry.1.2, " ", entry.2.aIp.text, ":",
    numberText entry.2.aOport.toNat, " (pending)\n"]

def establishedLine (relay : EstablishedRelay) : String :=
  String.join [relay.aIp.text, ":", numberText relay.aOport.toNat, " <=> ", relay.bIp.text, ":",
    numberText relay.bOport.toNat, " (established)\n"]

def RelayManager.text (rm : RelayManager) : String :=
  String.join (rm.proto.entries.map protoLine ++ rm.pending.entries.map pendingLine ++
    rm.established.entries.map fun entry ↦ establishedLine entry.2)

def ServerStats.text (stats : ServerStats) : String :=
  String.join ["tls errors: ", numberText stats.tlsErrros.toNat, "\nrelays needed: ",
    numberText stats.relaysNeeded.toNat, "\n"]

def clearScreen : String := "\x1b[2J\x1b[1;1H"

def statusBody (peers : String) (rm : RelayManager) (stats : ServerStats) : String :=
  String.join ["\n\nPeers:\n-----\n", peers, "\n\nRelays:\n------\n", rm.text,
    "\n\nStats:\n------\n", stats.text]

def Printed (c : Char) : Prop := c = '\t' ∨ c = '\n' ∨ 32 ≤ c.toNat ∧ c.toNat < 127

instance : DecidablePred Printed := fun c ↦
  inferInstanceAs (Decidable (c = '\t' ∨ c = '\n' ∨ 32 ≤ c.toNat ∧ c.toNat < 127))

def PrintedText (s : String) : Prop := ∀ c ∈ s.toList, Printed c

instance (s : String) : Decidable (PrintedText s) := List.decidableBAll Printed s.toList

theorem printed_join {l : List String} (h : ∀ s ∈ l, PrintedText s) :
    PrintedText (String.join l) := by
  intro c hc
  rw [String.toList_join, List.mem_flatMap] at hc
  obtain ⟨s, hs, hc⟩ := hc
  exact h s hs c hc

theorem printed_append {s s' : String} (h : PrintedText s) (h' : PrintedText s') :
    PrintedText (s ++ s') := by
  intro c hc
  rw [String.toList_append, List.mem_append] at hc
  exact hc.elim (h c) (h' c)

theorem printed_intercalate {sep : String} {l : List String} (hsep : PrintedText sep)
    (h : ∀ s ∈ l, PrintedText s) : PrintedText (sep.intercalate l) := by
  induction l with
  | nil =>
    rw [String.intercalate_nil]
    decide
  | cons s l ih =>
    have hs := h s List.mem_cons_self
    have hl := ih fun s' hs' ↦ h s' (List.mem_cons_of_mem _ hs')
    cases l with
    | nil => rwa [String.intercalate_singleton]
    | cons s' l =>
      rw [String.intercalate_cons_cons]
      exact printed_append (printed_append hs hsep) hl

theorem printed_digitChar (n : ℕ) : Printed n.digitChar := by
  by_cases hn : n < 16
  · have hall : ∀ i : Fin 16, Printed (Nat.digitChar i) := by decide
    exact hall ⟨n, hn⟩
  · obtain ⟨k, rfl⟩ := Nat.exists_eq_add_of_le' (Nat.le_of_not_lt hn)
    have hstar : (k + 16).digitChar = '*' := by simp [Nat.digitChar]
    rw [hstar]
    decide

theorem printed_toDigits (base n : ℕ) : PrintedText (String.ofList (Nat.toDigits base n)) := by
  have hcore (fuel n : ℕ) (cs : List Char) (hcs : ∀ c ∈ cs, Printed c) :
      ∀ c ∈ Nat.toDigitsCore base fuel n cs, Printed c := by
    induction fuel generalizing n cs with
    | zero => exact hcs
    | succ fuel ih =>
      have hcons : ∀ c ∈ (n % base).digitChar :: cs, Printed c := by
        intro c hc
        rcases List.mem_cons.mp hc with rfl | hc
        · exact printed_digitChar _
        · exact hcs c hc
      rw [Nat.toDigitsCore]
      split
      · exact hcons
      · exact ih _ _ hcons
  intro c hc
  rw [String.toList_ofList] at hc
  exact hcore _ _ [] (fun c hc ↦ by cases hc) c hc

theorem printed_key {s : String} (h : isValidWgkey s = true) : PrintedText s := by
  intro c hc
  rcases ((isValidWgkey_iff s).mp h).2 c hc with hvalue | rfl
  · obtain ⟨n, hn⟩ := Option.isSome_iff_exists.mp hvalue
    obtain ⟨rfl, hlt⟩ := Base64.digit_of_value hn
    have hall : ∀ i : Fin 64, Printed (Base64.digit i) := by decide
    exact hall ⟨n, hlt⟩
  · decide

theorem printed_ipv4 (ip : Ipv4Addr) : PrintedText ip.text := by
  refine printed_intercalate (by decide) fun s hs ↦ ?_
  obtain ⟨octet, -, rfl⟩ := List.mem_map.mp hs
  exact printed_toDigits 10 _

theorem printed_segments (segments : List UInt16) : PrintedText (segmentsText segments) := by
  refine printed_intercalate (by decide) fun s hs ↦ ?_
  obtain ⟨segment, -, rfl⟩ := List.mem_map.mp hs
  exact printed_toDigits 16 _

theorem printed_ipv6 (ip : Ipv6Addr) : PrintedText ip.text := by
  rw [Ipv6Addr.text]
  split
  · exact printed_append (by decide) (printed_ipv4 _)
  · dsimp only
    split
    · exact printed_append (printed_append (printed_segments _) (by decide)) (printed_segments _)
    · exact printed_segments _

theorem printed_debugIpv6 (ip : Option Ipv6Addr) : PrintedText (debugIpv6 ip) := by
  cases ip with
  | none => decide
  | some ip =>
    refine printed_join ?_
    simp only [List.forall_mem_cons, printed_ipv6, true_and]
    decide

section Parts

variable {debugNet : IpNet → String} {now : SystemTime}
  {records : List ((String × String) × Record)} {text : String}

theorem printed_recordLine (hnet : ∀ net, PrintedText (debugNet net)) {key : String × String}
    (h : PrintedText key.1) (h' : PrintedText key.2) (record : Record) (sec : ℕ) :
    PrintedText (recordLine debugNet key record sec) := by
  have hnets : PrintedText (debugNets debugNet record.lanAddrs) := by
    have hall : PrintedText (", ".intercalate (record.lanAddrs.map debugNet)) := by
      refine printed_intercalate (by decide) fun s hs ↦ ?_
      obtain ⟨net, -, rfl⟩ := List.mem_map.mp hs
      exact hnet net
    refine printed_join ?_
    simp only [List.forall_mem_cons, hall, true_and]
    decide
  have hsec : PrintedText (numberText sec) := printed_toDigits 10 sec
  refine printed_join ?_
  simp only [List.forall_mem_cons, h, h', printed_ipv4, printed_debugIpv6, hnets, hsec, true_and]
  decide

theorem printed_writeRecords (hnet : ∀ net, PrintedText (debugNet net))
    (hkeys : ∀ entry ∈ records, PrintedText entry.1.1 ∧ PrintedText entry.1.2)
    (h : writeRecords debugNet now records = .ok text) : PrintedText text := by
  induction records generalizing text with
  | nil =>
    cases h
    decide
  | cons entry records ih =>
    obtain ⟨key, record⟩ := entry
    rw [writeRecords] at h
    split at h
    · cases h
    · obtain ⟨hkey, hkey'⟩ := hkeys _ List.mem_cons_self
      cases hrest : writeRecords debugNet now records with
      | error e =>
        rw [hrest] at h
        cases h
      | ok rest =>
        rw [hrest] at h
        cases h
        refine printed_append (printed_recordLine hnet hkey hkey' _ _) ?_
        exact ih (fun entry hentry ↦ hkeys entry (List.mem_cons_of_mem _ hentry)) hrest

theorem writeRecords_isOk_iff : (∃ text, writeRecords debugNet now records = .ok text) ↔
    ∀ entry ∈ records, entry.2.timestamp ≤ now := by
  induction records with
  | nil => simp [writeRecords]
  | cons entry records ih =>
    obtain ⟨key, record⟩ := entry
    rw [List.forall_mem_cons, ← ih, writeRecords, durationSince]
    by_cases hpast : record.timestamp ≤ now
    · rw [if_pos hpast, and_iff_right hpast]
      constructor
      · rintro ⟨text, h⟩
        cases hrest : writeRecords debugNet now records with
        | error e =>
          rw [hrest] at h
          cases h
        | ok rest => exact ⟨rest, rfl⟩
      · rintro ⟨rest, hrest⟩
        rw [hrest]
        exact ⟨_, rfl⟩
    · rw [if_neg hpast]
      exact iff_of_false (fun ⟨_, h⟩ ↦ by cases h) fun h ↦ hpast h.1

end Parts

theorem printed_stats (stats : ServerStats) : PrintedText stats.text := by
  have herrors : PrintedText (numberText stats.tlsErrros.toNat) := printed_toDigits 10 _
  have hneeded : PrintedText (numberText stats.relaysNeeded.toNat) := printed_toDigits 10 _
  refine printed_join ?_
  simp only [List.forall_mem_cons, herrors, hneeded, true_and]
  decide

theorem printed_statusBody {peers : String} (h : PrintedText peers) {rm : RelayManager}
    (hrm : PrintedText rm.text) (stats : ServerStats) :
    PrintedText (statusBody peers rm stats) := by
  refine printed_join ?_
  simp only [List.forall_mem_cons, h, hrm, printed_stats, true_and]
  decide

end Wireplug
