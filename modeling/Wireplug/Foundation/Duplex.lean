import Wireplug.Foundation.ByteStream

namespace Foundation

open ByteStream

/-- One direction of a connection: what was sent, and how much of it has been taken. -/
structure Pipe where
  sent : Bytes
  taken : ℕ
  taken_le : taken ≤ sent.length

namespace Pipe

def empty : Pipe := ⟨[], 0, Nat.le_refl 0⟩

def rest (p : Pipe) : Bytes := p.sent.drop p.taken

def put (p : Pipe) (bytes : Bytes) : Pipe where
  sent := p.sent ++ bytes
  taken := p.taken
  taken_le := by
    rw [List.length_append]
    exact Nat.le_add_right_of_le p.taken_le

def skip (p : Pipe) (n : ℕ) (h : n ≤ p.rest.length) : Pipe where
  sent := p.sent
  taken := p.taken + n
  taken_le := by
    have htaken := p.taken_le
    rw [rest, List.length_drop] at h
    omega

theorem take_skip (p : Pipe) (n : ℕ) (h : n ≤ p.rest.length) :
    p.sent.take (p.skip n h).taken = p.sent.take p.taken ++ p.rest.take n := List.take_add

theorem take_put (p : Pipe) (bytes : Bytes) :
    (p.put bytes).sent.take p.taken = p.sent.take p.taken :=
  List.take_append_of_le_length p.taken_le

theorem rest_put (p : Pipe) (bytes : Bytes) : (p.put bytes).rest = p.rest ++ bytes :=
  List.drop_append_of_le_length p.taken_le

theorem rest_skip {p : Pipe} {k : ℕ} (h : k ≤ p.rest.length) :
    (p.skip k h).rest = p.rest.drop k := by
  rw [rest, rest, List.drop_drop]
  rfl

end Pipe

namespace ByteStream

/-- What an operation does to the two pipes at one end of a connection. It may fail at any
time, and then any part of it may have been done. -/
inductive Transfers : (e : Effect) → Answer e → Pipe × Pipe → Pipe × Pipe → Prop
  | read {input output : Pipe} (n : ℕ) (h : n ≤ input.rest.length) :
      Transfers (.readExact n) (.ok (input.rest.take n)) (input, output) (input.skip n h, output)
  | readFails {input output : Pipe} (n k : ℕ) (e : IoError) (h : k ≤ input.rest.length) :
      Transfers (.readExact n) (.error e) (input, output) (input.skip k h, output)
  | write {input output : Pipe} (bytes : Bytes) :
      Transfers (.writeAll bytes) (.ok ()) (input, output) (input, output.put bytes)
  | writeFails {input output : Pipe} {part bytes : Bytes} (e : IoError) (h : part <+: bytes) :
      Transfers (.writeAll bytes) (.error e) (input, output) (input, output.put part)
  | shutdown {input output : Pipe} (r : Except IoError Unit) :
      Transfers .shutdown r (input, output) (input, output)

def Succeeds : Event Answer → Prop
  | ⟨.readExact n, .ok bytes⟩ => bytes.length = n
  | ⟨.writeAll _, .ok _⟩ => True
  | ⟨.shutdown, .ok _⟩ => True
  | _ => False

def Clean (t : Trace Answer) : Prop := ∀ ev ∈ t, Succeeds ev

theorem exists_transfers {e : Effect} {input : Pipe} (output : Pipe)
    (h : ∀ n, e = .readExact n → n ≤ input.rest.length) :
    ∃ r input' output', Transfers e r (input, output) (input', output') ∧ Succeeds ⟨e, r⟩ := by
  cases e with
  | readExact n => exact ⟨_, _, _, .read n (h n rfl), List.length_take_of_le (h n rfl)⟩
  | writeAll bytes => exact ⟨_, _, _, .write bytes, trivial⟩
  | shutdown => exact ⟨_, _, _, .shutdown (.ok ()), trivial⟩

def readBy : Event Answer → Bytes
  | ⟨.readExact _, .ok bytes⟩ => bytes
  | _ => []

def writtenBy : Event Answer → Bytes
  | ⟨.writeAll bytes, .ok _⟩ => bytes
  | _ => []

def bytesRead (t : Trace Answer) : Bytes := t.flatMap readBy

def bytesWritten (t : Trace Answer) : Bytes := t.flatMap writtenBy

variable {t : Trace Answer} {ev : Event Answer}

theorem clean_snoc : Clean (t ++ [ev]) ↔ Clean t ∧ Succeeds ev := by
  rw [Clean, List.forall_mem_append, List.forall_mem_singleton]
  exact Iff.rfl

@[simp] theorem bytesRead_snoc (t : Trace Answer) (ev : Event Answer) :
    bytesRead (t ++ [ev]) = bytesRead t ++ readBy ev := by
  rw [bytesRead, List.flatMap_append, List.flatMap_singleton]
  rfl

@[simp] theorem bytesWritten_snoc (t : Trace Answer) (ev : Event Answer) :
    bytesWritten (t ++ [ev]) = bytesWritten t ++ writtenBy ev := by
  rw [bytesWritten, List.flatMap_append, List.flatMap_singleton]
  rfl

/-- As long as nothing fails, the calls at one end account for what was taken from one pipe
and for all that was sent on the other. -/
structure Endpoint (t : Trace Answer) (input output : Pipe) : Prop where
  read : Clean t → bytesRead t = input.sent.take input.taken
  written : Clean t → bytesWritten t = output.sent

variable {input output input' output' : Pipe}

theorem endpoint_nil : Endpoint [] .empty .empty := ⟨fun _ ↦ rfl, fun _ ↦ rfl⟩

namespace Endpoint

theorem transfers {e : Effect} {r : Answer e} (h : Endpoint t input output)
    (htransfers : Transfers e r (input, output) (input', output')) :
    Endpoint (t ++ [⟨e, r⟩]) input' output' := by
  cases htransfers with
  | read n hn =>
    constructor
    · intro hclean
      rw [bytesRead_snoc, h.read (clean_snoc.mp hclean).1]
      exact (input.take_skip n hn).symm
    · intro hclean
      rw [bytesWritten_snoc, h.written (clean_snoc.mp hclean).1]
      exact List.append_nil _
  | readFails n k e hk => exact ⟨fun hclean ↦ (clean_snoc.mp hclean).2.elim,
      fun hclean ↦ (clean_snoc.mp hclean).2.elim⟩
  | write bytes =>
    constructor
    · intro hclean
      rw [bytesRead_snoc, h.read (clean_snoc.mp hclean).1]
      exact List.append_nil _
    · intro hclean
      rw [bytesWritten_snoc, h.written (clean_snoc.mp hclean).1]
      rfl
  | writeFails e hpart => exact ⟨fun hclean ↦ (clean_snoc.mp hclean).2.elim,
      fun hclean ↦ (clean_snoc.mp hclean).2.elim⟩
  | shutdown r =>
    constructor
    · intro hclean
      rw [bytesRead_snoc, h.read (clean_snoc.mp hclean).1]
      exact List.append_nil _
    · intro hclean
      rw [bytesWritten_snoc, h.written (clean_snoc.mp hclean).1]
      exact List.append_nil _

theorem opposite {e : Effect} {r : Answer e} (h : Endpoint t input output)
    (htransfers : Transfers e r (output, input) (output', input')) :
    Endpoint t input' output' := by
  cases htransfers with
  | read n hn => exact ⟨h.read, h.written⟩
  | readFails n k e hk => exact ⟨h.read, h.written⟩
  | write bytes => exact ⟨fun hclean ↦ (h.read hclean).trans (input.take_put bytes).symm, h.written⟩
  | writeFails e hpart =>
    exact ⟨fun hclean ↦ (h.read hclean).trans (input.take_put _).symm, h.written⟩
  | shutdown r => exact h

theorem read_begins (h : Endpoint t input output) (hclean : Clean t) :
    bytesRead t <+: input.sent := by
  rw [h.read hclean]
  exact List.take_prefix _ _

end Endpoint

theorem sent_begins {text : Bytes} {e : Effect} {r : Answer e} (h : Endpoint t input output)
    (hsent : output.sent <+: text)
    (hwrites : ∀ bytes, e = .writeAll bytes → Clean t ∧ bytesWritten t ++ bytes <+: text)
    (htransfers : Transfers e r (input, output) (input', output')) : output'.sent <+: text := by
  cases htransfers with
  | read n hn => exact hsent
  | readFails n k e hk => exact hsent
  | write bytes =>
    obtain ⟨hclean, hbegins⟩ := hwrites bytes rfl
    rwa [h.written hclean] at hbegins
  | @writeFails _ _ part bytes e hpart =>
    obtain ⟨hclean, hbegins⟩ := hwrites bytes rfl
    rw [h.written hclean] at hbegins
    exact ((List.prefix_append_right_inj _).mpr hpart).trans hbegins
  | shutdown r => exact hsent

theorem Transfers.input_sent {e : Effect} {r : Answer e}
    (h : Transfers e r (input, output) (input', output')) : input'.sent = input.sent := by
  cases h <;> rfl

theorem Transfers.sent_le {e : Effect} {r : Answer e}
    (h : Transfers e r (input, output) (input', output')) : output.sent <+: output'.sent := by
  cases h with
  | read | readFails | shutdown => exact List.prefix_rfl
  | write | writeFails => exact List.prefix_append _ _

inductive Exchanges : Trace Answer → Pipe × Pipe → Pipe × Pipe → Prop
  | nil (pipes : Pipe × Pipe) : Exchanges [] pipes pipes
  | cons {e : Effect} {r : Answer e} {u : Trace Answer} {pipes pipes' pipes'' : Pipe × Pipe} :
      Transfers e r pipes pipes' → Exchanges u pipes' pipes'' →
      Exchanges (⟨e, r⟩ :: u) pipes pipes''

theorem Exchanges.trans {u v : Trace Answer} {pipes pipes' pipes'' : Pipe × Pipe}
    (h : Exchanges u pipes pipes') (h' : Exchanges v pipes' pipes'') :
    Exchanges (u ++ v) pipes pipes'' := by
  induction h with
  | nil => exact h'
  | cons htransfers _ ih => exact .cons htransfers (ih h')

/-- What a program does on a reliable transport it can do here, while the other end
does nothing. -/
theorem exists_exchanges {α : Type} (p : Program Answer α) (input output : Pipe) :
    ∃ u input' output', p.Path u (.done (run p input.rest).result) ∧
      Exchanges u (input, output) (input', output') ∧ input'.rest = (run p input.rest).unread ∧
        output'.rest = output.rest ++ (run p input.rest).written := by
  induction p generalizing input output with
  | done a => exact ⟨[], input, output, .nil _, .nil _, rfl, (List.append_nil _).symm⟩
  | call e k ih =>
    cases e with
    | readExact n =>
      rw [run]
      split
      · next hn =>
        obtain ⟨u, input', output', hpath, hexchanges, hrest⟩ :=
          ih (.ok (input.rest.take n)) (input.skip n hn) output
        rw [Pipe.rest_skip] at hpath hrest
        exact ⟨_, input', output', .cons hpath, .cons (.read n hn) hexchanges, hrest⟩
      · obtain ⟨u, input', output', hpath, hexchanges, hrest⟩ :=
          ih (.error .unexpectedEof) (input.skip input.rest.length (Nat.le_refl _)) output
        rw [Pipe.rest_skip, List.drop_length] at hpath hrest
        exact ⟨_, input', output', .cons hpath, .cons (.readFails n _ _ _) hexchanges, hrest⟩
    | writeAll bytes =>
      obtain ⟨u, input', output', hpath, hexchanges, hunread, hrest⟩ :=
        ih (.ok ()) input (output.put bytes)
      refine ⟨_, input', output', .cons hpath, .cons (.write bytes) hexchanges, hunread, ?_⟩
      rw [hrest, Pipe.rest_put]
      exact List.append_assoc _ _ _
    | shutdown =>
      obtain ⟨u, input', output', hpath, hexchanges, hrest⟩ := ih (.ok ()) input output
      exact ⟨_, input', output', .cons hpath, .cons (.shutdown (.ok ())) hexchanges, hrest⟩

def Full : Event Answer → Prop
  | ⟨.readExact n, .ok bytes⟩ => bytes.length = n
  | _ => True

theorem Transfers.full {e : Effect} {r : Answer e}
    (h : Transfers e r (input, output) (input', output')) : Full ⟨e, r⟩ := by
  cases h with
  | read n hn => exact List.length_take_of_le hn
  | readFails | write | writeFails | shutdown => exact trivial

def ReadsFrom (text : Bytes) (t : Trace Answer) (e : Effect) (r : Answer e) : Prop :=
  Full ⟨e, r⟩ ∧ bytesRead (t ++ [⟨e, r⟩]) <+: text

theorem Endpoint.readsFrom {text : Bytes} {e : Effect} {r : Answer e} (h : Endpoint t input output)
    (hclean : Clean t) (hsent : input.sent <+: text)
    (htransfers : Transfers e r (input, output) (input', output')) : ReadsFrom text t e r := by
  have hnothing : bytesRead t ++ [] <+: text := by
    rw [List.append_nil]
    exact (h.read_begins hclean).trans hsent
  rw [ReadsFrom, bytesRead_snoc, and_iff_right htransfers.full]
  cases htransfers with
  | read n hn =>
    have hread : bytesRead t ++ input.rest.take n <+: input.sent := by
      rw [h.read hclean, ← input.take_skip n hn]
      exact List.take_prefix _ _
    exact hread.trans hsent
  | readFails | write | writeFails | shutdown => exact hnothing

section Rules

variable {ε α : Type} [FromIoError ε] {assumes : Trace Answer → (e : Effect) → Answer e → Prop}
  {requires : Trace Answer → Effect → Prop} {post : Except ε α → Trace Answer → Prop}

theorem ensures_read {n : ℕ} {f : Bytes → ExceptT ε (Program Answer) α}
    (hcall : requires t (.readExact n))
    (herr : ∀ e, post (.error (FromIoError.ofIoError e)) (t ++ [⟨.readExact n, .error e⟩]))
    (hok : ∀ bytes, assumes t (.readExact n) (.ok bytes) →
      (f bytes).run.Ensures assumes requires post (t ++ [⟨.readExact n, .ok bytes⟩])) :
    (readExact n >>= f).run.Ensures assumes requires post t := by
  rw [readExact_bind]
  refine .call hcall fun r hr ↦ ?_
  cases r with
  | ok bytes => exact hok bytes hr
  | error e => exact herr e

theorem ensures_write {bytes : Bytes} {f : Unit → ExceptT ε (Program Answer) α}
    (hcall : requires t (.writeAll bytes))
    (herr : ∀ e, post (.error (FromIoError.ofIoError e)) (t ++ [⟨.writeAll bytes, .error e⟩]))
    (hok : (f ()).run.Ensures assumes requires post (t ++ [⟨.writeAll bytes, .ok ()⟩])) :
    (writeAll bytes >>= f).run.Ensures assumes requires post t := by
  refine .call hcall fun r _ ↦ ?_
  cases r with
  | ok _ => exact hok
  | error e => exact herr e

theorem ensures_pieces {text : Bytes} (pieces : List Bytes) (hclean : Clean t)
    (ht : bytesWritten t ++ pieces.flatten = text) :
    (pieces.forM writeAll : ExceptT ε (Program Answer) Unit).run.Ensures assumes
      (fun u e ↦ Clean u ∧ ∃ bytes, e = .writeAll bytes ∧ bytesWritten u ++ bytes <+: text)
      (fun r u ↦ r = .ok () → Clean u ∧ bytesWritten u = text) t := by
  induction pieces generalizing t with
  | nil =>
    rw [List.flatten_nil, List.append_nil] at ht
    exact fun _ ↦ ⟨hclean, ht⟩
  | cons bytes pieces ih =>
    rw [List.flatten_cons, ← List.append_assoc] at ht
    refine ensures_write ⟨hclean, bytes, rfl, ht ▸ List.prefix_append _ _⟩ (fun e h ↦ by cases h) ?_
    refine ih (clean_snoc.mpr ⟨hclean, trivial⟩) ?_
    rw [bytesWritten_snoc]
    exact ht

end Rules

end ByteStream

end Foundation
