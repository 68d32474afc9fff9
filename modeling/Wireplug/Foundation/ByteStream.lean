import Wireplug.Foundation.ByteDecoder
import Wireplug.Foundation.Program

namespace Foundation

def toLE : ℕ → ℕ → Bytes
  | 0, _ => []
  | k + 1, n => UInt8.ofNat (n % 256) :: toLE k (n / 256)

def fromLE : Bytes → ℕ
  | [] => 0
  | b :: bs => b.toNat + 256 * fromLE bs

theorem toLE_length (k n : ℕ) : (toLE k n).length = k := by
  induction k generalizing n with
  | zero => rfl
  | succ k ih => rw [toLE, List.length_cons, ih]

theorem fromLE_toLE {k n : ℕ} (hn : n < 256 ^ k) : fromLE (toLE k n) = n := by
  induction k generalizing n with
  | zero => rw [Nat.pow_zero] at hn; rw [toLE, fromLE]; omega
  | succ k ih =>
    have hdiv : n / 256 < 256 ^ k := by
      rw [Nat.div_lt_iff_lt_mul (by omega), ← Nat.pow_succ]
      exact hn
    have hb : (UInt8.ofNat (n % 256)).toNat = n % 256 := by rw [UInt8.toNat_ofNat']; omega
    rw [toLE, fromLE, ih hdiv, hb, Nat.mod_add_div]

namespace ByteStream

inductive IoError where
  | unexpectedEof
  | failed
  | other (text : String)
  deriving DecidableEq, Repr

inductive Effect where
  | readExact (n : ℕ)
  | writeAll (bytes : Bytes)
  | shutdown
  deriving DecidableEq

@[reducible] def Answer : Effect → Type
  | .readExact _ => Except IoError Bytes
  | .writeAll _ => Except IoError Unit
  | .shutdown => Except IoError Unit

class FromIoError (ε : Type) where
  ofIoError : IoError → ε

section Operations

variable {ε : Type} [FromIoError ε]

def raise {α : Type} : Except IoError α → Except ε α
  | .ok a => .ok a
  | .error e => .error (FromIoError.ofIoError e)

def readExact (n : ℕ) : ExceptT ε (Program Answer) Bytes :=
  ExceptT.mk (.call (.readExact n) fun r ↦ .done (raise r))

def writeAll (bytes : Bytes) : ExceptT ε (Program Answer) Unit :=
  ExceptT.mk (.call (.writeAll bytes) fun r ↦ .done (raise r))

def shutdown : ExceptT ε (Program Answer) Unit :=
  ExceptT.mk (.call .shutdown fun r ↦ .done (raise r))

end Operations

structure Outcome (α : Type) where
  result : α
  unread : Bytes
  written : Bytes

variable {α : Type}

/-- Run a program on a transport that loses nothing: reads take the bytes the
other side sent, and fail only where these run out. -/
def run : Program Answer α → Bytes → Outcome α
  | .done a, input => ⟨a, input, []⟩
  | .call (.readExact n) k, input =>
    if n ≤ input.length then run (k (.ok (input.take n))) (input.drop n)
    else run (k (.error .unexpectedEof)) []
  | .call (.writeAll bytes) k, input =>
    let o := run (k (.ok ())) input
    { o with written := bytes ++ o.written }
  | .call .shutdown k, input => run (k (.ok ())) input

section Rules

variable {ε β : Type} (input : Bytes)

@[simp] theorem run_throw (e : ε) :
    run (throw e : ExceptT ε (Program Answer) α).run input = ⟨.error e, input, []⟩ := rfl

theorem run_bind (p : Program Answer α) (f : α → Program Answer β) (input : Bytes) :
    run (p >>= f) input =
      let o := run p input
      let o' := run (f o.result) o.unread
      ⟨o'.result, o'.unread, o.written ++ o'.written⟩ := by
  induction p generalizing input with
  | done a => rfl
  | call e k ih =>
    cases e with
    | readExact n =>
      rw [Program.call_bind, run, run]
      split
      · exact ih _ _
      · exact ih _ _
    | writeAll bytes =>
      rw [Program.call_bind, run, run, ih]
      simp only [List.append_assoc]
    | shutdown => exact ih _ _

theorem run_ok {x : ExceptT ε (Program Answer) α} {input unread written : Bytes} {a : α}
    (h : run x.run input = ⟨.ok a, unread, written⟩) (f : α → ExceptT ε (Program Answer) β) :
    run (x >>= f).run input = ⟨(run (f a).run unread).result, (run (f a).run unread).unread,
      written ++ (run (f a).run unread).written⟩ := by
  refine (run_bind x.run (ExceptT.bindCont f) input).trans ?_
  rw [h]
  rfl

variable [FromIoError ε]

theorem readExact_bind (n : ℕ) (f : Bytes → ExceptT ε (Program Answer) β) :
    (readExact n >>= f).run = .call (.readExact n) fun
      | .ok bytes => (f bytes).run
      | .error e => .done (.error (FromIoError.ofIoError e)) :=
  congrArg (Program.call _) (funext fun r ↦ by cases r <;> rfl)

@[simp] theorem run_writeAll (bytes : Bytes) (f : Unit → ExceptT ε (Program Answer) β) :
    run (writeAll bytes >>= f).run input =
      ⟨(run (f ()).run input).result, (run (f ()).run input).unread,
        bytes ++ (run (f ()).run input).written⟩ := rfl

@[simp] theorem run_writeAll_last (bytes : Bytes) :
    run (writeAll bytes : ExceptT ε (Program Answer) Unit).run input =
      ⟨.ok (), input, bytes⟩ := by
  simp [run, writeAll, raise]

theorem run_readExact {n : ℕ} (f : Bytes → ExceptT ε (Program Answer) β) {bytes : Bytes}
    (hlen : bytes.length = n) (tail : Bytes) :
    run (readExact n >>= f).run (bytes ++ tail) = run (f bytes).run tail := by
  subst hlen
  rw [readExact_bind, run]
  simp

theorem run_readExact_short {n : ℕ} (f : Bytes → ExceptT ε (Program Answer) β)
    (hlen : input.length < n) : run (readExact n >>= f).run input =
      ⟨.error (FromIoError.ofIoError .unexpectedEof), [], []⟩ := by
  rw [readExact_bind, run, if_neg (Nat.not_le.mpr hlen), run]

theorem written_readExact {n : ℕ} (f : Bytes → ExceptT ε (Program Answer) β)
    (hf : ∀ bytes input, (run (f bytes).run input).written = []) :
    (run (readExact n >>= f).run input).written = [] := by
  by_cases hlen : n ≤ input.length
  · rw [← List.take_append_drop n input, run_readExact f (List.length_take_of_le hlen)]
    exact hf _ _
  · rw [run_readExact_short input f (Nat.not_le.mp hlen)]

end Rules

end ByteStream

end Foundation
