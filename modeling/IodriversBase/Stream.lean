import Mathlib.Tactic

namespace IodriversBase

abbrev Bytes := List UInt8

/-- `base::Time`, in microseconds. -/
abbrev Time := ℤ

def toMilliseconds (t : Time) : ℤ := t.tdiv 1000

def fromMilliseconds (ms : ℤ) : Time := ms * 1000

inductive TimeoutType
  | none
  | packet
  | firstByte
  deriving DecidableEq, Repr

/-- The exceptions.  The text of a `UnixError` goes on with the `strerror` of its code. -/
inductive Exn
  | lengthError (what : String)
  | timeoutError (type : TimeoutType) (what : String)
  | unixError (what : String) (error : ℕ)
  | runtimeError (what : String)
  | invalidArgument (what : String)
  | mockContextException
  deriving DecidableEq, Repr

def Exn.IsTimeout : Exn → Prop
  | .timeoutError _ _ => True
  | _ => False

instance (e : Exn) : Decidable e.IsTimeout := by
  cases e <;> unfold Exn.IsTimeout <;> infer_instance

/-- The abstract class `IOStream`.  A read returns at most what it was asked for, a write
accepts at most what it was given. -/
structure IOStream (ω : Type) where
  waitRead : Time → ω → Except Exn Bool × ω
  waitWrite : Time → ω → Except Exn Bool × ω
  read : (bufferSize : ℕ) → ω → Except Exn {data : Bytes // data.length ≤ bufferSize} × ω
  write : (data : Bytes) → ω → Except Exn {n : ℕ // n ≤ data.length} × ω
  clear : ω → ω
  eof : ω → Bool
  getFileDescriptor : ω → ℤ
  /-- The destructor. -/
  delete : ω → ω

def wroteAll (data : Bytes) : {n : ℕ // n ≤ data.length} := ⟨data.length, le_rfl⟩

def wroteNothing (data : Bytes) : {n : ℕ // n ≤ data.length} := ⟨0, Nat.zero_le _⟩

@[simp] theorem wroteAll_val (data : Bytes) : (wroteAll data).val = data.length := rfl
@[simp] theorem wroteNothing_val (data : Bytes) : (wroteNothing data).val = 0 := rfl

/-- The abstract class `IOListener`. -/
structure IOListener (ω : Type) where
  writeData : Bytes → ω → ω
  readData : Bytes → ω → ω

/-- What a driver is plugged into: the clock, its main stream if it has one, and its listeners
under their addresses. -/
structure Ports (ω : Type) where
  now : ω → Time × ω
  stream : Option (IOStream ω)
  listeners : List (ℕ × IOListener ω)

variable {ω : Type}

def Ports.notifyRead (io : Ports ω) (data : Bytes) (w : ω) : ω :=
  io.listeners.foldl (fun w l => l.2.readData data w) w

def Ports.notifyWrite (io : Ports ω) (data : Bytes) (w : ω) : ω :=
  io.listeners.foldl (fun w l => l.2.writeData data w) w

theorem Ports.notifyRead_rule {io : Ports ω} {data : Bytes} {P : ω → Prop}
    (h : ∀ l ∈ io.listeners, ∀ w, P w → P (l.2.readData data w)) {w : ω} (hw : P w) :
    P (io.notifyRead data w) := by
  apply List.foldlRecOn
  · exact hw
  · intro w hw l hl
    exact h l hl w hw

theorem Ports.notifyWrite_rule {io : Ports ω} {data : Bytes} {P : ω → Prop}
    (h : ∀ l ∈ io.listeners, ∀ w, P w → P (l.2.writeData data w)) {w : ω} (hw : P w) :
    P (io.notifyWrite data w) := by
  apply List.foldlRecOn
  · exact hw
  · intro w hw l hl
    exact h l hl w hw

end IodriversBase
