import IodriversBase.Deadlines
import IodriversBase.ExactWrites
import IodriversBase.TimeoutViews

namespace IodriversBase

open Loop

variable {ω : Type}

/-- A wait for what is left of `timeout` milliseconds when `passed` have passed. -/
structure ExactWait (timeout passed t : ℤ) : Prop where
  exact : t = 1000 * max 0 (timeout - passed)
  nonneg : 0 ≤ t
  le : t ≤ 1000 * timeout

/-- The microseconds that are left fit an `int`.  When none are left, the milliseconds that have
passed are between `timeout` and `2 ^ 31` modulo `2 ^ 32`, or off by a multiple of `2 ^ 29`, whose
product with 1000 is lost. -/
structure FitsInt (timeout passed : ℤ) : Prop where
  left : timeout - passed ≤ 2147483
  late : timeout < passed → timeout < passed % 2 ^ 32 ∧ passed % 2 ^ 32 < 2 ^ 31 ∨
    2 ^ 29 ∣ passed - timeout

def askedWait (timeOut : Timeout) (now : Time) : Time :=
  toInt32 (toInt32 (timeOut.timeLeft (timevalOf now)) * 1000)

section Milliseconds

variable {timeout : ℤ} {start now : Time}

theorem askedWait_of_left (htimeout : 0 ≤ timeout) (hint : timeout < 2 ^ 31)
    (hleft : toInt32 (elapsedMilliseconds (timevalOf start) (timevalOf now)) ≤ timeout) :
    askedWait ⟨timeout, timevalOf start⟩ now =
      toInt32 ((timeout - elapsedMilliseconds (timevalOf start) (timevalOf now)) * 1000) := by
  unfold askedWait Timeout.timeLeft
  dsimp only
  rw [toInt32_of_small (by omega) hint, if_neg (by omega)]
  apply toInt32_congr
  apply Int.ModEq.mul_right
  calc toInt32 (toUnsigned32 (timeout - toInt32 _)) ≡ timeout - toInt32 _ [ZMOD 2 ^ 32] :=
        (toInt32_modEq _).trans (toUnsigned32_modEq _)
    _ ≡ timeout - _ [ZMOD 2 ^ 32] := (toInt32_modEq _).sub_left timeout

theorem askedWait_of_none_left (htimeout : 0 ≤ timeout) (hint : timeout < 2 ^ 31)
    (hnone : timeout < toInt32 (elapsedMilliseconds (timevalOf start) (timevalOf now))) :
    askedWait ⟨timeout, timevalOf start⟩ now = 0 := by
  unfold askedWait Timeout.timeLeft
  dsimp only
  rw [toInt32_of_small (by omega) hint, if_pos hnone]
  rfl

theorem exactWait_iff (htimeout : 0 ≤ timeout) (hint : timeout < 2 ^ 31) (hle : start ≤ now) :
    ExactWait timeout (elapsedMilliseconds (timevalOf start) (timevalOf now))
        (askedWait ⟨timeout, timevalOf start⟩ now) ↔
      FitsInt timeout (elapsedMilliseconds (timevalOf start) (timevalOf now)) := by
  have hpassed : 0 ≤ elapsedMilliseconds (timevalOf start) (timevalOf now) := by
    apply elapsedMilliseconds_nonneg
    rwa [timevalOf_microseconds, timevalOf_microseconds]
  by_cases hnone : timeout < toInt32 (elapsedMilliseconds (timevalOf start) (timevalOf now))
  · have hmore := hnone.trans_le (toInt32_le hpassed)
    rw [askedWait_of_none_left htimeout hint hnone]
    have hbetween := (lt_toInt32_iff htimeout).mp hnone
    exact iff_of_true ⟨by omega, le_rfl, by omega⟩ ⟨by omega, fun _ => .inl hbetween⟩
  rw [askedWait_of_left htimeout hint (not_lt.mp hnone)]
  generalize elapsedMilliseconds (timevalOf start) (timevalOf now) = m at *
  by_cases hlate : timeout < m
  · -- nothing is left, and the product has to be lost
    have hlost : toInt32 ((timeout - m) * 1000) = 0 ↔ 2 ^ 29 ∣ m - timeout := by
      rw [toInt32_eq_zero_iff]
      omega
    constructor
    · intro h
      have hexact := h.exact
      rw [max_eq_left (by omega), mul_zero] at hexact
      exact ⟨by omega, fun _ => .inr (hlost.mp hexact)⟩
    · intro h
      have hwraps := mt (lt_toInt32_iff htimeout).mpr hnone
      rw [hlost.mpr ((h.late hlate).resolve_left hwraps)]
      exact ⟨by rw [max_eq_left (by omega), mul_zero], le_rfl, by omega⟩
  · have hlt := toInt32_lt ((timeout - m) * 1000)
    constructor
    · intro h
      have hexact := h.exact
      exact ⟨by omega, fun h => absurd h hlate⟩
    · intro h
      have hleft := h.left
      rw [toInt32_of_small (by omega) (by omega)]
      exact ⟨by rw [max_eq_right (by omega), mul_comm], by omega, by omega⟩

end Milliseconds

/-- The waits for the stream to take more, each with the last reading of the clock before it. -/
def writeWaits (time : Time) : List Event → List (Time × Time)
  | [] => []
  | .now time :: trace => writeWaits time trace
  | .waitWrite _ timeout _ :: trace => (time, timeout) :: writeWaits time trace
  | _ :: trace => writeWaits time trace

theorem writeWaits_append (time : Time) (t t' : List Event) :
    writeWaits time (t ++ t') = writeWaits time t ++ writeWaits (lastReading time t) t' := by
  induction t generalizing time with
  | nil => rfl
  | cons ev t ih => cases ev <;> simp [writeWaits, lastReading, ih]

/-- Every wait since `w` has been asked for as `asked` has it at the last reading of the clock. -/
def Asks (asked : Time → Time) (w w' : Recorded ω) : Prop :=
  ∃ new, w'.trace = w.trace ++ new ∧
    ∀ time, ∀ wait ∈ writeWaits time new, wait.2 = asked wait.1

variable {asked : Time → Time} {w w' w'' : Recorded ω}

theorem Asks.refl (asked : Time → Time) (w : Recorded ω) : Asks asked w w :=
  ⟨[], by simp, by simp [writeWaits]⟩

theorem Asks.step (h : Asks asked w w') (new : List Event) (htrace : w''.trace = w'.trace ++ new)
    (hnew : ∀ time, ∀ wait ∈ writeWaits time new, wait.2 = asked wait.1) : Asks asked w w'' := by
  obtain ⟨old, hold, hasked⟩ := h
  refine ⟨old ++ new, by rw [htrace, hold, List.append_assoc], ?_⟩
  intro time wait hwait
  rw [writeWaits_append] at hwait
  exact (List.mem_append.mp hwait).elim (hasked time wait) (hnew _ wait)

theorem Asks.notifyWrite (h : Asks asked w w') (io : Ports ω) (k : ℕ) (data : Bytes) :
    Asks asked w ((io.recorded k).notifyWrite data w') := by
  refine Ports.recorded_notifyWrite_rule (P := fun w' : Recorded ω => Asks asked w w') ?_ h
  intro l w' w'' htrace h
  exact h.step [.writeData l data] htrace (by simp [writeWaits])

theorem writeIteration_asks {io : Ports ω} {stream : IOStream ω} {k : ℕ} {buffer : Bytes}
    {timeOut : Timeout} {s : WriteState (Recorded ω)} (hs : Asks (askedWait timeOut) w s.world) :
    (writeIteration (io.recorded k) (stream.recorded k) buffer timeOut s).Holds
      (fun s' => Asks (askedWait timeOut) w s'.world) fun b => Asks (askedWait timeOut) w b.2 := by
  unfold writeIteration
  rcases hwrite : (stream.recorded k).write (buffer.drop s.written) s.world with ⟨r, w₁⟩
  have hwritten : Asks (askedWait timeOut) w w₁ := by
    obtain ⟨-, rfl⟩ := Prod.mk.inj hwrite
    exact hs.step _ rfl (by simp [writeWaits])
  rcases r with x | c
  · exact hwritten
  dsimp only
  have hnotified := hwritten.notifyWrite io k ((buffer.drop s.written).take c.val)
  generalize (io.recorded k).notifyWrite _ w₁ = w₂ at hnotified ⊢
  by_cases hall : s.written + c.val = buffer.length
  · rw [if_pos hall]
    exact hnotified
  rw [if_neg hall]
  have hnow : Asks (askedWait timeOut) w ((io.recorded k).now w₂).2 :=
    hnotified.step _ rfl (by simp [writeWaits])
  by_cases helapsed : timeOut.elapsed (timevalOf ((io.recorded k).now w₂).1) = true
  · rw [if_pos helapsed]
    exact hnow
  rw [if_neg helapsed]
  -- the clock is read again, and the wait goes by that reading
  generalize ((io.recorded k).now w₂).2 = w₃ at hnow ⊢
  rcases hwait : (stream.recorded k).waitWrite _ ((io.recorded k).now w₃).2 with ⟨r, w₄⟩
  have hwaited : Asks (askedWait timeOut) w w₄ := by
    obtain ⟨-, rfl⟩ := Prod.mk.inj hwait
    refine hnow.step [.now _, .waitWrite k _ _] (List.append_assoc _ _ _) ?_
    intro time wait hmem
    rw [List.mem_singleton.mp hmem]
    rfl
  rcases r with x | _ | _ <;> exact hwaited

inductive WriteTimeout
  | int (timeout : ℤ)
  | time (timeout : Time)

def WriteTimeout.Accepted : WriteTimeout → Prop
  | .int timeout => 0 ≤ timeout ∧ timeout < 2 ^ 31
  | .time timeout => 0 ≤ timeout

def WriteTimeout.milliseconds : WriteTimeout → ℤ
  | .int timeout => timeout
  | .time timeout => toMilliseconds timeout

/-- The `int` that the loop is given. -/
def WriteTimeout.given : WriteTimeout → ℤ
  | .int timeout => timeout
  | .time timeout => toInt32 (toMilliseconds timeout)

variable {timeout : WriteTimeout}

theorem WriteTimeout.Accepted.milliseconds_nonneg (h : timeout.Accepted) :
    0 ≤ timeout.milliseconds := by
  cases timeout with
  | int timeout => exact h.1
  | time timeout => exact Int.tdiv_nonneg h (by decide)

theorem WriteTimeout.Accepted.given_eq (h : timeout.Accepted)
    (hint : timeout.milliseconds < 2 ^ 31) : timeout.given = timeout.milliseconds := by
  cases timeout with
  | int timeout => rfl
  | time timeout =>
    have hnonneg : 0 ≤ toMilliseconds timeout := h.milliseconds_nonneg
    exact toInt32_of_small (by omega) hint

structure WriteCall (ω : Type) where
  io : Ports ω
  stream : IOStream ω
  opened : io.stream = some stream
  number : ℕ
  driver : Driver
  buffer : Bytes
  timeout : WriteTimeout
  world : Recorded ω

def WriteCall.result (c : WriteCall ω) (fuel : ℕ) :
    Option (Except Exn Bool × Driver × Recorded ω) :=
  match c.timeout with
  | .int timeout =>
    c.driver.writePacketMilliseconds (c.io.recorded c.number) fuel c.buffer timeout c.world
  | .time timeout =>
    c.driver.writePacket (c.io.recorded c.number) fuel c.buffer timeout c.world

/-- The reading of the clock when the call begins. -/
def WriteCall.start (c : WriteCall ω) : Time := (c.io.now c.world.world).1

def WriteCall.body (c : WriteCall ω) :
    WriteState (Recorded ω) → Next (WriteState (Recorded ω)) (Except Exn Bool × Recorded ω) :=
  writeIteration (c.io.recorded c.number) (c.stream.recorded c.number) c.buffer
    ⟨toUnsigned32 c.timeout.given, timevalOf c.start⟩

def WriteCall.entry (c : WriteCall ω) : WriteState (Recorded ω) :=
  ⟨((c.io.recorded c.number).now c.world).2, 0⟩

/-- What a call has recorded whenever it comes to the head of its loop, and when it comes back. -/
inductive WriteCall.Trace (c : WriteCall ω) : List Event → Prop
  | head {s new} : Relation.ReflTransGen (Loop.Step c.body) c.entry s →
      s.world.trace = c.world.trace ++ new → c.Trace new
  | back {fuel r d' w' new} : c.result fuel = some (r, d', w') →
      w'.trace = c.world.trace ++ new → c.Trace new

theorem WriteCall.result_eq (c : WriteCall ω) (fuel : ℕ) : c.result fuel =
    c.driver.writePacketMilliseconds (c.io.recorded c.number) fuel c.buffer c.timeout.given
      c.world := by
  rw [WriteCall.result]
  cases c.timeout <;> rfl

theorem WriteCall.result_run {c : WriteCall ω} {fuel : ℕ} {r d' w'}
    (h : c.result fuel = some (r, d', w')) : ∃ r₀, run c.body fuel c.entry = some (r₀, w') := by
  have hstream := Ports.recorded_opened c.number c.opened
  simp only [WriteCall.result_eq, Driver.writePacketMilliseconds, hstream] at h
  generalize hrun : run _ fuel _ = b at h
  rw [show run c.body fuel c.entry = b from hrun]
  rcases b with _ | ⟨x | r₀, w₀⟩
  · cases h
  · cases h
    exact ⟨_, rfl⟩
  · cases h
    exact ⟨_, rfl⟩

/-- The milliseconds that have passed at a reading of the clock. -/
def WriteCall.passed (c : WriteCall ω) (now : Time) : ℤ :=
  elapsedMilliseconds (timevalOf c.start) (timevalOf now)

theorem WriteCall.Trace.asks {c : WriteCall ω} {new : List Event} (h : c.Trace new) :
    ∀ wait ∈ writeWaits c.start new,
      wait.2 = askedWait ⟨toUnsigned32 c.timeout.given, timevalOf c.start⟩ wait.1 := by
  have hentry : Asks (askedWait ⟨toUnsigned32 c.timeout.given, timevalOf c.start⟩) c.world
      c.entry.world := (Asks.refl _ _).step _ rfl (by simp [writeWaits])
  have hasks {w : Recorded ω} (htrace : w.trace = c.world.trace ++ new)
      (h : Asks (askedWait ⟨toUnsigned32 c.timeout.given, timevalOf c.start⟩) c.world w) :
      ∀ wait ∈ writeWaits c.start new,
        wait.2 = askedWait ⟨toUnsigned32 c.timeout.given, timevalOf c.start⟩ wait.1 := by
    obtain ⟨new', htrace', h⟩ := h
    rw [List.append_cancel_left (htrace.symm.trans htrace')]
    exact h c.start
  cases h with
  | head hreached htrace =>
    exact hasks htrace (reaches_rule (fun _ => writeIteration_asks) hentry hreached)
  | back hback htrace =>
    obtain ⟨r₀, hrun⟩ := WriteCall.result_run hback
    exact hasks htrace (run_rule (fun _ => writeIteration_asks) hentry hrun)

def readings (trace : List Event) : List Time :=
  trace.filterMap fun | .now time => some time | _ => none

/-- The clock has not gone back since `time`. -/
def Nondecreasing (time : Time) (trace : List Event) : Prop :=
  (time :: readings trace).Pairwise (· ≤ ·)

instance (time : Time) (trace : List Event) : Decidable (Nondecreasing time trace) :=
  inferInstanceAs (Decidable (List.Pairwise _ _))

theorem reading_of_wait {time : Time} {trace : List Event} {wait : Time × Time}
    (h : wait ∈ writeWaits time trace) : wait.1 ∈ time :: readings trace := by
  induction trace generalizing time with
  | nil => cases h
  | cons ev trace ih =>
    cases ev with
    | now t => exact List.mem_cons_of_mem _ (ih h)
    | waitWrite k t answer =>
      rcases List.mem_cons.mp h with rfl | h
      · exact List.mem_cons_self
      · exact ih h
    | _ => exact ih h

theorem Nondecreasing.le_wait {time : Time} {trace : List Event} (h : Nondecreasing time trace)
    {wait : Time × Time} (hwait : wait ∈ writeWaits time trace) : time ≤ wait.1 := by
  rcases List.mem_cons.mp (reading_of_wait hwait) with heq | hmem
  · exact heq.ge
  · exact List.rel_of_pairwise_cons h hmem

variable {c : WriteCall ω} {new : List Event}

theorem WriteCall.Trace.exactWait_iff (h : c.Trace new) (haccepted : c.timeout.Accepted)
    (hint : c.timeout.milliseconds < 2 ^ 31) (hclock : Nondecreasing c.start new)
    {wait : Time × Time} (hwait : wait ∈ writeWaits c.start new) :
    ExactWait c.timeout.milliseconds (c.passed wait.1) wait.2 ↔
      FitsInt c.timeout.milliseconds (c.passed wait.1) := by
  have hnonneg : 0 ≤ c.timeout.milliseconds := haccepted.milliseconds_nonneg
  rw [h.asks wait hwait, haccepted.given_eq hint, toUnsigned32_of_small hnonneg (by omega)]
  exact IodriversBase.exactWait_iff hnonneg hint (hclock.le_wait hwait)

/-- The call goes by the milliseconds it was given: those of an `int`, as the other overload would
for the same number. -/
def WriteCall.SameMilliseconds (c : WriteCall ω) : Prop :=
  ∃ n : ℤ, n = c.timeout.milliseconds ∧ n < 2 ^ 31 ∧ ∀ fuel, c.result fuel =
    c.driver.writePacketMilliseconds (c.io.recorded c.number) fuel c.buffer n c.world

/-- The waits of a call are exact if and only if what goes through an `int` fits: the timeout and,
at every reading before a wait, the microseconds that are left and the milliseconds that have
passed. -/
theorem writePacket_waits_exact_iff (haccepted : c.timeout.Accepted) (h : c.Trace new)
    (hclock : Nondecreasing c.start new) :
    (c.SameMilliseconds ∧ ∀ wait ∈ writeWaits c.start new,
      ExactWait c.timeout.milliseconds (c.passed wait.1) wait.2) ↔
    c.timeout.milliseconds < 2 ^ 31 ∧ ∀ wait ∈ writeWaits c.start new,
      FitsInt c.timeout.milliseconds (c.passed wait.1) := by
  constructor
  · rintro ⟨⟨n, rfl, hint, -⟩, hexact⟩
    exact ⟨hint, fun wait hwait =>
      (h.exactWait_iff haccepted hint hclock hwait).mp (hexact wait hwait)⟩
  · rintro ⟨hint, hfits⟩
    refine ⟨⟨_, rfl, hint, fun fuel => ?_⟩, fun wait hwait => ?_⟩
    · rw [c.result_eq, haccepted.given_eq hint]
    · exact (h.exactWait_iff haccepted hint hclock hwait).mpr (hfits wait hwait)

/-- A call on a fresh driver; the stream accepts as the script says, and the clock stands still. -/
def scriptedWrite (timeout : WriteTimeout) (script : List ℕ) : WriteCall (List ℕ) where
  io := ⟨fun w => (0, w), some acceptingStream, []⟩
  stream := acceptingStream
  opened := rfl
  number := 1
  driver := .new 10 false
  buffer := [7, 8, 9]
  timeout := timeout
  world := ⟨script, []⟩

theorem writePacket_waits_exact_iff_sample : ∃ new,
    (scriptedWrite (.time 5000000) [0, 2, 1]).Trace new ∧
    writeWaits 0 new = [(0, 5000000), (0, 5000000)] ∧
    (((scriptedWrite (.time 5000000) [0, 2, 1]).SameMilliseconds ∧ ∀ wait ∈ writeWaits 0 new,
        ExactWait 5000 ((scriptedWrite (.time 5000000) [0, 2, 1]).passed wait.1) wait.2) ↔
      (5000 : ℤ) < 2 ^ 31 ∧ ∀ wait ∈ writeWaits 0 new,
        FitsInt 5000 ((scriptedWrite (.time 5000000) [0, 2, 1]).passed wait.1)) := by
  let new : List Event := [.now 0, .write 1 [7, 8, 9] (.ok 0), .now 0, .now 0,
    .waitWrite 1 5000000 (.ok true), .write 1 [7, 8, 9] (.ok 2), .now 0, .now 0,
    .waitWrite 1 5000000 (.ok true), .write 1 [9] (.ok 1)]
  have htrace : (scriptedWrite (.time 5000000) [0, 2, 1]).Trace new :=
    .back (show WriteCall.result _ 5 = some _ from rfl) rfl
  have haccepted : (scriptedWrite (.time 5000000) [0, 2, 1]).timeout.Accepted :=
    show (0 : ℤ) ≤ 5000000 by decide
  have hclock : Nondecreasing 0 new := by decide
  exact ⟨new, htrace, rfl, writePacket_waits_exact_iff haccepted htrace hclock⟩

/-- 50 minutes are too many microseconds for an `int`. -/
theorem writePacket_wait_negative : ¬ ∀ new, (scriptedWrite (.int 3000000) [0, 3]).Trace new →
    Nondecreasing 0 new → ∀ wait ∈ writeWaits 0 new,
      ExactWait 3000000 ((scriptedWrite (.int 3000000) [0, 3]).passed wait.1) wait.2 := by
  intro h
  let new : List Event := [.now 0, .write 1 [7, 8, 9] (.ok 0), .now 0, .now 0,
    .waitWrite 1 (-1294967296) (.ok true), .write 1 [7, 8, 9] (.ok 3)]
  have htrace : (scriptedWrite (.int 3000000) [0, 3]).Trace new :=
    .back (show WriteCall.result _ 5 = some _ from rfl) rfl
  have hclock : Nondecreasing 0 new := by decide
  have hneg := (h new htrace hclock (0, -1294967296) List.mem_cons_self).nonneg
  exact absurd hneg (by decide)

end IodriversBase
