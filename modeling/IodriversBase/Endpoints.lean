import IodriversBase.Forward
import IodriversBase.UnixServer
import IodriversBase.Views

namespace IodriversBase

open Loop

variable {ω : Type}

/-- One side: what is read comes from `σ`, which has a clock, and what is written goes to `τ`. -/
structure Endpoint (σ τ : Type) where
  fd : ℤ
  now : σ → Time
  waitRead : Time → σ → Except Exn Bool × σ
  read : (n : ℕ) → σ → Except Exn {data : Bytes // data.length ≤ n} × σ
  eof : σ → Bool
  waitWrite : Time → τ → Except Exn Bool × τ
  write : (data : Bytes) → τ → Except Exn {n : ℕ // n ≤ data.length} × τ

structure Part (ω κ : Type) where
  get : ω → κ
  set : ω → κ → ω
  get_set : ∀ w x, get (set w x) = x
  set_set : ∀ w x y, set (set w x) y = set w y
  set_get : ∀ w, set w (get w) = w

structure Part.Apart {κ κ' : Type} (a : Part ω κ) (b : Part ω κ') : Prop where
  get_set : ∀ w x, b.get (a.set w x) = b.get w

def Driver.wrote (n : ℕ) (d : Driver) : Driver :=
  d.withStats { d.stats with tx := d.stats.tx + .ofNat n }

theorem Driver.wrote_zero (d : Driver) : d.wrote 0 = d := by
  simp [Driver.wrote, Driver.withStats]

theorem Driver.wrote_eq (n : ℕ) (d : Driver) :
    d.wrote n = d.withOutput ⟨.ofNat n, d.writeTimeout⟩ := rfl

theorem Driver.withOutput_zero (d : Driver) : d.withOutput ⟨0, d.writeTimeout⟩ = d := by
  simp [Driver.withOutput, Status.addTx]

namespace Endpoint

variable {σ τ : Type} (p : Endpoint σ τ)

def stream : IOStream (σ × τ) where
  waitRead t s := ((p.waitRead t s.1).1, (p.waitRead t s.1).2, s.2)
  waitWrite t s := ((p.waitWrite t s.2).1, s.1, (p.waitWrite t s.2).2)
  read n s := ((p.read n s.1).1, (p.read n s.1).2, s.2)
  write data s := ((p.write data s.2).1, s.1, (p.write data s.2).2)
  clear s := s
  eof s := p.eof s.1
  getFileDescriptor _ := p.fd
  delete s := s

/-- The ports of a driver on this side of the world. -/
def ports (part : Part ω (σ × τ)) : Ports ω where
  now w := (p.now (part.get w).1, w)
  stream := some (p.stream.within part.get part.set)
  listeners := []

def inStream : IOStream σ where
  waitRead := p.waitRead
  waitWrite _ x := (.ok true, x)
  read := p.read
  write data x := (.ok (wroteAll data), x)
  clear x := x
  eof := p.eof
  getFileDescriptor _ := p.fd
  delete x := x

def inPorts : Ports σ where
  now x := (p.now x, x)
  stream := some p.inStream
  listeners := []

/-- This side for writing only; no time passes on it while the other is read from. -/
def outStream : IOStream τ where
  waitRead _ y := (.ok true, y)
  waitWrite := p.waitWrite
  read _ y := (.ok ⟨[], Nat.zero_le _⟩, y)
  write := p.write
  clear y := y
  eof _ := false
  getFileDescriptor _ := p.fd
  delete y := y

def outPorts : Ports τ where
  now y := (0, y)
  stream := some p.outStream
  listeners := []

theorem views (e : Bytes → ℤ) (part : Part ω (σ × τ)) (w : ω) :
    Views (.pure e) p.inPorts p.inStream (.pure e) (p.ports part)
      (p.stream.within part.get part.set) fun x => part.set w (x, (part.get w).2) where
  extract _ _ := rfl
  now x := by simp [ports, inPorts, part.get_set]
  notifyRead _ _ := rfl
  stream := rfl
  stream' := rfl
  read n x := by simp [stream, inStream, IOStream.within, part.get_set, part.set_set]
  waitRead t x := by simp [stream, inStream, IOStream.within, part.get_set, part.set_set]

theorem within_write (part : Part ω (σ × τ)) (data : Bytes) (w : ω) (x : σ) (y : τ) :
    (p.stream.within part.get part.set).write data (part.set w (x, y)) =
      ((p.write data y).1, part.set w (x, (p.write data y).2)) := by
  simp [IOStream.within, stream, part.get_set, part.set_set]

theorem within_waitWrite (part : Part ω (σ × τ)) (t : Time) (w : ω) (x : σ) (y : τ) :
    (p.stream.within part.get part.set).waitWrite t (part.set w (x, y)) =
      ((p.waitWrite t y).1, part.set w (x, (p.waitWrite t y).2)) := by
  simp [IOStream.within, stream, part.get_set, part.set_set]

theorem writeIteration_eq (part : Part ω (σ × τ)) (w : ω) (x : σ) (buffer : Bytes) (timeout : ℤ)
    (s : WriteState τ) :
    writeIteration (p.ports part) (p.stream.within part.get part.set) buffer
        ⟨timeout, timevalOf (p.now x)⟩ ⟨part.set w (x, s.world), s.written⟩ =
      (writeIteration p.outPorts p.outStream buffer ⟨timeout, timevalOf 0⟩ s).map
        (fun s => ⟨part.set w (x, s.world), s.written⟩)
        fun r => (r.1, part.set w (x, r.2)) := by
  have hnow : ∀ y, (p.ports part).now (part.set w (x, y)) = (p.now x, part.set w (x, y)) := by
    intro y
    simp [ports, part.get_set]
  have hstart : ∀ c, elapsedMilliseconds (timevalOf c) (timevalOf c) = 0 := by
    intro c
    rw [elapsedMilliseconds, sub_self, sub_self]
    rfl
  unfold writeIteration Timeout.elapsed Timeout.timeLeft
  rw [p.within_write, show p.outStream.write = p.write from rfl]
  rcases p.write (buffer.drop s.written) s.world with ⟨ex | c, y⟩
  · rfl
  dsimp only
  have hnotify : (p.ports part).notifyWrite ((buffer.drop s.written).take c.val)
      (part.set w (x, y)) = part.set w (x, y) := rfl
  have hnotify' : p.outPorts.notifyWrite ((buffer.drop s.written).take c.val) y = y := rfl
  have hnow' : p.outPorts.now y = (0, y) := rfl
  rw [hnotify, hnotify', hnow, hnow']
  dsimp only
  rw [hnow, hnow', hstart, hstart]
  dsimp only
  -- no time has passed on either side, so that the timeouts agree
  by_cases hall : s.written + c.val = buffer.length
  · rw [if_pos hall, if_pos hall]
    rfl
  rw [if_neg hall, if_neg hall, p.within_waitWrite,
    show p.outStream.waitWrite = p.waitWrite from rfl]
  by_cases hlate : decide (timeout < toUnsigned32 0) = true
  · rw [if_pos hlate, if_pos hlate]
    rfl
  rw [if_neg hlate, if_neg hlate]
  rcases p.waitWrite _ y with ⟨ex | _ | _, y'⟩
  · rfl
  · rfl
  · rfl

def send (fuel : ℕ) (data : Bytes) (timeout : Time) (y : τ) : Option (Except Exn Bool × τ) :=
  run (writeIteration p.outPorts p.outStream data
    ⟨toUnsigned32 (toInt32 (toMilliseconds timeout)), timevalOf 0⟩) fuel ⟨y, 0⟩

theorem writePacket_eq (part : Part ω (σ × τ)) (fuel : ℕ) (d : Driver) (data : Bytes)
    (timeout : Time) (w : ω) :
    d.writePacket (p.ports part) fuel data timeout w =
      match p.send fuel data timeout (part.get w).2 with
      | none => none
      | some (.error ex, y) => some (.error ex, d, part.set w ((part.get w).1, y))
      | some (.ok r, y) => some (.ok r, d.wrote data.length, part.set w ((part.get w).1, y)) := by
  have hloop := run_map (p.writeIteration_eq part w (part.get w).1 data
    (toUnsigned32 (toInt32 (toMilliseconds timeout)))) fuel ⟨(part.get w).2, 0⟩
  dsimp only at hloop
  rw [Prod.mk.eta, part.set_get] at hloop
  have hstream : (p.ports part).stream = some (p.stream.within part.get part.set) := rfl
  have hnow : (p.ports part).now w = (p.now (part.get w).1, w) := rfl
  unfold Driver.writePacket Driver.writePacketMilliseconds send
  rw [hstream]
  dsimp only
  rw [hnow, hloop]
  rcases run (writeIteration p.outPorts p.outStream data _) fuel ⟨(part.get w).2, 0⟩
    with _ | ⟨ex | r, y⟩
  · rfl
  · rfl
  · rfl

end Endpoint

theorem Views.readMode {ω' : Type} {E : Extract ω} {io : Ports ω} {st : IOStream ω}
    {E' : Extract ω'} {io' : Ports ω'} {st' : IOStream ω'} {φ : ω → ω'} {k : Output}
    (h : Views E io st E' io' st' φ) (rawMode : Bool) (fuel : ℕ) (d : Driver) (bufferSize : ℕ)
    (timeout : Time) (w : ω) :
    readMode rawMode E' io' fuel (d.withOutput k) bufferSize timeout (φ w) =
      (readMode rawMode E io fuel d bufferSize timeout w).map (viewed φ k) := by
  unfold IodriversBase.readMode
  cases rawMode with
  | true => exact h.readRaw fuel d bufferSize timeout timeout 0 w
  | false => exact h.readPacket fuel d bufferSize timeout timeout w

section Move

variable {σ τ σ' τ' : Type} (rawMode : Bool) (e : Bytes → ℤ) (p : Endpoint σ τ) (q : Endpoint σ' τ')
  (fuel bufferSize : ℕ) (timeout : Time)

/-- A direction that has come to its end: the data, the driver it was read from, what is left to be
read, and where it was written to. -/
structure Moved (σ τ : Type) where
  data : Bytes
  source : Driver
  input : σ
  output : τ

def move (d : Driver) (writeTimeout : Time) (x : σ) (y : τ') : Option (Moved σ τ') :=
  match readMode rawMode (.pure e) p.inPorts fuel d bufferSize timeout x with
  | none => none
  | some (.error ex, d, x) => if ex.IsTimeout then some ⟨[], d, x, y⟩ else none
  | some (.ok data, d, x) =>
    if data.length ≠ 0 then
      match q.send fuel data writeTimeout y with
      | some (.ok _, y) => some ⟨data, d, x, y⟩
      | _ => none
    else some ⟨[], d, x, y⟩

variable {rawMode e p q fuel bufferSize timeout} {d d' target target' : Driver} {w w' : ω}

theorem Views.self {E : Extract ω} {io : Ports ω} {st : IOStream ω} (hio : io.stream = some st) :
    Views E io st E io st id :=
  ⟨fun _ _ => rfl, fun _ => rfl, fun _ _ => rfl, hio, hio, fun _ _ => rfl, fun _ _ => rfl⟩

theorem Endpoint.readMode_withOutput (k : Output) (x : σ) :
    readMode rawMode (.pure e) p.inPorts fuel (d.withOutput k) bufferSize timeout x =
      (readMode rawMode (.pure e) p.inPorts fuel d bufferSize timeout x).map (viewed id k) :=
  (Views.self (show p.inPorts.stream = some p.inStream from rfl)).readMode
    rawMode fuel d bufferSize timeout x

theorem Endpoint.readMode_writeTimeout {x x' : σ} {r}
    (h : readMode rawMode (.pure e) p.inPorts fuel d bufferSize timeout x = some (r, d', x')) :
    d'.writeTimeout = d.writeTimeout := by
  have hsame : readMode rawMode (.pure e) p.inPorts fuel (d.withOutput ⟨0, d.writeTimeout⟩)
      bufferSize timeout x = _ := p.readMode_withOutput _ x
  rw [d.withOutput_zero, h, Option.map_some, Option.some_inj] at hsame
  exact congrArg (fun r => r.2.1.writeTimeout) hsame

theorem Endpoint.readMode_eq (a : Part ω (σ × τ)) (w : ω) :
    readMode rawMode (.pure e) (p.ports a) fuel d bufferSize timeout w =
      (readMode rawMode (.pure e) p.inPorts fuel d bufferSize timeout (a.get w).1).map fun r =>
        (r.1, r.2.1, a.set w (r.2.2, (a.get w).2)) := by
  have hview := (p.views e a w).readMode (k := ⟨0, d.writeTimeout⟩) rawMode fuel d bufferSize
    timeout (a.get w).1
  rw [Prod.mk.eta, a.set_get, d.withOutput_zero] at hview
  rw [hview]
  rcases hread : readMode rawMode (.pure e) p.inPorts fuel d bufferSize timeout (a.get w).1
    with _ | ⟨r, d', x⟩
  · rfl
  · have hsame : d'.withOutput ⟨0, d.writeTimeout⟩ = d' := by
      rw [← p.readMode_writeTimeout hread, d'.withOutput_zero]
    rw [Option.map_some, Option.map_some, viewed, hsame]

theorem move_withOutput (k : Output) (writeTimeout : Time) (x : σ) (y : τ') :
    move rawMode e p q fuel bufferSize timeout (d.withOutput k) writeTimeout x y =
      (move rawMode e p q fuel bufferSize timeout d writeTimeout x y).map fun m =>
        { m with source := m.source.withOutput k } := by
  unfold move
  rw [p.readMode_withOutput]
  rcases readMode rawMode (.pure e) p.inPorts fuel d bufferSize timeout x
    with _ | ⟨ex | data, d', x'⟩
  · rfl
  · dsimp only [Option.map_some, viewed]
    by_cases hx : ex.IsTimeout
    · rw [if_pos hx, if_pos hx]
      rfl
    · rw [if_neg hx, if_neg hx]
      rfl
  · dsimp only [Option.map_some, viewed]
    by_cases hdata : data.length ≠ 0
    · rw [if_pos hdata, if_pos hdata]
      rcases q.send fuel data writeTimeout y with _ | ⟨_ | _, y'⟩
      · rfl
      · rfl
      · rfl
    · rw [if_neg hdata, if_neg hdata]
      rfl

theorem move_source {writeTimeout : Time} {x : σ} {y : τ'} {m : Moved σ τ'}
    (h : move rawMode e p q fuel bufferSize timeout d writeTimeout x y = some m) :
    ∃ r, readMode rawMode (.pure e) p.inPorts fuel d bufferSize timeout x =
      some (r, m.source, m.input) ∧ r.toOption.getD [] = m.data := by
  unfold move at h
  generalize readMode rawMode (.pure e) p.inPorts fuel d bufferSize timeout x = read at h ⊢
  rcases read with _ | ⟨ex | data, d', x'⟩ <;> dsimp only at h
  · cases h
  · split_ifs at h
    cases h
    exact ⟨_, rfl, rfl⟩
  · split_ifs at h with hdata
    · generalize q.send fuel data writeTimeout y = sent at h
      rcases sent with _ | ⟨_ | _, y'⟩ <;> cases h
      exact ⟨_, rfl, rfl⟩
    · cases h
      exact ⟨_, rfl, List.eq_nil_of_length_eq_zero (not_not.mp hdata)⟩

/-- A call of `forwardData` is one direction, and the other driver counts what is written. -/
theorem forwardData_iff {a : Part ω (σ × τ)} {b : Part ω (σ' × τ')} (hab : a.Apart b) :
    (∃ size, forwardData rawMode (.pure e) (p.ports a) (q.ports b) fuel bufferSize timeout d target
      w = some (.ok size, d', target', w')) ↔
    ∃ m, move rawMode e p q fuel bufferSize timeout d target.writeTimeout (a.get w).1 (b.get w).2 =
        some m ∧
      d' = m.source ∧ target' = target.wrote m.data.length ∧
      w' = b.set (a.set w (m.input, (a.get w).2)) ((b.get w).1, m.output) := by
  have hkept : ∀ x, b.set (a.set w x) ((b.get w).1, (b.get w).2) = a.set w x := by
    intro x
    rw [Prod.mk.eta, ← hab.get_set w x, b.set_get]
  unfold forwardData move
  rw [p.readMode_eq a w]
  rcases hread : readMode rawMode (.pure e) p.inPorts fuel d bufferSize timeout (a.get w).1
    with _ | ⟨ex | data, d₁, x⟩
  · simp
  · dsimp only [Option.map_some]
    by_cases hx : ex.IsTimeout
    · rw [if_pos hx, if_pos hx]
      simp [hkept, target.wrote_zero, eq_comm]
    · rw [if_neg hx, if_neg hx]
      simp
  · dsimp only [Option.map_some]
    by_cases hdata : data.length ≠ 0
    · rw [if_pos hdata, if_pos hdata, q.writePacket_eq b, hab.get_set]
      rcases q.send fuel data target.writeTimeout (b.get w).2 with _ | ⟨ex | _, y⟩
      · simp
      · simp
      · simp [eq_comm]
    · rw [if_neg hdata, if_neg hdata]
      simp [hkept, target.wrote_zero, eq_comm]

end Move

end IodriversBase
