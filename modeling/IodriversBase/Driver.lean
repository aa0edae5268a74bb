import IodriversBase.Library.Loop
import IodriversBase.Timeout

namespace IodriversBase

open Loop

/-- The statistics.  Nothing that is modelled reads the time stamp. -/
structure Status where
  tx : UInt32
  goodRx : UInt32
  badRx : UInt32
  queuedBytes : UInt32
  deriving DecidableEq, Repr

def Status.zero : Status := ⟨0, 0, 0, 0⟩

/-- `bad_rx += bad; good_rx += good;` -/
def Status.count (s : Status) (bad good : ℤ) : Status :=
  { s with badRx := s.badRx + .ofInt bad, goodRx := s.goodRx + .ofInt good }

/-- The data members of a `Driver`, the pointers apart (see `Ports`).  The internal buffer is
the part of it that is in use. -/
structure Driver where
  internalBuffer : Bytes
  maxPacketSize : ℕ
  extractLast : Bool
  readTimeout : Time
  writeTimeout : Time
  stats : Status
  fits : internalBuffer.length ≤ maxPacketSize
  deriving DecidableEq

/-- The constructor. -/
def Driver.new (maxPacketSize : ℕ) (extractLast : Bool) : Driver where
  internalBuffer := []
  maxPacketSize := maxPacketSize
  extractLast := extractLast
  readTimeout := 0
  writeTimeout := 0
  stats := .zero
  fits := Nat.zero_le _

def Driver.setExtractLastPacket (d : Driver) (flag : Bool) : Driver :=
  { d with extractLast := flag }

def Driver.withStats (d : Driver) (stats : Status) : Driver := { d with stats := stats }

def Driver.append (d : Driver) (data : Bytes)
    (h : data.length ≤ d.maxPacketSize - d.internalBuffer.length) : Driver :=
  { d with
    internalBuffer := d.internalBuffer ++ data
    fits := by have := d.fits; rw [List.length_append]; omega }

def Driver.dropFront (d : Driver) (n : ℕ) : Driver :=
  { d with
    internalBuffer := d.internalBuffer.drop n
    fits := by have := d.fits; rw [List.length_drop]; omega }

@[simp] theorem Driver.append_internalBuffer (d : Driver) (data : Bytes) (h) :
    (d.append data h).internalBuffer = d.internalBuffer ++ data := rfl
@[simp] theorem Driver.append_extractLast (d : Driver) (data : Bytes) (h) :
    (d.append data h).extractLast = d.extractLast := rfl
@[simp] theorem Driver.append_maxPacketSize (d : Driver) (data : Bytes) (h) :
    (d.append data h).maxPacketSize = d.maxPacketSize := rfl
@[simp] theorem Driver.append_stats (d : Driver) (data : Bytes) (h) :
    (d.append data h).stats = d.stats := rfl
@[simp] theorem Driver.dropFront_internalBuffer (d : Driver) (n : ℕ) :
    (d.dropFront n).internalBuffer = d.internalBuffer.drop n := rfl
@[simp] theorem Driver.dropFront_stats (d : Driver) (n : ℕ) : (d.dropFront n).stats = d.stats := rfl
@[simp] theorem Driver.withStats_internalBuffer (d : Driver) (stats : Status) :
    (d.withStats stats).internalBuffer = d.internalBuffer := rfl
@[simp] theorem Driver.withStats_stats (d : Driver) (stats : Status) :
    (d.withStats stats).stats = stats := rfl

def Driver.getStatus (d : Driver) : Status × Driver :=
  let stats := { d.stats with queuedBytes := .ofNat d.internalBuffer.length }
  (stats, d.withStats stats)

def Driver.resetStatus (d : Driver) : Driver := d.withStats .zero

variable {ω : Type}

/-- The virtual method `extractPacket` of a subclass: it is shown the bytes, and may act on
the world. -/
abbrev Extract (ω : Type) := Bytes → ω → ℤ × ω

/-- An `extractPacket` that only looks at the bytes. -/
def Extract.pure (e : Bytes → ℤ) : Extract ω := fun b w => (e b, w)

/-- What the extractor is shown for a pointer into `buffer` and a size. -/
def Extract.at (E : Extract ω) (buffer : Bytes) : ℤ → ℤ → ω → ℤ × ω :=
  fun pointer size w => E ((buffer.drop pointer.toNat).take size.toNat) w

/-- `Driver::findPacket`.  Pointers count from the start of the internal buffer; `extractPacket`
is asked for a pointer and a size.  Here and below a call gives a value or an exception, the driver,
and the world, and `none` when it does not come back within its fuel, or when the code leaves its
buffer (undefined behaviour). -/
def findPacket (extractPacket : ℤ → ℤ → ω → ℤ × ω) (extractLast : Bool) :
    ℕ → ℤ → ℤ → Status → ω → Option (Except Exn (ℤ × ℤ) × Status × ω)
  | 0, _, _, _, _ => none
  | fuel + 1, buffer, bufferSize, stats, w =>
    let extractResult := (extractPacket buffer bufferSize w).1
    let w := (extractPacket buffer bufferSize w).2
    if extractResult > bufferSize then
      some (.error (.lengthError ("extractPacket() returned result size " ++
        toString extractResult ++ ", which is larger than the buffer size " ++
        toString bufferSize ++ ".")), stats, w)
    else if extractResult = 0 then some (.ok (buffer, 0), stats, w)
    else
      let packetStart := if extractResult < 0 then -extractResult else 0
      let packetSize := if extractResult < 0 then 0 else extractResult
      let stats := if extractLast then stats.count packetStart packetSize else stats
      let remaining := bufferSize - (packetStart + packetSize)
      if remaining = 0 then some (.ok (buffer + packetStart, packetSize), stats, w)
      else if packetSize = 0 ∨ (packetSize > 0 ∧ extractLast) then
        match findPacket extractPacket extractLast fuel (buffer + packetStart + packetSize)
            remaining stats w with
        | some (.ok nextPacket, stats, w) =>
          if extractLast then
            if nextPacket.2 = 0 then some (.ok (buffer + packetStart, packetSize), stats, w)
            else some (.ok nextPacket, stats, w)
          else some (.ok nextPacket, stats, w)
        | r => r
      else some (.ok (buffer + packetStart, packetSize), stats, w)

def Driver.newInternalSize (d : Driver) (skip size : ℤ) : ℤ :=
  d.internalBuffer.length - (skip + size)

/-- `Driver::pullBytesFromInternal`.  The two copies stay within the buffer, or the behaviour
is undefined. -/
def Driver.pullBytesFromInternal (d : Driver) (skip size : ℤ) : Option (Bytes × Driver) :=
  if 0 ≤ skip ∧ 0 ≤ size ∧ 0 ≤ d.newInternalSize skip size then
    some ((d.internalBuffer.drop skip.toNat).take size.toNat, d.dropFront (skip + size).toNat)
  else none

def Driver.doPacketExtraction (extractPacket : ℤ → ℤ → ω → ℤ × ω) (d : Driver) (w : ω) :
    Option (Except Exn Bytes × Driver × ω) :=
  match findPacket extractPacket d.extractLast (d.internalBuffer.length + 1) 0
      d.internalBuffer.length d.stats w with
  | none => none
  | some (.error e, stats, w) => some (.error e, d.withStats stats, w)
  | some (.ok packet, stats, w) =>
    let stats := if d.extractLast then stats else stats.count packet.1 packet.2
    match (d.withStats stats).pullBytesFromInternal packet.1 packet.2 with
    | none => none
    | some (bytes, d) => some (.ok bytes, d, w)

/-- `Driver::hasPacket`; the statistics it counts into are `mutable`. -/
def Driver.hasPacket (E : Extract ω) (d : Driver) (w : ω) :
    Option (Except Exn Bool × Driver × ω) :=
  if d.internalBuffer.length = 0 then some (.ok false, d, w)
  else
    match findPacket (E.at d.internalBuffer) d.extractLast (d.internalBuffer.length + 1) 0
        d.internalBuffer.length d.stats w with
    | none => none
    | some (.error e, stats, w) => some (.error e, d.withStats stats, w)
    | some (.ok packet, stats, w) => some (.ok (packet.2 > 0), d.withStats stats, w)

/-- The loop of `readPacketInternal`: `packet` is what the output buffer holds. -/
structure ReadState (ω : Type) where
  driver : Driver
  world : ω
  packet : Bytes
  receivedSomething : Bool

def readIteration (E : Extract ω) (io : Ports ω) (stream : IOStream ω) (s : ReadState ω) :
    Next (ReadState ω) (Except Exn (Bytes × Bool) × Driver × ω) :=
  match stream.read (s.driver.maxPacketSize - s.driver.internalBuffer.length) s.world with
  | (.error e, w) => .done (.error e, s.driver, w)
  | (.ok c, w) =>
    if c.val.length > 0 then
      let w := io.notifyRead c.val w
      let d := s.driver.append c.val c.property
      match d.doPacketExtraction (E.at d.internalBuffer) w with
      | none => .lost
      | some (.error e, d, w) => .done (.error e, d, w)
      | some (.ok newPacket, d, w) =>
        if newPacket.length > 0 ∧ ¬ d.extractLast then .done (.ok (newPacket, true), d, w)
        else if d.internalBuffer.length = d.maxPacketSize then
          .done (.error (.lengthError "readPacket(): current packet too large for buffer"), d, w)
        else .again ⟨d, w, if newPacket.length > 0 then newPacket else s.packet, true⟩
    else .done (.ok (s.packet, s.receivedSomething), s.driver, w)

def Driver.readPacketInternal (E : Extract ω) (io : Ports ω) (stream : IOStream ω) (fuel : ℕ)
    (d : Driver) (outBufferSize : ℕ) (w : ω) :
    Option (Except Exn (Bytes × Bool) × Driver × ω) :=
  if outBufferSize < d.maxPacketSize then
    some (.error (.lengthError ("readPacket(): provided buffer too small (got " ++
      toString outBufferSize ++ ", expected at least " ++ toString d.maxPacketSize ++ ")")), d, w)
  else if d.internalBuffer.length > 0 then
    match d.doPacketExtraction (E.at d.internalBuffer) w with
    | none => none
    | some (.error e, d, w) => some (.error e, d, w)
    | some (.ok packet, d, w) =>
      if packet.length > 0 ∧ ¬ d.extractLast then some (.ok (packet, false), d, w)
      else run (readIteration E io stream) fuel ⟨d, w, packet, false⟩
  else run (readIteration E io stream) fuel ⟨d, w, [], false⟩

structure DrainState (ω : Type) where
  driver : Driver
  world : ω
  result : Bytes

def drainIteration (E : Extract ω) (s : DrainState ω) :
    Next (DrainState ω) (Except Exn (Bytes × Bool) × Driver × ω) :=
  if s.driver.internalBuffer.length > 0 then
    match s.driver.doPacketExtraction (E.at s.driver.internalBuffer) s.world with
    | none => .lost
    | some (.error e, d, w) => .done (.error e, d, w)
    | some (.ok packet, d, w) =>
      let result := if packet.length > 0 then packet else s.result
      if packet.length = 0 ∨ ¬ d.extractLast then .done (.ok (result, false), d, w)
      else .again ⟨d, w, result⟩
  else .done (.ok (s.result, false), s.driver, s.world)

def Driver.extractPacketFromInternalBuffer (E : Extract ω) (d : Driver) (w : ω) :
    Option (Except Exn (Bytes × Bool) × Driver × ω) :=
  run (drainIteration E) (d.internalBuffer.length + 1) ⟨d, w, []⟩

structure WaitState (ω : Type) where
  driver : Driver
  world : ω
  deadline : Time
  timeoutType : TimeoutType

def waitIteration (E : Extract ω) (io : Ports ω) (stream : IOStream ω) (fuel bufferSize : ℕ)
    (packetTimeout startTime : Time) (s : WaitState ω) :
    Next (WaitState ω) (Except Exn Bytes × Driver × ω) :=
  match s.driver.readPacketInternal E io stream fuel bufferSize s.world with
  | none => .lost
  | some (.error e, d, w) => .done (.error e, d, w)
  | some (.ok (packet, readSomething), d, w) =>
    if packet.length > 0 then .done (.ok packet, d, w)
    else if packetTimeout = 0 then
      .done (.error (.timeoutError .firstByte
        "readPacket(): no data to read while a packet_timeout of 0 was given"), d, w)
    else
      let first := s.timeoutType = .firstByte ∧ readSomething
      let deadline := if first then startTime + packetTimeout else s.deadline
      let timeoutType := if first then .packet else s.timeoutType
      let now := (io.now w).1
      let w := (io.now w).2
      if now > deadline then
        .done (.error (.timeoutError timeoutType ("readPacket(): no data after waiting " ++
          toString (toMilliseconds (now - startTime)) ++ "ms")), d, w)
      else
        let remaining := deadline - now
        match stream.waitRead remaining w with
        | (.error e, w) => .done (.error e, d, w)
        | (.ok true, w) => .again ⟨d, w, deadline, timeoutType⟩
        | (.ok false, w) =>
          let totalWait := (io.now w).1 - startTime
          .done (.error (.timeoutError timeoutType
            ("readPacket(): no data waiting for data. Last wait lasted " ++
            toString (toMilliseconds remaining) ++ "ms, out of a total wait of " ++
            toString (toMilliseconds totalWait) ++ "ms")), d, (io.now w).2)

def Driver.readPacket (E : Extract ω) (io : Ports ω) (fuel : ℕ) (d : Driver) (bufferSize : ℕ)
    (packetTimeout firstByteTimeout : Time) (w : ω) : Option (Except Exn Bytes × Driver × ω) :=
  if bufferSize < d.maxPacketSize then
    some (.error (.lengthError ("readPacket(): provided buffer too small (got " ++
      toString bufferSize ++ ", expected at least " ++ toString d.maxPacketSize ++ ")")), d, w)
  else
    match io.stream with
    | none =>
      -- no stream: the packet, if any, is in the internal buffer already
      match d.extractPacketFromInternalBuffer E w with
      | none => none
      | some (.error e, d, w) => some (.error e, d, w)
      | some (.ok (packet, _), d, w) =>
        if packet.length > 0 then some (.ok packet, d, w)
        else some (.error (.timeoutError .packet ("readPacket(): no packet in the internal " ++
          "buffer and no stream to read from")), d, w)
    | some stream =>
      let startTime := (io.now w).1
      let deadline := startTime + min packetTimeout firstByteTimeout
      run (waitIteration E io stream fuel bufferSize packetTimeout startTime) fuel
        ⟨d, (io.now w).2, deadline, .firstByte⟩

def Driver.readPacketMilliseconds (E : Extract ω) (io : Ports ω) (fuel : ℕ) (d : Driver)
    (bufferSize : ℕ) (packetTimeout firstByteTimeout : ℤ) (w : ω) :
    Option (Except Exn Bytes × Driver × ω) :=
  let firstByteTimeout := if firstByteTimeout = -1 then packetTimeout else firstByteTimeout
  d.readPacket E io fuel bufferSize (fromMilliseconds packetTimeout)
    (fromMilliseconds firstByteTimeout) w

/-- The loop of `readRaw`: `buffer` is the filled part of the output buffer. -/
structure RawState (ω : Type) where
  world : ω
  buffer : Bytes
  now : Time
  lastChar : Time
  globalDeadline : Time
  receivedBytes : Bool

def rawIteration (io : Ports ω) (stream : IOStream ω) (outBufferSize : ℕ)
    (packetTimeout interByteTimeout : Time) (s : RawState ω) :
    Next (RawState ω) (Except Exn Bytes × ω) :=
  if s.buffer.length < outBufferSize ∧ s.now ≤ s.globalDeadline then
    let deadline := min s.globalDeadline (s.lastChar + interByteTimeout)
    match stream.waitRead (deadline - s.now) s.world with
    | (.error e, w) => .done (.error e, w)
    | (.ok false, w) => .done (.ok s.buffer, w)
    | (.ok true, w) =>
      match stream.read (outBufferSize - s.buffer.length) w with
      | (.error e, w) => .done (.error e, w)
      | (.ok c, w) =>
        let now := (io.now w).1
        let w := (io.now w).2
        if c.val.length > 0 then
          .again
            { world := io.notifyRead c.val w
              buffer := s.buffer ++ c.val
              now := now
              lastChar := now
              globalDeadline := if s.receivedBytes then s.globalDeadline else now + packetTimeout
              receivedBytes := true }
        else .again { s with world := w, now := now }
  else .done (.ok s.buffer, s.world)

def Driver.readRaw (io : Ports ω) (fuel : ℕ) (d : Driver) (outBufferSize : ℕ)
    (packetTimeout firstByteTimeout interByteTimeout : Time) (w : ω) :
    Option (Except Exn Bytes × Driver × ω) :=
  match io.stream with
  | none =>
    some (.error (.runtimeError "attempting to call readRaw on a closed driver"), d, w)
  | some stream =>
    let bufferFill := min d.internalBuffer.length outBufferSize
    match d.pullBytesFromInternal 0 bufferFill with
    | none => none
    | some (buffer, d) =>
      let firstByteTimeout := min packetTimeout firstByteTimeout
      let interByteTimeout := if interByteTimeout = 0 then packetTimeout else interByteTimeout
      let now := (io.now w).1
      match run (rawIteration io stream outBufferSize packetTimeout interByteTimeout) fuel
          { world := (io.now w).2
            buffer := buffer
            now := now
            lastChar := now + packetTimeout
            globalDeadline := now + firstByteTimeout
            receivedBytes := false } with
      | none => none
      | some (r, w) => some (r, d, w)

structure WriteState (ω : Type) where
  world : ω
  written : ℕ

def writeIteration (io : Ports ω) (stream : IOStream ω) (buffer : Bytes) (timeOut : Timeout)
    (s : WriteState ω) : Next (WriteState ω) (Except Exn Bool × ω) :=
  match stream.write (buffer.drop s.written) s.world with
  | (.error e, w) => .done (.error e, w)
  | (.ok c, w) =>
    let w := io.notifyWrite ((buffer.drop s.written).take c.val) w
    let written := s.written + c.val
    if written = buffer.length then .done (.ok true, w)
    else
      let elapsed := timeOut.elapsed (timevalOf (io.now w).1)
      let w := (io.now w).2
      if elapsed then .done (.error (.timeoutError .packet "writePacket(): timeout"), w)
      else
        let remainingTimeout := toInt32 (timeOut.timeLeft (timevalOf (io.now w).1))
        let w := (io.now w).2
        match stream.waitWrite (toInt32 (remainingTimeout * 1000)) w with
        | (.error e, w) => .done (.error e, w)
        | (.ok false, w) => .done (.error (.timeoutError .none "waitRead(): timeout"), w)
        | (.ok true, w) => .again ⟨w, written⟩

/-- `Driver::writePacket` with a timeout in milliseconds. -/
def Driver.writePacketMilliseconds (io : Ports ω) (fuel : ℕ) (d : Driver) (buffer : Bytes)
    (timeout : ℤ) (w : ω) : Option (Except Exn Bool × Driver × ω) :=
  match io.stream with
  | none =>
    some (.error (.runtimeError
      "Driver::writePacket : invalid stream, did you forget to call open ?"), d, w)
  | some stream =>
    let timeOut : Timeout := ⟨toUnsigned32 timeout, timevalOf (io.now w).1⟩
    match run (writeIteration io stream buffer timeOut) fuel ⟨(io.now w).2, 0⟩ with
    | none => none
    | some (.error e, w) => some (.error e, d, w)
    | some (.ok r, w) =>
      some (.ok r, d.withStats { d.stats with tx := d.stats.tx + .ofNat buffer.length }, w)

/-- `Driver::writePacket`; the milliseconds are converted to an `int`. -/
def Driver.writePacket (io : Ports ω) (fuel : ℕ) (d : Driver) (buffer : Bytes)
    (timeout : Time) (w : ω) : Option (Except Exn Bool × Driver × ω) :=
  d.writePacketMilliseconds io fuel buffer (toInt32 (toMilliseconds timeout)) w

def eof (io : Ports ω) (w : ω) : Except Exn Bool :=
  match io.stream with
  | none => .error (.runtimeError "eof(): invalid stream")
  | some stream => .ok (stream.eof w)

def Driver.clear (io : Ports ω) (d : Driver) (w : ω) : Driver × ω :=
  (d.dropFront d.internalBuffer.length,
    match io.stream with
    | none => w
    | some stream => stream.clear w)

def setMainStream (io : Ports ω) (stream : IOStream ω) (w : ω) : Ports ω × ω :=
  ({ io with stream := some stream },
    match io.stream with
    | none => w
    | some old => old.delete w)

def close (io : Ports ω) (w : ω) : Ports ω × ω :=
  ({ io with stream := none },
    match io.stream with
    | none => w
    | some old => old.delete w)

/-- The deadline that an iteration waits for: the first byte moves it. -/
abbrev WaitState.nextDeadline (s : WaitState ω) (packetTimeout startTime : Time)
    (something : Bool) : Time :=
  if s.timeoutType = .firstByte ∧ something = true then startTime + packetTimeout else s.deadline

abbrev WaitState.nextType (s : WaitState ω) (something : Bool) : TimeoutType :=
  if s.timeoutType = .firstByte ∧ something = true then .packet else s.timeoutType

/-- What an iteration of `readPacket` does: it ends with what it has read, or it waits. -/
inductive WaitStep (E : Extract ω) (io : Ports ω) (stream : IOStream ω) (fuel bufferSize : ℕ)
    (packetTimeout startTime : Time) (s : WaitState ω) :
    Next (WaitState ω) (Except Exn Bytes × Driver × ω) → Prop
  | lost : s.driver.readPacketInternal E io stream fuel bufferSize s.world = none →
      WaitStep E io stream fuel bufferSize packetTimeout startTime s .lost
  | threw {x d w} :
      s.driver.readPacketInternal E io stream fuel bufferSize s.world = some (.error x, d, w) →
      WaitStep E io stream fuel bufferSize packetTimeout startTime s (.done (.error x, d, w))
  | packet {p something d w} : s.driver.readPacketInternal E io stream fuel bufferSize s.world =
        some (.ok (p, something), d, w) → p ≠ [] →
      WaitStep E io stream fuel bufferSize packetTimeout startTime s (.done (.ok p, d, w))
  | noTimeout {something d w what} :
      s.driver.readPacketInternal E io stream fuel bufferSize s.world =
        some (.ok ([], something), d, w) → packetTimeout = 0 →
      WaitStep E io stream fuel bufferSize packetTimeout startTime s
        (.done (.error (.timeoutError .firstByte what), d, w))
  | late {something d w what} : s.driver.readPacketInternal E io stream fuel bufferSize s.world =
        some (.ok ([], something), d, w) →
      (io.now w).1 > s.nextDeadline packetTimeout startTime something →
      WaitStep E io stream fuel bufferSize packetTimeout startTime s
        (.done (.error (.timeoutError (s.nextType something) what), d, (io.now w).2))
  | waitThrew {something d w x w'} :
      s.driver.readPacketInternal E io stream fuel bufferSize s.world =
        some (.ok ([], something), d, w) →
      (io.now w).1 ≤ s.nextDeadline packetTimeout startTime something →
      stream.waitRead (s.nextDeadline packetTimeout startTime something - (io.now w).1)
        (io.now w).2 = (.error x, w') →
      WaitStep E io stream fuel bufferSize packetTimeout startTime s (.done (.error x, d, w'))
  | waitedOut {something d w w' what} :
      s.driver.readPacketInternal E io stream fuel bufferSize s.world =
        some (.ok ([], something), d, w) →
      (io.now w).1 ≤ s.nextDeadline packetTimeout startTime something →
      stream.waitRead (s.nextDeadline packetTimeout startTime something - (io.now w).1)
        (io.now w).2 = (.ok false, w') →
      WaitStep E io stream fuel bufferSize packetTimeout startTime s
        (.done (.error (.timeoutError (s.nextType something) what), d, (io.now w').2))
  | ready {something d w w'} : s.driver.readPacketInternal E io stream fuel bufferSize s.world =
        some (.ok ([], something), d, w) →
      (io.now w).1 ≤ s.nextDeadline packetTimeout startTime something →
      stream.waitRead (s.nextDeadline packetTimeout startTime something - (io.now w).1)
        (io.now w).2 = (.ok true, w') →
      WaitStep E io stream fuel bufferSize packetTimeout startTime s
        (.again ⟨d, w', s.nextDeadline packetTimeout startTime something, s.nextType something⟩)

theorem waitIteration_step (E : Extract ω) (io : Ports ω) (stream : IOStream ω)
    (fuel bufferSize : ℕ) (packetTimeout startTime : Time) (s : WaitState ω) :
    WaitStep E io stream fuel bufferSize packetTimeout startTime s
      (waitIteration E io stream fuel bufferSize packetTimeout startTime s) := by
  unfold waitIteration
  rcases hint : s.driver.readPacketInternal E io stream fuel bufferSize s.world
    with _ | ⟨x | ⟨packet, something⟩, d, w⟩
  · exact .lost hint
  · exact .threw hint
  dsimp only
  by_cases hp : packet.length > 0
  · rw [if_pos hp]
    exact .packet hint (List.length_pos_iff.mp hp)
  obtain rfl : packet = [] := by simpa using hp
  rw [if_neg hp]
  by_cases hzero : packetTimeout = 0
  · rw [if_pos hzero]
    exact .noTimeout hint hzero
  rw [if_neg hzero]
  by_cases hlate : (io.now w).1 > s.nextDeadline packetTimeout startTime something
  · rw [if_pos hlate]
    exact .late hint hlate
  rw [if_neg hlate]
  rcases hwait : stream.waitRead (s.nextDeadline packetTimeout startTime something - (io.now w).1)
    (io.now w).2 with ⟨x | _ | _, w'⟩
  · exact .waitThrew hint (not_lt.mp hlate) hwait
  · exact .waitedOut hint (not_lt.mp hlate) hwait
  · exact .ready hint (not_lt.mp hlate) hwait

end IodriversBase
