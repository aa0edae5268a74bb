import IodriversBase.Driver

namespace IodriversBase

open Loop

variable {ω ω' α : Type}

def Status.addTx (k : UInt32) (s : Status) : Status := { s with tx := s.tx + k }

structure Output where
  transmitted : UInt32
  timeout : Time

/-- More bytes were transmitted, and there is another timeout for writing. -/
def Driver.withOutput (k : Output) (d : Driver) : Driver :=
  { d with
    stats := d.stats.addTx k.transmitted
    writeTimeout := k.timeout }

@[simp] theorem Driver.withOutput_internalBuffer (k : Output) (d : Driver) :
    (d.withOutput k).internalBuffer = d.internalBuffer := rfl
@[simp] theorem Driver.withOutput_maxPacketSize (k : Output) (d : Driver) :
    (d.withOutput k).maxPacketSize = d.maxPacketSize := rfl
@[simp] theorem Driver.withOutput_extractLast (k : Output) (d : Driver) :
    (d.withOutput k).extractLast = d.extractLast := rfl

theorem Driver.withOutput_withStats (k : Output) (d : Driver) (stats : Status) :
    (d.withOutput k).withStats (stats.addTx k.transmitted) = (d.withStats stats).withOutput k := rfl

theorem Driver.withOutput_pullBytes (k : Output) (d : Driver) (skip size : ℤ) :
    (d.withOutput k).pullBytesFromInternal skip size =
      (d.pullBytesFromInternal skip size).map fun r => (r.1, r.2.withOutput k) := by
  unfold Driver.pullBytesFromInternal Driver.newInternalSize
  rw [Driver.withOutput_internalBuffer]
  split_ifs
  · rfl
  · rfl

/-- Through the ports `io'` and the stream `st'` the world `φ w` answers what `w` answers. -/
structure Views (E : Extract ω) (io : Ports ω) (st : IOStream ω) (E' : Extract ω') (io' : Ports ω')
    (st' : IOStream ω') (φ : ω → ω') : Prop where
  extract : ∀ b w, E' b (φ w) = ((E b w).1, φ (E b w).2)
  now : ∀ w, io'.now (φ w) = ((io.now w).1, φ (io.now w).2)
  notifyRead : ∀ data w, io'.notifyRead data (φ w) = φ (io.notifyRead data w)
  stream : io.stream = some st
  stream' : io'.stream = some st'
  read : ∀ n w, st'.read n (φ w) = ((st.read n w).1, φ (st.read n w).2)
  waitRead : ∀ t w, st'.waitRead t (φ w) = ((st.waitRead t w).1, φ (st.waitRead t w).2)

def viewed (φ : ω → ω') (k : Output) (r : α × Driver × ω) : α × Driver × ω' :=
  (r.1, r.2.1.withOutput k, φ r.2.2)

variable {E : Extract ω} {io : Ports ω} {st : IOStream ω} {E' : Extract ω'} {io' : Ports ω'}
  {st' : IOStream ω'} {φ : ω → ω'}

theorem findPacket_view {extractPacket : ℤ → ℤ → ω → ℤ × ω} {extractPacket' : ℤ → ℤ → ω' → ℤ × ω'}
    (hextract : ∀ p n w, extractPacket' p n (φ w) =
      ((extractPacket p n w).1, φ (extractPacket p n w).2)) (last : Bool) (k : UInt32) (fuel : ℕ)
    (pointer size : ℤ) (stats : Status) (w : ω) :
    findPacket extractPacket' last fuel pointer size (stats.addTx k) (φ w) =
      (findPacket extractPacket last fuel pointer size stats w).map fun r =>
        (r.1, r.2.1.addTx k, φ r.2.2) := by
  induction fuel generalizing pointer size stats w with
  | zero => rfl
  | succ fuel ih =>
    rw [findPacket, findPacket, hextract]
    dsimp only
    generalize extractPacket pointer size w = answer
    -- both sides have the same answer now, and take the same branches
    by_cases hlarge : answer.1 > size
    · rw [if_pos hlarge, if_pos hlarge]
      rfl
    rw [if_neg hlarge, if_neg hlarge]
    by_cases h0 : answer.1 = 0
    · rw [if_pos h0, if_pos h0]
      rfl
    rw [if_neg h0, if_neg h0]
    generalize (if answer.1 < 0 then -answer.1 else 0) = packetStart
    generalize (if answer.1 < 0 then 0 else answer.1) = packetSize
    have hcount : (if last then (stats.addTx k).count packetStart packetSize else stats.addTx k) =
        (if last then stats.count packetStart packetSize else stats).addTx k := by
      cases last <;> rfl
    rw [hcount]
    generalize (if last then stats.count packetStart packetSize else stats) = counted
    by_cases hrem : size - (packetStart + packetSize) = 0
    · rw [if_pos hrem, if_pos hrem]
      rfl
    rw [if_neg hrem, if_neg hrem]
    by_cases hgo : packetSize = 0 ∨ (packetSize > 0 ∧ last = true)
    swap
    · rw [if_neg hgo, if_neg hgo]
      rfl
    rw [if_pos hgo, if_pos hgo, ih]
    rcases findPacket extractPacket last fuel _ _ counted answer.2
      with _ | ⟨x | nextPacket, stats', w'⟩
    · rfl
    · rfl
    · dsimp only [Option.map_some]
      split_ifs <;> rfl

theorem doPacketExtraction_view {extractPacket : ℤ → ℤ → ω → ℤ × ω}
    {extractPacket' : ℤ → ℤ → ω' → ℤ × ω'}
    (hextract : ∀ p n w, extractPacket' p n (φ w) =
      ((extractPacket p n w).1, φ (extractPacket p n w).2)) (k : Output) (d : Driver) (w : ω) :
    (d.withOutput k).doPacketExtraction extractPacket' (φ w) =
      (d.doPacketExtraction extractPacket w).map (viewed φ k) := by
  have hstats : (d.withOutput k).stats = d.stats.addTx k.transmitted := rfl
  unfold Driver.doPacketExtraction
  rw [Driver.withOutput_extractLast, Driver.withOutput_internalBuffer, hstats,
    findPacket_view hextract]
  rcases findPacket extractPacket d.extractLast _ 0 _ d.stats w
    with _ | ⟨x | packet, stats, w'⟩
  · rfl
  · rfl
  · dsimp only [Option.map_some]
    have hcount : (if d.extractLast then stats.addTx k.transmitted
        else (stats.addTx k.transmitted).count packet.1 packet.2) =
        (if d.extractLast then stats else stats.count packet.1 packet.2).addTx k.transmitted := by
      cases d.extractLast <;> rfl
    rw [hcount, Driver.withOutput_withStats, Driver.withOutput_pullBytes]
    rcases (d.withStats _).pullBytesFromInternal packet.1 packet.2 with _ | ⟨bytes, d'⟩
    · rfl
    · rfl

theorem Extract.at_view (hextract : ∀ b w, E' b (φ w) = ((E b w).1, φ (E b w).2)) (buffer : Bytes)
    (p n : ℤ) (w : ω) : E'.at buffer p n (φ w) = ((E.at buffer p n w).1, φ (E.at buffer p n w).2) :=
  hextract _ w

/-- The state of the loop of `readPacketInternal` in the other world. -/
def ReadState.view (φ : ω → ω') (k : Output) (s : ReadState ω) : ReadState ω' :=
  ⟨s.driver.withOutput k, φ s.world, s.packet, s.receivedSomething⟩

variable {k : Output}

theorem Views.readIteration (h : Views E io st E' io' st' φ) (s : ReadState ω) :
    readIteration E' io' st' (s.view φ k) =
      (readIteration E io st s).map (ReadState.view φ k) (viewed φ k) := by
  obtain ⟨d, w, packet, received⟩ := s
  unfold IodriversBase.readIteration
  dsimp only [ReadState.view, Driver.withOutput_maxPacketSize, Driver.withOutput_internalBuffer]
  rw [h.read]
  rcases st.read (d.maxPacketSize - d.internalBuffer.length) w with ⟨x | c, w₁⟩
  · rfl
  dsimp only
  by_cases hc : c.val.length > 0
  swap
  · rw [if_neg hc, if_neg hc]
    rfl
  rw [if_pos hc, if_pos hc, h.notifyRead]
  have happend : (d.withOutput k).append c.val c.property =
      (d.append c.val c.property).withOutput k := rfl
  rw [happend, Driver.withOutput_internalBuffer,
    doPacketExtraction_view (Extract.at_view h.extract _)]
  rcases (d.append c.val c.property).doPacketExtraction _ (io.notifyRead c.val w₁)
    with _ | ⟨x | newPacket, d', w₂⟩
  · rfl
  · rfl
  · dsimp only [Option.map_some, viewed]
    -- the conditions do not look at the output
    by_cases hfirst : newPacket.length > 0 ∧ ¬ d'.extractLast = true
    · have hfirst' : newPacket.length > 0 ∧ ¬ (d'.withOutput k).extractLast = true := hfirst
      rw [if_pos hfirst, if_pos hfirst']
      rfl
    have hfirst' : ¬ (newPacket.length > 0 ∧ ¬ (d'.withOutput k).extractLast = true) := hfirst
    rw [if_neg hfirst, if_neg hfirst']
    by_cases hfull : d'.internalBuffer.length = d'.maxPacketSize
    · have hfull' : (d'.withOutput k).internalBuffer.length =
        (d'.withOutput k).maxPacketSize := hfull
      rw [if_pos hfull, if_pos hfull']
      rfl
    · have hfull' : ¬ (d'.withOutput k).internalBuffer.length =
        (d'.withOutput k).maxPacketSize := hfull
      rw [if_neg hfull, if_neg hfull']
      rfl

theorem Views.readPacketInternal (h : Views E io st E' io' st' φ) (fuel : ℕ) (d : Driver)
    (outBufferSize : ℕ) (w : ω) :
    (d.withOutput k).readPacketInternal E' io' st' fuel outBufferSize (φ w) =
      (d.readPacketInternal E io st fuel outBufferSize w).map (viewed φ k) := by
  have hloop : ∀ (d : Driver) (w : ω) (packet : Bytes),
      run (IodriversBase.readIteration E' io' st') fuel ⟨d.withOutput k, φ w, packet, false⟩ =
        (run (IodriversBase.readIteration E io st) fuel ⟨d, w, packet, false⟩).map (viewed φ k) :=
    fun d w packet => run_map (g := ReadState.view φ k) h.readIteration fuel ⟨d, w, packet, false⟩
  unfold Driver.readPacketInternal
  by_cases hsize : outBufferSize < d.maxPacketSize
  · have hsize' : outBufferSize < (d.withOutput k).maxPacketSize := hsize
    rw [if_pos hsize, if_pos hsize']
    rfl
  have hsize' : ¬ outBufferSize < (d.withOutput k).maxPacketSize := hsize
  rw [if_neg hsize, if_neg hsize']
  by_cases hbuffer : d.internalBuffer.length > 0
  swap
  · have hbuffer' : ¬ (d.withOutput k).internalBuffer.length > 0 := hbuffer
    rw [if_neg hbuffer, if_neg hbuffer', hloop]
  have hbuffer' : (d.withOutput k).internalBuffer.length > 0 := hbuffer
  rw [if_pos hbuffer, if_pos hbuffer', Driver.withOutput_internalBuffer,
    doPacketExtraction_view (Extract.at_view h.extract _)]
  rcases d.doPacketExtraction _ w with _ | ⟨x | packet, d', w'⟩
  · rfl
  · rfl
  · dsimp only [Option.map_some, viewed]
    by_cases hfirst : packet.length > 0 ∧ ¬ d'.extractLast = true
    · have hfirst' : packet.length > 0 ∧ ¬ (d'.withOutput k).extractLast = true := hfirst
      rw [if_pos hfirst, if_pos hfirst']
      rfl
    · have hfirst' : ¬ (packet.length > 0 ∧ ¬ (d'.withOutput k).extractLast = true) := hfirst
      rw [if_neg hfirst, if_neg hfirst']
      exact hloop d' w' packet

def WaitState.view (φ : ω → ω') (k : Output) (s : WaitState ω) : WaitState ω' :=
  ⟨s.driver.withOutput k, φ s.world, s.deadline, s.timeoutType⟩

theorem Views.waitIteration (h : Views E io st E' io' st' φ) (fuel bufferSize : ℕ)
    (packetTimeout startTime : Time) (s : WaitState ω) :
    waitIteration E' io' st' fuel bufferSize packetTimeout startTime (s.view φ k) =
      (waitIteration E io st fuel bufferSize packetTimeout startTime s).map (WaitState.view φ k)
        (viewed φ k) := by
  obtain ⟨d, w, deadline, timeoutType⟩ := s
  change IodriversBase.waitIteration E' io' st' fuel bufferSize packetTimeout startTime
    ⟨d.withOutput k, φ w, deadline, timeoutType⟩ = _
  unfold IodriversBase.waitIteration
  dsimp only
  rw [h.readPacketInternal]
  rcases d.readPacketInternal E io st fuel bufferSize w
    with _ | ⟨x | ⟨packet, readSomething⟩, d', w'⟩
  · rfl
  · rfl
  dsimp only [Option.map_some, viewed]
  rw [h.now]
  dsimp only
  by_cases hpacket : packet.length > 0
  · rw [if_pos hpacket, if_pos hpacket]
    rfl
  rw [if_neg hpacket, if_neg hpacket]
  by_cases hzero : packetTimeout = 0
  · rw [if_pos hzero, if_pos hzero]
    rfl
  rw [if_neg hzero, if_neg hzero]
  generalize (if timeoutType = .firstByte ∧ readSomething = true then startTime + packetTimeout
    else deadline) = deadline'
  generalize (if timeoutType = .firstByte ∧ readSomething = true then TimeoutType.packet
    else timeoutType) = timeoutType'
  by_cases hlate : (io.now w').1 > deadline'
  · rw [if_pos hlate, if_pos hlate]
    rfl
  rw [if_neg hlate, if_neg hlate, h.waitRead]
  rcases st.waitRead (deadline' - (io.now w').1) (io.now w').2 with ⟨x | _ | _, w₂⟩
  · rfl
  · dsimp only
    rw [h.now]
    rfl
  · rfl

/-- A call of `readPacket` in the other world, for a driver with another output. -/
theorem Views.readPacket (h : Views E io st E' io' st' φ) (fuel : ℕ) (d : Driver) (bufferSize : ℕ)
    (packetTimeout firstByteTimeout : Time) (w : ω) :
    (d.withOutput k).readPacket E' io' fuel bufferSize packetTimeout firstByteTimeout (φ w) =
      (d.readPacket E io fuel bufferSize packetTimeout firstByteTimeout w).map (viewed φ k) := by
  unfold Driver.readPacket
  by_cases hsize : bufferSize < d.maxPacketSize
  · have hsize' : bufferSize < (d.withOutput k).maxPacketSize := hsize
    rw [if_pos hsize, if_pos hsize']
    rfl
  have hsize' : ¬ bufferSize < (d.withOutput k).maxPacketSize := hsize
  rw [if_neg hsize, if_neg hsize', h.stream, h.stream']
  dsimp only
  rw [h.now]
  exact run_map (g := WaitState.view φ k)
    (h.waitIteration fuel bufferSize packetTimeout (io.now w).1) fuel
    ⟨d, (io.now w).2, (io.now w).1 + min packetTimeout firstByteTimeout, .firstByte⟩

def RawState.view (φ : ω → ω') (s : RawState ω) : RawState ω' :=
  ⟨φ s.world, s.buffer, s.now, s.lastChar, s.globalDeadline, s.receivedBytes⟩

theorem Views.rawIteration (h : Views E io st E' io' st' φ) (outBufferSize : ℕ)
    (packetTimeout interByteTimeout : Time) (s : RawState ω) :
    rawIteration io' st' outBufferSize packetTimeout interByteTimeout (s.view φ) =
      (rawIteration io st outBufferSize packetTimeout interByteTimeout s).map (RawState.view φ)
        fun r => (r.1, φ r.2) := by
  obtain ⟨w, buffer, now, lastChar, globalDeadline, receivedBytes⟩ := s
  change IodriversBase.rawIteration io' st' outBufferSize packetTimeout interByteTimeout
    ⟨φ w, buffer, now, lastChar, globalDeadline, receivedBytes⟩ = _
  unfold IodriversBase.rawIteration
  dsimp only
  by_cases hgo : buffer.length < outBufferSize ∧ now ≤ globalDeadline
  swap
  · rw [if_neg hgo, if_neg hgo]
    rfl
  rw [if_pos hgo, if_pos hgo, h.waitRead]
  rcases st.waitRead _ w with ⟨x | _ | _, w₁⟩
  · rfl
  · rfl
  dsimp only
  rw [h.read]
  rcases st.read _ w₁ with ⟨x | c, w₂⟩
  · rfl
  dsimp only
  rw [h.now]
  dsimp only
  by_cases hc : c.val.length > 0
  · rw [if_pos hc, if_pos hc, h.notifyRead]
    rfl
  · rw [if_neg hc, if_neg hc]
    rfl

theorem Views.readRaw (h : Views E io st E' io' st' φ) (fuel : ℕ) (d : Driver) (outBufferSize : ℕ)
    (packetTimeout firstByteTimeout interByteTimeout : Time) (w : ω) :
    (d.withOutput k).readRaw io' fuel outBufferSize packetTimeout firstByteTimeout interByteTimeout
        (φ w) =
      (d.readRaw io fuel outBufferSize packetTimeout firstByteTimeout interByteTimeout w).map
        (viewed φ k) := by
  unfold Driver.readRaw
  rw [h.stream, h.stream']
  dsimp only
  rw [Driver.withOutput_pullBytes, Driver.withOutput_internalBuffer]
  rcases d.pullBytesFromInternal 0 _ with _ | ⟨buffer, d'⟩
  · rfl
  dsimp only [Option.map_some]
  rw [h.now]
  have hloop := run_map (h.rawIteration outBufferSize packetTimeout
    (if interByteTimeout = 0 then packetTimeout else interByteTimeout)) fuel
    ⟨(io.now w).2, buffer, (io.now w).1, (io.now w).1 + packetTimeout,
      (io.now w).1 + min packetTimeout firstByteTimeout, false⟩
  dsimp only [RawState.view] at hloop
  rw [hloop]
  rcases run (IodriversBase.rawIteration io st outBufferSize packetTimeout _) fuel _
    with _ | ⟨r, w'⟩
  · rfl
  · rfl

end IodriversBase
