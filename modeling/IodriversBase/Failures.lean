import IodriversBase.Calls
import IodriversBase.Descriptors
import IodriversBase.Samples

namespace IodriversBase

open Framing

variable {ω : Type} {e : Bytes → ℤ} {E : Extract ω} {s t : Sys ω} {a : Answer} {k : ℕ}
  {io : Ports ω} {stream : IOStream ω} {d d' : Driver} {w w' : Recorded ω} {cs : List Bytes}

/-- The bytes taken from the buffer and those read from the stream are in the buffer, in order. -/
def KeepsTaken (d : Driver) (outBufferSize : ℕ) (cs : List Bytes) (d' : Driver) : Prop :=
  d'.internalBuffer =
    d.internalBuffer.take outBufferSize ++ cs.flatten ++ d.internalBuffer.drop outBufferSize

instance (d : Driver) (n : ℕ) (cs : List Bytes) (d' : Driver) : Decidable (KeepsTaken d n cs d') :=
  inferInstanceAs (Decidable (_ = _))

/-- **A `readRaw` that throws** has lost the bytes it had taken, unless it had taken none: the
buffer was empty, or none of it asked for, and no byte had been read. -/
theorem readRaw_keeps_taken_iff (hio : io.stream = some stream) {fuel outBufferSize : ℕ}
    {packetTimeout firstByteTimeout interByteTimeout : Time} {x : Exn}
    (h : d.readRaw (io.recorded k) fuel outBufferSize packetTimeout firstByteTimeout
      interByteTimeout w = some (.error x, d', w')) :
    ∃ cs, Adds k w w' cs ∧ (KeepsTaken d outBufferSize cs d' ↔
      (d.internalBuffer = [] ∨ outBufferSize = 0) ∧ cs.flatten = []) := by
  obtain ⟨cs, hend⟩ := readRaw_end hio h
  refine ⟨cs, hend.adds, ?_⟩
  have hdrop : d.internalBuffer.drop (min d.internalBuffer.length outBufferSize) =
      d.internalBuffer.drop outBufferSize := by
    rw [List.drop_eq_drop_iff]
    omega
  rw [KeepsTaken, hend.driver, Driver.dropFront_internalBuffer, hdrop, List.self_eq_append_left,
    List.append_eq_nil_iff, List.take_eq_nil_iff, or_comm]

/-- The ports of a driver over a descriptor that fails. -/
def Script.brokenPorts : Ports (Machine Script) :=
  Script.broken.ports (some (fdStream Script.broken 0 5 true true)) []

/-- Nothing has been taken when the descriptor fails. -/
theorem readRaw_keeps_taken_iff_sample :
    ∃ x d' w', (Script.driver false []).readRaw (Script.brokenPorts.recorded 0) 5 4 0 0 0
        ⟨.start [], []⟩ = some (.error x, d', w') ∧
      KeepsTaken (Script.driver false []) 4 [] d' := by
  obtain ⟨⟨r, d', w'⟩, hread, hthrew, hnone⟩ := exists_of_any
    (x := (Script.driver false []).readRaw (Script.brokenPorts.recorded 0) 5 4 0 0 0
      ⟨.start [], []⟩)
    (fun r => r.1.toOption = none ∧ chunks 0 r.2.2.trace = []) (by decide +kernel)
  rcases r with x | data
  · obtain ⟨cs, ⟨new, hnew, _, hcs⟩, hiff⟩ := readRaw_keeps_taken_iff rfl hread
    have hnil : cs = [] := by
      rw [hnew, chunks_append, hcs] at hnone
      exact (List.append_eq_nil_iff.mp hnone).2
    exact ⟨x, d', w', hread, hnil ▸ hiff.mpr ⟨.inl rfl, by rw [hnil]; rfl⟩⟩
  · cases hthrew

/-- Two bytes from the buffer and one from the descriptor are gone when it fails. -/
theorem readRaw_loses_taken : ∃ r : Except Exn Bytes × Driver × Recorded (Machine Script),
    (Script.driver false [1, 2]).readRaw (Script.brokenPorts.recorded 0) 5 4 0 0 0
      ⟨.start [[3]], []⟩ = some r ∧
    r.1.toOption = none ∧ chunks 0 r.2.2.trace = [[3]] ∧ r.2.1.internalBuffer = [] ∧
    ¬ KeepsTaken (Script.driver false [1, 2]) 4 (chunks 0 r.2.2.trace) r.2.1 :=
  exists_of_any _ (by decide +kernel)

/-- A call of `readPacket` that throws has done nothing, or has fed the driver. -/
theorem PacketStep.threw {n : ℕ} {x : Exn} (h : PacketStep e s n (.threw x) t) :
    n < s.driver.maxPacketSize ∧ t = s ∨ ∃ cs, s.driver.maxPacketSize ≤ n ∧
      Fed e s.driver cs t.driver ∧
      received s.number t.world.trace = received s.number s.world.trace ++ cs.flatten ∧
      (s.driver.extractLast = false → s.driver.finds e cs = []) := by
  cases h with
  | tooSmall hlt => exact .inl ⟨hlt, rfl⟩
  | failed hle _ h =>
    refine .inr ?_
    cases h with
    | timeout hfed hnone hadds _ =>
      exact ⟨_, hle, hfed, by simpa using received_of_adds hadds, fun _ => hnone⟩
    | full hfed hnone hadds _ _ => exact ⟨_, hle, hfed, received_of_adds hadds, hnone⟩
    | threw hfed hnone hadds _ =>
      refine ⟨_, hle, hfed, ?_, hnone⟩
      rcases hadds with hadds | hadds <;> simpa using received_of_adds hadds
  | closedEmpty hle _ hdrained _ hadds =>
    obtain ⟨cs, hcs, hfed, hnone⟩ := hdrained
    exact .inr ⟨cs, hle, hfed, by simpa [hcs] using received_of_adds hadds, fun _ => hnone⟩

theorem Fed.parse_split (hb : InBounds e) (hs : Stable e) (h : Fed e d cs d') : ∃ ps,
    (∀ u, parse e (d.internalBuffer ++ cs.flatten ++ u) = ps ++ parse e (d'.internalBuffer ++ u)) ∧
      (ps = [] ↔ d.finds e cs = []) := by
  obtain ⟨ms, hms⟩ := h.moves hb
  refine ⟨emitted ms, ?_, ?_⟩
  · rw [← hms.arrived]
    exact parse_moves hb hs hms.run hms.asked
  · rw [← List.getLast?_eq_none_iff, hms.last, List.getLast?_eq_none_iff]

/-- **A `readPacket` that throws** has swallowed no packet, whatever comes next is parsed as if the
call had not been made, unless it was made in the last mode and a packet was there or came before
the failure. -/
theorem readPacket_swallows_nothing_iff (hb : InBounds e) (hs : Stable e) (hE : E.Answers e)
    {n : ℕ} {packetTimeout firstByteTimeout : Time} {x : Exn}
    (h : Sys.Step E s (.readPacket n packetTimeout firstByteTimeout, .threw x) t) :
    ∃ read, received s.number t.world.trace = received s.number s.world.trace ++ read ∧
      ((∀ u, parse e (s.driver.internalBuffer ++ read ++ u) =
          parse e (t.driver.internalBuffer ++ u)) ↔
        n < s.driver.maxPacketSize ∨ s.driver.extractLast = false ∨
          parse e (s.driver.internalBuffer ++ read) = []) := by
  rcases (h.readPacket hb hE).threw with ⟨hlt, rfl⟩ | ⟨cs, hle, hfed, hreceived, hfirst⟩
  · exact ⟨[], by simp, by simp [hlt]⟩
  refine ⟨cs.flatten, hreceived, ?_⟩
  obtain ⟨ps, hparse, hnone⟩ := hfed.parse_split hb hs
  -- the packets `ps` that the call found have left the buffer
  have hall : (∀ u, parse e (s.driver.internalBuffer ++ cs.flatten ++ u) =
      parse e (t.driver.internalBuffer ++ u)) ↔ ps = [] := by
    constructor
    · intro heq
      exact List.append_left_eq_self.mp ((hparse []).symm.trans (heq []))
    · intro h0 u
      rw [hparse, h0, List.nil_append]
  have hleft := hparse []
  rw [List.append_nil, List.append_nil] at hleft
  rw [hall]
  constructor
  · intro h0
    by_cases hlast : s.driver.extractLast = false
    · exact .inr (.inl hlast)
    · rw [hleft, h0, hfed.parse_eq_nil (.inr (hnone.mp h0))]
      exact .inr (.inr rfl)
  · rintro (hlt | hlast | hnil)
    · omega
    · exact hnone.mpr (hfirst hlast)
    · exact (List.append_eq_nil_iff.mp (hleft.symm.trans hnil)).1

/-- In the first mode the packet is returned before the descriptor fails, and the call that meets
the failure has swallowed nothing. -/
theorem readPacket_swallows_nothing_iff_sample : ∃ t,
    Sys.Step (.pure driverTestExtractPacket)
      (.start Script.brokenPorts (Script.driver false [0, 3]) (.start []))
      (.readPacket 100 0 0,
        .threw (.unixError "readPacket(): error reading the file descriptor" 5)) t ∧
    ∀ u,
      parse driverTestExtractPacket ([0, 3] ++ u) =
        parse driverTestExtractPacket (t.driver.internalBuffer ++ u) := by
  let s : Sys (Machine Script) := .start Script.brokenPorts (Script.driver false [0, 3]) (.start [])
  obtain ⟨a, t, hstep, ha, hnone⟩ := Sys.exists_step (.pure driverTestExtractPacket) 5 s
    (.readPacket 100 0 0) (fun a t => a = .threw (.unixError
      "readPacket(): error reading the file descriptor" 5) ∧ received 0 t.world.trace = [])
    (by decide +kernel)
  subst ha
  obtain ⟨read, hread, hiff⟩ := readPacket_swallows_nothing_iff driverTest_inBounds
    driverTest_stable (Extract.answers_pure _) hstep
  have hnil : read = [] := (List.append_eq_nil_iff.mp (hread.symm.trans hnone)).2
  refine ⟨t, hstep, fun u => ?_⟩
  have hbuffer : s.driver.internalBuffer = [0, 3] := rfl
  simpa [hnil, hbuffer] using hiff.mpr (.inr (.inl rfl)) u

/-- In the last mode the packet is removed, the descriptor fails, and the packet is gone. -/
theorem readPacket_swallows_a_packet : ∃ a t,
    Sys.Step (.pure driverTestExtractPacket)
      (.start Script.brokenPorts (Script.driver true []) (.start [[0, 1, 2, 0]]))
      (.readPacket 100 0 0, a) t ∧
    a = .threw (.unixError "readPacket(): error reading the file descriptor" 5) ∧
    received 0 t.world.trace = [0, 1, 2, 0] ∧ t.driver.internalBuffer = [] ∧
    parse driverTestExtractPacket (received 0 t.world.trace) = [[0, 1, 2, 0]] ∧
    parse driverTestExtractPacket t.driver.internalBuffer = [] := by
  obtain ⟨a, t, hstep, ha, hreceived, hbuffer⟩ := Sys.exists_step (.pure driverTestExtractPacket) 5
    (.start Script.brokenPorts (Script.driver true []) (.start [[0, 1, 2, 0]]))
    (.readPacket 100 0 0) (fun a t => a = .threw (.unixError
      "readPacket(): error reading the file descriptor" 5) ∧
      received 0 t.world.trace = [0, 1, 2, 0] ∧ t.driver.internalBuffer = [])
    (by decide +kernel)
  refine ⟨a, t, hstep, ha, hreceived, hbuffer, ?_, ?_⟩
  · rw [hreceived, driverTest_parse]
  · rw [hbuffer, parse_settled settled_nil]

end IodriversBase
