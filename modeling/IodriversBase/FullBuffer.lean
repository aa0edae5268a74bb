import IodriversBase.Calls
import IodriversBase.Descriptors
import IodriversBase.Samples

namespace IodriversBase

open Framing Loop

variable {ω : Type} {e : Bytes → ℤ} {E : Extract ω} {k : ℕ} {io : Ports ω} {stream : IOStream ω}
  {d d' : Driver} {w w' : Recorded ω}

def AsksForBytes (trace : List Event) : Prop :=
  ∀ j n answer, Event.read j n answer ∈ trace → 1 ≤ n

theorem AsksForBytes.append {t t' : List Event} (h : AsksForBytes t) (h' : AsksForBytes t') :
    AsksForBytes (t ++ t') := by
  intro j n answer hmem
  rcases List.mem_append.mp hmem with hmem | hmem
  · exact h j n answer hmem
  · exact h' j n answer hmem

theorem AsksForBytes.left {t t' : List Event} (h : AsksForBytes (t ++ t')) : AsksForBytes t :=
  fun j n answer hmem => h j n answer (List.mem_append_left _ hmem)

theorem AsksForBytes.of_ne {ev : Event} (h : ∀ j n answer, ev ≠ .read j n answer) :
    AsksForBytes [ev] := by
  intro j n answer hmem
  exact absurd (List.mem_singleton.mp hmem).symm (h j n answer)

theorem AsksForBytes.now (h : AsksForBytes w.trace) (io : Ports ω) :
    AsksForBytes ((io.recorded k).now w).2.trace := h.append (.of_ne (by simp))

theorem AsksForBytes.notifyRead (h : AsksForBytes w.trace) (io : Ports ω) (data : Bytes) :
    AsksForBytes ((io.recorded k).notifyRead data w).trace := by
  refine Ports.recorded_notifyRead_rule (P := fun w : Recorded ω => AsksForBytes w.trace) ?_ h
  intro l w w' htrace hw
  rw [htrace]
  exact hw.append (.of_ne (by simp))

theorem AsksForBytes.effects (h : AsksForBytes w.trace) (E : Extract ω) (bs : List Bytes) :
    AsksForBytes (E.recorded.effects bs w).trace := by
  have htrace : (E.recorded.effects bs w).trace = w.trace := by
    induction bs generalizing w with
    | nil => rfl
    | cons b bs ih => exact ih (w := (E.recorded b w).2) h
  rwa [htrace]

theorem AsksForBytes.waitRead {t : Time} {r} (h : AsksForBytes w.trace)
    (hr : (stream.recorded k).waitRead t w = (r, w')) : AsksForBytes w'.trace := by
  cases hr
  exact h.append (.of_ne (by simp))

theorem AsksForBytes.read {n : ℕ} {r} (h : AsksForBytes w.trace) (hn : 1 ≤ n)
    (hr : (stream.recorded k).read n w = (r, w')) : AsksForBytes w'.trace := by
  cases hr
  refine h.append fun j m answer hmem => ?_
  cases List.mem_singleton.mp hmem
  exact hn

def Driver.HasRoom (d : Driver) : Prop := d.internalBuffer.length < d.maxPacketSize

def Driver.Stuck (e : Bytes → ℤ) (d : Driver) : Prop :=
  d.internalBuffer.length = d.maxPacketSize ∧ e d.internalBuffer = 0

theorem Driver.scanned_hasRoom (hM : 1 ≤ d.maxPacketSize) (h : ¬ d.Stuck e) :
    (d.scanned e).HasRoom := by
  have hle := leftOver_length_le e d.extractLast d.internalBuffer
  have hfits := d.fits
  rw [Driver.HasRoom, Driver.scanned_internalBuffer, Driver.scanned_maxPacketSize]
  by_cases hlen : d.internalBuffer.length = d.maxPacketSize
  · have hset : ¬ Settled e d.internalBuffer := by
      rintro (h0 | h0)
      · simp [h0] at hlen
        omega
      · exact h ⟨hlen, h0⟩
    exact (leftOver_length_lt hset).trans_le hlen.le
  · omega

/-- What a call leaves: room in the buffer, or a `length_error`. -/
structure RoomEnd (M : ℕ) {α : Type} (r : Except Exn α × Driver × Recorded ω) : Prop where
  asks : AsksForBytes r.2.2.trace
  maxPacketSize : r.2.1.maxPacketSize = M
  room : r.2.1.HasRoom ∨ ∃ what, r.1 = .error (.lengthError what)

theorem readPacketInternal_room (hb : InBounds e) (hE : E.Answers e) {fuel outBufferSize : ℕ}
    (hsize : d.maxPacketSize ≤ outBufferSize) (hroom : (d.scanned e).HasRoom)
    (hw : AsksForBytes w.trace) {r}
    (h : d.readPacketInternal E.recorded (io.recorded k) (stream.recorded k) fuel outBufferSize w =
      some r) : RoomEnd d.maxPacketSize r := by
  rw [readPacketInternal_eq hb hE.recorded _ _ _ hsize] at h
  split_ifs at h with hp
  · cases h
    exact ⟨hw.effects E _, rfl, .inl hroom⟩
  -- at the head of the loop there is room
  let I : ReadState (Recorded ω) → Prop := fun s => AsksForBytes s.world.trace ∧
    s.driver.maxPacketSize = d.maxPacketSize ∧ s.driver.HasRoom
  refine run_rule (I := I) ?_ ⟨hw.effects E _, rfl, hroom⟩ h
  rintro s ⟨hasks, hM, hs⟩
  have hpos : 1 ≤ s.driver.maxPacketSize - s.driver.internalBuffer.length := by
    unfold Driver.HasRoom at hs
    omega
  have hcases := readIteration_cases hb hE.recorded (io.recorded k) (stream.recorded k) s
  generalize readIteration E.recorded (io.recorded k) (stream.recorded k) s = next at hcases ⊢
  cases hcases with
  | threw hread => exact ⟨hasks.read hpos hread, hM, .inl hs⟩
  | noData hread _ => exact ⟨hasks.read hpos hread, hM, .inl hs⟩
  | @packet c w₁ hread hc hfirst hp =>
    refine ⟨((hasks.read hpos hread).notifyRead io c.val).effects E _, hM, .inl ?_⟩
    refine Driver.scanned_hasRoom (d := s.driver.append c.val c.property) (by simp; omega) ?_
    rintro ⟨_, h0⟩
    rw [Driver.append_internalBuffer] at h0
    exact hp (by rw [cut_settled (.inr h0)])
  | full hread _ _ _ =>
    exact ⟨((hasks.read hpos hread).notifyRead io _).effects E _, hM, .inr ⟨_, rfl⟩⟩
  | again hread _ _ hfull =>
    refine ⟨((hasks.read hpos hread).notifyRead io _).effects E _, hM, ?_⟩
    exact lt_of_le_of_ne (Driver.fits _) hfull

/-- A driver with room in its buffer has asked for bytes only. -/
structure LeavesRoom (M : ℕ) (d : Driver) (w : Recorded ω) : Prop where
  asks : AsksForBytes w.trace
  maxPacketSize : d.maxPacketSize = M
  room : d.HasRoom

/-- At the head of the loop of `readPacket`: the next scan leaves room in the buffer. -/
structure Roomy (e : Bytes → ℤ) (M : ℕ) (s : WaitState (Recorded ω)) : Prop where
  asks : AsksForBytes s.world.trace
  maxPacketSize : s.driver.maxPacketSize = M
  room : (s.driver.scanned e).HasRoom

section LeavesRoom

variable {M : ℕ} (h : LeavesRoom M d w)

include h

theorem LeavesRoom.now (io : Ports ω) : LeavesRoom M d ((io.recorded k).now w).2 :=
  ⟨h.asks.now io, h.maxPacketSize, h.room⟩

theorem LeavesRoom.waitRead {t : Time} {r} (hr : (stream.recorded k).waitRead t w = (r, w')) :
    LeavesRoom M d w' := ⟨h.asks.waitRead hr, h.maxPacketSize, h.room⟩

theorem LeavesRoom.ends {r : Except Exn Bytes} : RoomEnd M (r, d, w) :=
  ⟨h.asks, h.maxPacketSize, .inl h.room⟩

theorem LeavesRoom.roomy (e : Bytes → ℤ) (deadline : Time) (type : TimeoutType) :
    Roomy e M ⟨d, w, deadline, type⟩ := by
  refine ⟨h.asks, h.maxPacketSize, ?_⟩
  have hle := leftOver_length_le e d.extractLast d.internalBuffer
  have hroom := h.room
  unfold Driver.HasRoom at hroom
  change (d.scanned e).internalBuffer.length < (d.scanned e).maxPacketSize
  rw [Driver.scanned_internalBuffer, Driver.scanned_maxPacketSize]
  omega

end LeavesRoom

theorem waitIteration_room (hb : InBounds e) (hE : E.Answers e) {M fuel bufferSize : ℕ}
    (hsize : M ≤ bufferSize) (packetTimeout startTime : Time) {s : WaitState (Recorded ω)}
    (hs : Roomy e M s) :
    (waitIteration E.recorded (io.recorded k) (stream.recorded k) fuel bufferSize packetTimeout
      startTime s).Holds (Roomy e M) (RoomEnd M) := by
  obtain ⟨hasks, rfl, hroom⟩ := hs
  have hend {b} (hint : s.driver.readPacketInternal E.recorded (io.recorded k)
      (stream.recorded k) fuel bufferSize s.world = some b) : RoomEnd s.driver.maxPacketSize b :=
    readPacketInternal_room hb hE hsize hroom hasks hint
  have hok {p d' w'} (hint : s.driver.readPacketInternal E.recorded (io.recorded k)
      (stream.recorded k) fuel bufferSize s.world = some (.ok p, d', w')) :
      LeavesRoom s.driver.maxPacketSize d' w' :=
    ⟨(hend hint).asks, (hend hint).maxPacketSize, (hend hint).room.resolve_right (by simp)⟩
  have hstep := waitIteration_step E.recorded (io.recorded k) (stream.recorded k) fuel bufferSize
    packetTimeout startTime s
  generalize waitIteration E.recorded (io.recorded k) (stream.recorded k) fuel bufferSize
    packetTimeout startTime s = next at hstep ⊢
  cases hstep with
  | lost _ => trivial
  | threw hint =>
    refine ⟨(hend hint).asks, (hend hint).maxPacketSize, (hend hint).room.imp id ?_⟩
    rintro ⟨what, hx⟩
    cases hx
    exact ⟨what, rfl⟩
  | packet hint _ => exact (hok hint).ends
  | noTimeout hint _ => exact (hok hint).ends
  | late hint _ => exact ((hok hint).now io).ends
  | waitThrew hint _ hwait => exact (((hok hint).now io).waitRead hwait).ends
  | waitedOut hint _ hwait => exact ((((hok hint).now io).waitRead hwait).now io).ends
  | ready hint _ hwait => exact (((hok hint).now io).waitRead hwait).roomy e _ _

theorem readPacket_room (hb : InBounds e) (hE : E.Answers e) (hio : io.stream = some stream)
    {fuel bufferSize : ℕ} (hsize : d.maxPacketSize ≤ bufferSize) (hM : 1 ≤ d.maxPacketSize)
    (hstuck : ¬ d.Stuck e) {packetTimeout firstByteTimeout : Time} (hw : AsksForBytes w.trace) {r}
    (h : d.readPacket E.recorded (io.recorded k) fuel bufferSize packetTimeout firstByteTimeout w =
      some r) : RoomEnd d.maxPacketSize r := by
  rw [Driver.readPacket, if_neg (by omega), Ports.recorded_opened k hio] at h
  exact run_rule (fun s => waitIteration_room hb hE hsize packetTimeout _)
    ⟨hw.now (k := k) io, rfl, Driver.scanned_hasRoom hM hstuck⟩ h

variable {Ω : Type} {os : Os Ω} {i : ℕ} {fd : ℤ} {st : IOStream (Machine Ω)}

/-- As long as every read asks for bytes, stream `i` reports the end of the file only when a
read of at least one byte has returned none. -/
def HonestEof (i : ℕ) (fd : ℤ) (w : Recorded (Machine Ω)) : Prop :=
  AsksForBytes w.trace → w.world.eof i = true →
    ∃ call ∈ w.world.reads, call.fd = fd ∧ 1 ≤ call.size ∧ call.data = []

theorem HonestEof.of_eq {w w' : Recorded (Machine Ω)} {new : List Event} (h : HonestEof i fd w)
    (htrace : w'.trace = w.trace ++ new) (heof : w'.world.eof = w.world.eof)
    (hreads : w'.world.reads = w.world.reads) : HonestEof i fd w' := by
  intro hasks htrue
  rw [htrace] at hasks
  rw [heof] at htrue
  rw [hreads]
  exact h hasks.left htrue

theorem HonestEof.read (hst : OverDescriptor os i fd st) {w w' : Recorded (Machine Ω)} {n : ℕ} {r}
    (h : HonestEof i fd w) (hr : (st.recorded k).read n w = (r, w')) : HonestEof i fd w' := by
  obtain ⟨hr, rfl⟩ := Prod.mk.inj hr
  rcases hst.read (n := n) (m := w.world) rfl with ⟨c, hasEof, os', hc, hm⟩ | ⟨_, os', hm⟩
  · intro hasks htrue
    have hn : 1 ≤ n := hasks k n _ (List.mem_append_right _ (List.mem_singleton_self _))
    dsimp only at htrue ⊢
    rw [hm] at htrue ⊢
    by_cases hnil : c.val = []
    · exact ⟨_, List.mem_append_right _ (List.mem_singleton_self _), rfl, hn, hnil⟩
    · simp only [Machine.didRead, hnil, if_false] at htrue
      obtain ⟨call, hcall, hempty⟩ := h hasks.left htrue
      exact ⟨call, List.mem_append_left _ hcall, hempty⟩
  · exact h.of_eq rfl (by rw [hm, Machine.withOs_eof]) (by rw [hm, Machine.withOs_reads])

theorem honestEof_keeps (hst : OverDescriptor os i fd st) (listeners : List (ℕ × IOListener Ω)) :
    ((os.ports (some st) listeners).recorded k).KeepsReading
      fun w w' => HonestEof i fd w → HonestEof i fd w' where
  refl _ := fun h => h
  trans h h' := fun hw => h' (h hw)
  now w h := h.of_eq rfl rfl rfl
  notifyRead data w := by
    intro hw
    apply Os.notifyRead_rule _ hw
    intro l _ w hw
    exact hw.of_eq rfl rfl rfl
  read := by
    intro st' n w r w' hst' hr h
    obtain rfl : st.recorded k = st' := Option.some.inj hst'
    exact h.read hst hr
  waitRead := by
    intro st' t w r w' hst' hr h
    obtain rfl : st.recorded k = st' := Option.some.inj hst'
    cases hr
    obtain ⟨os', hm⟩ := hst.waitRead (t := t) (m := w.world) rfl
    exact h.of_eq rfl (by rw [hm, Machine.withOs_eof]) (by rw [hm, Machine.withOs_reads])

/-- A call of `readPacket` on a driver that is not stuck, or with a buffer that is too small; the
mode may be switched, and the buffer cleared. -/
def Sys.Unstuck (e : Bytes → ℤ) (s : Sys ω) : Op ω → Prop
  | .readPacket bufferSize _ _ => bufferSize < s.driver.maxPacketSize ∨ ¬ s.driver.Stuck e
  | .setExtractLastPacket _ | .clear => True
  | _ => False

def Sys.UnstuckStep (e : Bytes → ℤ) (s : Sys ω) (call : Op ω × Answer) (t : Sys ω) : Prop :=
  Sys.Step (.pure e) s call t ∧ s.Unstuck e call.1

def ReportsFull (calls : List (Op ω × Answer)) (s : Sys ω) : Prop :=
  ∀ n packetTimeout firstByteTimeout a,
    calls.getLast? = some (.readPacket n packetTimeout firstByteTimeout, a) →
    s.driver.internalBuffer.length = s.driver.maxPacketSize → ∃ what, a = .threw (.lengthError what)

/-- A driver over a descriptor that has asked for bytes only. -/
structure AsksOnly (os : Os Ω) (st : IOStream (Machine Ω)) (listeners : List (ℕ × IOListener Ω))
    (i : ℕ) (fd : ℤ) (M : ℕ) (calls : List (Op (Machine Ω) × Answer)) (s : Sys (Machine Ω)) :
    Prop where
  io : s.io = os.ports (some st) listeners
  number : s.number = 0
  maxPacketSize : s.driver.maxPacketSize = M
  asks : AsksForBytes s.world.trace
  honest : HonestEof i fd s.world
  reports : ReportsFull calls s

theorem AsksOnly.step (hb : InBounds e) {M : ℕ} (hM : 1 ≤ M) (hst : OverDescriptor os i fd st)
    {listeners : List (ℕ × IOListener Ω)} {calls : List (Op (Machine Ω) × Answer)}
    {call : Op (Machine Ω) × Answer} {s t : Sys (Machine Ω)}
    (hs : AsksOnly os st listeners i fd M calls s) (h : s.UnstuckStep e call t) :
    AsksOnly os st listeners i fd M (calls ++ [call]) t := by
  obtain ⟨op, a⟩ := call
  obtain ⟨hstep, hop⟩ := h
  cases op with
  | readPacket n packetTimeout firstByteTimeout =>
    have hhonest : HonestEof i fd t.world := by
      have hkeeps := honestEof_keeps (k := s.number) hst listeners
      rw [← hs.io] at hkeeps
      exact hstep.readPacket_keeps hkeeps (fun _ _ hw => hw) hs.honest
    obtain ⟨fuel, hstep⟩ := hstep
    obtain ⟨r, hread, ha, hio, hnumber⟩ := Sys.after_eq_some hstep
    by_cases hsize : n < s.driver.maxPacketSize
    · -- nothing happens
      rw [Driver.readPacket, if_pos hsize] at hread
      obtain ⟨hr, hdriver, hworld⟩ : _ ∧ s.driver = t.driver ∧ s.world = t.world := by
        simpa only [Option.some.injEq, Prod.mk.injEq] using hread
      refine ⟨hio.trans hs.io, hnumber.trans hs.number, hdriver ▸ hs.maxPacketSize,
        hworld ▸ hs.asks, hhonest, ?_⟩
      intro n' packet first a' hlast _
      obtain rfl : a = a' := by simpa using congrArg (Option.map Prod.snd) hlast
      exact ⟨_, ha.trans (by rw [← hr])⟩
    · have hstream : s.io.stream = some st := by rw [hs.io]; rfl
      have hend := readPacket_room hb (Extract.answers_pure e) hstream (by omega)
        (hs.maxPacketSize ▸ hM) (hop.resolve_left hsize) hs.asks hread
      refine ⟨hio.trans hs.io, hnumber.trans hs.number, hend.maxPacketSize.trans hs.maxPacketSize,
        hend.asks, hhonest, ?_⟩
      intro n' packet first a' hlast hfull
      obtain rfl : a = a' := by simpa using congrArg (Option.map Prod.snd) hlast
      obtain ⟨what, rfl⟩ := hend.room.resolve_left hfull.not_lt
      exact ⟨what, ha⟩
  | setExtractLastPacket flag =>
    obtain ⟨fuel, hstep⟩ := hstep
    cases hstep
    exact ⟨hs.io, hs.number, hs.maxPacketSize, hs.asks, hs.honest, by simp [ReportsFull]⟩
  | clear =>
    obtain ⟨fuel, hstep⟩ := hstep
    cases hstep
    -- clearing a descriptor does nothing to the system
    have hworld : (s.driver.clear (s.io.recorded s.number) s.world).2 = s.world := by
      rw [hs.io]
      exact congrArg (Recorded.mk · s.world.trace) (hst.clear s.world.world)
    refine ⟨hs.io, hs.number, hs.maxPacketSize, ?_, ?_, by simp [ReportsFull]⟩
    · change AsksForBytes (s.driver.clear (s.io.recorded s.number) s.world).2.trace
      rw [hworld]
      exact hs.asks
    · change HonestEof i fd (s.driver.clear (s.io.recorded s.number) s.world).2
      rw [hworld]
      exact hs.honest
  | _ => exact absurd hop id

/-- **No empty read**: as long as no call with a large enough buffer is made on a stuck driver,
every read asks for at least one byte, the end of the file is reported only after a read of at
least one byte has returned none, and a call that leaves the buffer full throws. -/
theorem readPacket_asks_for_bytes (hb : InBounds e) {M : ℕ} (hM : 1 ≤ M) {extractLast : Bool}
    (hst : OverDescriptor os i fd st) (listeners : List (ℕ × IOListener Ω)) (w : Ω)
    {calls : List (Op (Machine Ω) × Answer)} {t : Sys (Machine Ω)}
    (h : Lts.Run (Sys.UnstuckStep e)
      (.start (os.ports (some st) listeners) (.new M extractLast) (.start w)) calls t) :
    (∀ j n answer, Event.read j n answer ∈ t.world.trace → 1 ≤ n) ∧
    (eof t.io t.world.world = .ok true →
      ∃ call ∈ t.world.world.reads, call.fd = fd ∧ 1 ≤ call.size ∧ call.data = []) ∧
    ∀ n packetTimeout firstByteTimeout a,
      calls.getLast? = some (.readPacket n packetTimeout firstByteTimeout, a) →
      t.driver.internalBuffer.length = M → ∃ what, a = .threw (.lengthError what) := by
  have hstart : AsksOnly os st listeners i fd M []
      (.start (os.ports (some st) listeners) (.new M extractLast) (.start w)) :=
    ⟨rfl, rfl, rfl, by simp [AsksForBytes, Sys.start], fun _ heof => Bool.noConfusion heof,
      by simp [ReportsFull]⟩
  have ht := h.history (fun calls s call t hs hstep => hs.step hb hM hst hstep) [] hstart
  refine ⟨ht.asks, fun heof => ?_, ?_⟩
  · rw [ht.io] at heof
    exact ht.honest ht.asks ((hst.eof _).symm.trans (Except.ok.inj heof))
  · intro n packet first a hlast hfull
    exact ht.reports n packet first a hlast (hfull.trans ht.maxPacketSize.symm)

/-- A packet that just fits. -/
theorem readPacket_asks_for_bytes_sample : ∃ t,
    Sys.Step (.pure driverTestExtractPacket) (.start
      (Script.os.ports (some (fdStream Script.os 0 5 true true)) []) (.new 4 false)
      (.start [[0, 1, 2, 0]])) (.readPacket 100 0 0, .packet [0, 1, 2, 0]) t ∧
    ∀ j n answer, Event.read j n answer ∈ t.world.trace → 1 ≤ n := by
  let start : Sys (Machine Script) := .start
    (Script.os.ports (some (fdStream Script.os 0 5 true true)) []) (.new 4 false)
    (.start [[0, 1, 2, 0]])
  obtain ⟨a, t, hstep, rfl⟩ := Sys.exists_step (.pure driverTestExtractPacket) 5 start
    (.readPacket 100 0 0) (fun a _ => a = .packet [0, 1, 2, 0]) (by decide +kernel)
  exact ⟨t, hstep, (readPacket_asks_for_bytes driverTest_inBounds (by decide)
    (.fdStream true true) [] _ (.single ⟨hstep, .inr (by simp [Driver.Stuck]; decide)⟩)).1⟩

/-- Three bytes fill the buffer, and a packet needs four.  The call that follows the
`length_error` asks for no bytes, takes the answer for the end of the file, and times out. -/
theorem readPacket_asks_for_nothing : ∃ calls t,
    Sys.Run (.pure driverTestExtractPacket) (.start
      (Script.os.ports (some (fdStream Script.os 0 5 true true)) []) (.new 3 false)
      (.start [[0, 1, 2]])) calls t ∧
    (∀ call ∈ calls, call.1.Reads 3) ∧ t.world.world.reads = [⟨5, 3, [0, 1, 2]⟩, ⟨5, 0, []⟩] ∧
    (eof t.io t.world.world).toOption = some true ∧
    calls.map Prod.snd =
      [.threw (.lengthError "readPacket(): current packet too large for buffer"),
        .threw (.timeoutError .firstByte
          "readPacket(): no data to read while a packet_timeout of 0 was given")] :=
  Sys.exists_run (.pure driverTestExtractPacket) 5
    (.start (Script.os.ports (some (fdStream Script.os 0 5 true true)) []) (.new 3 false)
      (.start [[0, 1, 2]])) (List.replicate 2 (.readPacket 3 0 0))
    (fun calls t => (∀ call ∈ calls, call.1.Reads 3) ∧
      t.world.world.reads = [⟨5, 3, [0, 1, 2]⟩, ⟨5, 0, []⟩] ∧
      (eof t.io t.world.world).toOption = some true ∧ calls.map Prod.snd =
        [.threw (.lengthError "readPacket(): current packet too large for buffer"),
          .threw (.timeoutError .firstByte
            "readPacket(): no data to read while a packet_timeout of 0 was given")])
    (by decide +kernel)

end IodriversBase
