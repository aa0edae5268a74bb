import IodriversBase.Library.Lts
import IodriversBase.Packets
import IodriversBase.RawReading
import IodriversBase.Worlds
import IodriversBase.Writing

namespace IodriversBase

open Framing

variable {ω : Type}

/-- The calls. -/
inductive Op (ω : Type)
  | readPacket (bufferSize : ℕ) (packetTimeout firstByteTimeout : Time)
  | readRaw (outBufferSize : ℕ) (packetTimeout firstByteTimeout interByteTimeout : Time)
  | writePacket (buffer : Bytes) (timeout : Time)
  | hasPacket
  | getStatus
  | resetStatus
  | setExtractLastPacket (flag : Bool)
  | clear
  | setMainStream (stream : IOStream ω)
  | close

/-- A call of `readPacket` with a large enough buffer. -/
def Op.Reads (M : ℕ) : Op ω → Prop
  | .readPacket bufferSize _ _ => M ≤ bufferSize
  | _ => False

instance (M : ℕ) (op : Op ω) : Decidable (op.Reads M) := by
  cases op <;> unfold Op.Reads <;> infer_instance

/-- What a call gives back. -/
inductive Answer
  | packet (p : Bytes)
  | raw (data : Bytes)
  | flag (b : Bool)
  | status (stats : Status)
  | done
  | threw (x : Exn)
  deriving DecidableEq

/-- A driver, what it is plugged into, and the number of its stream. -/
structure Sys (ω : Type) where
  io : Ports ω
  number : ℕ
  driver : Driver
  world : Recorded ω

/-- A driver before its first call. -/
def Sys.start (io : Ports ω) (driver : Driver) (w : ω) : Sys ω := ⟨io, 0, driver, ⟨w, []⟩⟩

/-- What the call `r` makes of the system. -/
def Sys.after {α : Type} (s : Sys ω) (answer : α → Answer) :
    Option (Except Exn α × Driver × Recorded ω) → Option (Answer × Sys ω)
  | none => none
  | some (.ok a, d, w) => some (answer a, { s with driver := d, world := w })
  | some (.error x, d, w) => some (.threw x, { s with driver := d, world := w })

def Sys.setMainStream (s : Sys ω) (stream : IOStream ω) : Sys ω :=
  let r := IodriversBase.setMainStream s.io stream s.world.world
  { s with io := r.1, number := s.number + 1, world := ⟨r.2, s.world.trace⟩ }

/-- One call; `none` when it does not come back within its fuel. -/
def Sys.perform (E : Extract ω) (fuel : ℕ) (s : Sys ω) : Op ω → Option (Answer × Sys ω)
  | .readPacket n packet first => s.after .packet
      (s.driver.readPacket E.recorded (s.io.recorded s.number) fuel n packet first s.world)
  | .readRaw n packet first inter => s.after .raw
      (s.driver.readRaw (s.io.recorded s.number) fuel n packet first inter s.world)
  | .writePacket buffer timeout => s.after .flag
      (s.driver.writePacket (s.io.recorded s.number) fuel buffer timeout s.world)
  | .hasPacket => s.after .flag (s.driver.hasPacket E.recorded s.world)
  | .getStatus => some (.status s.driver.getStatus.1, { s with driver := s.driver.getStatus.2 })
  | .resetStatus => some (.done, { s with driver := s.driver.resetStatus })
  | .setExtractLastPacket flag =>
    some (.done, { s with driver := s.driver.setExtractLastPacket flag })
  | .clear =>
    let r := s.driver.clear (s.io.recorded s.number) s.world
    some (.done, { s with driver := r.1, world := r.2 })
  | .setMainStream stream => some (.done, s.setMainStream stream)
  | .close =>
    some (.done,
      { s with
        io := (IodriversBase.close s.io s.world.world).1
        world := ⟨(IodriversBase.close s.io s.world.world).2, s.world.trace⟩ })

/-- A call that comes back, with its answer. -/
def Sys.Step (E : Extract ω) (s : Sys ω) (call : Op ω × Answer) (t : Sys ω) : Prop :=
  ∃ fuel, s.perform E fuel call.1 = some (call.2, t)

abbrev Sys.Run (E : Extract ω) : Sys ω → List (Op ω × Answer) → Sys ω → Prop :=
  Lts.Run (Sys.Step E)

theorem Sys.exists_step (E : Extract ω) (fuel : ℕ) (s : Sys ω) (op : Op ω)
    (P : Answer → Sys ω → Prop) [∀ a t, Decidable (P a t)]
    (h : (s.perform E fuel op).any (fun r => decide (P r.1 r.2)) = true) :
    ∃ a t, Sys.Step E s (op, a) t ∧ P a t := by
  rcases hr : s.perform E fuel op with _ | r
  · rw [hr] at h
    cases h
  · rw [hr] at h
    exact ⟨r.1, r.2, ⟨fuel, hr⟩, of_decide_eq_true h⟩

theorem Sys.exists_run (E : Extract ω) (fuel : ℕ) (s : Sys ω) (ops : List (Op ω))
    (P : List (Op ω × Answer) → Sys ω → Prop) [∀ calls t, Decidable (P calls t)]
    (h : (Lts.performs (Sys.perform E fuel) s ops).any (fun r => decide (P r.1 r.2)) = true) :
    ∃ calls t, Sys.Run E s calls t ∧ P calls t := by
  have hstep : ∀ s op a t, s.perform E fuel op = some (a, t) → Sys.Step E s (op, a) t :=
    fun _ _ _ _ hop => ⟨fuel, hop⟩
  obtain ⟨calls, t, hrun, _, hP⟩ := Lts.exists_run hstep s ops P h
  exact ⟨calls, t, hrun, hP⟩

/-- The packet that a call returned, if it did. -/
def Answer.packets : Answer → List Bytes
  | .packet p => [p]
  | _ => []

/-- The packets that the calls returned. -/
def packets (calls : List (Op ω × Answer)) : List Bytes := calls.flatMap fun call => call.2.packets

@[simp] theorem packets_nil : packets ([] : List (Op ω × Answer)) = [] := rfl

@[simp] theorem packets_append (calls calls' : List (Op ω × Answer)) :
    packets (calls ++ calls') = packets calls ++ packets calls' := List.flatMap_append

@[simp] theorem packets_singleton (call : Op ω × Answer) : packets [call] = call.2.packets := by
  simp [packets]

variable {e : Bytes → ℤ} {E : Extract ω} {s t : Sys ω} {a : Answer}

/-- What the reads of a call returned. -/
def Sys.reads (s t : Sys ω) : List Bytes :=
  chunks s.number (t.world.trace.drop s.world.trace.length)

theorem Sys.reads_of_adds {cs : List Bytes} (h : Adds s.number s.world t.world cs) :
    s.reads t = cs := by
  obtain ⟨new, hnew, _, rfl⟩ := h
  rw [Sys.reads, hnew, List.drop_left]

theorem Sys.after_eq_some {α : Type} {answer : α → Answer} {r}
    (h : s.after answer r = some (a, t)) : ∃ x, r = some (x, t.driver, t.world) ∧
      a = (match x with | .ok y => answer y | .error x => .threw x) ∧
      t.io = s.io ∧ t.number = s.number := by
  rcases r with _ | ⟨_ | _, d', w'⟩ <;> cases h
  · exact ⟨_, rfl, rfl, rfl, rfl⟩
  · exact ⟨_, rfl, rfl, rfl, rfl⟩

theorem Sys.Step.readPacket_keeps {R : Recorded ω → Recorded ω → Prop} {bufferSize : ℕ}
    {packetTimeout firstByteTimeout : Time}
    (h : Sys.Step E s (.readPacket bufferSize packetTimeout firstByteTimeout, a) t)
    (hR : (s.io.recorded s.number).KeepsReading R) (hE : E.recorded.Keeps R) :
    R s.world t.world := by
  obtain ⟨fuel, h⟩ := h
  obtain ⟨x, hread, _⟩ := Sys.after_eq_some h
  exact IodriversBase.readPacket_keeps hR.hearing hE hread

/-- A preorder on worlds that the ports keep, and that is about the trace only, every call
keeps. -/
theorem Sys.Step.keeps {R : Recorded ω → Recorded ω → Prop} {call : Op ω × Answer}
    (h : Sys.Step E s call t) (hR : (s.io.recorded s.number).KeepsTelling R)
    (htrace : ∀ w w' : Recorded ω, w'.trace = w.trace → R w w') : R s.world t.world := by
  obtain ⟨op, a⟩ := call
  obtain ⟨fuel, h⟩ := h
  have hE : E.recorded.Keeps R := fun _ _ => htrace _ _ rfl
  cases op with
  | readPacket =>
    obtain ⟨_, hr, _⟩ := Sys.after_eq_some h
    exact IodriversBase.readPacket_keeps hR.toKeepsHearing hE hr
  | readRaw =>
    obtain ⟨_, hr, _⟩ := Sys.after_eq_some h
    exact readRaw_keeps hR.toKeepsHearing hr
  | writePacket =>
    obtain ⟨_, hr, _⟩ := Sys.after_eq_some h
    exact writePacket_keeps hR.toKeepsWriting hr
  | hasPacket =>
    obtain ⟨_, hr, _⟩ := Sys.after_eq_some h
    exact hasPacket_keeps hR.toKeepsHearing hE hr
  | clear =>
    cases h
    unfold Driver.clear Ports.recorded
    cases s.io.stream <;> exact htrace _ _ rfl
  | _ =>
    cases h
    exact htrace _ _ rfl

def Event.Of (k : ℕ) (ev : Event) : Prop := ev.OfReading k ∨ ev.OfWriting k

/-- Between two worlds, only a driver whose stream has the number `k` did something. -/
def Uses (k : ℕ) (w w' : Recorded ω) : Prop :=
  ∃ new, w'.trace = w.trace ++ new ∧ ∀ ev ∈ new, ev.Of k

variable {k : ℕ} {w w' w'' : Recorded ω}

theorem Uses.of_trace (h : w'.trace = w.trace) : Uses k w w' := ⟨[], by simp [h], by simp⟩

theorem Uses.trans (h : Uses k w w') (h' : Uses k w' w'') : Uses k w w'' := by
  obtain ⟨new, hnew, hof⟩ := h
  obtain ⟨new', hnew', hof'⟩ := h'
  refine ⟨new ++ new', by rw [hnew', hnew, List.append_assoc], fun ev hev => ?_⟩
  exact (List.mem_append.mp hev).elim (hof ev) (hof' ev)

theorem Uses.of_event {ev : Event} (h : w'.trace = w.trace ++ [ev]) (hof : ev.Of k) : Uses k w w' :=
  ⟨[ev], h, by simpa using hof⟩

theorem Adds.uses {cs : List Bytes} (h : Adds k w w' cs) : Uses k w w' := by
  obtain ⟨new, hnew, hof, _⟩ := h
  exact ⟨new, hnew, fun ev hev => .inl (hof ev hev)⟩

theorem Accepts.uses {data : Bytes} (h : Accepts k w w' data) : Uses k w w' := by
  obtain ⟨new, hnew, hof, _⟩ := h
  exact ⟨new, hnew, fun ev hev => .inr (hof ev hev)⟩

theorem Uses.trace (h : Uses k w w') : w.trace <+: w'.trace := by
  obtain ⟨new, hnew, _⟩ := h
  exact ⟨new, hnew.symm⟩

theorem Uses.chunks (h : Uses k w w') {j : ℕ} (hj : j ≠ k) :
    chunks j w'.trace = chunks j w.trace := by
  obtain ⟨new, hnew, hof⟩ := h
  have hnone : IodriversBase.chunks j new = [] := by
    rw [IodriversBase.chunks, List.filterMap_eq_nil_iff]
    intro ev hev
    have hchunks : IodriversBase.chunks j [ev] = [] := by
      rcases hof ev hev with hread | hwrite
      · exact chunks_of_reading (List.forall_mem_singleton.mpr hread) hj
      · exact chunks_of_writing (List.forall_mem_singleton.mpr hwrite) j
    simpa [IodriversBase.chunks] using hchunks
  rw [hnew, chunks_append, hnone, List.append_nil]

theorem uses_keeps (io : Ports ω) (k : ℕ) : (io.recorded k).Keeps (Uses k) where
  refl _ := .of_trace rfl
  trans := Uses.trans
  now w := (adds_now io w).uses
  notifyRead data w := (adds_notifyRead io data w).uses
  read := by
    intro st n w r w' hst hr
    obtain ⟨st', _, rfl⟩ := Option.map_eq_some_iff.mp hst
    cases hr
    exact .of_event rfl (.inl rfl)
  waitRead := by
    intro st n w r w' hst hr
    obtain ⟨st', _, rfl⟩ := Option.map_eq_some_iff.mp hst
    exact (adds_waitRead hr).1.uses
  notifyWrite data w := (accepts_notifyWrite io data w).uses
  write := by
    intro st n w r w' hst hr
    obtain ⟨st', _, rfl⟩ := Option.map_eq_some_iff.mp hst
    cases hr
    exact .of_event rfl (.inr rfl)
  waitWrite := by
    intro st n w r w' hst hr
    obtain ⟨st', _, rfl⟩ := Option.map_eq_some_iff.mp hst
    exact (accepts_waitWrite hr).1.uses

theorem Sys.Step.uses {call : Op ω × Answer} (h : Sys.Step E s call t) :
    Uses s.number s.world t.world :=
  h.keeps (uses_keeps s.io s.number).telling fun _ _ => .of_trace

theorem Sys.Step.quiet {call : Op ω × Answer} (h : Sys.Step E s call t) (hq : Quiet t.world.trace) :
    Quiet s.world.trace := fun ev hev => hq ev (h.uses.trace.subset hev)

inductive PacketStep (e : Bytes → ℤ) (s : Sys ω) (bufferSize : ℕ) : Answer → Sys ω → Prop
  | tooSmall {what : String} : bufferSize < s.driver.maxPacketSize →
      PacketStep e s bufferSize (.threw (.lengthError what)) s
  | found {d' w' p} : s.driver.maxPacketSize ≤ bufferSize → s.io.stream ≠ none →
      Outcome e s.number s.driver s.world (.ok p, d', w') →
      PacketStep e s bufferSize (.packet p) { s with driver := d', world := w' }
  | failed {d' w' x} : s.driver.maxPacketSize ≤ bufferSize → s.io.stream ≠ none →
      Outcome e s.number s.driver s.world (.error x, d', w') →
      PacketStep e s bufferSize (.threw x) { s with driver := d', world := w' }
  | closedFound {d' w' ps p} : s.driver.maxPacketSize ≤ bufferSize → s.io.stream = none →
      Drained e s.driver ps d' → (s.driver.extractLast = false → ps = [p]) →
      ps.getLast? = some p → Adds s.number s.world w' [] →
      PacketStep e s bufferSize (.packet p) { s with driver := d', world := w' }
  | closedEmpty {d' w' x} : s.driver.maxPacketSize ≤ bufferSize → s.io.stream = none →
      Drained e s.driver [] d' → x.IsTimeout → Adds s.number s.world w' [] →
      PacketStep e s bufferSize (.threw x) { s with driver := d', world := w' }

theorem Sys.Step.readPacket (hb : InBounds e) (hE : E.Answers e) {bufferSize : ℕ}
    {packetTimeout firstByteTimeout : Time}
    (h : Sys.Step E s (.readPacket bufferSize packetTimeout firstByteTimeout, a) t) :
    PacketStep e s bufferSize a t := by
  obtain ⟨fuel, h⟩ := h
  simp only [Sys.perform] at h
  by_cases hsize : bufferSize < s.driver.maxPacketSize
  · rw [Driver.readPacket, if_pos hsize] at h
    cases h
    exact .tooSmall hsize
  have hle : s.driver.maxPacketSize ≤ bufferSize := by omega
  rcases hio : s.io.stream with _ | stream
  · -- without a stream the call only looks at the buffer
    have hrec := Ports.recorded_closed s.number hio
    obtain ⟨ps, d', w', hread, hdrained, hfirst, bs, rfl⟩ := readPacket_end_closed hb hE.recorded
      hrec fuel hle packetTimeout firstByteTimeout s.world
    have hadds : Adds s.number s.world (E.recorded.effects bs s.world) [] := adds_effects E bs _
    rw [hread] at h
    by_cases h0 : ps = []
    · subst h0
      rw [if_pos rfl] at h
      cases h
      exact .closedEmpty hle hio hdrained trivial hadds
    · rw [if_neg h0] at h
      cases h
      have hlast := List.getLast?_eq_getLast_of_ne_nil h0
      rw [hlast]
      refine .closedFound hle hio hdrained (fun hf => ?_) hlast hadds
      obtain ⟨p, rfl⟩ := List.length_eq_one_iff.mp
        (Nat.le_antisymm (hfirst hf) (List.length_pos_iff.mpr h0))
      rfl
  · have hne : s.io.stream ≠ none := by simp [hio]
    rcases hread : s.driver.readPacket E.recorded (s.io.recorded s.number) fuel bufferSize
      packetTimeout firstByteTimeout s.world with _ | ⟨r, d', w'⟩
    · rw [hread] at h
      cases h
    have hend := readPacket_end hb hE hio hle hread
    rw [hread] at h
    cases r with
    | ok p =>
      cases h
      exact .found hle hne hend
    | error x =>
      cases h
      exact .failed hle hne hend

/-- A call that returned a packet or timed out. -/
structure Delivers (e : Bytes → ℤ) (s : Sys ω) (a : Answer) (t : Sys ω) (cs : List Bytes) :
    Prop where
  fed : Fed e s.driver cs t.driver
  received : received s.number t.world.trace = received s.number s.world.trace ++ cs.flatten
  io : t.io = s.io
  number : t.number = s.number
  last : a.packets = (s.driver.finds e cs).getLast?.toList
  first : s.driver.extractLast = false → s.driver.finds e cs = a.packets
  answer : (∃ p, a = .packet p) ∨ ∃ x, a = .threw x ∧ x.IsTimeout
  starved : a.packets = [] → s.io.stream ≠ none → ∃ cs, Adds s.number s.world t.world (cs ++ [[]])

theorem PacketStep.io {n : ℕ} (h : PacketStep e s n a t) : t.io = s.io ∧ t.number = s.number := by
  cases h <;> exact ⟨rfl, rfl⟩

theorem PacketStep.answer {n : ℕ} (h : PacketStep e s n a t) :
    (∃ p, a = .packet p) ∨ ∃ x, a = .threw x := by
  cases h with
  | found | closedFound => exact .inl ⟨_, rfl⟩
  | tooSmall | failed | closedEmpty => exact .inr ⟨_, rfl⟩

/-- With a stream, a call that does anything feeds the driver what it has read. -/
theorem PacketStep.fed {n : ℕ} (h : PacketStep e s n a t) (hio : s.io.stream ≠ none) :
    t = s ∧ a.packets = [] ∨ ∃ cs, Fed e s.driver cs t.driver ∧
      (Adds s.number s.world t.world cs ∨ Adds s.number s.world t.world (cs ++ [[]])) ∧
      ∀ p, a = .packet p → (s.driver.finds e cs).getLast? = some p := by
  cases h with
  | tooSmall => exact .inl ⟨rfl, rfl⟩
  | found _ _ h =>
    obtain ⟨cs, hfed, hadds, hlast⟩ := h.fed
    exact .inr ⟨cs, hfed, hadds, fun p hp => hlast p (congrArg _ (Answer.packet.inj hp))⟩
  | failed _ _ h =>
    obtain ⟨cs, hfed, hadds, _⟩ := h.fed
    exact .inr ⟨cs, hfed, hadds, by simp⟩
  | closedFound _ hnone => exact absurd hnone hio
  | closedEmpty _ hnone => exact absurd hnone hio

theorem received_of_adds {k : ℕ} {w w' : Recorded ω} {cs : List Bytes} (h : Adds k w w' cs) :
    received k w'.trace = received k w.trace ++ cs.flatten := by
  obtain ⟨new, hnew, _, rfl⟩ := h
  rw [hnew, received_append]
  rfl

theorem PacketStep.feeds {n : ℕ} (h : PacketStep e s n a t) :
    t = s ∧ a.packets = [] ∨ ∃ cs, Fed e s.driver cs t.driver ∧
      received s.number t.world.trace = received s.number s.world.trace ++ cs.flatten ∧
      ∀ p, a = .packet p → (s.driver.finds e cs).getLast? = some p := by
  by_cases hio : s.io.stream = none
  · cases h with
    | tooSmall => exact .inl ⟨rfl, rfl⟩
    | found _ hne => exact absurd hio hne
    | failed _ hne => exact absurd hio hne
    | closedFound _ _ hdrained _ hlast hadds =>
      obtain ⟨cs, hcs, hfed, rfl⟩ := hdrained
      refine .inr ⟨cs, hfed, by simpa [hcs] using received_of_adds hadds, fun p hp => ?_⟩
      rw [hlast, Answer.packet.inj hp]
    | closedEmpty _ _ hdrained _ hadds =>
      obtain ⟨cs, hcs, hfed, _⟩ := hdrained
      exact .inr ⟨cs, hfed, by simpa [hcs] using received_of_adds hadds, by simp⟩
  · refine (h.fed hio).imp id ?_
    rintro ⟨cs, hfed, hadds, hlast⟩
    refine ⟨cs, hfed, ?_, hlast⟩
    rcases hadds with hadds | hadds <;> simpa using received_of_adds hadds

/-- With a buffer that is large enough, a reliable stream, and an extractor that always decides
on a full buffer, every call of `readPacket` returns a packet or times out. -/
theorem PacketStep.delivers {n : ℕ} (h : PacketStep e s n a t) (hn : s.driver.maxPacketSize ≤ n)
    (hfull : ∀ b : Bytes, b.length = s.driver.maxPacketSize → b ≠ [] → e b ≠ 0)
    (hq : Quiet t.world.trace) : ∃ cs, Delivers e s a t cs := by
  cases h with
  | tooSmall hlt => omega
  | found _ _ h =>
    cases h with
    | @packet cs _ _ p hfed _ hlast hfirst hadds =>
      refine ⟨cs, hfed, ?_, rfl, rfl, by rw [hlast]; rfl, hfirst, .inl ⟨_, rfl⟩,
        by simp [Answer.packets]⟩
      rw [received_of_adds hadds]
      split_ifs <;> simp
  | failed _ _ h =>
    cases h with
    | @timeout cs _ _ x hfed hnone hadds hx =>
      exact ⟨cs, hfed, by simpa using received_of_adds hadds, rfl, rfl,
        by simp [hnone, Answer.packets], fun _ => hnone, .inr ⟨_, rfl, hx⟩, fun _ _ => ⟨cs, hadds⟩⟩
    -- the extractor decides on a full buffer
    | full hfed _ _ hlen hne => exact absurd hlen (hfed.length_lt hfull hne).ne
    | threw _ _ _ h =>
      obtain ⟨ev, hev, hthrew⟩ := h
      exact absurd hthrew.threw (hq ev hev)
  | @closedFound _ _ ps p _ hclosed hdrained hfirst hlast hadds =>
    obtain ⟨cs, hcs, hfed, rfl⟩ := hdrained
    exact ⟨cs, hfed, by simpa [hcs] using received_of_adds hadds, rfl, rfl, by rw [hlast]; rfl,
      hfirst, .inl ⟨_, rfl⟩, fun _ hopen => absurd hclosed hopen⟩
  | @closedEmpty _ _ x _ hclosed hdrained hx hadds =>
    obtain ⟨cs, hcs, hfed, hnone⟩ := hdrained
    exact ⟨cs, hfed, by simpa [hcs] using received_of_adds hadds, rfl, rfl,
      by simp [hnone, Answer.packets], fun _ => hnone, .inr ⟨_, rfl, hx⟩,
      fun _ hopen => absurd hclosed hopen⟩

variable {cs : List Bytes}

theorem Delivers.parse_first (h : Delivers e s a t cs) (hb : InBounds e) (hs : Stable e)
    (hf : s.driver.extractLast = false) (u : Bytes) :
    parse e (s.driver.internalBuffer ++ cs.flatten ++ u) =
      a.packets ++ parse e (t.driver.internalBuffer ++ u) := by
  rw [h.fed.parse_first hb hs hf, h.first hf]

theorem Delivers.parse_eq_nil (h : Delivers e s a t cs)
    (hnone : s.driver.extractLast = true ∨ a.packets = []) :
    parse e t.driver.internalBuffer = [] := by
  refine h.fed.parse_eq_nil (hnone.imp_right fun h0 => ?_)
  rw [h.last] at h0
  simpa using h0

end IodriversBase
