import IodriversBase.Descriptors
import IodriversBase.Library.Lts
import IodriversBase.Packets
import IodriversBase.RawReading
import IodriversBase.Worlds
import IodriversBase.Writing

namespace IodriversBase

open Framing Loop

variable {ω Ω : Type}

/-- `Driver::getFileDescriptor`; `INVALID_FD` without a stream. -/
def getFileDescriptor (io : Ports ω) (w : ω) : ℤ :=
  match io.stream with
  | none => -1
  | some stream => stream.getFileDescriptor w

def readMode (rawMode : Bool) (E : Extract ω) (io : Ports ω) (fuel : ℕ) (d : Driver)
    (bufferSize : ℕ) (timeout : Time) (w : ω) : Option (Except Exn Bytes × Driver × ω) :=
  if rawMode then d.readRaw io fuel bufferSize timeout timeout 0 w
  else d.readPacket E io fuel bufferSize timeout timeout w

def forwardData (rawMode : Bool) (E : Extract ω) (ioFrom ioTo : Ports ω) (fuel bufferSize : ℕ)
    (timeout : Time) (source target : Driver) (w : ω) :
    Option (Except Exn ℕ × Driver × Driver × ω) :=
  match readMode rawMode E ioFrom fuel source bufferSize timeout w with
  | none => none
  | some (.error x, source, w) =>
    if x.IsTimeout then some (.ok 0, source, target, w) else some (.error x, source, target, w)
  | some (.ok data, source, w) =>
    if data.length ≠ 0 then
      match target.writePacket ioTo fuel data target.writeTimeout w with
      | none => none
      | some (.error x, target, w) => some (.error x, source, target, w)
      | some (.ok _, target, w) => some (.ok data.length, source, target, w)
    else some (.ok 0, source, target, w)

/-- The arguments of `forward`, apart from what changes, and `select`. -/
structure Forwarder (ω : Type) where
  rawMode : Bool
  extract1 : Extract ω
  extract2 : Extract ω
  io1 : Ports ω
  io2 : Ports ω
  timeout1 : Time
  timeout2 : Time
  bufferSize : ℕ
  select : (reads : List ℤ) → Timeval → ω → Except ℕ (List ℤ) × ω

/-- The loop of `forward`. -/
structure ForwardState (ω : Type) where
  driver1 : Driver
  driver2 : Driver
  world : ω

/-- The descriptors in the set are served. -/
def Forwarder.serve (f : Forwarder ω) (fuel : ℕ) (set1 set2 : Bool) (s : ForwardState ω) :
    Next (ForwardState ω) (Except Exn Unit × ForwardState ω) :=
  match (if set1 then forwardData f.rawMode f.extract1 f.io1 f.io2 fuel f.bufferSize f.timeout1
      s.driver1 s.driver2 s.world else some (.ok 0, s.driver1, s.driver2, s.world)) with
  | none => .lost
  | some (.error x, driver1, driver2, w) => .done (.error x, ⟨driver1, driver2, w⟩)
  | some (.ok _, driver1, driver2, w) =>
    -- the other direction is given the same timeout
    match (if set2 then forwardData f.rawMode f.extract2 f.io2 f.io1 fuel f.bufferSize f.timeout1
        driver2 driver1 w else some (.ok 0, driver2, driver1, w)) with
    | none => .lost
    | some (.error x, driver2, driver1, w) => .done (.error x, ⟨driver1, driver2, w⟩)
    | some (.ok _, driver2, driver1, w) => .again ⟨driver1, driver2, w⟩

/-- `driver1.eof() || driver2.eof()`. -/
def Forwarder.eof (f : Forwarder ω) (w : ω) : Except Exn Bool :=
  match IodriversBase.eof f.io1 w with
  | .ok false => IodriversBase.eof f.io2 w
  | r => r

def Forwarder.iteration (f : Forwarder ω) (fuel : ℕ) (fd1 fd2 : ℤ) (s : ForwardState ω) :
    Next (ForwardState ω) (Except Exn Unit × ForwardState ω) :=
  match f.eof s.world with
  | .error x => .done (.error x, s)
  | .ok true => .done (.ok (), s)
  | .ok false =>
    let r := f.select [fd1, fd2] ⟨10, 0⟩ s.world
    let s := { s with world := r.2 }
    match r.1 with
    | .error errno =>
      if errno ≠ EINTR then .done (.error (.unixError "forward(): error in select()" errno), s)
      -- a `select` that fails leaves both descriptors in the set
      else f.serve fuel true true s
    | .ok ready =>
      if ready = [] then .again s else f.serve fuel (fd1 ∈ ready) (fd2 ∈ ready) s

def forward (f : Forwarder ω) (fuel : ℕ) (driver1 driver2 : Driver) (w : ω) :
    Option (Except Exn Unit × ForwardState ω) :=
  run (f.iteration fuel (getFileDescriptor f.io1 w) (getFileDescriptor f.io2 w)) fuel
    ⟨driver1, driver2, w⟩

/-- The forwarder in a recorded world, its streams under the numbers 1 and 2. -/
def Forwarder.recorded (f : Forwarder ω) : Forwarder (Recorded ω) where
  rawMode := f.rawMode
  extract1 := f.extract1.recorded
  extract2 := f.extract2.recorded
  io1 := f.io1.recorded 1
  io2 := f.io2.recorded 2
  timeout1 := f.timeout1
  timeout2 := f.timeout2
  bufferSize := f.bufferSize
  select reads t w := ((f.select reads t w.world).1, ⟨(f.select reads t w.world).2, w.trace⟩)

/-- Forwarding between two drivers on one machine. -/
def Os.forwarder (os : Os Ω) (rawMode : Bool) (e1 e2 : Bytes → ℤ) (io1 io2 : Ports (Machine Ω))
    (timeout1 timeout2 : Time) (bufferSize : ℕ) : Forwarder (Machine Ω) where
  rawMode := rawMode
  extract1 := .pure e1
  extract2 := .pure e2
  io1 := io1
  io2 := io2
  timeout1 := timeout1
  timeout2 := timeout2
  bufferSize := bufferSize
  select reads t m :=
    let r := os.select reads [] t m.os
    (r.1.map Prod.fst, m.withOs r.2)

theorem readMode_keeps {R : ω → ω → Prop} {rawMode : Bool} {E : Extract ω} {io : Ports ω}
    {fuel bufferSize : ℕ} {timeout : Time} {d d' : Driver} {w w' : ω} {r} (hio : io.KeepsReading R)
    (hE : E.Keeps R) (h : readMode rawMode E io fuel d bufferSize timeout w = some (r, d', w')) :
    R w w' := by
  unfold readMode at h
  split_ifs at h
  · exact readRaw_keeps hio.hearing h
  · exact readPacket_keeps hio.hearing hE h

/-- A call of `forwardData` keeps what reading on one side and writing on the other keep. -/
theorem forwardData_sides {R : ω → ω → Prop} {rawMode : Bool} {E : Extract ω}
    {ioFrom ioTo : Ports ω} {fuel bufferSize : ℕ} {timeout : Time}
    {source target source' target' : Driver} {w w' : ω} {r}
    (hfrom : ioFrom.KeepsReading R) (hE : E.Keeps R) (hto : ioTo.KeepsWriting R)
    (h : forwardData rawMode E ioFrom ioTo fuel bufferSize timeout source target w =
      some (r, source', target', w')) : R w w' := by
  unfold forwardData at h
  rcases hread : readMode rawMode E ioFrom fuel source bufferSize timeout w
    with _ | ⟨x | data, d, w₁⟩ <;> rw [hread] at h <;> dsimp only at h
  · cases h
  · split_ifs at h <;> cases h <;> exact readMode_keeps hfrom hE hread
  · have hkept := readMode_keeps hfrom hE hread
    split_ifs at h
    · rcases hwrite : target.writePacket ioTo fuel data target.writeTimeout w₁
        with _ | ⟨x | done, d', w₂⟩ <;> rw [hwrite] at h <;> cases h
      · exact hto.trans hkept (writePacket_keeps hto hwrite)
      · exact hto.trans hkept (writePacket_keeps hto hwrite)
    · cases h
      exact hkept

variable {f : Forwarder ω} {fuel : ℕ} {s s' t : ForwardState ω}

def Forwarder.Pass1 (f : Forwarder ω) (fuel : ℕ) (s s' : ForwardState ω) : Prop :=
  s' = s ∨ ∃ size, forwardData f.rawMode f.extract1 f.io1 f.io2 fuel f.bufferSize f.timeout1
    s.driver1 s.driver2 s.world = some (.ok size, s'.driver1, s'.driver2, s'.world)

def Forwarder.Pass2 (f : Forwarder ω) (fuel : ℕ) (s s' : ForwardState ω) : Prop :=
  s' = s ∨ ∃ size, forwardData f.rawMode f.extract2 f.io2 f.io1 fuel f.bufferSize f.timeout1
    s.driver2 s.driver1 s.world = some (.ok size, s'.driver2, s'.driver1, s'.world)

/-- A descriptor is in the set after `select`, which leaves the set as it is when it fails. -/
def InSet (fd : ℤ) : Except ℕ (List ℤ) → Prop
  | .error _ => True
  | .ok ready => fd ∈ ready

theorem Forwarder.serve_again {set1 set2 : Bool} (h : f.serve fuel set1 set2 s = .again t) :
    ∃ s₁, f.Pass1 fuel s s₁ ∧ f.Pass2 fuel s₁ t ∧ (set1 = false → s₁ = s) ∧
      (set2 = false → t = s₁) := by
  unfold Forwarder.serve at h
  generalize hfirst : (if set1 then _ else _) = first at h
  rcases first with _ | ⟨x | size, d1, d2, w⟩ <;> dsimp only at h
  · cases h
  · cases h
  generalize hsecond : (if set2 then _ else _) = second at h
  rcases second with _ | ⟨x | size', d2', d1', w'⟩ <;> cases h
  refine ⟨⟨d1, d2, w⟩, ?_, ?_, ?_, ?_⟩
  · cases set1 with
    | true => exact .inr ⟨size, hfirst⟩
    | false =>
      cases hfirst
      exact .inl rfl
  · cases set2 with
    | true => exact .inr ⟨size', hsecond⟩
    | false =>
      cases hsecond
      exact .inl rfl
  · rintro rfl
    cases hfirst
    rfl
  · rintro rfl
    cases hsecond
    rfl

theorem Forwarder.iteration_again {fd1 fd2 : ℤ} (h : f.iteration fuel fd1 fd2 s = .again t) :
    f.eof s.world = .ok false ∧ ∃ s₁,
      f.Pass1 fuel { s with world := (f.select [fd1, fd2] ⟨10, 0⟩ s.world).2 } s₁ ∧
        f.Pass2 fuel s₁ t ∧
        (¬ InSet fd1 (f.select [fd1, fd2] ⟨10, 0⟩ s.world).1 →
          s₁ = { s with world := (f.select [fd1, fd2] ⟨10, 0⟩ s.world).2 }) ∧
        (¬ InSet fd2 (f.select [fd1, fd2] ⟨10, 0⟩ s.world).1 → t = s₁) := by
  unfold Forwarder.iteration at h
  rcases heof : f.eof s.world with x | _ | _ <;> rw [heof] at h
  · cases h
  · refine ⟨rfl, ?_⟩
    dsimp only at h
    generalize f.select [fd1, fd2] ⟨10, 0⟩ s.world = selected at h ⊢
    obtain ⟨errno | ready, w⟩ := selected <;> dsimp only at h
    · split_ifs at h
      obtain ⟨s₁, h₁, h₂, -⟩ := Forwarder.serve_again h
      exact ⟨s₁, h₁, h₂, fun hout => absurd trivial hout, fun hout => absurd trivial hout⟩
    · split_ifs at h
      · cases h
        exact ⟨_, .inl rfl, .inl rfl, fun _ => rfl, fun _ => rfl⟩
      · obtain ⟨s₁, h₁, h₂, hout1, hout2⟩ := Forwarder.serve_again h
        exact ⟨s₁, h₁, h₂, fun hout => hout1 (decide_eq_false hout),
          fun hout => hout2 (decide_eq_false hout)⟩
  · cases h

theorem Forwarder.iteration_returns {fd1 fd2 : ℤ} {r}
    (h : f.iteration fuel fd1 fd2 s = .done (.ok (), r)) : f.eof s.world = .ok true ∧ r = s := by
  have hserve : ∀ {set1 set2 : Bool} {s : ForwardState ω},
      f.serve fuel set1 set2 s ≠ .done (.ok (), r) := by
    intro set1 set2 s h
    unfold Forwarder.serve at h
    generalize (if set1 then _ else _) = first at h
    rcases first with _ | ⟨x | size, d1, d2, w⟩ <;> dsimp only at h
    · cases h
    · cases h
    generalize (if set2 then _ else _) = second at h
    rcases second with _ | ⟨x | size', d2', d1', w'⟩ <;> cases h
  unfold Forwarder.iteration at h
  rcases heof : f.eof s.world with x | _ | _ <;> rw [heof] at h
  · cases h
  · dsimp only at h
    generalize f.select [fd1, fd2] ⟨10, 0⟩ s.world = selected at h
    obtain ⟨errno | ready, w⟩ := selected <;> dsimp only at h
    · split_ifs at h
      · cases h
      · exact absurd h hserve
    · split_ifs at h
      exact absurd h hserve
  · cases h
    exact ⟨rfl, rfl⟩

/-- Between two worlds, reads of stream `j` returned `cs`, stream `k` accepted `out`, and nothing
else was read or written. -/
def Transfers (j k : ℕ) (w w' : Recorded ω) (cs : List Bytes) (out : Bytes) : Prop :=
  ∃ t, w'.trace = w.trace ++ t ∧ (∀ i, chunks i t = if i = j then cs else []) ∧
    ∀ i, written i t = if i = k then out else []

variable {j k : ℕ} {w w' w'' : Recorded ω} {cs : List Bytes} {data : Bytes}

theorem Transfers.of_adds (k : ℕ) (h : Adds j w w' cs) : Transfers j k w w' cs [] := by
  obtain ⟨new, hnew, hof, rfl⟩ := h
  refine ⟨new, hnew, fun i => ?_, fun i => by simp [written_of_reading hof]⟩
  by_cases hi : i = j
  · rw [if_pos hi, hi]
  · rw [if_neg hi, chunks_of_reading hof hi]

theorem Transfers.then_accepts (h : Transfers j k w w' cs []) (h' : Accepts k w' w'' data) :
    Transfers j k w w'' cs data := by
  obtain ⟨t, ht, hchunks, hwritten⟩ := h
  obtain ⟨t', ht', hof, rfl⟩ := h'
  refine ⟨t ++ t', by rw [ht', ht, List.append_assoc], fun i => ?_, fun i => ?_⟩
  · rw [chunks_append, hchunks, chunks_of_writing hof, List.append_nil]
  · rw [written_append, hwritten]
    by_cases hi : i = k
    · simp [hi]
    · simp [hi, written_of_writing hof hi]

theorem Transfers.received (h : Transfers j k w w' cs data) (i : ℕ) :
    received i w'.trace = received i w.trace ++ if i = j then cs.flatten else [] := by
  obtain ⟨t, ht, hchunks, _⟩ := h
  rw [ht, received_append]
  congr 1
  rw [IodriversBase.received, hchunks]
  split_ifs <;> rfl

theorem Transfers.written (h : Transfers j k w w' cs data) (i : ℕ) :
    written i w'.trace = written i w.trace ++ if i = k then data else [] := by
  obtain ⟨t, ht, _, hwritten⟩ := h
  rw [ht, written_append, hwritten]

variable {E : Extract ω} {e : Bytes → ℤ} {ioFrom ioTo : Ports ω} {source target : Driver}
  {bufferSize size : ℕ} {timeout : Time} {source' target' : Driver}

/-- A call of `forwardData` that returns: its read gave something, which has been written, or it
gave nothing, perhaps by a timeout. -/
theorem forwardData_cases {rawMode : Bool} (hto : ioTo.stream ≠ none)
    (h : forwardData rawMode E.recorded (ioFrom.recorded j) (ioTo.recorded k) fuel bufferSize
      timeout source target w = some (.ok size, source', target', w')) :
    ∃ r w₁, readMode rawMode E.recorded (ioFrom.recorded j) fuel source bufferSize timeout w =
        some (r, source', w₁) ∧
      (∃ stats, target' = target.withStats stats) ∧
      ((∃ x, r = .error x ∧ x.IsTimeout ∧ w' = w₁) ∨
        ∃ data, r = .ok data ∧ Accepts k w₁ w' data) := by
  obtain ⟨stream, hstream⟩ := Option.ne_none_iff_exists'.mp hto
  unfold forwardData at h
  rcases hread : readMode rawMode E.recorded (ioFrom.recorded j) fuel source bufferSize timeout w
    with _ | ⟨x | data, d, w₁⟩ <;> rw [hread] at h <;> dsimp only at h
  · cases h
  · split_ifs at h with hx <;> cases h
    exact ⟨_, _, rfl, ⟨target.stats, rfl⟩, .inl ⟨x, rfl, hx, rfl⟩⟩
  · split_ifs at h with hdata
    · rcases hwrite : target.writePacket (ioTo.recorded k) fuel data target.writeTimeout w₁
        with _ | ⟨x | done, d', w₂⟩ <;> rw [hwrite] at h <;> cases h
      obtain ⟨n, hend⟩ := writePacket_end hstream hwrite
      obtain ⟨_, rfl⟩ | ⟨x, hx, _⟩ := hend.result
      · have haccepts := hend.accepts
        rw [List.take_length] at haccepts
        exact ⟨_, _, rfl, hend.driver, .inr ⟨data, rfl, haccepts⟩⟩
      · cases hx
    · cases h
      have hnil : data = [] := by simpa using hdata
      exact ⟨_, _, rfl, ⟨target.stats, rfl⟩, .inr ⟨data, rfl, hnil ▸ .refl k w'⟩⟩

/-- In packet mode the driver is fed what was read, and the packet found, if any, is written.  A
read without data comes last, and only when there was no packet. -/
theorem forwardData_packet (hb : InBounds e) (hE : E.Answers e)
    (hfirst : source.extractLast = false) (hfrom : ioFrom.stream ≠ none) (hto : ioTo.stream ≠ none)
    (h : forwardData false E.recorded (ioFrom.recorded j) (ioTo.recorded k) fuel bufferSize timeout
      source target w = some (.ok size, source', target', w')) :
    ∃ cs, Fed e source cs source' ∧ (∃ stats, target' = target.withStats stats) ∧
      (Transfers j k w w' cs (source.finds e cs).flatten ∨
        source.finds e cs = [] ∧ Transfers j k w w' (cs ++ [[]]) []) := by
  obtain ⟨stream, hstream⟩ := Option.ne_none_iff_exists'.mp hfrom
  obtain ⟨r, w₁, hread, htarget, hr⟩ := forwardData_cases hto h
  have hread : source.readPacket E.recorded (ioFrom.recorded j) fuel bufferSize timeout timeout w =
      some (r, source', w₁) := hread
  by_cases hsize : bufferSize < source.maxPacketSize
  · rw [Driver.readPacket, if_pos hsize] at hread
    cases hread
    obtain ⟨x, hx, htimeout, _⟩ | ⟨data, hdata, _⟩ := hr
    · cases hx
      exact absurd htimeout id
    · cases hdata
  have hend := readPacket_end hb hE hstream (by omega) hread
  obtain ⟨x, rfl, hx, rfl⟩ | ⟨data, rfl, haccepts⟩ := hr
  · cases hend with
    | timeout hfed hnone hadds _ =>
      exact ⟨_, hfed, htarget, .inr ⟨hnone, .of_adds k hadds⟩⟩
    | full => exact absurd hx id
    | threw hfed hnone hadds _ =>
      refine ⟨_, hfed, htarget, ?_⟩
      rw [hnone hfirst]
      exact hadds.imp (.of_adds k) fun hadds => ⟨rfl, .of_adds k hadds⟩
  · cases hend with
    | packet hfed _ _ hfinds hadds =>
      rw [if_neg (by simp [hfirst])] at hadds
      refine ⟨_, hfed, htarget, .inl ?_⟩
      rw [hfinds hfirst, List.flatten_singleton]
      exact (Transfers.of_adds k hadds).then_accepts haccepts

end IodriversBase
