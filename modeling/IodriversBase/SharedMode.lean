import IodriversBase.Announcements

namespace IodriversBase

variable {ω : Type}

/-- A bus, its parsers under their addresses, and the addresses of the parsers that exist. -/
structure SharedBus (ω : Type) where
  driver : Driver
  parser : List (ℕ × Parser ω)
  caller : Option (ℕ × Parser ω)
  alive : List ℕ
  world : ω

def SharedBus.bus (s : SharedBus ω) : Bus ω :=
  ⟨s.driver, s.parser.map Prod.snd, s.caller.map Prod.snd⟩

/-- A new bus, without parsers. -/
def SharedBus.start (maxPacketSize : ℕ) (extractLast : Bool) (w : ω) : SharedBus ω :=
  ⟨.new maxPacketSize extractLast, [], none, [], w⟩

/-- The calls on a bus, for all parsers or for one of them, and the life of the parsers. -/
inductive SharedOp (ω : Type)
  | construct (p : ℕ × Parser ω)
  | addParser (p : ℕ × Parser ω)
  | removeParser (address : ℕ)
  | destroy (p : ℕ × Parser ω)
  | readPacket (bufferSize : ℕ) (packetTimeout firstByteTimeout : ℤ)
      (parser : Option (ℕ × Parser ω))
  | driverReadPacket (bufferSize : ℕ) (packetTimeout firstByteTimeout : Time)
  | hasPacket

def SharedBus.addParser (s : SharedBus ω) (p : ℕ × Parser ω) : SharedBus ω :=
  { s with parser := s.parser ++ [p] }

def SharedBus.removeParser (s : SharedBus ω) (address : ℕ) : SharedBus ω :=
  { s with parser := s.parser.filter fun p => p.1 ≠ address }

/-- The destructor of a parser; a `BusHandler` takes itself off the bus. -/
def SharedBus.destroy (s : SharedBus ω) (p : ℕ × Parser ω) : SharedBus ω :=
  let s := if p.2.packedReady.isSome then s.removeParser p.1 else s
  { s with alive := s.alive.filter (· ≠ p.1) }

/-- The bus after a call of `Bus::readPacket` for `parser`. -/
def SharedBus.after (s : SharedBus ω) (parser : Option (ℕ × Parser ω)) (bus : Bus ω) (w : ω) :
    SharedBus ω :=
  { s with driver := bus.driver, caller := bus.caller.bind fun _ => parser, world := w }

/-- One call; `none` when it does not come back within its fuel. -/
def SharedBus.perform (io : Ports ω) (fuel : ℕ) (s : SharedBus ω) :
    SharedOp ω → Option (Answer × SharedBus ω)
  | .construct p => some (.done, { s with alive := s.alive ++ [p.1] })
  | .addParser p => some (.done, s.addParser p)
  | .removeParser address => some (.done, s.removeParser address)
  | .destroy p => some (.done, s.destroy p)
  | .readPacket n packetTimeout firstByteTimeout parser =>
    match s.bus.readPacket io fuel n packetTimeout firstByteTimeout (parser.map Prod.snd)
        s.world with
    | none => none
    | some (.ok p, bus, w) => some (.packet p, s.after parser bus w)
    | some (.error x, bus, w) => some (.threw x, s.after parser bus w)
  | .driverReadPacket n packetTimeout firstByteTimeout =>
    match s.driver.readPacket s.bus.extractPacket io fuel n packetTimeout firstByteTimeout
        s.world with
    | none => none
    | some (.ok p, d, w) => some (.packet p, { s with driver := d, world := w })
    | some (.error x, d, w) => some (.threw x, { s with driver := d, world := w })
  | .hasPacket =>
    match s.bus.hasPacket s.world with
    | none => none
    | some (.ok b, bus, w) => some (.flag b, { s with driver := bus.driver, world := w })
    | some (.error x, bus, w) => some (.threw x, { s with driver := bus.driver, world := w })

/-- A call that comes back, with its answer. -/
def SharedBus.Step (io : Ports ω) (s : SharedBus ω) (call : SharedOp ω × Answer)
    (t : SharedBus ω) : Prop :=
  ∃ fuel, s.perform io fuel call.1 = some (call.2, t)

/-- The bus asks all parsers, and only those. -/
structure SharedBus.Shared (s : SharedBus ω) : Prop where
  caller : s.caller = none
  asks : ∀ b w, s.bus.extractPacket b w =
    (s.parser.map Prod.snd).foldl (Bus.consult b) ((b.length : ℤ), w)

def SharedOp.IsRead : SharedOp ω → Bool
  | .readPacket .. => true
  | _ => false

/-- A call of `Bus::readPacket` for one parser that returns a packet. -/
def Dedicated : SharedOp ω × Answer → Prop
  | (.readPacket _ _ _ (some _), .packet _) => True
  | _ => False

/-- The last call of `Bus::readPacket`. -/
def lastRead (calls : List (SharedOp ω × Answer)) : Option (SharedOp ω × Answer) :=
  (calls.filter fun call => call.1.IsRead).getLast?

variable {io : Ports ω} {s t : SharedBus ω} {op : SharedOp ω} {a : Answer}

theorem SharedBus.shared_iff : s.Shared ↔ s.caller = none := by
  constructor
  · exact fun h => h.caller
  · intro h
    refine ⟨h, fun b w => ?_⟩
    simp only [Bus.extractPacket, SharedBus.bus, h, Option.map_none]

theorem Bus.readPacket_caller {fuel n : ℕ} {packetTimeout firstByteTimeout : ℤ}
    {parser : Option (Parser ω)} {bus bus' : Bus ω} {w w' : ω} {r}
    (h : bus.readPacket io fuel n packetTimeout firstByteTimeout parser w = some (r, bus', w')) :
    bus'.caller = if r.toOption.isSome then parser else none := by
  simp only [Bus.readPacket] at h
  generalize Driver.readPacketMilliseconds _ _ _ _ _ _ _ w = result at h
  rcases result with _ | ⟨x | p, d, w₁⟩ <;> cases h <;> rfl

theorem SharedBus.Step.caller (h : s.Step io (op, a) t) (hop : op.IsRead = false) :
    t.caller = s.caller := by
  obtain ⟨fuel, h⟩ := h
  cases op with
  | readPacket => cases hop
  | destroy p =>
    cases h
    simp only [SharedBus.destroy]
    split_ifs <;> rfl
  | driverReadPacket n packetTimeout firstByteTimeout =>
    simp only [SharedBus.perform] at h
    generalize Driver.readPacket _ io fuel _ n packetTimeout firstByteTimeout s.world = r at h
    rcases r with _ | ⟨x | p, d, w⟩ <;> cases h <;> rfl
  | hasPacket =>
    simp only [SharedBus.perform] at h
    generalize s.bus.hasPacket s.world = r at h
    rcases r with _ | ⟨x | b, bus, w⟩ <;> cases h <;> rfl
  | _ =>
    cases h
    rfl

/-- A call of `Bus::readPacket` resets the caller, unless it is for one parser and returns. -/
theorem SharedBus.Step.caller_of_read (h : s.Step io (op, a) t) (hop : op.IsRead = true) :
    t.caller = none ↔ ¬ Dedicated (op, a) := by
  obtain ⟨fuel, h⟩ := h
  cases op with
  | readPacket n packetTimeout firstByteTimeout parser =>
    simp only [SharedBus.perform] at h
    rcases hread : s.bus.readPacket io fuel n packetTimeout firstByteTimeout
      (parser.map Prod.snd) s.world with _ | ⟨x | p, bus, w⟩ <;> rw [hread] at h <;> cases h
    all_goals
      have hcaller := Bus.readPacket_caller hread
      cases parser <;> simp [SharedBus.after, hcaller, Dedicated, Except.toOption]
  | _ => cases hop

theorem lastRead_append (calls : List (SharedOp ω × Answer)) (call : SharedOp ω × Answer) :
    lastRead (calls ++ [call]) = if call.1.IsRead then some call else lastRead calls := by
  by_cases hread : call.1.IsRead = true
  · simp [lastRead, List.filter_append, hread]
  · simp [lastRead, List.filter_append, hread]

/-- **The bus is in shared mode** between two calls exactly when the last call of `Bus::readPacket`
was for all parsers, or threw. -/
theorem bus_shared_iff {maxPacketSize : ℕ} {extractLast : Bool} {w : ω}
    {calls : List (SharedOp ω × Answer)}
    (h : Lts.Run (SharedBus.Step io) (.start maxPacketSize extractLast w) calls t) :
    t.Shared ↔ ∀ call ∈ lastRead calls, ¬ Dedicated call := by
  have hhistory := h.history
    (I := fun calls t => t.caller = none ↔ ∀ call ∈ lastRead calls, ¬ Dedicated call)
    (fun calls s call t ih hstep => by
      rw [lastRead_append]
      by_cases hread : call.1.IsRead = true
      · rw [if_pos hread, hstep.caller_of_read hread]
        simp
      · rw [if_neg hread, hstep.caller (by simpa using hread)]
        exact ih)
    [] (by simp [SharedBus.start, lastRead])
  rw [SharedBus.shared_iff]
  exact hhistory

def testParser : ℕ × Parser Script := (7, ⟨driverTestExtractPacket, none⟩)

theorem sharedBus_perform_step (io : Ports ω) (fuel : ℕ) (s : SharedBus ω) (op : SharedOp ω)
    (a : Answer) (t : SharedBus ω) (h : s.perform io fuel op = some (a, t)) :
    s.Step io (op, a) t := ⟨fuel, h⟩

/-- A call for one parser that times out. -/
theorem bus_shared_iff_sample : ∃ calls t,
    Lts.Run (SharedBus.Step Script.ports) (.start 100 false [[0, 1]]) calls t ∧
    t.driver.internalBuffer = [0, 1] ∧ t.Shared := by
  obtain ⟨calls, t, hrun, -, hbuffer, hlast⟩ := Lts.exists_run
    (sharedBus_perform_step Script.ports 5) (.start 100 false [[0, 1]])
    [.construct testParser, .readPacket 100 0 0 (some testParser), .destroy testParser]
    (fun calls t => t.driver.internalBuffer = [0, 1] ∧
      (lastRead calls).map Prod.snd = some (.threw (.timeoutError .firstByte
        "readPacket(): no data to read while a packet_timeout of 0 was given")))
    (by decide +kernel)
  refine ⟨calls, t, hrun, hbuffer, (bus_shared_iff hrun).mpr ?_⟩
  rintro ⟨op, a⟩ hcall
  rw [Option.mem_def.mp hcall] at hlast
  cases hlast
  cases op with
  | readPacket n packetTimeout firstByteTimeout parser => cases parser <;> exact not_false
  | _ => exact not_false

/-- The parser of a call that has returned is destroyed, and `hasPacket` goes by it. -/
theorem bus_asks_destroyed : ∃ calls t,
    Lts.Run (SharedBus.Step Script.ports) (.start 100 false [[0, 1, 2, 0, 9]]) calls t ∧
    calls.map Prod.snd = [.done, .packet [0, 1, 2, 0], .done] ∧
    t.caller.map Prod.fst = some 7 ∧ t.alive = [] ∧ t.parser.map Prod.fst = [] ∧ ¬ t.Shared := by
  obtain ⟨calls, t, hrun, -, hanswers, hcaller, halive, hparser⟩ := Lts.exists_run
    (sharedBus_perform_step Script.ports 5) (.start 100 false [[0, 1, 2, 0, 9]])
    [.construct testParser, .readPacket 100 0 0 (some testParser), .destroy testParser]
    (fun calls t => calls.map Prod.snd = [.done, .packet [0, 1, 2, 0], .done] ∧
      t.caller.map Prod.fst = some 7 ∧ t.alive = [] ∧ t.parser.map Prod.fst = [])
    (by decide +kernel)
  refine ⟨calls, t, hrun, hanswers, hcaller, halive, hparser, fun hshared => ?_⟩
  rw [hshared.caller] at hcaller
  cases hcaller

end IodriversBase
