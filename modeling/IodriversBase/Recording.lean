import IodriversBase.Stream

namespace IodriversBase

variable {ω : Type}

/-- What the program exchanges with its surroundings. -/
inductive Event
  | now (time : Time)
  | read (stream bufferSize : ℕ) (answer : Except Exn Bytes)
  | write (stream : ℕ) (data : Bytes) (answer : Except Exn ℕ)
  | waitRead (stream : ℕ) (timeout : Time) (answer : Except Exn Bool)
  | waitWrite (stream : ℕ) (timeout : Time) (answer : Except Exn Bool)
  | readData (listener : ℕ) (data : Bytes)
  | writeData (listener : ℕ) (data : Bytes)

/-- A world together with the events so far. -/
structure Recorded (ω : Type) where
  world : ω
  trace : List Event

/-- The stream `st`, its calls recorded under the number `k`. -/
def IOStream.recorded (k : ℕ) (st : IOStream ω) : IOStream (Recorded ω) where
  waitRead t w :=
    ((st.waitRead t w.world).1,
      ⟨(st.waitRead t w.world).2, w.trace ++ [.waitRead k t (st.waitRead t w.world).1]⟩)
  waitWrite t w :=
    ((st.waitWrite t w.world).1,
      ⟨(st.waitWrite t w.world).2, w.trace ++ [.waitWrite k t (st.waitWrite t w.world).1]⟩)
  read n w :=
    ((st.read n w.world).1,
      ⟨(st.read n w.world).2,
        w.trace ++ [.read k n ((st.read n w.world).1.map Subtype.val)]⟩)
  write data w :=
    ((st.write data w.world).1,
      ⟨(st.write data w.world).2,
        w.trace ++ [.write k data ((st.write data w.world).1.map Subtype.val)]⟩)
  clear w := ⟨st.clear w.world, w.trace⟩
  eof w := st.eof w.world
  getFileDescriptor w := st.getFileDescriptor w.world
  delete w := ⟨st.delete w.world, w.trace⟩

def IOListener.recorded (k : ℕ) (l : IOListener ω) : IOListener (Recorded ω) where
  writeData data w := ⟨l.writeData data w.world, w.trace ++ [.writeData k data]⟩
  readData data w := ⟨l.readData data w.world, w.trace ++ [.readData k data]⟩

/-- The ports of a driver whose stream has the number `k`, everything recorded. -/
def Ports.recorded (k : ℕ) (io : Ports ω) : Ports (Recorded ω) where
  now w := ((io.now w.world).1, ⟨(io.now w.world).2, w.trace ++ [.now (io.now w.world).1]⟩)
  stream := io.stream.map (IOStream.recorded k)
  listeners := io.listeners.map fun l => (l.1, l.2.recorded l.1)

theorem Ports.recorded_opened {io : Ports ω} {stream : IOStream ω} (k : ℕ)
    (h : io.stream = some stream) : (io.recorded k).stream = some (stream.recorded k) := by
  rw [Ports.recorded, h]
  rfl

theorem Ports.recorded_closed {io : Ports ω} (k : ℕ) (h : io.stream = none) :
    (io.recorded k).stream = none := by
  rw [Ports.recorded, h]
  rfl

theorem Ports.recorded_notifyRead_rule {io : Ports ω} {k : ℕ} {data : Bytes}
    {P : Recorded ω → Prop}
    (h : ∀ (l : ℕ) (w w' : Recorded ω), w'.trace = w.trace ++ [.readData l data] → P w → P w')
    {w : Recorded ω} (hw : P w) : P ((io.recorded k).notifyRead data w) := by
  refine Ports.notifyRead_rule ?_ hw
  intro l hl w hw
  obtain ⟨l, -, rfl⟩ := List.mem_map.mp hl
  exact h l.1 w _ rfl hw

theorem Ports.recorded_notifyWrite_rule {io : Ports ω} {k : ℕ} {data : Bytes}
    {P : Recorded ω → Prop}
    (h : ∀ (l : ℕ) (w w' : Recorded ω), w'.trace = w.trace ++ [.writeData l data] → P w → P w')
    {w : Recorded ω} (hw : P w) : P ((io.recorded k).notifyWrite data w) := by
  refine Ports.notifyWrite_rule ?_ hw
  intro l hl w hw
  obtain ⟨l, -, rfl⟩ := List.mem_map.mp hl
  exact h l.1 w _ rfl hw

def Event.chunk (k : ℕ) : Event → Option Bytes
  | .read j _ (.ok data) => if j = k then some data else none
  | _ => none

def Event.accepted (k : ℕ) : Event → Bytes
  | .write j data (.ok n) => if j = k then data.take n else []
  | _ => []

/-- A stream operation that threw `x`. -/
def Event.Throws (x : Exn) : Event → Prop
  | .read _ _ (.error y) | .write _ _ (.error y) => y = x
  | .waitRead _ _ (.error y) | .waitWrite _ _ (.error y) => y = x
  | _ => False

def Event.Threw : Event → Prop
  | .read _ _ (.error _) | .write _ _ (.error _) => True
  | .waitRead _ _ (.error _) | .waitWrite _ _ (.error _) => True
  | _ => False

instance (ev : Event) : Decidable ev.Threw := by
  rcases ev with _ | ⟨_, _, _ | _⟩ | ⟨_, _, _ | _⟩ | ⟨_, _, _ | _⟩ | ⟨_, _, _ | _⟩ | _ | _ <;>
    unfold Event.Threw <;> infer_instance

theorem Event.Throws.threw {x : Exn} {ev : Event} (h : ev.Throws x) : ev.Threw := by
  rcases ev with _ | ⟨_, _, _ | _⟩ | ⟨_, _, _ | _⟩ | ⟨_, _, _ | _⟩ | ⟨_, _, _ | _⟩ | _ | _ <;>
    trivial

/-- No stream operation has thrown. -/
def Quiet (trace : List Event) : Prop := ∀ ev ∈ trace, ¬ ev.Threw

instance (trace : List Event) : Decidable (Quiet trace) :=
  inferInstanceAs (Decidable (∀ ev ∈ trace, ¬ ev.Threw))

@[simp] theorem quiet_nil : Quiet [] := by simp [Quiet]

theorem quiet_append {t t' : List Event} : Quiet (t ++ t') ↔ Quiet t ∧ Quiet t' := by
  simp [Quiet, or_imp, forall_and]

theorem quiet_singleton {ev : Event} : Quiet [ev] ↔ ¬ ev.Threw := by simp [Quiet]

/-- What the successive reads of stream `k` returned; empty where there was no data. -/
def chunks (k : ℕ) (trace : List Event) : List Bytes := trace.filterMap (Event.chunk k)

/-- The bytes read from stream `k`. -/
def received (k : ℕ) (trace : List Event) : Bytes := (chunks k trace).flatten

/-- The bytes stream `k` accepted. -/
def written (k : ℕ) (trace : List Event) : Bytes := trace.flatMap (Event.accepted k)

@[simp] theorem chunks_nil (k : ℕ) : chunks k [] = [] := rfl
@[simp] theorem received_nil (k : ℕ) : received k [] = [] := rfl
@[simp] theorem written_nil (k : ℕ) : written k [] = [] := rfl

@[simp] theorem chunks_append (k : ℕ) (t t' : List Event) :
    chunks k (t ++ t') = chunks k t ++ chunks k t' := by simp [chunks]

@[simp] theorem received_append (k : ℕ) (t t' : List Event) :
    received k (t ++ t') = received k t ++ received k t' := by simp [received]

@[simp] theorem written_append (k : ℕ) (t t' : List Event) :
    written k (t ++ t') = written k t ++ written k t' := by simp [written]

def Event.OfReading (k : ℕ) : Event → Prop
  | .now _ | .readData _ _ => True
  | .read j _ _ | .waitRead j _ _ => j = k
  | _ => False

theorem written_of_reading {k : ℕ} {t : List Event} (h : ∀ ev ∈ t, ev.OfReading k) (j : ℕ) :
    written j t = [] := by
  rw [written, List.flatMap_eq_nil_iff]
  intro ev hev
  have := h ev hev
  cases ev <;> first | rfl | exact absurd this id

theorem chunks_of_reading {k : ℕ} {t : List Event} (h : ∀ ev ∈ t, ev.OfReading k) {j : ℕ}
    (hj : j ≠ k) : chunks j t = [] := by
  rw [chunks, List.filterMap_eq_nil_iff]
  intro ev hev
  have := h ev hev
  rcases ev with _ | ⟨i, n, _ | data⟩ | _ | _ | _ | _ | _ <;> try rfl
  simp only [Event.OfReading] at this
  simp [Event.chunk, this, hj.symm]

/-- Between two worlds, reads of stream `k` returned `cs`, and nothing else of interest
happened. -/
def Adds (k : ℕ) (w w' : Recorded ω) (cs : List Bytes) : Prop :=
  ∃ t, w'.trace = w.trace ++ t ∧ (∀ ev ∈ t, ev.OfReading k) ∧ chunks k t = cs

variable {k : ℕ} {w w' w'' : Recorded ω} {cs cs' : List Bytes}

theorem Adds.refl (k : ℕ) (w : Recorded ω) : Adds k w w [] := ⟨[], by simp, by simp, rfl⟩

theorem Adds.trans (h : Adds k w w' cs) (h' : Adds k w' w'' cs') : Adds k w w'' (cs ++ cs') := by
  obtain ⟨t, ht, hof, hcs⟩ := h
  obtain ⟨t', ht', hof', hcs'⟩ := h'
  refine ⟨t ++ t', by rw [ht', ht, List.append_assoc], ?_, by rw [chunks_append, hcs, hcs']⟩
  intro ev hev
  exact (List.mem_append.mp hev).elim (hof ev) (hof' ev)

theorem Adds.of_trace (h : w'.trace = w.trace) : Adds k w w' [] :=
  ⟨[], by simp [h], by simp, rfl⟩

theorem Adds.of_event {ev : Event} (h : w'.trace = w.trace ++ [ev]) (hof : ev.OfReading k)
    (hchunk : ev.chunk k = none) : Adds k w w' [] :=
  ⟨[ev], h, by simpa using hof, by simp [chunks, hchunk]⟩

theorem adds_read {st : IOStream ω} {n : ℕ} {c} (h : (st.recorded k).read n w = (.ok c, w')) :
    Adds k w w' [c.val] := by
  obtain ⟨hr, rfl⟩ := Prod.mk.inj h
  refine ⟨_, rfl, by simp [Event.OfReading], ?_⟩
  simp [chunks, Event.chunk, hr, Except.map]

theorem adds_read_threw {st : IOStream ω} {n : ℕ} {x : Exn}
    (h : (st.recorded k).read n w = (.error x, w')) :
    Adds k w w' [] ∧ ∃ ev ∈ w'.trace, ev.Throws x := by
  obtain ⟨hr, rfl⟩ := Prod.mk.inj h
  refine ⟨.of_event rfl rfl (by simp [hr, Except.map, Event.chunk]), _, by simp; right; rfl, ?_⟩
  simp [hr, Except.map, Event.Throws]

theorem adds_waitRead {st : IOStream ω} {t : Time} {r}
    (h : (st.recorded k).waitRead t w = (r, w')) :
    Adds k w w' [] ∧ ∀ x, r = .error x → ∃ ev ∈ w'.trace, ev.Throws x := by
  obtain ⟨hr, rfl⟩ := Prod.mk.inj h
  refine ⟨.of_event rfl rfl rfl, ?_⟩
  rintro x rfl
  exact ⟨_, by simp; right; rfl, by simp [hr, Event.Throws]⟩

theorem adds_now (io : Ports ω) (w : Recorded ω) : Adds k w ((io.recorded k).now w).2 [] :=
  .of_event rfl trivial rfl

theorem adds_notifyRead (io : Ports ω) (data : Bytes) (w : Recorded ω) :
    Adds k w ((io.recorded k).notifyRead data w) [] := by
  refine Ports.recorded_notifyRead_rule (P := fun w' : Recorded ω => Adds k w w' []) ?_ (.refl k w)
  intro l w' w'' htrace h
  have hl : Adds k w' w'' [] := .of_event htrace trivial rfl
  exact h.trans hl

end IodriversBase
