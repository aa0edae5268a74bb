import IodriversBase.Deadlines
import IodriversBase.RawReading

namespace IodriversBase

open Loop

variable {ω : Type}

/-- A call of `readRaw` on an open driver. -/
structure RawCall (ω : Type) where
  io : Ports ω
  stream : IOStream ω
  opened : io.stream = some stream
  number : ℕ
  driver : Driver
  outBufferSize : ℕ
  packetTimeout : Time
  firstByteTimeout : Time
  interByteTimeout : Time
  world : Recorded ω

def RawCall.result (c : RawCall ω) (fuel : ℕ) :
    Option (Except Exn Bytes × Driver × Recorded ω) :=
  c.driver.readRaw (c.io.recorded c.number) fuel c.outBufferSize c.packetTimeout
    c.firstByteTimeout c.interByteTimeout c.world

/-- The reading of the clock when the call begins. -/
def RawCall.start (c : RawCall ω) : Time := (c.io.now c.world.world).1

/-- `inter_byte_timeout` as the loop uses it. -/
def RawCall.interByte (c : RawCall ω) : Time :=
  if c.interByteTimeout = 0 then c.packetTimeout else c.interByteTimeout

def RawCall.bufferFill (c : RawCall ω) : ℕ := min c.driver.internalBuffer.length c.outBufferSize

def RawCall.body (c : RawCall ω) :
    RawState (Recorded ω) → Next (RawState (Recorded ω)) (Except Exn Bytes × Recorded ω) :=
  rawIteration (c.io.recorded c.number) (c.stream.recorded c.number) c.outBufferSize
    c.packetTimeout c.interByte

def RawCall.entry (c : RawCall ω) : RawState (Recorded ω) where
  world := ((c.io.recorded c.number).now c.world).2
  buffer := c.driver.internalBuffer.take c.bufferFill
  now := c.start
  lastChar := c.start + c.packetTimeout
  globalDeadline := c.start + min c.packetTimeout c.firstByteTimeout
  receivedBytes := false

theorem RawCall.result_eq (c : RawCall ω) (fuel : ℕ) : c.result fuel =
    (run c.body fuel c.entry).map fun b => (b.1, c.driver.dropFront c.bufferFill, b.2) := by
  have hstream := Ports.recorded_opened c.number c.opened
  simp only [RawCall.result, Driver.readRaw, hstream]
  rw [Driver.pullBytesFromInternal_front (Nat.min_le_left _ _)]
  dsimp only
  generalize hrun : run _ fuel _ = b
  rw [show run c.body fuel c.entry = b from hrun]
  cases b <;> rfl

/-- What a call has recorded whenever it comes to the head of its loop, and when it comes back. -/
inductive RawCall.Trace (c : RawCall ω) : List Event → Prop
  | head {s new} : Relation.ReflTransGen (Loop.Step c.body) c.entry s →
      s.world.trace = c.world.trace ++ new → c.Trace new
  | back {fuel r d' w' new} : c.result fuel = some (r, d', w') →
      w'.trace = c.world.trace ++ new → c.Trace new

/-- The reads that have returned, with their numbers of bytes and the readings of the clock after
them. -/
def visits : List Event → List (ℕ × Time)
  | .read _ _ (.ok data) :: .now time :: trace => (data.length, time) :: visits trace
  | _ :: trace => visits trace
  | [] => []

def arrivalTimes (vs : List (ℕ × Time)) : List Time := (vs.filter fun v => 0 < v.1).map Prod.snd

@[simp] theorem arrivalTimes_nil : arrivalTimes [] = [] := rfl

theorem arrivalTimes_append (vs vs' : List (ℕ × Time)) :
    arrivalTimes (vs ++ vs') = arrivalTimes vs ++ arrivalTimes vs' := by simp [arrivalTimes]

@[simp] theorem arrivalTimes_empty (t : Time) : arrivalTimes [(0, t)] = [] := rfl

theorem arrivalTimes_bytes {n : ℕ} (hn : 0 < n) (t : Time) : arrivalTimes [(n, t)] = [t] := by
  simp [arrivalTimes, hn]

theorem mem_getLast?_arrivalTimes {n : ℕ} (hn : 0 < n) (vs : List (ℕ × Time)) (t : Time) :
    t ∈ (arrivalTimes (vs ++ [(n, t)])).getLast? := by
  rw [arrivalTimes_append, arrivalTimes_bytes hn, List.getLast?_concat]
  rfl

theorem visits_append_waitRead (trace : List Event) (k : ℕ) (timeout : Time) (answer) (rest) :
    visits (trace ++ .waitRead k timeout answer :: rest) = visits trace ++ visits rest := by
  fun_induction visits trace with
  | case1 j m data time trace ih => simp [visits, ih]
  | case2 ev trace hev ih =>
    rw [List.cons_append]
    rw [← ih]
    rcases ev with _ | ⟨j, m, _ | data⟩ | _ | _ | _ | _ | _ <;> try rfl
    -- a read without a reading of the clock behind it
    rcases trace with _ | ⟨ev, trace⟩
    · rfl
    · cases ev <;> first | rfl | exact (hev _ _ _ _ _ rfl rfl).elim
  | case3 => rfl

theorem notifyRead_trace (io : Ports ω) (k : ℕ) (data : Bytes) (w : Recorded ω) :
    ∃ notes, ((io.recorded k).notifyRead data w).trace = w.trace ++ notes ∧
      ∀ ev ∈ notes, ∃ l, ev = .readData l data := by
  refine Ports.recorded_notifyRead_rule (P := fun w' : Recorded ω => ∃ notes,
    w'.trace = w.trace ++ notes ∧ ∀ ev ∈ notes, ∃ l, ev = .readData l data) ?_
    ⟨[], by simp, by simp⟩
  rintro l w' w'' htrace ⟨notes, hnotes, hdata⟩
  refine ⟨notes ++ [.readData l data], by rw [htrace, hnotes, List.append_assoc], ?_⟩
  intro ev hev
  rcases List.mem_append.mp hev with hev | hev
  · exact hdata ev hev
  · exact ⟨l, List.mem_singleton.mp hev⟩

theorem visits_notes {data : Bytes} {notes : List Event}
    (h : ∀ ev ∈ notes, ∃ l, ev = .readData l data) : visits notes = [] := by
  induction notes with
  | nil => rfl
  | cons ev notes ih =>
    obtain ⟨l, rfl⟩ := h ev List.mem_cons_self
    exact ih fun ev hev => h ev (List.mem_cons_of_mem _ hev)

def RawCall.Going (c : RawCall ω) (s : RawState (Recorded ω)) : Prop :=
  s.buffer.length < c.outBufferSize ∧ s.now ≤ s.globalDeadline

/-- The timeout of the next wait. -/
def RawCall.timeout (c : RawCall ω) (s : RawState (Recorded ω)) : Time :=
  min s.globalDeadline (s.lastChar + c.interByte) - s.now

/-- The events of an iteration that reads `data`. -/
structure RawCall.Round (c : RawCall ω) (s s' : RawState (Recorded ω)) (data : Bytes)
    (round : List Event) : Prop where
  trace : s'.world.trace = s.world.trace ++ round
  events : ∃ m notes, round = .waitRead c.number (c.timeout s) (.ok true) ::
    .read c.number m (.ok data) :: .now s'.now :: notes ∧
      ∀ ev ∈ notes, ∃ l, ev = .readData l data
  buffer : s'.buffer = s.buffer ++ data
  lastChar : s'.lastChar = if data = [] then s.lastChar else s'.now
  deadline : s'.globalDeadline =
    if data = [] ∨ s.receivedBytes then s.globalDeadline else s'.now + c.packetTimeout
  flag : s'.receivedBytes = true ↔ s.receivedBytes = true ∨ data ≠ []

inductive RawCall.Case (c : RawCall ω) (s : RawState (Recorded ω)) :
    Next (RawState (Recorded ω)) (Except Exn Bytes × Recorded ω) → Prop
  | leaves {r} : ¬ c.Going s → c.Case s (.done (r, s.world))
  | ends {r w answer rest} : c.Going s →
      w.trace = s.world.trace ++ .waitRead c.number (c.timeout s) answer :: rest →
      (rest = [] ∨ ∃ m x, rest = [.read c.number m (.error x)]) → c.Case s (.done (r, w))
  | goes {s'} : c.Going s → (∃ data round, c.Round s s' data round) → c.Case s (.again s')

theorem RawCall.body_case (c : RawCall ω) (s : RawState (Recorded ω)) : c.Case s (c.body s) := by
  by_cases hgo : c.Going s
  swap
  · rw [RawCall.body, rawIteration, if_neg (show ¬ (_ ∧ _) from hgo)]
    exact .leaves hgo
  rw [RawCall.body, rawIteration, if_pos (show _ ∧ _ from hgo)]
  dsimp only
  rcases hwait : (c.stream.recorded c.number).waitRead (c.timeout s) s.world with ⟨r, w₁⟩
  have hwaited : w₁.trace = s.world.trace ++ [.waitRead c.number (c.timeout s) r] := by
    obtain ⟨hr, rfl⟩ := Prod.mk.inj hwait
    rw [← hr]
  unfold RawCall.timeout at hwait
  rw [hwait]
  rcases r with x | _ | _
  · exact .ends hgo hwaited (.inl rfl)
  · exact .ends hgo hwaited (.inl rfl)
  dsimp only
  rcases hread : (c.stream.recorded c.number).read (c.outBufferSize - s.buffer.length) w₁ with
    ⟨r, w₂⟩
  have hreads : w₂.trace = w₁.trace ++
      [.read c.number (c.outBufferSize - s.buffer.length) (r.map Subtype.val)] := by
    obtain ⟨hr, rfl⟩ := Prod.mk.inj hread
    rw [← hr]
  rw [hwaited, List.append_assoc] at hreads
  rcases r with x | data
  · exact .ends hgo hreads (.inr ⟨_, x, rfl⟩)
  dsimp only
  -- the clock is read, and the listeners are told
  have hnow : ((c.io.recorded c.number).now w₂).2.trace =
      w₂.trace ++ [.now ((c.io.recorded c.number).now w₂).1] := rfl
  rw [hreads, List.append_assoc] at hnow
  by_cases hdata : data.val.length > 0
  · rw [if_pos hdata]
    have hne : data.val ≠ [] := List.length_pos_iff.mp hdata
    obtain ⟨notes, hnotes, htold⟩ := notifyRead_trace c.io c.number data.val
      ((c.io.recorded c.number).now w₂).2
    rw [hnow, List.append_assoc] at hnotes
    exact .goes hgo ⟨data.val, _, hnotes, ⟨_, notes, rfl, htold⟩, rfl, by simp [hne],
      by simp [hne], by simp [hne]⟩
  · rw [if_neg hdata]
    have hnil : data.val = [] := by simpa using hdata
    exact .goes hgo ⟨data.val, _, hnow, ⟨_, [], rfl, by simp⟩, by simp [hnil], by simp [hnil],
      by simp [hnil], by simp [hnil]⟩

/-- At the head of the loop the state is what the reads so far have made of it. -/
structure RawCall.Head (c : RawCall ω) (s : RawState (Recorded ω)) (new : List Event) : Prop where
  reached : Relation.ReflTransGen (Loop.Step c.body) c.entry s
  trace : s.world.trace = c.world.trace ++ new
  reading : s.now = lastReading c.start new
  now : s.now = ((visits new).getLast?.map Prod.snd).getD c.start
  lastChar : s.lastChar = (arrivalTimes (visits new)).getLast?.getD (c.start + c.packetTimeout)
  deadline : s.globalDeadline = ((arrivalTimes (visits new)).head?.map (· + c.packetTimeout)).getD
    (c.start + min c.packetTimeout c.firstByteTimeout)
  flag : s.receivedBytes = true ↔ arrivalTimes (visits new) ≠ []
  fill : s.buffer.length = c.bufferFill + ((visits new).map Prod.fst).sum
  received : received c.number new = [] ↔ arrivalTimes (visits new) = []

variable {c : RawCall ω} {s s' : RawState (Recorded ω)} {new : List Event}

theorem RawCall.head_entry (c : RawCall ω) : c.Head c.entry [.now c.start] where
  reached := .refl
  trace := rfl
  reading := rfl
  now := rfl
  lastChar := rfl
  deadline := rfl
  flag := by simp [RawCall.entry, visits]
  fill := by simp [RawCall.entry, RawCall.bufferFill, visits]
  received := by simp [visits, received, chunks, Event.chunk]

theorem RawCall.Round.visits {data : Bytes} {round : List Event} (h : c.Round s s' data round)
    (new : List Event) :
    visits (new ++ round) = visits new ++ [(data.length, s'.now)] ∧
      lastReading c.start (new ++ round) = s'.now ∧
      received c.number (new ++ round) = received c.number new ++ data := by
  obtain ⟨m, notes, rfl, htold⟩ := h.events
  have htimeless : ∀ ev ∈ notes, ev.Timeless := by
    intro ev hev
    obtain ⟨l, rfl⟩ := htold ev hev
    trivial
  have hnone : chunks c.number notes = [] := by
    rw [chunks, List.filterMap_eq_nil_iff]
    intro ev hev
    obtain ⟨l, rfl⟩ := htold ev hev
    rfl
  refine ⟨?_, ?_, ?_⟩
  · rw [visits_append_waitRead, IodriversBase.visits, visits_notes htold]
  · rw [lastReading_append]
    exact (timeless_trace htimeless s'.now).2
  · rw [received_append]
    congr 1
    change (chunks c.number (_ :: _ :: _ :: notes)).flatten = data
    rw [chunks] at hnone
    simp [chunks, List.filterMap_cons, Event.chunk, hnone]

theorem RawCall.Head.round (h : c.Head s new) {data : Bytes} {round : List Event}
    (hround : c.Round s s' data round) (hstep : Loop.Step c.body s s') :
    c.Head s' (new ++ round) := by
  obtain ⟨hvisits, hreading, hreceived⟩ := hround.visits new
  have hdata : arrivalTimes [(data.length, s'.now)] = if data = [] then [] else [s'.now] := by
    by_cases hnil : data = []
    · rw [if_pos hnil, hnil]
      rfl
    · rw [if_neg hnil, arrivalTimes_bytes (List.length_pos_iff.mpr hnil)]
  refine ⟨h.reached.tail hstep, ?_, hreading.symm, ?_, ?_, ?_, ?_, ?_, ?_⟩
  · rw [hround.trace, h.trace, List.append_assoc]
  · rw [hvisits, List.getLast?_concat]
    rfl
  · rw [hround.lastChar, hvisits, arrivalTimes_append, hdata, h.lastChar]
    split_ifs
    · rw [List.append_nil]
    · rw [List.getLast?_concat]
      rfl
  · rw [hround.deadline, hvisits, arrivalTimes_append, hdata]
    have hflag := h.flag
    have hdeadline := h.deadline
    by_cases hnil : data = []
    · rw [if_pos (.inl hnil), if_pos hnil, List.append_nil]
      exact hdeadline
    rw [if_neg hnil]
    rcases hfirst : arrivalTimes (visits new) with _ | ⟨first, rest⟩
    · rw [if_neg (by rw [hflag, hfirst]; simp [hnil])]
      rfl
    · rw [if_pos (.inr (hflag.mpr (by simp [hfirst]))), hdeadline, hfirst]
      rfl
  · rw [hround.flag, hvisits, arrivalTimes_append, hdata, h.flag]
    split_ifs with hnil <;> simp [hnil]
  · rw [hround.buffer, hvisits, List.length_append, h.fill]
    simp [Nat.add_assoc]
  · rw [hreceived, hvisits, arrivalTimes_append, hdata, List.append_eq_nil_iff, h.received]
    split_ifs with hnil <;> simp [hnil]

theorem RawCall.Head.unique {new' : List Event} (h : c.Head s new) (h' : c.Head s new') :
    new = new' :=
  List.append_cancel_left (h.trace.symm.trans h'.trace)

theorem RawCall.Head.induct {P : RawState (Recorded ω) → List Event → Prop}
    (hentry : P c.entry [.now c.start])
    (hround : ∀ s s' new data round, c.Head s new → P s new → c.Going s →
      c.Round s s' data round → c.Head s' (new ++ round) → P s' (new ++ round))
    (h : c.Head s new) : P s new := by
  have hall : ∃ new, c.Head s new ∧ P s new := by
    have hreached := h.reached
    clear h
    induction hreached with
    | refl => exact ⟨_, c.head_entry, hentry⟩
    | @tail s s' _ hstep ih =>
      obtain ⟨new, hs, hP⟩ := ih
      have hcase := c.body_case s
      rw [hstep] at hcase
      cases hcase with
      | goes hgo hdata =>
        obtain ⟨data, round, hdata⟩ := hdata
        have hs' := hs.round hdata hstep
        exact ⟨_, hs', hround s s' new data round hs hP hgo hdata hs'⟩
  obtain ⟨new', h', hP⟩ := hall
  rw [h.unique h']
  exact hP

theorem RawCall.Trace.cases (h : c.Trace new) : ∃ s hd, c.Head s hd ∧ (new = hd ∨
    c.Going s ∧ ∃ answer rest, new = hd ++ .waitRead c.number (c.timeout s) answer :: rest ∧
      (rest = [] ∨ ∃ m x, rest = [.read c.number m (.error x)])) := by
  have hstep : ∀ s, (∃ hd, c.Head s hd) → (c.body s).Holds (fun s => ∃ hd, c.Head s hd)
      fun b => ∃ s hd, c.Head s hd ∧ (b.2.trace = c.world.trace ++ hd ∨
        c.Going s ∧ ∃ answer rest, b.2.trace = c.world.trace ++
          (hd ++ .waitRead c.number (c.timeout s) answer :: rest) ∧
          (rest = [] ∨ ∃ m x, rest = [.read c.number m (.error x)])) := by
    rintro s ⟨hd, hs⟩
    have hcase := c.body_case s
    generalize hbody : c.body s = next at hcase
    cases hcase with
    | leaves => exact ⟨s, hd, hs, .inl hs.trace⟩
    | ends hgo htrace hrest =>
      exact ⟨s, hd, hs, .inr ⟨hgo, _, _, by rw [htrace, hs.trace, List.append_assoc], hrest⟩⟩
    | goes hgo hdata =>
      obtain ⟨data, round, hdata⟩ := hdata
      exact ⟨_, hs.round hdata hbody⟩
  cases h with
  | head hreached htrace =>
    obtain ⟨hd, hs⟩ := reaches_rule hstep ⟨_, c.head_entry⟩ hreached
    exact ⟨_, hd, hs, .inl (List.append_cancel_left (htrace.symm.trans hs.trace))⟩
  | back hback htrace =>
    rw [RawCall.result_eq, Option.map_eq_some_iff] at hback
    obtain ⟨⟨r, w⟩, hrun, hb⟩ := hback
    cases hb
    obtain ⟨s, hd, hs, hend⟩ := run_rule hstep ⟨_, c.head_entry⟩ hrun
    refine ⟨s, hd, hs, ?_⟩
    have htrace : w.trace = c.world.trace ++ new := htrace
    simpa only [htrace, List.append_cancel_left_eq] using hend

theorem RawCall.Head.next (h : c.Head s new) (hgo : c.Going s) :
    ∃ answer rest, c.Trace (new ++ .waitRead c.number (c.timeout s) answer :: rest) := by
  have hcase := c.body_case s
  generalize hbody : c.body s = next at hcase
  cases hcase with
  | leaves hnot => exact absurd hgo hnot
  | @ends r w answer rest _ htrace _ =>
    obtain ⟨fuel, hrun⟩ := run_of_reaches h.reached hbody
    have hback : c.result fuel = some (r, c.driver.dropFront c.bufferFill, w) := by
      rw [RawCall.result_eq, hrun]
      rfl
    exact ⟨answer, rest, .back hback (by rw [htrace, h.trace, List.append_assoc])⟩
  | goes _ hdata =>
    obtain ⟨data, round, hdata⟩ := hdata
    obtain ⟨m, notes, rfl, -⟩ := hdata.events
    have hs' := h.round hdata hbody
    exact ⟨_, _, .head hs'.reached hs'.trace⟩

theorem append_eq_split {α : Type} {xs ys before after : List α} {a : α}
    (h : xs ++ ys = before ++ a :: after) :
    (∃ rest, xs = before ++ a :: rest) ∨ ∃ skipped, ys = skipped ++ a :: after ∧
      before = xs ++ skipped := by
  obtain ⟨skipped, rfl, hys⟩ | ⟨rest, hxs, hrest⟩ := List.append_eq_append_iff.mp h
  · exact .inr ⟨skipped, hys, rfl⟩
  · rcases rest with _ | ⟨b, rest⟩
    · exact .inr ⟨[], hrest.symm, by simpa using hxs.symm⟩
    · obtain ⟨rfl, -⟩ := List.cons.inj hrest
      exact .inl ⟨rest, hxs⟩

theorem not_waitRead_of_mem {k k' m : ℕ} {t t' : Time} {answer} {data : Bytes}
    {notes skipped after : List Event} (h : ∀ ev ∈ notes, ∃ l, ev = .readData l data) :
    .read k m (.ok data) :: .now t :: notes ≠ skipped ++ .waitRead k' t' answer :: after := by
  intro heq
  have hmem : Event.waitRead k' t' answer ∈ .read k m (.ok data) :: .now t :: notes := by
    simp [heq]
  simp only [List.mem_cons, reduceCtorEq, false_or] at hmem
  obtain ⟨l, hl⟩ := h _ hmem
  cases hl

theorem RawCall.Head.waits (h : c.Head s new) : ∀ before timeout answer after,
    new = before ++ .waitRead c.number timeout answer :: after →
      ∃ s, c.Head s before ∧ c.Going s ∧ timeout = c.timeout s := by
  refine h.induct (P := fun _ new => ∀ before timeout answer after,
    new = before ++ .waitRead c.number timeout answer :: after →
      ∃ s, c.Head s before ∧ c.Going s ∧ timeout = c.timeout s) ?_ ?_
  · intro before timeout answer after h
    rcases before with _ | ⟨ev, _ | _⟩ <;> simp at h
  · intro s s' new data round hs ih hgo hround _ before timeout answer after h
    obtain ⟨m, notes, rfl, htold⟩ := hround.events
    obtain ⟨rest, hnew⟩ | ⟨skipped, hrest, rfl⟩ := append_eq_split h
    · exact ih before timeout answer rest hnew
    · rcases skipped with _ | ⟨ev, skipped⟩
      · rw [List.nil_append] at hrest
        obtain ⟨hev, -⟩ := List.cons.inj hrest
        cases hev
        exact ⟨s, by rwa [List.append_nil], hgo, rfl⟩
      · exact absurd (List.cons.inj hrest).2 (not_waitRead_of_mem htold)

/-- What holds of all waits is what holds of the next wait at every head of the loop. -/
theorem RawCall.forall_wait_iff (c : RawCall ω) (Q : List Event → Time → Prop) :
    (∀ new, c.Trace new → ∀ before timeout answer after,
      new = before ++ .waitRead c.number timeout answer :: after → Q before timeout) ↔
    ∀ s new, c.Head s new → c.Going s → Q new (c.timeout s) := by
  constructor
  · intro h s new hs hgo
    obtain ⟨answer, rest, htrace⟩ := hs.next hgo
    exact h _ htrace new _ answer rest rfl
  · intro h new htrace before timeout answer after hnew
    have hhead {hd : List Event} {s} (hs : c.Head s hd) (rest)
        (hd_eq : hd = before ++ .waitRead c.number timeout answer :: rest) : Q before timeout := by
      obtain ⟨s', hs', hgo, rfl⟩ := hs.waits before timeout answer rest hd_eq
      exact h s' before hs' hgo
    obtain ⟨s, hd, hs, rfl | ⟨hgo, answer', rest, rfl, hrest⟩⟩ := htrace.cases
    · exact hhead hs after hnew
    obtain ⟨rest', hhd⟩ | ⟨skipped, hskipped, rfl⟩ := append_eq_split hnew
    · exact hhead hs rest' hhd
    rcases skipped with _ | ⟨ev, skipped⟩
    · rw [List.nil_append] at hskipped
      obtain ⟨hev, -⟩ := List.cons.inj hskipped
      cases hev
      rw [List.append_nil]
      exact h s hd hs hgo
    · -- behind the wait there is a read that threw, at most
      obtain ⟨-, hafter⟩ := List.cons.inj hskipped
      obtain rfl | ⟨m, x, rfl⟩ := hrest
      · simp at hafter
      · rcases skipped with _ | ⟨_, _ | _⟩ <;> simp at hafter

/-- The call has been at the head of its loop after every read, and going on before the next. -/
theorem RawCall.Head.upTo (h : c.Head s new) : ∀ before after, visits new = before ++ after →
    ∃ s hd, c.Head s hd ∧ IodriversBase.visits hd = before ∧ (after ≠ [] → c.Going s) := by
  refine h.induct (P := fun _ new => ∀ before after, visits new = before ++ after →
    ∃ s hd, c.Head s hd ∧ IodriversBase.visits hd = before ∧ (after ≠ [] → c.Going s)) ?_ ?_
  · intro before after h
    obtain ⟨rfl, rfl⟩ := List.append_eq_nil_iff.mp h.symm
    exact ⟨_, _, c.head_entry, rfl, fun h => absurd rfl h⟩
  · intro s s' new data round hs ih hgo hround hs' before after h
    rw [(hround.visits new).1] at h
    rcases after.eq_nil_or_concat with rfl | ⟨after, last, rfl⟩
    · refine ⟨s', _, hs', ?_, fun h => absurd rfl h⟩
      rw [(hround.visits new).1, h, List.append_nil]
    · rw [List.concat_eq_append, ← List.append_assoc] at h
      have hvisits := (List.append_inj' h rfl).1
      rcases after with _ | ⟨v, after⟩
      · exact ⟨s, new, hs, by rw [hvisits, List.append_nil], fun _ => hgo⟩
      · obtain ⟨s₁, hd, hs₁, hbefore, hgo₁⟩ := ih before (v :: after) hvisits
        exact ⟨s₁, hd, hs₁, hbefore, fun _ => hgo₁ (List.cons_ne_nil _ _)⟩

theorem RawCall.Trace.upTo (h : c.Trace new) {before after : List (ℕ × Time)}
    (hvisits : visits new = before ++ after) :
    ∃ s hd, c.Head s hd ∧ visits hd = before ∧ (after ≠ [] → c.Going s) := by
  obtain ⟨s, hd, hs, rfl | ⟨-, answer, rest, rfl, hrest⟩⟩ := h.cases
  · exact hs.upTo before after hvisits
  · have hnone : visits rest = [] := by
      obtain rfl | ⟨m, x, rfl⟩ := hrest <;> rfl
    rw [visits_append_waitRead, hnone, List.append_nil] at hvisits
    exact hs.upTo before after hvisits

theorem RawCall.Head.now_eq (h : c.Head s new) {before : List (ℕ × Time)} {n : ℕ} {t : Time}
    (hvisits : visits new = before ++ [(n, t)]) : s.now = t := by
  rw [h.now, hvisits, List.getLast?_concat]
  rfl

theorem RawCall.Head.deadline_eq (h : c.Head s new) {first : Time}
    (hfirst : first ∈ (arrivalTimes (visits new)).head?) :
    s.globalDeadline = first + c.packetTimeout := by
  rw [h.deadline, hfirst]
  rfl

theorem RawCall.Head.lastChar_eq (h : c.Head s new) {last : Time}
    (hlast : last ∈ (arrivalTimes (visits new)).getLast?) : s.lastChar = last := by
  rw [h.lastChar, hlast]
  rfl

def Timeval.Valid (t : Timeval) : Prop := 0 ≤ t.sec ∧ 0 ≤ t.usec ∧ t.usec < 1000000

theorem timeoutSpec_valid {t : Time} (h : 0 ≤ t) : (timeoutSpec t).Valid := by
  refine ⟨Int.tdiv_nonneg h (by decide), Int.tmod_nonneg _ h, ?_⟩
  exact Int.tmod_lt_of_pos _ (by decide)

/-- Every wait of the call is for a time that is not negative, and that `select` takes. -/
def RawCall.WaitsValid (c : RawCall ω) : Prop :=
  ∀ new, c.Trace new → ∀ before timeout answer after,
    new = before ++ .waitRead c.number timeout answer :: after →
      0 ≤ timeout ∧ (timeoutSpec timeout).Valid

/-- A read without data between the two deadlines: more than `interByte` after the last bytes, and
not more than `packetTimeout` after the first ones. -/
def EmptyBetween (packetTimeout interByte : Time) (vs : List (ℕ × Time)) : Prop :=
  ∃ before t after, vs = before ++ (0, t) :: after ∧
    ∃ first ∈ (arrivalTimes before).head?, ∃ last ∈ (arrivalTimes before).getLast?,
      last + interByte < t ∧ t ≤ first + packetTimeout

theorem RawCall.interByte_nonneg (hpacket : 0 ≤ c.packetTimeout) (hinter : 0 ≤ c.interByteTimeout) :
    0 ≤ c.interByte := by
  unfold RawCall.interByte
  split_ifs <;> assumption

theorem RawCall.Head.timeout_nonneg (h : c.Head s new) (hgo : c.Going s)
    (hinter : 0 ≤ c.interByte) (hlate : ¬ EmptyBetween c.packetTimeout c.interByte (visits new)) :
    0 ≤ c.timeout s := by
  have hle := hgo.2
  suffices s.now ≤ s.lastChar + c.interByte from sub_nonneg.mpr (le_min hle this)
  by_cases hnone : arrivalTimes (visits new) = []
  · -- nothing has arrived: the global deadline is the earlier one
    have hlast := h.lastChar
    have hdeadline := h.deadline
    rw [hnone] at hlast hdeadline
    change s.lastChar = c.start + c.packetTimeout at hlast
    change s.globalDeadline = c.start + min c.packetTimeout c.firstByteTimeout at hdeadline
    have hmin := min_le_left c.packetTimeout c.firstByteTimeout
    linarith
  rcases (visits new).eq_nil_or_concat with hnil | ⟨before, ⟨n, t⟩, hvisits⟩
  · exact absurd (by rw [hnil]; rfl) hnone
  rw [List.concat_eq_append] at hvisits
  have hnow := h.now_eq hvisits
  rcases n.eq_zero_or_pos with rfl | hn
  · obtain ⟨last, hlast⟩ := Option.isSome_iff_exists.mp (List.getLast?_isSome.mpr hnone)
    obtain ⟨first, hfirst⟩ := Option.isSome_iff_exists.mp (List.isSome_head?.mpr hnone)
    have hlastChar := h.lastChar_eq hlast
    have hdeadline := h.deadline_eq hfirst
    rw [hvisits, arrivalTimes_append, arrivalTimes_empty, List.append_nil] at hlast hfirst
    by_contra hneg
    exact hlate ⟨before, t, [], hvisits, first, hfirst, last, hlast, by linarith, by linarith⟩
  · have hlastChar : s.lastChar = t := by
      refine h.lastChar_eq ?_
      rw [hvisits]
      exact mem_getLast?_arrivalTimes hn before t
    linarith

/-- No wait of `readRaw` is negative, if and only if no read without data comes between the two
deadlines. -/
theorem readRaw_waits_valid_iff (c : RawCall ω) (hpacket : 0 ≤ c.packetTimeout)
    (hinter : 0 ≤ c.interByteTimeout) :
    c.WaitsValid ↔
      ∀ new, c.Trace new → ¬ EmptyBetween c.packetTimeout c.interByte (visits new) := by
  have hwaits := c.forall_wait_iff fun _ timeout => 0 ≤ timeout ∧ (timeoutSpec timeout).Valid
  refine hwaits.trans ⟨?_, ?_⟩
  · rintro h new htrace ⟨before, t, after, hvisits, first, hfirst, last, hlast, hlate, hle⟩
    -- the loop goes on before the read and, as the read returned nothing, after it
    obtain ⟨s₁, hd₁, hs₁, hbefore, hgo₁⟩ := htrace.upTo hvisits
    rw [List.append_cons] at hvisits
    -- the head of the loop behind the late bytes
    obtain ⟨s, hd, hs, hupTo, -⟩ := htrace.upTo hvisits
    have harrivals : arrivalTimes (visits hd) = arrivalTimes before := by
      rw [hupTo, arrivalTimes_append, arrivalTimes_empty, List.append_nil]
    have hnow := hs.now_eq hupTo
    have hlastChar := hs.lastChar_eq (by rwa [harrivals])
    have hdeadline := hs.deadline_eq (by rwa [harrivals])
    have hfill := hs.fill
    rw [hupTo, List.map_append, List.sum_append] at hfill
    have hroom : s.buffer.length < c.outBufferSize := by
      have hgo := (hgo₁ (List.cons_ne_nil _ _)).1
      rw [hs₁.fill, hbefore] at hgo
      simpa [hfill] using hgo
    have hpos := sub_nonneg.mp (h s hd hs ⟨hroom, by linarith⟩).1
    have hmin := min_le_right s.globalDeadline (s.lastChar + c.interByte)
    linarith
  · intro h s new hs hgo
    have hpos := hs.timeout_nonneg hgo (RawCall.interByte_nonneg hpacket hinter)
      (h new (.head hs.reached hs.trace))
    exact ⟨hpos, timeoutSpec_valid hpos⟩

abbrev Schedule := Time × List (Time × Bytes)

/-- A wait sees what is left of the schedule; a read takes until its time has come. -/
def Schedule.stream : IOStream Schedule where
  waitRead _ w := (.ok (¬ w.2.isEmpty), w)
  waitWrite _ w := (.ok true, w)
  read n w :=
    match w.2 with
    | [] => (.ok ⟨[], Nat.zero_le _⟩, w)
    | (time, data) :: rest => (.ok ⟨data.take n, List.length_take_le n data⟩, (time, rest))
  write data w := (.ok (wroteAll data), w)
  clear w := w
  eof _ := false
  getFileDescriptor _ := -1
  delete w := w

/-- A call on a fresh driver at time 0. -/
def Schedule.readRaw (reads : List (Time × Bytes))
    (packetTimeout firstByteTimeout interByteTimeout : Time) : RawCall Schedule where
  io := ⟨fun w => (w.1, w), some Schedule.stream, []⟩
  stream := Schedule.stream
  opened := rfl
  number := 1
  driver := .new 10 false
  outBufferSize := 10
  packetTimeout := packetTimeout
  firstByteTimeout := firstByteTimeout
  interByteTimeout := interByteTimeout
  world := ⟨(0, reads), []⟩

theorem readRaw_waits_valid_iff_sample :
    (Schedule.readRaw [(0, [7]), (5, []), (11, [8])] 100 100 20).WaitsValid ↔
      ∀ new, (Schedule.readRaw [(0, [7]), (5, []), (11, [8])] 100 100 20).Trace new →
        ¬ EmptyBetween 100 20 (visits new) :=
  readRaw_waits_valid_iff (Schedule.readRaw _ 100 100 20) (by decide) (by decide)

/-- The end of the file behind the first byte: the loop spins until it is late for the second one,
and asks for a wait of -1. -/
theorem readRaw_waits_negative :
    ¬ (Schedule.readRaw [(0, [7]), (5, []), (11, [])] 100 100 10).WaitsValid := by
  intro h
  let before : List Event := [.now 0, .waitRead 1 100 (.ok true), .read 1 10 (.ok [7]), .now 0,
    .waitRead 1 10 (.ok true), .read 1 9 (.ok []), .now 5, .waitRead 1 5 (.ok true),
    .read 1 9 (.ok []), .now 11]
  have htrace : (Schedule.readRaw [(0, [7]), (5, []), (11, [])] 100 100 10).Trace
      (before ++ [.waitRead 1 (-1) (.ok false)]) :=
    .back (show RawCall.result _ 5 = some _ from rfl) rfl
  have hneg := (h _ htrace before (-1) _ [] rfl).1
  exact absurd hneg (by decide)

/-- Every wait of the call ends by `packet_timeout` after the start, and by `first_byte_timeout`
while nothing has been received. -/
def RawCall.EndsInTime (c : RawCall ω) : Prop :=
  ∀ new, c.Trace new → ∀ before timeout answer after,
    new = before ++ .waitRead c.number timeout answer :: after →
      lastReading c.start before + timeout ≤ c.start + c.packetTimeout ∧
      (received c.number before = [] →
        lastReading c.start before + timeout ≤ c.start + c.firstByteTimeout)

/-- Bytes arrive that do not fill the output buffer, the first of them after the start; the next
wait, with `inter_byte_timeout` from then on, goes beyond `packet_timeout` from the start. -/
def RawCall.ArrivesLate (c : RawCall ω) (vs : List (ℕ × Time)) : Prop :=
  ∃ before n t after, vs = before ++ (n, t) :: after ∧ 0 < n ∧
    c.bufferFill + (before.map Prod.fst).sum + n < c.outBufferSize ∧
    c.start + c.packetTimeout < t + c.interByte ∧
    ∃ first ∈ (arrivalTimes (before ++ [(n, t)])).head?,
      c.start < first ∧ t ≤ first + c.packetTimeout

theorem exists_last_arrival {vs : List (ℕ × Time)} (h : arrivalTimes vs ≠ []) :
    ∃ before n t after, vs = before ++ (n, t) :: after ∧ 0 < n ∧ arrivalTimes after = [] := by
  induction vs using List.reverseRecOn with
  | nil => exact absurd rfl h
  | append_singleton vs v ih =>
    obtain ⟨n, t⟩ := v
    rcases n.eq_zero_or_pos with rfl | hn
    · rw [arrivalTimes_append, arrivalTimes_empty, List.append_nil] at h
      obtain ⟨before, n, t', after, rfl, hn, hafter⟩ := ih h
      refine ⟨before, n, t', after ++ [(0, t)], by simp, hn, ?_⟩
      rw [arrivalTimes_append, hafter]
      rfl
    · exact ⟨vs, n, t, [], rfl, hn, rfl⟩

theorem RawCall.Head.ends_in_time (h : c.Head s new) (hgo : c.Going s)
    (hsome : arrivalTimes (visits new) ≠ []) (hlate : ¬ c.ArrivesLate (visits new)) :
    s.now + c.timeout s ≤ c.start + c.packetTimeout := by
  obtain ⟨before, n, t, after, hvisits, hn, hafter⟩ := exists_last_arrival hsome
  have hfill := h.fill
  have hsplit : arrivalTimes (visits new) = arrivalTimes (before ++ [(n, t)]) := by
    rw [hvisits, List.append_cons, arrivalTimes_append, hafter, List.append_nil]
  have hlast : s.lastChar = t := by
    refine h.lastChar_eq ?_
    rw [hsplit]
    exact mem_getLast?_arrivalTimes hn before t
  obtain ⟨first, hfirst⟩ := Option.isSome_iff_exists.mp (List.isSome_head?.mpr hsome)
  have hdeadline := h.deadline_eq hfirst
  rw [hsplit] at hfirst
  -- when the bytes had arrived the call was going on, with the same deadline
  have hintime : t ≤ first + c.packetTimeout := by
    rw [List.append_cons] at hvisits
    rcases after with _ | ⟨v, after⟩
    · rw [List.append_nil] at hvisits
      rw [← h.now_eq hvisits, ← hdeadline]
      exact hgo.2
    · obtain ⟨s₁, hd, hs₁, hupTo, hgo₁⟩ := h.upTo _ _ hvisits
      rw [← hs₁.now_eq hupTo, ← hs₁.deadline_eq (by rwa [hupTo])]
      exact (hgo₁ (List.cons_ne_nil _ _)).2
  have hroom : c.bufferFill + (before.map Prod.fst).sum + n < c.outBufferSize := by
    have hless := hgo.1
    rw [hfill, hvisits, List.map_append, List.sum_append, List.map_cons, List.sum_cons] at hless
    omega
  have hwait : s.now + c.timeout s = min s.globalDeadline (s.lastChar + c.interByte) := by
    unfold RawCall.timeout
    ring
  rw [hwait]
  by_contra hbeyond
  obtain ⟨hbeyond₁, hbeyond₂⟩ := lt_min_iff.mp (not_le.mp hbeyond)
  exact hlate ⟨before, n, t, after, hvisits, hn, hroom, by linarith, first, hfirst, by linarith,
    hintime⟩

/-- The waits of `readRaw` end in time, if and only if no bytes arrive late. -/
theorem readRaw_ends_in_time_iff (c : RawCall ω) :
    c.EndsInTime ↔ ∀ new, c.Trace new → ¬ c.ArrivesLate (visits new) := by
  have hwaits := c.forall_wait_iff fun before timeout =>
    lastReading c.start before + timeout ≤ c.start + c.packetTimeout ∧
    (received c.number before = [] →
      lastReading c.start before + timeout ≤ c.start + c.firstByteTimeout)
  refine hwaits.trans ⟨?_, ?_⟩
  · rintro h new htrace ⟨before, n, t, after, hvisits, hn, hroom, hlong, first, hfirst, hstart,
      hintime⟩
    rw [List.append_cons] at hvisits
    obtain ⟨s, hd, hs, hupTo, -⟩ := htrace.upTo hvisits
    have hnow := hs.now_eq hupTo
    have hdeadline := hs.deadline_eq (by rwa [hupTo])
    have hlast : s.lastChar = t := by
      refine hs.lastChar_eq ?_
      rw [hupTo]
      exact mem_getLast?_arrivalTimes hn before t
    have hfill := hs.fill
    rw [hupTo, List.map_append, List.sum_append, ← Nat.add_assoc] at hfill
    have hgo : c.Going s := by
      refine ⟨?_, by linarith⟩
      simpa [hfill] using hroom
    have hends := (h s hd hs hgo).1
    rw [← hs.reading] at hends
    have hwait : c.start + c.packetTimeout < min s.globalDeadline (s.lastChar + c.interByte) :=
      lt_min (by linarith) (by linarith)
    unfold RawCall.timeout at hends
    linarith
  · intro h s new hs hgo
    rw [← hs.reading, hs.received]
    by_cases hnone : arrivalTimes (visits new) = []
    · -- no bytes yet, and the deadline is still the first one
      have hdeadline := hs.deadline
      rw [hnone] at hdeadline
      change s.globalDeadline = c.start + min c.packetTimeout c.firstByteTimeout at hdeadline
      have hmin := min_le_left s.globalDeadline (s.lastChar + c.interByte)
      have hpacket := min_le_left c.packetTimeout c.firstByteTimeout
      have hfirst := min_le_right c.packetTimeout c.firstByteTimeout
      unfold RawCall.timeout
      exact ⟨by linarith, fun _ => by linarith⟩
    · exact ⟨hs.ends_in_time hgo hnone (h new (.head hs.reached hs.trace)),
        fun hsome => absurd hsome hnone⟩

/-- The first byte arrives after 50 of 100 microseconds, and the call waits for another 100. -/
theorem readRaw_ends_late : ¬ (Schedule.readRaw [(50, [7])] 100 100 0).EndsInTime := by
  intro h
  let before : List Event := [.now 0, .waitRead 1 100 (.ok true), .read 1 10 (.ok [7]), .now 50]
  have htrace : (Schedule.readRaw [(50, [7])] 100 100 0).Trace
      (before ++ [.waitRead 1 100 (.ok false)]) :=
    .back (show RawCall.result _ 5 = some _ from rfl) rfl
  have hlate := (h _ htrace before 100 _ [] rfl).1
  exact absurd hlate (by decide)

end IodriversBase
