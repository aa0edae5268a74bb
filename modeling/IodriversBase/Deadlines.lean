import IodriversBase.Descriptors
import IodriversBase.Samples

namespace IodriversBase

open Loop

variable {ω Ω : Type}

/-- A relation between worlds and the bytes read in between, kept by all that `readPacketInternal`
does. -/
structure ReadsBytes (E : Extract ω) (io : Ports ω) (stream : IOStream ω)
    (R : ω → ω → Bytes → Prop) : Prop where
  refl : ∀ w, R w w []
  trans : ∀ {w w' w'' bs bs'}, R w w' bs → R w' w'' bs' → R w w'' (bs ++ bs')
  read : ∀ {n w c w'}, stream.read n w = (.ok c, w') → R w w' c.val
  read_threw : ∀ {n w x w'}, stream.read n w = (.error x, w') → R w w' [] ∧ ¬ x.IsTimeout
  notifyRead : ∀ data w, R w (io.notifyRead data w) []
  extractPacket : ∀ b w, R w (E b w).2 []

def idlePorts (ω : Type) : Ports ω := ⟨fun w => (0, w), none, []⟩

variable {E : Extract ω} {io : Ports ω} {stream : IOStream ω} {R : ω → ω → Bytes → Prop}

theorem ReadsBytes.idle (h : ReadsBytes E io stream R) :
    (idlePorts ω).KeepsReading fun w w' => R w w' [] where
  refl := h.refl
  trans h₁ h₂ := h.trans h₁ h₂
  now := h.refl
  notifyRead _ := h.refl
  read := by
    rintro st n w r w' ⟨⟩
  waitRead := by
    rintro st t w r w' ⟨⟩

theorem ReadsBytes.extraction (h : ReadsBytes E io stream R) {b : Bytes} {d d' : Driver}
    {w w' : ω} {r} (hr : d.doPacketExtraction (E.at b) w = some (r, d', w')) : R w w' [] :=
  doPacketExtraction_keeps h.idle.hearing h.extractPacket hr

theorem doPacketExtraction_not_timeout {extractPacket : ℤ → ℤ → ω → ℤ × ω} {d d' : Driver}
    {w w' : ω} {x : Exn} (h : d.doPacketExtraction extractPacket w = some (.error x, d', w')) :
    ¬ x.IsTimeout := by
  obtain ⟨what, rfl⟩ := doPacketExtraction_threw h
  exact id

/-- A result of `readPacketInternal` says whether it has read a byte, and is not a timeout. -/
def Tells (bs : Bytes) : Except Exn (Bytes × Bool) → Prop
  | .ok (_, something) => something = true ↔ bs ≠ []
  | .error x => ¬ x.IsTimeout

theorem readIteration_reads (h : ReadsBytes E io stream R) {w : ω} {s : ReadState ω}
    (hs : ∃ bs, R w s.world bs ∧ (s.receivedSomething = true ↔ bs ≠ [])) :
    (readIteration E io stream s).Holds
      (fun s' => ∃ bs, R w s'.world bs ∧ (s'.receivedSomething = true ↔ bs ≠ []))
      fun b => ∃ bs, R w b.2.2 bs ∧ Tells bs b.1 := by
  obtain ⟨bs, hbs, hflag⟩ := hs
  unfold readIteration
  rcases hread : stream.read _ s.world with ⟨x | c, w₁⟩
  · obtain ⟨hthrew, hx⟩ := h.read_threw hread
    exact ⟨bs, by simpa using h.trans hbs hthrew, hx⟩
  dsimp only
  have hgot := h.trans hbs (h.read hread)
  by_cases hc : c.val.length > 0
  swap
  · rw [if_neg hc]
    have hnil : c.val = [] := by simpa using hc
    exact ⟨bs, by simpa [hnil] using hgot, hflag⟩
  rw [if_pos hc]
  have hne : bs ++ c.val ≠ [] := by
    simp [List.length_pos_iff.mp hc]
  -- the listeners and the scan read nothing more
  have hnotified := h.trans hgot (h.notifyRead c.val w₁)
  rw [List.append_nil] at hnotified
  generalize hextract : Driver.doPacketExtraction _ _ _ = extracted
  rcases extracted with _ | ⟨y | packet, d₁, w₂⟩
  · trivial
  all_goals
    have hscanned := h.trans hnotified (h.extraction hextract)
    rw [List.append_nil] at hscanned
    dsimp only
  · exact ⟨_, hscanned, doPacketExtraction_not_timeout hextract⟩
  split_ifs
  · exact ⟨_, hscanned, iff_of_true rfl hne⟩
  · exact ⟨_, hscanned, id⟩
  all_goals exact ⟨_, hscanned, iff_of_true rfl hne⟩

theorem readPacketInternal_reads (h : ReadsBytes E io stream R) {fuel n : ℕ} {d d' : Driver}
    {w w' : ω} {r} (hr : d.readPacketInternal E io stream fuel n w = some (r, d', w')) :
    ∃ bs, R w w' bs ∧ Tells bs r := by
  have hloop {s : ReadState ω} {b} (hs : R w s.world []) (hsome : s.receivedSomething = false)
      (hb : run (readIteration E io stream) fuel s = some b) :
      ∃ bs, R w b.2.2 bs ∧ Tells bs b.1 :=
    run_rule (Q := fun b => ∃ bs, R w b.2.2 bs ∧ Tells bs b.1)
      (fun _ => readIteration_reads h) ⟨[], hs, by simp [hsome]⟩ hb
  unfold Driver.readPacketInternal at hr
  split_ifs at hr
  · cases hr
    exact ⟨[], h.refl _, id⟩
  · generalize hextract : Driver.doPacketExtraction _ _ w = extracted at hr
    rcases extracted with _ | ⟨_ | packet, d₁, w₁⟩
    · cases hr
    · cases hr
      exact ⟨[], h.extraction hextract, doPacketExtraction_not_timeout hextract⟩
    dsimp only at hr
    split_ifs at hr
    · cases hr
      exact ⟨[], h.extraction hextract, by simp [Tells]⟩
    · exact hloop (h.extraction hextract) rfl hr
  · exact hloop (h.refl _) rfl hr

abbrev SelectAnswer := Except ℕ (List ℤ × List ℤ)

def Os.logSelects (os : Os Ω) : Os (Ω × List SelectAnswer) where
  read fd n w := ((os.read fd n w.1).1, (os.read fd n w.1).2, w.2)
  recv fd flags n w := ((os.recv fd flags n w.1).1, (os.recv fd flags n w.1).2, w.2)
  write fd data w := ((os.write fd data w.1).1, (os.write fd data w.1).2, w.2)
  send fd flags data w := ((os.send fd flags data w.1).1, (os.send fd flags data w.1).2, w.2)
  select reads writes t w := ((os.select reads writes t w.1).1, (os.select reads writes t w.1).2,
    w.2 ++ [(os.select reads writes t w.1).1])
  accept fd w := ((os.accept fd w.1).1, (os.accept fd w.1).2, w.2)
  close fd w := (os.close fd w.1, w.2)
  getFlags fd w := ((os.getFlags fd w.1).1, (os.getFlags fd w.1).2, w.2)
  setFlags fd flags w := ((os.setFlags fd flags w.1).1, (os.setFlags fd flags w.1).2, w.2)
  now w := ((os.now w.1).1, (os.now w.1).2, w.2)

def Extract.onMachine {α : Type} (E : Extract Ω) : Extract (Machine (Ω × α)) :=
  fun b m => ((E b m.os.1).1, m.withOs ((E b m.os.1).2, m.os.2))

/-- The time goes on, whatever is done, and a `select` that times out has waited for as long as it
was asked to. -/
structure Os.Clocked (os : Os Ω) (listeners : List (ℕ × IOListener Ω)) (E : Extract Ω)
    (clock : Ω → Time) : Prop where
  now : ∀ w, clock w ≤ (os.now w).1 ∧ (os.now w).1 ≤ clock (os.now w).2
  read : ∀ fd n w, clock w ≤ clock (os.read fd n w).2
  select : ∀ reads writes t w, clock w ≤ clock (os.select reads writes t w).2
  timedOut : ∀ reads writes t w, (os.select reads writes t w).1 = .ok ([], []) →
    clock w + (t.sec * 1000000 + t.usec) ≤ clock (os.select reads writes t w).2
  readData : ∀ l ∈ listeners, ∀ data w, clock w ≤ clock (l.2.readData data w)
  extractPacket : ∀ b w, clock w ≤ clock (E b w).2

/-- The waits for the stream, each with the last reading of the clock before it. -/
def waits (time : Time) : List Event → List (Time × Time)
  | [] => []
  | .now time :: trace => waits time trace
  | .waitRead _ timeout _ :: trace => (time, timeout) :: waits time trace
  | _ :: trace => waits time trace

/-- The last reading of the clock. -/
def lastReading (time : Time) : List Event → Time
  | [] => time
  | .now time :: trace => lastReading time trace
  | _ :: trace => lastReading time trace

theorem lastReading_append (time : Time) (t t' : List Event) :
    lastReading time (t ++ t') = lastReading (lastReading time t) t' := by
  induction t generalizing time with
  | nil => rfl
  | cons ev t ih => cases ev <;> exact ih _

theorem waits_append (time : Time) (t t' : List Event) :
    waits time (t ++ t') = waits time t ++ waits (lastReading time t) t' := by
  induction t generalizing time with
  | nil => rfl
  | cons ev t ih => cases ev <;> simp [waits, lastReading, ih]

def Event.Timeless : Event → Prop
  | .now _ | .waitRead .. => False
  | _ => True

theorem timeless_trace {t : List Event} (h : ∀ ev ∈ t, ev.Timeless) (time : Time) :
    waits time t = [] ∧ lastReading time t = time := by
  induction t with
  | nil => exact ⟨rfl, rfl⟩
  | cons ev t ih =>
    have hev := h ev List.mem_cons_self
    have ht := ih fun ev' h' => h ev' (List.mem_cons_of_mem _ h')
    cases ev <;> first | exact hev.elim | exact ht

def allowed (packetTimeout firstByteTimeout : Time) (bs : Bytes) : Time :=
  if bs = [] then min packetTimeout firstByteTimeout else packetTimeout

/-- No wait goes beyond the deadlines of the call, and the call does not give up before. -/
structure Deadlines (k : ℕ) (packetTimeout firstByteTimeout start : Time) (new : List Event)
    (r : Except Exn Bytes) : Prop where
  waits : ∀ wait ∈ waits start new, 0 ≤ wait.2 ∧ wait.1 + wait.2 ≤ start + packetTimeout
  timeout : ∀ type what, r = .error (.timeoutError type what) →
    start + allowed packetTimeout firstByteTimeout (received k new) ≤ lastReading start new

/-- A signal interrupted the last wait of the call before its time. -/
structure CutShort (start : Time) (new : List Event) (log : List SelectAnswer) : Prop where
  interrupted : log.getLast? = some (.error EINTR)
  early : ∃ wait ∈ (IodriversBase.waits start new).getLast?, lastReading start new < wait.1 + wait.2

/-- From `w` to `w'` the time went on, `select` was not called, and `bs` were read. -/
structure Passes {α : Type} (clock : Ω → Time) (k : ℕ) (w w' : Recorded (Machine (Ω × α)))
    (bs : Bytes) : Prop where
  clock : clock w.world.os.1 ≤ clock w'.world.os.1
  log : w'.world.os.2 = w.world.os.2
  trace : ∃ new, w'.trace = w.trace ++ new ∧ (∀ ev ∈ new, ev.Timeless) ∧ received k new = bs

section Reading

variable {os : Os Ω} {listeners : List (ℕ × IOListener Ω)} {E : Extract Ω} {clock : Ω → Time}
  {k id : ℕ} {fd : ℤ} {autoClose hasEof : Bool}

/-- The ports of a driver over a descriptor, with the log of `select`. -/
abbrev Os.deadlinePorts (os : Os Ω) (listeners : List (ℕ × IOListener Ω)) (id : ℕ) (fd : ℤ)
    (autoClose hasEof : Bool) : Ports (Machine (Ω × List SelectAnswer)) :=
  os.logSelects.ports (some (fdStream os.logSelects id fd autoClose hasEof))
    (listeners.map fun l => (l.1, l.2.logged))

theorem Passes.refl {α : Type} (w : Recorded (Machine (Ω × α))) : Passes clock k w w [] :=
  ⟨le_rfl, rfl, [], by simp, by simp, rfl⟩

theorem Passes.trans {α : Type} {w w' w'' : Recorded (Machine (Ω × α))} {bs bs' : Bytes}
    (h : Passes clock k w w' bs) (h' : Passes clock k w' w'' bs') :
    Passes clock k w w'' (bs ++ bs') := by
  obtain ⟨new, hnew, htimeless, rfl⟩ := h.trace
  obtain ⟨new', hnew', htimeless', rfl⟩ := h'.trace
  refine ⟨h.clock.trans h'.clock, h'.log.trans h.log, new ++ new', ?_, ?_, received_append k _ _⟩
  · rw [hnew', hnew, List.append_assoc]
  · intro ev hev
    exact (List.mem_append.mp hev).elim (htimeless ev) (htimeless' ev)

theorem Passes.of_event {α : Type} {w w' : Recorded (Machine (Ω × α))} {ev : Event}
    (hclock : clock w.world.os.1 ≤ clock w'.world.os.1) (hlog : w'.world.os.2 = w.world.os.2)
    (htrace : w'.trace = w.trace ++ [ev]) (hev : ev.Timeless) :
    Passes clock k w w' (received k [ev]) :=
  ⟨hclock, hlog, [ev], htrace, by simpa using hev, rfl⟩

theorem logSelects_read (h : os.Clocked listeners E clock) {n : ℕ}
    {m m' : Machine (Ω × List SelectAnswer)} {r}
    (hr : (fdStream os.logSelects id fd autoClose hasEof).read n m = (r, m')) :
    clock m.os.1 ≤ clock m'.os.1 ∧ m'.os.2 = m.os.2 ∧ ∀ x, r = .error x → ¬ x.IsTimeout := by
  have hclock := h.read fd n m.os.1
  simp only [fdStream, descriptorStream, Os.logSelects] at hr
  generalize os.read fd n m.os.1 = answer at hclock hr
  rcases answer with ⟨errno | data, w₁⟩ <;> dsimp only at hr
  · split_ifs at hr <;> cases hr
    · exact ⟨hclock, rfl, by simp⟩
    · refine ⟨hclock, rfl, ?_⟩
      rintro x ⟨⟩
      exact not_false
  · cases hr
    exact ⟨hclock, rfl, by simp⟩

theorem passes_notifyRead (h : os.Clocked listeners E clock) (data : Bytes)
    (w : Recorded (Machine (Ω × List SelectAnswer))) :
    Passes clock k w
      (((os.deadlinePorts listeners id fd autoClose hasEof).recorded k).notifyRead data w) [] := by
  apply Os.notifyRead_rule (P := fun w' : Recorded _ => Passes clock k w w' []) _ (.refl w)
  intro l₀ hl₀ w' hw'
  obtain ⟨l, hl, rfl⟩ := List.mem_map.mp hl₀
  have hpasses : Passes clock k w' ⟨w'.world.withOs (l.2.readData data w'.world.os.1,
      w'.world.os.2), w'.trace ++ [.readData l.1 data]⟩ (received k [.readData l.1 data]) :=
    .of_event (h.readData l hl data w'.world.os.1) rfl rfl trivial
  exact hw'.trans hpasses

theorem fdStream_reads (h : os.Clocked listeners E clock) :
    ReadsBytes E.onMachine.recorded
      ((os.deadlinePorts listeners id fd autoClose hasEof).recorded k)
      ((fdStream os.logSelects id fd autoClose hasEof).recorded k) (Passes clock k) where
  refl := .refl
  trans := .trans
  read := by
    intro n w c w' hread
    obtain ⟨hc, rfl⟩ := Prod.mk.inj hread
    obtain ⟨hclock, hlog, _⟩ :=
      logSelects_read h (Prod.mk.eta (p := IOStream.read _ n w.world)).symm
    refine ⟨hclock, hlog, _, rfl, by simp [Event.Timeless], ?_⟩
    simp [received, chunks, Event.chunk, hc, Except.map]
  read_threw := by
    intro n w x w' hread
    obtain ⟨hx, rfl⟩ := Prod.mk.inj hread
    obtain ⟨hclock, hlog, hthrew⟩ :=
      logSelects_read h (Prod.mk.eta (p := IOStream.read _ n w.world)).symm
    refine ⟨⟨hclock, hlog, _, rfl, by simp [Event.Timeless], ?_⟩, hthrew x hx⟩
    simp [received, chunks, Event.chunk, hx, Except.map]
  notifyRead := passes_notifyRead h
  extractPacket b w :=
    ⟨h.extractPacket b w.world.os.1, rfl, [], by simp [Extract.recorded], by simp, rfl⟩

/-- What a wait for the descriptor makes of an answer of `select`. -/
inductive WaitCase (clock : Ω → Time) (t : Time) (m m' : Machine (Ω × List SelectAnswer)) :
    Except Exn Bool → SelectAnswer → Prop
  | failed {what errno} : errno ≠ EINTR →
      WaitCase clock t m m' (.error (.unixError what errno)) (.error errno)
  | interrupted : WaitCase clock t m m' (.ok false) (.error EINTR)
  | ready {ready} : WaitCase clock t m m' (.ok true) (.ok ready)
  | timedOut {ready} : clock m.os.1 + t ≤ clock m'.os.1 →
      WaitCase clock t m m' (.ok false) (.ok ready)

theorem logSelects_waitRead (h : os.Clocked listeners E clock) {t : Time}
    {m m' : Machine (Ω × List SelectAnswer)} {r}
    (hr : (fdStream os.logSelects id fd autoClose hasEof).waitRead t m = (r, m')) :
    ∃ answer, clock m.os.1 ≤ clock m'.os.1 ∧ m'.os.2 = m.os.2 ++ [answer] ∧
      WaitCase clock t m m' r answer := by
  have hclock := h.select [fd] [] (timeoutSpec t) m.os.1
  have htimedOut := h.timedOut [fd] [] (timeoutSpec t) m.os.1
  have hspec : (timeoutSpec t).sec * 1000000 + (timeoutSpec t).usec = t := Int.tdiv_mul_add_tmod ..
  rw [hspec] at htimedOut
  obtain ⟨rfl, rfl⟩ := Prod.mk.inj hr
  refine ⟨_, hclock, rfl, ?_⟩
  simp only [Os.logSelects, Machine.withOs]
  generalize os.select [fd] [] (timeoutSpec t) m.os.1 = answer at htimedOut
  rcases answer with ⟨errno | ⟨reads, writes⟩, w₁⟩
  · by_cases hintr : errno = EINTR
    · subst hintr
      exact .interrupted
    · simp only [selected, if_pos hintr]
      exact .failed hintr
  · rcases reads with _ | ⟨read, reads⟩
    · rcases writes with _ | ⟨write, writes⟩
      · exact .timedOut (htimedOut rfl)
      · simpa [selected] using .ready
    · simpa [selected] using .ready

theorem recorded_waitRead (h : os.Clocked listeners E clock) {t : Time}
    {w w' : Recorded (Machine (Ω × List SelectAnswer))} {r}
    (hr : ((fdStream os.logSelects id fd autoClose hasEof).recorded k).waitRead t w = (r, w')) :
    w'.trace = w.trace ++ [.waitRead k t r] ∧ ∃ answer,
      clock w.world.os.1 ≤ clock w'.world.os.1 ∧ w'.world.os.2 = w.world.os.2 ++ [answer] ∧
        WaitCase clock t w.world w'.world r answer := by
  obtain ⟨hanswer, rfl⟩ := Prod.mk.inj hr
  refine ⟨by rw [← hanswer], ?_⟩
  exact logSelects_waitRead h (Prod.ext hanswer rfl)

variable {packetTimeout firstByteTimeout start : Time}
  {w w' w'' : Recorded (Machine (Ω × List SelectAnswer))} {new : List Event}
  {log : List SelectAnswer}

/-- How far a call has got: what it has added to the trace and to the log, and its waits. -/
structure Within (clock : Ω → Time) (packetTimeout start : Time)
    (w w' : Recorded (Machine (Ω × List SelectAnswer))) (new : List Event)
    (log : List SelectAnswer) : Prop where
  trace : w'.trace = w.trace ++ new
  log : w'.world.os.2 = w.world.os.2 ++ log
  waits : ∀ wait ∈ waits start new, 0 ≤ wait.2 ∧ wait.1 + wait.2 ≤ start + packetTimeout
  reading : start ≤ lastReading start new
  clock : lastReading start new ≤ clock w'.world.os.1

theorem Within.passes (h : Within clock packetTimeout start w w' new log) {bs : Bytes}
    (hp : Passes clock k w' w'' bs) : ∃ new', Within clock packetTimeout start w w'' new' log ∧
      received k new' = received k new ++ bs := by
  obtain ⟨t, ht, htimeless, rfl⟩ := hp.trace
  have hwaits := (timeless_trace htimeless (lastReading start new)).1
  have hlast := (timeless_trace htimeless (lastReading start new)).2
  refine ⟨new ++ t, ⟨?_, hp.log.trans h.log, ?_, ?_, ?_⟩, received_append k new t⟩
  · rw [ht, h.trace, List.append_assoc]
  · rw [waits_append, hwaits, List.append_nil]
    exact h.waits
  · rw [lastReading_append, hlast]
    exact h.reading
  · rw [lastReading_append, hlast]
    exact h.clock.trans hp.clock

theorem Within.now (hos : os.Clocked listeners E clock)
    (h : Within clock packetTimeout start w w' new log) :
    Within clock packetTimeout start w
      (((os.deadlinePorts listeners id fd autoClose hasEof).recorded k).now w').2
      (new ++ [.now (((os.deadlinePorts listeners id fd autoClose hasEof).recorded k).now w').1])
      log := by
  obtain ⟨hbefore, hafter⟩ := hos.now w'.world.os.1
  refine ⟨?_, h.log, ?_, ?_, ?_⟩
  · rw [← List.append_assoc, ← h.trace]
    rfl
  · rw [waits_append]
    simpa [IodriversBase.waits] using h.waits
  · rw [lastReading_append]
    exact h.reading.trans (h.clock.trans hbefore)
  · rw [lastReading_append]
    exact hafter

theorem Within.wait (h : Within clock packetTimeout start w w' new log) {deadline : Time} {r}
    {answer : SelectAnswer} (hlate : lastReading start new ≤ deadline)
    (hdeadline : deadline ≤ start + packetTimeout)
    (htrace : w''.trace = w'.trace ++ [.waitRead k (deadline - lastReading start new) r])
    (hlog : w''.world.os.2 = w'.world.os.2 ++ [answer])
    (hclock : clock w'.world.os.1 ≤ clock w''.world.os.1) :
    Within clock packetTimeout start w w''
      (new ++ [.waitRead k (deadline - lastReading start new) r]) (log ++ [answer]) := by
  refine ⟨?_, ?_, ?_, ?_, ?_⟩
  · rw [htrace, h.trace, List.append_assoc]
  · rw [hlog, h.log, List.append_assoc]
  · rw [waits_append]
    intro wait hwait
    rcases List.mem_append.mp hwait with hbefore | hnew
    · exact h.waits wait hbefore
    · obtain rfl := List.mem_singleton.mp hnew
      refine ⟨sub_nonneg.mpr hlate, ?_⟩
      rwa [add_sub_cancel]
  · rw [lastReading_append]
    exact h.reading
  · rw [lastReading_append]
    exact h.clock.trans hclock

theorem allowed_le (bs : Bytes) : allowed packetTimeout firstByteTimeout bs ≤ packetTimeout := by
  unfold allowed
  split_ifs
  · exact min_le_left _ _
  · exact le_rfl

theorem Within.honours (h : Within clock packetTimeout start w w' new log)
    (hlog : .error EINTR ∉ log) {r : Except Exn Bytes}
    (htimeout : ∀ type what, r = .error (.timeoutError type what) →
      start + allowed packetTimeout firstByteTimeout (received k new) ≤ lastReading start new) :
    Deadlines k packetTimeout firstByteTimeout start new r ↔ ¬ CutShort start new log := by
  refine iff_of_true ⟨h.waits, htimeout⟩ fun hcut => hlog ?_
  exact List.mem_of_getLast? hcut.interrupted

def Awaits (clock : Ω → Time) (k : ℕ) (packetTimeout firstByteTimeout start : Time)
    (w : Recorded (Machine (Ω × List SelectAnswer)))
    (s : WaitState (Recorded (Machine (Ω × List SelectAnswer)))) : Prop :=
  ∃ new log, Within clock packetTimeout start w s.world new log ∧ .error EINTR ∉ log ∧
    s.deadline = start + allowed packetTimeout firstByteTimeout (received k new) ∧
    (s.timeoutType = .firstByte ↔ received k new = [])

def Honours (k : ℕ) (packetTimeout firstByteTimeout start : Time)
    (w : Recorded (Machine (Ω × List SelectAnswer)))
    (b : Except Exn Bytes × Driver × Recorded (Machine (Ω × List SelectAnswer))) : Prop :=
  ∃ new log, b.2.2.trace = w.trace ++ new ∧ b.2.2.world.os.2 = w.world.os.2 ++ log ∧
    (Deadlines k packetTimeout firstByteTimeout start new b.1 ↔ ¬ CutShort start new log)

theorem deadline_moves {deadline : Time} {type : TimeoutType} {something : Bool} {bs bs' : Bytes}
    (hdeadline : deadline = start + allowed packetTimeout firstByteTimeout bs)
    (htype : type = .firstByte ↔ bs = []) (hsomething : something = true ↔ bs' ≠ []) :
    (if type = .firstByte ∧ something = true then start + packetTimeout else deadline) =
        start + allowed packetTimeout firstByteTimeout (bs ++ bs') ∧
      ((if type = .firstByte ∧ something = true then TimeoutType.packet else type) = .firstByte ↔
        bs ++ bs' = []) := by
  by_cases hmoves : type = .firstByte ∧ something = true
  · have hne : bs ++ bs' ≠ [] := by simp [hsomething.mp hmoves.2]
    rw [if_pos hmoves, if_pos hmoves, allowed, if_neg hne]
    simp [hne]
  · -- the first byte was there before, or there is still none
    have heq : bs ++ bs' = [] ↔ bs = [] := by
      rw [List.append_eq_nil_iff, and_iff_left_iff_imp]
      intro hnil
      by_contra hne
      exact hmoves ⟨htype.mpr hnil, hsomething.mpr hne⟩
    rw [if_neg hmoves, if_neg hmoves, hdeadline, allowed, allowed, if_congr heq rfl rfl, heq]
    exact ⟨rfl, htype⟩

theorem received_wait (t : List Event) (timeout : Time) (r : Except Exn Bool) :
    received k (t ++ [.waitRead k timeout r]) = received k t := by
  rw [received_append]
  exact List.append_nil _

theorem received_now (t : List Event) (time : Time) :
    received k (t ++ [.now time]) = received k t := by
  rw [received_append]
  exact List.append_nil _

theorem Within.gives_up (hos : os.Clocked listeners E clock) {deadline : Time}
    {answer : SelectAnswer} (h : Within clock packetTimeout start w w' new log)
    (hlog : .error EINTR ∉ log)
    (hdeadline : deadline = start + allowed packetTimeout firstByteTimeout (received k new))
    (h' : Within clock packetTimeout start w w''
      (new ++ [.waitRead k (deadline - lastReading start new) (.ok false)]) (log ++ [answer]))
    (hcase : WaitCase clock (deadline - lastReading start new) w'.world w''.world (.ok false)
      answer) {type : TimeoutType} {what : String} {d : Driver} :
    Honours k packetTimeout firstByteTimeout start w (.error (.timeoutError type what), d,
      (((os.deadlinePorts listeners id fd autoClose hasEof).recorded k).now w'').2) := by
  have hafter : clock w''.world.os.1 ≤
      (((os.deadlinePorts listeners id fd autoClose hasEof).recorded k).now w'').1 :=
    (hos.now w''.world.os.1).1
  have hend : Within clock packetTimeout start w
      (((os.deadlinePorts listeners id fd autoClose hasEof).recorded k).now w'').2 _ _ := h'.now hos
  generalize ((os.deadlinePorts listeners id fd autoClose hasEof).recorded k).now w'' = reading
    at hend hafter ⊢
  refine ⟨_, _, hend.trace, hend.log, ?_⟩
  have hlast := lastReading_append start
    (new ++ [.waitRead k (deadline - lastReading start new) (.ok false)]) [.now reading.1]
  change _ = reading.1 at hlast
  cases hcase with
  | timedOut htime =>
    refine hend.honours (by simpa using hlog) fun _ _ _ => ?_
    rw [received_now, received_wait, ← hdeadline, hlast]
    calc deadline = lastReading start new + (deadline - lastReading start new) :=
          (add_sub_cancel _ _).symm
      _ ≤ clock w'.world.os.1 + (deadline - lastReading start new) := by gcongr; exact h.clock
      _ ≤ clock w''.world.os.1 := htime
      _ ≤ reading.1 := hafter
  | interrupted =>
    -- the wait that was interrupted is the last one of the call
    have hwait : (IodriversBase.waits start (new ++
        [.waitRead k (deadline - lastReading start new) (.ok false)] ++
        [.now reading.1])).getLast? =
        some (lastReading start new, deadline - lastReading start new) := by
      rw [waits_append, waits_append]
      simp [IodriversBase.waits]
    constructor
    · rintro hdeadlines ⟨-, wait, hlastWait, hearly⟩
      have htimeout := hdeadlines.timeout _ _ rfl
      rw [hwait] at hlastWait
      obtain rfl := Option.some.inj hlastWait
      rw [received_now, received_wait, ← hdeadline, hlast] at htimeout
      rw [hlast, add_sub_cancel] at hearly
      exact absurd htimeout (not_le.mpr hearly)
    · intro hcut
      refine ⟨hend.waits, fun _ _ _ => ?_⟩
      rw [received_now, received_wait, ← hdeadline, hlast]
      by_contra hearly
      refine hcut ⟨by simp, _, hwait, ?_⟩
      rw [hlast, add_sub_cancel]
      exact not_le.mp hearly

theorem Within.waits_for (hos : os.Clocked listeners E clock)
    (h : Within clock packetTimeout start w w' new log) {deadline : Time} {r}
    (hdeadline : deadline = start + allowed packetTimeout firstByteTimeout (received k new))
    (hsoon : (((os.deadlinePorts listeners id fd autoClose hasEof).recorded k).now w').1 ≤ deadline)
    (hwait : ((fdStream os.logSelects id fd autoClose hasEof).recorded k).waitRead
      (deadline - (((os.deadlinePorts listeners id fd autoClose hasEof).recorded k).now w').1)
      (((os.deadlinePorts listeners id fd autoClose hasEof).recorded k).now w').2 = (r, w'')) :
    ∃ answer, Within clock packetTimeout start w w''
      (new ++ [.now (((os.deadlinePorts listeners id fd autoClose hasEof).recorded k).now w').1] ++
        [.waitRead k (deadline - lastReading start (new ++
          [.now (((os.deadlinePorts listeners id fd autoClose hasEof).recorded k).now w').1])) r])
      (log ++ [answer]) ∧
      WaitCase clock (deadline - lastReading start (new ++
          [.now (((os.deadlinePorts listeners id fd autoClose hasEof).recorded k).now w').1]))
        (((os.deadlinePorts listeners id fd autoClose hasEof).recorded k).now w').2.world w''.world
        r answer := by
  have hwithin : Within clock packetTimeout start w
      (((os.deadlinePorts listeners id fd autoClose hasEof).recorded k).now w').2 _ log :=
    h.now hos
  generalize ((os.deadlinePorts listeners id fd autoClose hasEof).recorded k).now w' = reading
    at hsoon hwait hwithin ⊢
  have hlast : lastReading start (new ++ [.now reading.1]) = reading.1 := lastReading_append ..
  obtain ⟨htrace, answer, hclock, hanswer, hcase⟩ := recorded_waitRead hos hwait
  rw [← hlast] at htrace hcase
  refine ⟨answer, hwithin.wait (hlast.le.trans hsoon) ?_ htrace hanswer hclock, hcase⟩
  rw [hdeadline]
  gcongr
  exact allowed_le _

variable {s : WaitState (Recorded (Machine (Ω × List SelectAnswer)))} {fuel bufferSize : ℕ}
  {d : Driver} {type : TimeoutType} {what : String}

theorem Awaits.idle (hos : os.Clocked listeners E clock)
    (hs : Awaits clock k packetTimeout firstByteTimeout start w s) {something : Bool}
    (hint : s.driver.readPacketInternal E.onMachine.recorded
      ((os.deadlinePorts listeners id fd autoClose hasEof).recorded k)
      ((fdStream os.logSelects id fd autoClose hasEof).recorded k) fuel bufferSize s.world =
        some (.ok ([], something), d, w')) :
    Awaits clock k packetTimeout firstByteTimeout start w
      ⟨d, w', s.nextDeadline packetTimeout start something, s.nextType something⟩ := by
  obtain ⟨new, log, hwithin, hlog, hdeadline, htype⟩ := hs
  obtain ⟨bs, hpasses, htells⟩ := readPacketInternal_reads (fdStream_reads hos) hint
  obtain ⟨new₁, hwithin₁, hreceived⟩ := hwithin.passes hpasses
  have hmoves := deadline_moves hdeadline htype htells
  rw [← hreceived] at hmoves
  exact ⟨new₁, log, hwithin₁, hlog, hmoves⟩

theorem Awaits.read_ends (hos : os.Clocked listeners E clock)
    (hs : Awaits clock k packetTimeout firstByteTimeout start w s)
    {r : Except Exn (Bytes × Bool)} {r' : Except Exn Bytes}
    (hint : s.driver.readPacketInternal E.onMachine.recorded
      ((os.deadlinePorts listeners id fd autoClose hasEof).recorded k)
      ((fdStream os.logSelects id fd autoClose hasEof).recorded k) fuel bufferSize s.world =
        some (r, d, w'))
    (htimeout : ∀ type what, r' = .error (.timeoutError type what) →
      r = .error (.timeoutError type what)) :
    Honours k packetTimeout firstByteTimeout start w (r', d, w') := by
  obtain ⟨new, log, hwithin, hlog, -⟩ := hs
  obtain ⟨bs, hpasses, htells⟩ := readPacketInternal_reads (fdStream_reads hos) hint
  obtain ⟨new₁, hwithin₁, -⟩ := hwithin.passes hpasses
  refine ⟨new₁, log, hwithin₁.trace, hwithin₁.log, hwithin₁.honours hlog fun type what hr' => ?_⟩
  rw [htimeout type what hr'] at htells
  exact absurd trivial htells

theorem Awaits.noTimeout (hs : Awaits clock k packetTimeout firstByteTimeout start w s)
    (hzero : packetTimeout = 0) : Honours k packetTimeout firstByteTimeout start w
      (.error (.timeoutError type what), d, s.world) := by
  obtain ⟨new, log, hwithin, hlog, -⟩ := hs
  refine ⟨new, log, hwithin.trace, hwithin.log, hwithin.honours hlog fun _ _ _ => ?_⟩
  calc start + allowed packetTimeout firstByteTimeout (received k new)
      ≤ start + packetTimeout := by gcongr; exact allowed_le _
    _ = start := by rw [hzero, add_zero]
    _ ≤ lastReading start new := hwithin.reading

theorem Awaits.late (hos : os.Clocked listeners E clock)
    (hs : Awaits clock k packetTimeout firstByteTimeout start w s)
    (hlate : (((os.deadlinePorts listeners id fd autoClose hasEof).recorded k).now s.world).1 >
      s.deadline) :
    Honours k packetTimeout firstByteTimeout start w (.error (.timeoutError type what), d,
      (((os.deadlinePorts listeners id fd autoClose hasEof).recorded k).now s.world).2) := by
  obtain ⟨new, log, hwithin, hlog, hdeadline, -⟩ := hs
  have hnow : Within clock packetTimeout start w
      (((os.deadlinePorts listeners id fd autoClose hasEof).recorded k).now s.world).2 _ log :=
    hwithin.now hos
  refine ⟨_, log, hnow.trace, hnow.log, hnow.honours hlog fun _ _ _ => ?_⟩
  rw [received_now, ← hdeadline, lastReading_append]
  exact hlate.le

section Waiting

variable {r : Except Exn Bool} (hos : os.Clocked listeners E clock)
  (hs : Awaits clock k packetTimeout firstByteTimeout start w s)
  (hsoon : (((os.deadlinePorts listeners id fd autoClose hasEof).recorded k).now s.world).1 ≤
    s.deadline)

include hos hs hsoon

theorem Awaits.waitThrew {x : Exn}
    (hwait : ((fdStream os.logSelects id fd autoClose hasEof).recorded k).waitRead
      (s.deadline -
        (((os.deadlinePorts listeners id fd autoClose hasEof).recorded k).now s.world).1)
      (((os.deadlinePorts listeners id fd autoClose hasEof).recorded k).now s.world).2 =
        (.error x, w')) :
    Honours k packetTimeout firstByteTimeout start w (.error x, d, w') := by
  obtain ⟨new, log, hwithin, hlog, hdeadline, -⟩ := hs
  obtain ⟨answer, hwaited, hcase⟩ := hwithin.waits_for hos hdeadline hsoon hwait
  cases hcase with
  | failed herrno =>
    refine ⟨_, _, hwaited.trace, hwaited.log, hwaited.honours ?_ ?_⟩
    · simpa [hlog] using herrno.symm
    · simp

/-- A wait without data goes up to the deadline, unless a signal cuts it short. -/
theorem Awaits.waitedOut
    (hwait : ((fdStream os.logSelects id fd autoClose hasEof).recorded k).waitRead
      (s.deadline -
        (((os.deadlinePorts listeners id fd autoClose hasEof).recorded k).now s.world).1)
      (((os.deadlinePorts listeners id fd autoClose hasEof).recorded k).now s.world).2 =
        (.ok false, w')) :
    Honours k packetTimeout firstByteTimeout start w (.error (.timeoutError type what), d,
      (((os.deadlinePorts listeners id fd autoClose hasEof).recorded k).now w').2) := by
  obtain ⟨new, log, hwithin, hlog, hdeadline, -⟩ := hs
  obtain ⟨answer, hwaited, hcase⟩ := hwithin.waits_for hos hdeadline hsoon hwait
  exact (hwithin.now hos).gives_up hos hlog (hdeadline.trans (by rw [received_now])) hwaited hcase

theorem Awaits.ready
    (hwait : ((fdStream os.logSelects id fd autoClose hasEof).recorded k).waitRead
      (s.deadline -
        (((os.deadlinePorts listeners id fd autoClose hasEof).recorded k).now s.world).1)
      (((os.deadlinePorts listeners id fd autoClose hasEof).recorded k).now s.world).2 =
        (.ok true, w')) :
    Awaits clock k packetTimeout firstByteTimeout start w ⟨d, w', s.deadline, s.timeoutType⟩ := by
  obtain ⟨new, log, hwithin, hlog, hdeadline, htype⟩ := hs
  obtain ⟨answer, hwaited, hcase⟩ := hwithin.waits_for hos hdeadline hsoon hwait
  cases hcase with
  | ready =>
    refine ⟨_, _, hwaited, by simpa using hlog, ?_, ?_⟩
    · rw [received_wait, received_now]
      exact hdeadline
    · rw [received_wait, received_now]
      exact htype

end Waiting

theorem waitIteration_awaits (hos : os.Clocked listeners E clock)
    (hs : Awaits clock k packetTimeout firstByteTimeout start w s) :
    (waitIteration E.onMachine.recorded
      ((os.deadlinePorts listeners id fd autoClose hasEof).recorded k)
      ((fdStream os.logSelects id fd autoClose hasEof).recorded k) fuel bufferSize packetTimeout
      start s).Holds (Awaits clock k packetTimeout firstByteTimeout start w)
      (Honours k packetTimeout firstByteTimeout start w) := by
  have hstep := waitIteration_step E.onMachine.recorded
    ((os.deadlinePorts listeners id fd autoClose hasEof).recorded k)
    ((fdStream os.logSelects id fd autoClose hasEof).recorded k) fuel bufferSize packetTimeout
    start s
  generalize waitIteration E.onMachine.recorded _ _ fuel bufferSize packetTimeout start s = next
    at hstep ⊢
  cases hstep with
  | lost _ => trivial
  | threw hint => exact hs.read_ends hos hint fun _ _ h => by cases h; rfl
  | packet hint _ => exact hs.read_ends hos hint fun _ _ h => by cases h
  | noTimeout hint hzero => exact (hs.idle hos hint).noTimeout hzero
  | late hint hlate => exact (hs.idle hos hint).late hos hlate
  | waitThrew hint hsoon hwait => exact Awaits.waitThrew hos (hs.idle hos hint) hsoon hwait
  | waitedOut hint hsoon hwait => exact Awaits.waitedOut hos (hs.idle hos hint) hsoon hwait
  | ready hint hsoon hwait => exact Awaits.ready hos (hs.idle hos hint) hsoon hwait

/-- **The deadlines of `readPacket`** are honoured unless a signal interrupts the last wait of the
call before its time. -/
theorem readPacket_deadlines_iff (hos : os.Clocked listeners E clock) {fuel bufferSize : ℕ}
    {d d' : Driver} {r : Except Exn Bytes}
    (h : d.readPacket E.onMachine.recorded
      ((os.deadlinePorts listeners id fd autoClose hasEof).recorded k) fuel bufferSize packetTimeout
      firstByteTimeout w = some (r, d', w')) :
    ∃ new log, w'.trace = w.trace ++ new ∧ w'.world.os.2 = w.world.os.2 ++ log ∧
      (Deadlines k packetTimeout firstByteTimeout (os.now w.world.os.1).1 new r ↔
        ¬ CutShort (os.now w.world.os.1).1 new log) := by
  unfold Driver.readPacket at h
  split_ifs at h
  · cases h
    refine ⟨[], [], by simp, by simp, iff_of_true ⟨by simp [waits], by simp⟩ fun hcut => ?_⟩
    simpa using hcut.interrupted
  change run (waitIteration _ _ ((fdStream os.logSelects id fd autoClose hasEof).recorded k) fuel
    bufferSize packetTimeout (os.now w.world.os.1).1) fuel _ = some _ at h
  have hstart : Within clock packetTimeout (os.now w.world.os.1).1 w
      (((os.deadlinePorts listeners id fd autoClose hasEof).recorded k).now w).2
      [.now (os.now w.world.os.1).1] [] :=
    ⟨rfl, (List.append_nil _).symm, by simp [waits], le_rfl, (hos.now w.world.os.1).2⟩
  exact run_rule (Q := Honours k packetTimeout firstByteTimeout (os.now w.world.os.1).1 w)
    (fun _ => waitIteration_awaits hos) ⟨_, _, hstart, by simp, rfl, iff_of_true rfl rfl⟩ h

end Reading

/-- A system whose world is the time: there is never any data, and a wait lasts as long as it was
asked to. -/
def sleepingOs : Os Time where
  read _ _ w := (.error EAGAIN, w)
  recv _ _ _ w := (.error EAGAIN, w)
  write _ data w := (.ok (wroteAll data), w)
  send _ _ data w := (.ok (wroteAll data), w)
  select _ _ t w := (.ok ([], []), w + max 0 (t.sec * 1000000 + t.usec))
  accept _ w := (.error EAGAIN, w)
  close _ w := w
  getFlags _ w := (O_NONBLOCK, w)
  setFlags _ _ w := (.ok (), w)
  now w := (w, w)

/-- `sleepingOs`, with a signal at the start of every wait. -/
def interruptedOs : Os Time := { sleepingOs with select := fun _ _ _ w => (.error EINTR, w) }

theorem sleepingOs_clocked (e : Bytes → ℤ) : sleepingOs.Clocked [] (.pure e) id where
  now w := ⟨le_rfl, le_rfl⟩
  read _ _ _ := le_rfl
  select _ _ _ _ := le_add_of_nonneg_right (le_max_left _ _)
  timedOut _ _ _ w _ := by
    simp only [sleepingOs, id]
    gcongr
    exact le_max_right _ _
  readData := by simp
  extractPacket _ _ := le_rfl

/-- A call of `readPacket` that allows one second. -/
def secondCall (os : Os Time) : Option (Except Exn Bytes × Driver ×
    Recorded (Machine (Time × List SelectAnswer))) :=
  (Script.driver false []).readPacket (Extract.pure driverTestExtractPacket).onMachine.recorded
    ((os.deadlinePorts [] 0 5 true true).recorded 0) 5 100 1000000 1000000 ⟨.start (0, []), []⟩

/-- Undisturbed, it gives up after the second. -/
theorem readPacket_deadlines_iff_sample : ∃ b : Except Exn Bytes × Driver × Recorded _,
    secondCall sleepingOs = some b ∧ lastReading 0 b.2.2.trace = 1000000 ∧
      Deadlines 0 1000000 1000000 0 b.2.2.trace b.1 := by
  obtain ⟨⟨r, d', w'⟩, hcall, hlast, hlog⟩ := exists_of_any (x := secondCall sleepingOs)
    (fun b => lastReading 0 b.2.2.trace = 1000000 ∧
      ∀ answer ∈ b.2.2.world.os.2, answer.toOption.isSome) (by decide +kernel)
  obtain ⟨new, log, htrace, hlog', hiff⟩ := readPacket_deadlines_iff
    (sleepingOs_clocked driverTestExtractPacket) hcall
  obtain rfl : w'.trace = new := htrace
  obtain rfl : w'.world.os.2 = log := hlog'
  refine ⟨_, hcall, hlast, hiff.mpr fun hcut => ?_⟩
  have hanswer := hlog _ (List.mem_of_getLast? hcut.interrupted)
  simp [Except.toOption] at hanswer

/-- Interrupted at once, it gives up at once. -/
theorem readPacket_gives_up_early : ∃ b : Except Exn Bytes × Driver × Recorded _,
    secondCall interruptedOs = some b ∧ ¬ Deadlines 0 1000000 1000000 0 b.2.2.trace b.1 := by
  obtain ⟨⟨r, d', w'⟩, hcall, hlast, hnone, hthrew⟩ := exists_of_any (x := secondCall interruptedOs)
    (fun b => lastReading 0 b.2.2.trace = 0 ∧ received 0 b.2.2.trace = [] ∧
      (match b.1 with | .error x => decide x.IsTimeout | .ok _ => false) = true) (by decide +kernel)
  refine ⟨_, hcall, fun hdeadlines => ?_⟩
  rcases r with (what | ⟨type, what⟩ | _ | _) | p <;> try cases hthrew
  have htimeout := hdeadlines.timeout type what rfl
  rw [hlast, hnone] at htimeout
  exact absurd htimeout (by decide)

end IodriversBase
