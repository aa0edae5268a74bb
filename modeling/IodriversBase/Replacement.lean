import IodriversBase.Calls
import IodriversBase.Descriptors
import IodriversBase.Samples

namespace IodriversBase

open Framing

variable {ω Ω : Type}

def Sys.onMachine (s : Sys (Machine Ω)) (f : Machine Ω → Machine Ω) : Sys (Machine Ω) :=
  { s with world := ⟨f s.world.world, s.world.trace⟩ }

/-- `new FDStream`, then `setMainStream`; `m_eof` of the new stream is false. -/
def Sys.giveStream (os : Os Ω) (s : Sys (Machine Ω)) (fd : ℤ) (autoClose hasEof : Bool) :
    Sys (Machine Ω) :=
  (s.onMachine fun m => { m with eof := Function.update m.eof (s.number + 1) false }).setMainStream
    (fdStream os (s.number + 1) fd autoClose hasEof)

/-- `Driver::setFileDescriptor`.  The constructor of the stream may throw, and then the driver keeps
the stream it has. -/
def Sys.setFileDescriptor (os : Os Ω) (s : Sys (Machine Ω)) (fd : ℤ) (autoClose hasEof : Bool) :
    Except Exn Unit × Sys (Machine Ω) :=
  let r := setNonBlockingFlag os fd s.world.world.os
  let s := s.onMachine fun m => m.withOs r.2
  match r.1 with
  | .error x => (.error x, s)
  | .ok _ => (.ok (), s.giveStream os fd autoClose hasEof)

def EPIPE : ℕ := 32

/-- A `TCPDriver`: the socket that listens, and the descriptor of the client, 0 without one. -/
structure TCPDriver (Ω : Type) extends Sys (Machine Ω) where
  sockedFd : ℤ
  clientFd : ℤ

/-- `TCPDriver::checkClientConnection`.  What `setFileDescriptor` throws comes when the old client
is closed. -/
def TCPDriver.checkClientConnection (os : Os Ω) (t : TCPDriver Ω) :
    Except Exn Unit × TCPDriver Ω :=
  let r := os.accept t.sockedFd t.world.world.os
  let s := t.onMachine fun m => m.withOs r.2
  match r.1 with
  | .error _ => (.ok (), { t with toSys := s })
  | .ok newClient =>
    if newClient > 0 then
      let s :=
        if t.clientFd ≠ 0 then s.onMachine fun m => m.withOs (os.close t.clientFd m.os) else s
      let r := s.setFileDescriptor os newClient false true
      (r.1, { t with toSys := r.2, clientFd := newClient })
    else (.ok (), { t with toSys := s })

/-- The calls: those of `TCPDriver` itself, and those it has from `Driver`. -/
inductive TCPOp (Ω : Type)
  | readPacketDefault (bufferSize : ℕ)
  | readPacket (bufferSize : ℕ) (packetTimeout firstByteTimeout : Time)
  | writePacket (buffer : Bytes) (timeout : Time)
  | checkClientConnection
  | setFileDescriptor (fd : ℤ) (autoClose hasEof : Bool)
  | driver (op : Op (Machine Ω))

/-- What a call of `Driver` makes of the server; on a broken pipe the client is given up. -/
def TCPDriver.caught (os : Os Ω) (t : TCPDriver Ω) (nothing : Answer) :
    Option (Answer × Sys (Machine Ω)) → Option (Answer × TCPDriver Ω)
  | none => none
  | some (.threw (.unixError what error), s) =>
    if error = EPIPE then
      some (nothing,
        { t with toSys := s.onMachine fun m => m.withOs (os.close t.clientFd m.os), clientFd := 0 })
    else some (.threw (.unixError what error), { t with toSys := s })
  | some (a, s) => some (a, { t with toSys := s })

def Answer.ofUnit : Except Exn Unit → Answer
  | .ok _ => .done
  | .error x => .threw x

/-- `checkClientConnection`, and the rest of the call unless it throws. -/
def TCPDriver.checked (os : Os Ω) (t : TCPDriver Ω)
    (rest : TCPDriver Ω → Option (Answer × TCPDriver Ω)) : Option (Answer × TCPDriver Ω) :=
  match t.checkClientConnection os with
  | (.error x, t) => some (.threw x, t)
  | (.ok _, t) => rest t

def TCPDriver.perform (os : Os Ω) (E : Extract (Machine Ω)) (fuel : ℕ) (t : TCPDriver Ω) :
    TCPOp Ω → Option (Answer × TCPDriver Ω)
  | .readPacketDefault n => t.checked os fun t =>
    if t.clientFd ≠ 0 then
      (t.toSys.perform E fuel (.readPacket n t.driver.readTimeout t.driver.readTimeout)).map
        fun r => (r.1, { t with toSys := r.2 })
    else some (.packet [], t)
  | .readPacket n packetTimeout firstByteTimeout => t.checked os fun t =>
    if t.clientFd ≠ 0 then
      t.caught os (.packet [])
        (t.toSys.perform E fuel (.readPacket n packetTimeout firstByteTimeout))
    else some (.packet [], t)
  | .writePacket buffer timeout => t.checked os fun t =>
    if t.clientFd ≠ 0 then
      t.caught os (.flag false) (t.toSys.perform E fuel (.writePacket buffer timeout))
    else some (.flag false, t)
  | .checkClientConnection =>
    let r := t.checkClientConnection os
    some (.ofUnit r.1, r.2)
  | .setFileDescriptor fd autoClose hasEof =>
    let r := t.toSys.setFileDescriptor os fd autoClose hasEof
    some (.ofUnit r.1, { t with toSys := r.2 })
  | .driver op => (t.toSys.perform E fuel op).map fun r => (r.1, { t with toSys := r.2 })

/-- A call that comes back, with its answer. -/
def TCPDriver.Step (os : Os Ω) (E : Extract (Machine Ω)) (t : TCPDriver Ω)
    (call : TCPOp Ω × Answer) (t' : TCPDriver Ω) : Prop :=
  ∃ fuel, t.perform os E fuel call.1 = some (call.2, t')

/-- A client is accepted on `fd`, and the old one has been closed, which leaves the system `o`. -/
def TCPDriver.Accepts (os : Os Ω) (t : TCPDriver Ω) (fd : ℤ) (o : Ω) : Prop :=
  (os.accept t.sockedFd t.world.world.os).1 = .ok fd ∧ 0 < fd ∧
    o = if t.clientFd ≠ 0 then os.close t.clientFd (os.accept t.sockedFd t.world.world.os).2
      else (os.accept t.sockedFd t.world.world.os).2

theorem TCPDriver.checkClientConnection_cases (os : Os Ω) (t : TCPDriver Ω) :
    (t.checkClientConnection os = (.ok (), { t with
        toSys := t.onMachine fun m => m.withOs (os.accept t.sockedFd t.world.world.os).2 }) ∧
      ∀ fd o, ¬ t.Accepts os fd o) ∨
      ∃ fd o, t.Accepts os fd o ∧ t.checkClientConnection os =
        (((t.onMachine fun m => m.withOs o).setFileDescriptor os fd false true).1,
          { t with
            toSys := ((t.onMachine fun m => m.withOs o).setFileDescriptor os fd false true).2
            clientFd := fd }) := by
  unfold checkClientConnection
  dsimp only
  rcases haccept : (os.accept t.sockedFd t.world.world.os).1 with errno | fd
  · exact .inl ⟨rfl, fun fd o h => by cases haccept.symm.trans h.1⟩
  dsimp only
  split_ifs with hpos hclient
  · exact .inr ⟨fd, _, ⟨haccept, hpos, (if_pos hclient).symm⟩, rfl⟩
  · exact .inr ⟨fd, _, ⟨haccept, hpos, (if_neg hclient).symm⟩, rfl⟩
  · refine .inl ⟨rfl, fun fd' o h => hpos ?_⟩
    obtain rfl : fd = fd' := Except.ok.inj (haccept.symm.trans h.1)
    exact h.2.1

/-- A call that replaces the stream: it is told to, or a client is waiting, and the new stream can
be made. -/
def TCPDriver.Replaces (os : Os Ω) (t : TCPDriver Ω) : TCPOp Ω → Prop
  | .setFileDescriptor fd _ _ => ∃ b, (setNonBlockingFlag os fd t.world.world.os).1 = .ok b
  | .driver (.setMainStream _) => True
  | .driver _ => False
  | _ => ∃ fd o b, t.Accepts os fd o ∧ (setNonBlockingFlag os fd o).1 = .ok b

variable {e : Bytes → ℤ} {d d' : Driver} {cs : List Bytes} {ours b : Bytes}

def Barren (e : Bytes → ℤ) (b : Bytes) : Prop := ∀ r u, r ≠ [] → r <:+ b → e (r ++ u) ≤ 0

theorem barren_nil : Barren e [] := fun _ _ hne hr => absurd (List.suffix_nil.mp hr) hne

/-- A buffer of bytes `ours`, in front of which there may be bytes that begin no packet. -/
def Clean (e : Bytes → ℤ) (ours b : Bytes) : Prop :=
  ∃ old new, b = old ++ new ∧ Barren e old ∧ new <:+ ours

theorem clean_nil (e : Bytes → ℤ) (ours : Bytes) : Clean e ours [] :=
  ⟨[], [], rfl, barren_nil, List.nil_suffix⟩

theorem Barren.clean (h : Barren e b) : Clean e [] b :=
  ⟨b, [], (List.append_nil b).symm, h, List.suffix_rfl⟩

theorem Clean.append (h : Clean e ours b) (c : Bytes) : Clean e (ours ++ c) (b ++ c) := by
  obtain ⟨old, new, rfl, hold, g, rfl⟩ := h
  exact ⟨old, new ++ c, List.append_assoc _ _ _, hold, g, (List.append_assoc _ _ _).symm⟩

theorem Clean.suffix {b' : Bytes} (h : Clean e ours b) (hb : b' <:+ b) : Clean e ours b' := by
  obtain ⟨old, new, rfl, hold, hnew⟩ := h
  obtain ⟨g, hg⟩ := hb
  rcases List.append_eq_append_iff.mp hg with ⟨r, rfl, rfl⟩ | ⟨r, rfl, rfl⟩
  · refine ⟨r, new, rfl, fun s u hne hs => ?_, hnew⟩
    exact hold s u hne (hs.trans (List.suffix_append _ _))
  · exact ⟨[], b', rfl, barren_nil, (List.suffix_append _ _).trans hnew⟩

theorem Clean.front {p u : Bytes} (h : Clean e ours (p ++ u)) (hpos : 0 < e (p ++ u)) :
    p <:+: ours := by
  obtain ⟨old, new, hold_new, hold, hnew⟩ := h
  have hnil : old = [] := by
    by_contra hne
    have := hold old new hne List.suffix_rfl
    rw [← hold_new] at this
    omega
  rw [hnil, List.nil_append] at hold_new
  rw [← hold_new] at hnew
  exact (List.prefix_append p u).isInfix.trans hnew.isInfix

theorem cut_accepted {extractLast : Bool} (hp : (cut e extractLast b).packet ≠ []) :
    0 < e ((cut e extractLast b).packet ++ (cut e extractLast b).rest) := by
  induction b using scan_induction (E := e) with
  | hsettled b h =>
    rw [cut_settled h] at hp
    exact absurd rfl hp
  | hmove b h ih =>
    have hown : cut e extractLast b = ownCut e b →
        0 < e ((cut e extractLast b).packet ++ (cut e extractLast b).rest) := by
      intro hcut
      have h0 : e b ≠ 0 := fun h0 => h (.inr h0)
      rw [hcut, ownCut] at hp ⊢
      split_ifs at hp ⊢ with hneg
      · exact absurd rfl hp
      · rw [List.take_append_drop]
        omega
    by_cases hstop : b.drop (e b).natAbs = [] ∨ (0 < e b ∧ ¬ extractLast)
    · exact hown (cut_stop h hstop)
    have hcut := cut_go h hstop
    split_ifs at hcut with hnone
    · exact hown hcut
    · rw [hcut] at hp ⊢
      exact ih hp

theorem Clean.leftOver (h : Clean e ours b) (extractLast : Bool) :
    Clean e ours (leftOver e extractLast b) := by
  apply h.suffix
  refine ⟨(cut e extractLast b).skipped ++ (cut e extractLast b).packet, ?_⟩
  rw [List.append_assoc]
  exact cut_join e extractLast b

theorem Clean.packet {extractLast : Bool} {p : Bytes} (h : Clean e ours b)
    (hp : p ∈ asList (cut e extractLast b).packet) : p <:+: ours := by
  unfold asList at hp
  split_ifs at hp with hne
  · cases hp
  rw [List.mem_singleton.mp hp]
  refine Clean.front (h.suffix ?_) (cut_accepted hne)
  exact ⟨(cut e extractLast b).skipped, cut_join e extractLast b⟩

theorem Fed.clean (h : Fed e d cs d') (hd : Clean e ours d.internalBuffer) :
    Clean e (ours ++ cs.flatten) d'.internalBuffer ∧
      ∀ p ∈ d.finds e cs, p <:+: ours ++ cs.flatten := by
  induction h with
  | start =>
    rw [List.flatten_nil, List.append_nil, Driver.scanned_internalBuffer, Driver.finds_nil]
    exact ⟨hd.leftOver _, fun p hp => hd.packet hp⟩
  | @chunk cs d₁ c hc hfed ih =>
    obtain ⟨hclean, hfound⟩ := ih
    have hours : ours ++ (cs ++ [c]).flatten = ours ++ cs.flatten ++ c := by simp
    have hnext := hclean.append c
    rw [hours, Driver.scanned_internalBuffer, Driver.append_internalBuffer,
      Driver.append_extractLast, hfed.finds_chunk]
    refine ⟨hnext.leftOver _, fun p hp => ?_⟩
    rcases List.mem_append.mp hp with hp | hp
    · exact (hfound p hp).trans (List.prefix_append _ _).isInfix
    · exact hnext.packet hp

variable {E : Extract ω} {s t : Sys ω} {a : Answer}

/-- The buffer is clean for the current stream, and nothing has been read from a later one. -/
structure Current (e : Bytes → ℤ) (s : Sys ω) : Prop where
  clean : Clean e (received s.number s.world.trace) s.driver.internalBuffer
  fresh : ∀ j, s.number < j → received j s.world.trace = []

theorem Uses.received {k j : ℕ} {w w' : Recorded ω} (h : Uses k w w') (hj : j ≠ k) :
    received j w'.trace = received j w.trace := by
  rw [IodriversBase.received, IodriversBase.received, h.chunks hj]

theorem Current.of_step {call : Op ω × Answer} (hs : Current e s) (h : Sys.Step E s call t)
    (hnumber : t.number = s.number)
    (hclean : Clean e (received s.number t.world.trace) t.driver.internalBuffer) : Current e t where
  clean := hnumber ▸ hclean
  fresh j hj := by
    rw [hnumber] at hj
    rw [h.uses.received (by omega), hs.fresh j hj]

theorem Current.setMainStream (hs : Current e s) (hbarren : Barren e s.driver.internalBuffer)
    (stream : IOStream ω) : Current e (s.setMainStream stream) where
  clean := by
    have hnone : received (s.number + 1) s.world.trace = [] := hs.fresh _ (Nat.lt_succ_self _)
    change Clean e (received (s.number + 1) s.world.trace) s.driver.internalBuffer
    rw [hnone]
    exact hbarren.clean
  fresh j hj := hs.fresh j (Nat.lt_of_succ_lt hj)

theorem Current.readPacket (hb : InBounds e) (hE : E.Answers e) (hs : Current e s) {n : ℕ}
    {packetTimeout firstByteTimeout : Time}
    (h : Sys.Step E s (.readPacket n packetTimeout firstByteTimeout, a) t) :
    Current e t ∧ ∀ p, a = .packet p → p <:+: received t.number t.world.trace := by
  have hpacket := h.readPacket hb hE
  obtain ⟨_, hnumber⟩ := hpacket.io
  rcases hpacket.feeds with ⟨rfl, hnone⟩ | ⟨cs, hfed, hreceived, hlast⟩
  · refine ⟨hs, ?_⟩
    rintro p rfl
    cases hnone
  · obtain ⟨hclean, hours⟩ := hfed.clean hs.clean
    rw [← hreceived] at hclean hours
    refine ⟨hs.of_step h hnumber hclean, fun p hp => ?_⟩
    rw [hnumber]
    exact hours p (List.mem_of_getLast? (hlast p hp))

theorem Current.readRaw (hs : Current e s) {n : ℕ}
    {packetTimeout firstByteTimeout interByteTimeout : Time}
    (h : Sys.Step E s (.readRaw n packetTimeout firstByteTimeout interByteTimeout, a) t) :
    Current e t := by
  have hstep := h
  obtain ⟨fuel, h⟩ := h
  obtain ⟨r, hread, _, _, hnumber⟩ := Sys.after_eq_some h
  apply hs.of_step hstep hnumber
  rcases hio : s.io.stream with _ | stream
  · have hrec := Ports.recorded_closed s.number hio
    rw [Driver.readRaw, hrec] at hread
    obtain ⟨-, hdriver, hworld⟩ : _ ∧ s.driver = t.driver ∧ s.world = t.world := by
      simpa only [Option.some.injEq, Prod.mk.injEq] using hread
    rw [← hdriver, ← hworld]
    exact hs.clean
  obtain ⟨cs, hend⟩ := readRaw_end hio hread
  rw [hend.driver, Driver.dropFront_internalBuffer, received_of_adds hend.adds]
  by_cases hnone : cs.flatten = []
  · rw [hnone, List.append_nil]
    exact hs.clean.suffix (List.drop_suffix _ _)
  · -- past the buffer is read only when it is empty
    rw [Nat.min_eq_left (hend.reads hnone).le, List.drop_length]
    exact clean_nil e _

theorem Sys.Step.received_of_writePacket {buffer : Bytes} {timeout : Time}
    (h : Sys.Step E s (.writePacket buffer timeout, a) t) :
    t.driver.internalBuffer = s.driver.internalBuffer ∧ t.number = s.number ∧
      ∀ j, received j t.world.trace = received j s.world.trace := by
  obtain ⟨fuel, h⟩ := h
  obtain ⟨r, hwrite, _, _, hnumber⟩ := Sys.after_eq_some h
  rcases hio : s.io.stream with _ | stream
  · have hrec := Ports.recorded_closed s.number hio
    simp only [Driver.writePacket, Driver.writePacketMilliseconds, hrec] at hwrite
    obtain ⟨-, hdriver, hworld⟩ : _ ∧ s.driver = t.driver ∧ s.world = t.world := by
      simpa only [Option.some.injEq, Prod.mk.injEq] using hwrite
    exact ⟨by rw [hdriver], hnumber, fun j => by rw [hworld]⟩
  · obtain ⟨n, hend⟩ := writePacket_end hio hwrite
    obtain ⟨stats, hdriver⟩ := hend.driver
    obtain ⟨new, hnew, hof, _⟩ := hend.accepts
    refine ⟨by rw [hdriver]; rfl, hnumber, fun j => ?_⟩
    rw [hnew, received_append, received, received, chunks_of_writing hof, List.flatten_nil,
      List.append_nil]

/-- A call keeps the buffer clean, as long as the stream is replaced only when no packet begins in
the buffer; a packet it returns is ours. -/
theorem Current.step (hb : InBounds e) (hE : E.Answers e) (hs : Current e s) {op : Op ω}
    (h : Sys.Step E s (op, a) t)
    (hbarren : ∀ stream, op = .setMainStream stream → Barren e s.driver.internalBuffer) :
    Current e t ∧ ∀ p, a = .packet p → p <:+: received t.number t.world.trace := by
  have hstep := h
  cases op with
  | readPacket => exact hs.readPacket hb hE h
  | readRaw =>
    refine ⟨hs.readRaw h, ?_⟩
    obtain ⟨fuel, h⟩ := h
    obtain ⟨_ | _, _, rfl, _⟩ := Sys.after_eq_some h <;> simp
  | writePacket =>
    obtain ⟨hbuffer, hnumber, hreceived⟩ := h.received_of_writePacket
    refine ⟨hs.of_step h hnumber ?_, ?_⟩
    · rw [hbuffer, hreceived]
      exact hs.clean
    · obtain ⟨fuel, h⟩ := h
      obtain ⟨_ | _, _, rfl, _⟩ := Sys.after_eq_some h <;> simp
  | hasPacket =>
    obtain ⟨fuel, h⟩ := h
    rw [Sys.perform, hasPacket_eq hb hE.recorded] at h
    cases h
    refine ⟨hs.of_step hstep rfl ?_, by simp⟩
    rw [received_of_adds (adds_effects E _ _), List.flatten_nil, List.append_nil]
    exact hs.clean
  | setMainStream stream =>
    obtain ⟨fuel, h⟩ := h
    cases h
    exact ⟨hs.setMainStream (hbarren stream rfl) stream, by simp⟩
  | clear =>
    obtain ⟨fuel, h⟩ := h
    cases h
    -- an empty buffer is clean
    refine ⟨hs.of_step hstep rfl ?_, by simp⟩
    simp only [Driver.clear, Driver.dropFront_internalBuffer, List.drop_length]
    exact clean_nil e _
  | _ =>
    obtain ⟨fuel, h⟩ := h
    cases h
    exact ⟨hs.of_step hstep rfl hs.clean, by simp⟩

variable {os : Os Ω} {t t' : TCPDriver Ω} {call : TCPOp Ω × Answer}

theorem Current.onMachine {s : Sys (Machine Ω)} (hs : Current e s) (f : Machine Ω → Machine Ω) :
    Current e (s.onMachine f) := ⟨hs.clean, hs.fresh⟩

theorem Current.setFileDescriptor {s : Sys (Machine Ω)} (hs : Current e s) {fd : ℤ}
    (autoClose hasEof : Bool)
    (hbarren : (∃ b, (setNonBlockingFlag os fd s.world.world.os).1 = .ok b) →
      Barren e s.driver.internalBuffer) :
    Current e (s.setFileDescriptor os fd autoClose hasEof).2 := by
  unfold Sys.setFileDescriptor
  dsimp only
  have hafter := hs.onMachine fun m => m.withOs (setNonBlockingFlag os fd s.world.world.os).2
  rcases hflag : (setNonBlockingFlag os fd s.world.world.os).1 with x | b
  · exact hafter
  · exact (hafter.onMachine _).setMainStream (hbarren ⟨b, hflag⟩) _

theorem Current.checkClientConnection (ht : Current e t.toSys)
    (hbarren : (∃ fd o b, t.Accepts os fd o ∧ (setNonBlockingFlag os fd o).1 = .ok b) →
      Barren e t.driver.internalBuffer) : Current e (t.checkClientConnection os).2.toSys := by
  obtain ⟨heq, -⟩ | ⟨fd, o, haccepts, heq⟩ := t.checkClientConnection_cases os
  · rw [heq]
    exact ht.onMachine fun m => m.withOs (os.accept t.sockedFd t.world.world.os).2
  · rw [heq]
    refine (ht.onMachine fun m => m.withOs o).setFileDescriptor false true ?_
    rintro ⟨b, hb⟩
    exact hbarren ⟨fd, o, b, haccepts, hb⟩

/-- What is caught keeps the buffer; a packet is returned as it is, or there is none. -/
theorem TCPDriver.caught_eq_some {nothing : Answer} {r} {a : Answer}
    (h : t.caught os nothing r = some (a, t')) :
    ∃ a' s, r = some (a', s) ∧ (a = a' ∨ a = nothing) ∧
      (t'.toSys = s ∨ ∃ f, t'.toSys = s.onMachine f) := by
  rcases r with _ | ⟨a', s⟩
  · cases h
  refine ⟨a', s, rfl, ?_⟩
  unfold TCPDriver.caught at h
  split at h
  · cases h
  · next hr =>
    cases hr
    split_ifs at h
    · cases h
      exact ⟨.inr rfl, .inr ⟨fun m => m.withOs (os.close t.clientFd m.os), rfl⟩⟩
    · cases h
      exact ⟨.inl rfl, .inl rfl⟩
  · next hr =>
    cases hr
    cases h
    exact ⟨.inl rfl, .inl rfl⟩

/-- A call of the server; when it replaces the stream, no packet begins in the buffer. -/
def TCPDriver.BarrenStep (os : Os Ω) (E : Extract (Machine Ω)) (e : Bytes → ℤ) (t : TCPDriver Ω)
    (call : TCPOp Ω × Answer) (t' : TCPDriver Ω) : Prop :=
  t.Step os E call t' ∧ (t.Replaces os call.1 → Barren e t.driver.internalBuffer)

def Ours (s : Sys ω) (a : Answer) : Prop :=
  ∀ p, a = .packet p → p <:+: received s.number s.world.trace

theorem Ours.of_nothing {s : Sys ω} {a : Answer} (h : ∀ p ∈ a.packets, p = []) : Ours s a := by
  rintro p rfl
  rw [h p (List.mem_singleton_self p)]
  exact List.nil_infix

theorem Current.caught {E : Extract (Machine Ω)} (hb : InBounds e) (hE : E.Answers e)
    (ht : Current e t.toSys) {fuel : ℕ} {op : Op (Machine Ω)} {nothing a : Answer}
    (hop : ∀ stream, op ≠ .setMainStream stream) (hnothing : ∀ p ∈ nothing.packets, p = [])
    (h : t.caught os nothing (t.toSys.perform E fuel op) = some (a, t')) :
    Current e t'.toSys ∧ Ours t'.toSys a := by
  obtain ⟨a', s, hr, ha, hs⟩ := TCPDriver.caught_eq_some h
  obtain ⟨hcurrent, hours⟩ := ht.step hb hE ⟨fuel, hr⟩ fun stream hset => absurd hset (hop stream)
  have hsame : Current e t'.toSys ∧ Ours t'.toSys a' := by
    obtain hs | ⟨f, hs⟩ := hs <;> rw [hs]
    · exact ⟨hcurrent, hours⟩
    · exact ⟨hcurrent.onMachine f, hours⟩
  obtain rfl | rfl := ha
  · exact hsame
  · exact ⟨hsame.1, .of_nothing hnothing⟩

theorem Current.checked (ht : Current e t.toSys)
    (hbarren : (∃ fd o b, t.Accepts os fd o ∧ (setNonBlockingFlag os fd o).1 = .ok b) →
      Barren e t.driver.internalBuffer)
    {rest : TCPDriver Ω → Option (Answer × TCPDriver Ω)} {a : Answer}
    (h : t.checked os rest = some (a, t'))
    (hrest : ∀ u : TCPDriver Ω, Current e u.toSys → rest u = some (a, t') →
      Current e t'.toSys ∧ Ours t'.toSys a) : Current e t'.toSys ∧ Ours t'.toSys a := by
  have hcheck := ht.checkClientConnection hbarren
  unfold TCPDriver.checked at h
  rcases hr : t.checkClientConnection os with ⟨x | _, u⟩
  all_goals rw [hr] at h hcheck
  · cases h
    exact ⟨hcheck, .of_nothing (by simp [Answer.packets])⟩
  · exact hrest u hcheck h

theorem Answer.packets_ofUnit (r : Except Exn Unit) : (Answer.ofUnit r).packets = [] := by
  rcases r with x | _
  · rfl
  · rfl

theorem Current.server_step {E : Extract (Machine Ω)} (hb : InBounds e) (hE : E.Answers e)
    (ht : Current e t.toSys) (h : t.BarrenStep os E e call t') :
    Current e t'.toSys ∧ Ours t'.toSys call.2 := by
  obtain ⟨op, a⟩ := call
  obtain ⟨⟨fuel, h⟩, hbarren⟩ := h
  cases op with
  | readPacketDefault n =>
    refine ht.checked hbarren h fun u hu hrest => ?_
    dsimp only at hrest
    split_ifs at hrest
    · obtain ⟨r, hr, hcall⟩ := Option.map_eq_some_iff.mp hrest
      cases hcall
      exact hu.step hb hE ⟨fuel, hr⟩ (by simp)
    · cases hrest
      exact ⟨hu, .of_nothing (by simp [Answer.packets])⟩
  | readPacket n packetTimeout firstByteTimeout =>
    refine ht.checked hbarren h fun u hu hrest => ?_
    dsimp only at hrest
    split_ifs at hrest
    · exact hu.caught hb hE (by simp) (by simp [Answer.packets]) hrest
    · cases hrest
      exact ⟨hu, .of_nothing (by simp [Answer.packets])⟩
  | writePacket buffer timeout =>
    refine ht.checked hbarren h fun u hu hrest => ?_
    dsimp only at hrest
    split_ifs at hrest
    · exact hu.caught hb hE (by simp) (by simp [Answer.packets]) hrest
    · cases hrest
      exact ⟨hu, .of_nothing (by simp [Answer.packets])⟩
  | checkClientConnection =>
    obtain ⟨rfl, rfl⟩ := Prod.mk.inj (Option.some.inj h)
    exact ⟨ht.checkClientConnection hbarren, .of_nothing (by simp [Answer.packets_ofUnit])⟩
  | setFileDescriptor fd autoClose hasEof =>
    obtain ⟨rfl, rfl⟩ := Prod.mk.inj (Option.some.inj h)
    exact ⟨ht.setFileDescriptor autoClose hasEof hbarren,
      .of_nothing (by simp [Answer.packets_ofUnit])⟩
  | driver op =>
    obtain ⟨r, hr, hcall⟩ := Option.map_eq_some_iff.mp h
    cases hcall
    refine ht.step hb hE ⟨fuel, hr⟩ ?_
    rintro stream rfl
    exact hbarren trivial

/-- A server, or any driver, before its first call. -/
def TCPDriver.start (io : Ports (Machine Ω)) (driver : Driver) (m : Machine Ω)
    (sockedFd clientFd : ℤ) : TCPDriver Ω := ⟨.start io driver m, sockedFd, clientFd⟩

/-- **No packet mixes two connections**, as long as no packet begins in the bytes that are in the
buffer when the stream is replaced: then every packet that is returned is a block of the bytes
read from the current stream. -/
theorem packet_of_one_connection {E : Extract (Machine Ω)} (hb : InBounds e) (hE : E.Answers e)
    {io : Ports (Machine Ω)} {M : ℕ} {extractLast : Bool} {m : Machine Ω} {sockedFd clientFd : ℤ}
    {calls : List (TCPOp Ω × Answer)}
    (h : Lts.Run (TCPDriver.BarrenStep os E e)
      (.start io (.new M extractLast) m sockedFd clientFd) calls t)
    {op : TCPOp Ω} {p : Bytes} (hlast : calls.getLast? = some (op, .packet p)) :
    p <:+: received t.number t.world.trace := by
  have hstart : Current e
      (TCPDriver.start io (.new M extractLast) m sockedFd clientFd : TCPDriver Ω).toSys :=
    ⟨clean_nil e _, fun _ _ => rfl⟩
  have ht := h.history
    (I := fun calls t => Current e t.toSys ∧ ∀ call ∈ calls.getLast?, Ours t.toSys call.2)
    (fun calls t call t' ih hstep => by
      obtain ⟨hcurrent, hours⟩ := ih.1.server_step hb hE hstep
      exact ⟨hcurrent, by simpa using hours⟩) [] ⟨hstart, by simp⟩
  exact ht.2 _ hlast p rfl

/-- The scripted system, a client waiting at every call. -/
def Script.server : Os Script := { Script.os with accept := fun _ w => (.ok (w.length + 5), w) }

/-- A fresh server without a client. -/
def Script.serve (script : Script) : TCPDriver Script :=
  .start (Script.server.ports none []) (.new 100 false) (.start script) 3 0

/-- A packet from each of two clients. -/
theorem packet_of_one_connection_sample : ∃ calls t,
    Lts.Run (TCPDriver.BarrenStep Script.server (.pure driverTestExtractPacket)
      driverTestExtractPacket) (Script.serve [[0, 1, 2, 0], [0, 3, 4, 0]]) calls t ∧
    calls.getLast?.map Prod.snd = some (.packet [0, 3, 4, 0]) ∧ t.number = 2 ∧
    [0, 3, 4, 0] <:+: received t.number t.world.trace := by
  obtain ⟨calls, t, hrun, _, hnumber, hlast⟩ := Lts.exists_run
    (fun t op a t' (h : (if t.driver.internalBuffer = [] then
        t.perform Script.server (.pure driverTestExtractPacket) 5 op else none) =
        some (a, t')) => by
      split_ifs at h with hnil
      exact show TCPDriver.BarrenStep Script.server (.pure driverTestExtractPacket)
        driverTestExtractPacket t (op, a) t' from ⟨⟨5, h⟩, fun _ => hnil ▸ barren_nil⟩)
    (Script.serve [[0, 1, 2, 0], [0, 3, 4, 0]])
    (List.replicate 2 (.readPacket 100 0 0))
    (fun calls t => t.number = 2 ∧ calls.getLast?.map Prod.snd = some (.packet [0, 3, 4, 0]))
    (by decide +kernel)
  obtain ⟨⟨op, _⟩, hcall, rfl⟩ := Option.map_eq_some_iff.mp hlast
  exact ⟨calls, t, hrun, hlast, hnumber, packet_of_one_connection driverTest_inBounds
    (Extract.answers_pure _) hrun hcall⟩

/-- The first client leaves in the middle of a packet, the second one sends two bytes, and the
packet is made of both. -/
theorem packet_of_two_connections : ∃ calls t,
    Lts.Run (TCPDriver.Step Script.server (.pure driverTestExtractPacket))
      (Script.serve [[0, 1], [], [2, 0]]) calls t ∧
    calls.map Prod.fst = List.replicate 2 (.readPacket 100 0 0) ∧
    calls.getLast?.map Prod.snd = some (.packet [0, 1, 2, 0]) ∧
    received t.number t.world.trace = [2, 0] ∧
    ¬ [0, 1, 2, 0] <:+: received t.number t.world.trace := by
  have hstep : ∀ t op a t', TCPDriver.perform Script.server (.pure driverTestExtractPacket) 5 t op =
      some (a, t') → t.Step Script.server (.pure driverTestExtractPacket) (op, a) t' :=
    fun _ _ _ _ h => ⟨5, h⟩
  exact Lts.exists_run hstep _ _
    (fun calls t => calls.getLast?.map Prod.snd = some (.packet [0, 1, 2, 0]) ∧
      received t.number t.world.trace = [2, 0] ∧
      ¬ [0, 1, 2, 0] <:+: received t.number t.world.trace) (by decide +kernel)

end IodriversBase
