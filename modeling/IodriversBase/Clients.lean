import IodriversBase.Replacement

namespace IodriversBase

variable {Ω : Type}

inductive FdEvent
  | opened (fd : ℤ)
  | closed (fd : ℤ)
  | used (fd : ℤ)
  deriving DecidableEq

/-- Whether `fd` is open after the event, when `was` says whether it was before. -/
def FdEvent.leaves (fd : ℤ) (was : Bool) : FdEvent → Bool
  | .opened fd' => was || fd' == fd
  | .closed fd' => was && fd' != fd
  | .used _ => was

def isOpen (fd : ℤ) (log : List FdEvent) : Bool := log.foldl (FdEvent.leaves fd) false

/-- What may follow the log: a descriptor that is opened is new, one that is closed or used is
open. -/
def FdEvent.Allowed (log : List FdEvent) : FdEvent → Prop
  | .opened fd => isOpen fd log = false
  | .closed fd | .used fd => isOpen fd log = true

/-- Every event is allowed where it stands. -/
def Disciplined (log : List FdEvent) : Prop :=
  ∀ before ev rest, log = before ++ ev :: rest → ev.Allowed before

/-- The system, with a log of the descriptors that are opened, closed and used.  It hands out a
client only with a fresh descriptor above 0. -/
def Os.audited (os : Os Ω) : Os (Ω × List FdEvent) where
  read fd n w := ((os.read fd n w.1).1, (os.read fd n w.1).2, w.2 ++ [.used fd])
  recv fd flags n w := ((os.recv fd flags n w.1).1, (os.recv fd flags n w.1).2, w.2 ++ [.used fd])
  write fd data w := ((os.write fd data w.1).1, (os.write fd data w.1).2, w.2 ++ [.used fd])
  send fd flags data w :=
    ((os.send fd flags data w.1).1, (os.send fd flags data w.1).2, w.2 ++ [.used fd])
  select reads writes t w :=
    ((os.select reads writes t w.1).1, (os.select reads writes t w.1).2,
      w.2 ++ (reads ++ writes).map .used)
  accept fd w :=
    match os.accept fd w.1 with
    | (.ok client, o) =>
      if 0 < client ∧ isOpen client w.2 = false then
        (.ok client, o, w.2 ++ [.used fd, .opened client])
      else (.error EAGAIN, o, w.2 ++ [.used fd])
    | (.error errno, o) => (.error errno, o, w.2 ++ [.used fd])
  close fd w := (os.close fd w.1, w.2 ++ [.closed fd])
  getFlags fd w := ((os.getFlags fd w.1).1, (os.getFlags fd w.1).2, w.2 ++ [.used fd])
  setFlags fd flags w :=
    ((os.setFlags fd flags w.1).1, (os.setFlags fd flags w.1).2, w.2 ++ [.used fd])
  now w := ((os.now w.1).1, (os.now w.1).2, w.2)

/-- An extractor on the system, the machine and the log left alone. -/
def Extract.audited (E : Extract Ω) : Extract (Machine (Ω × List FdEvent)) :=
  fun b m => ((E b m.os.1).1, m.withOs ((E b m.os.1).2, m.os.2))

def Os.auditedPorts (os : Os Ω) (listeners : List (ℕ × IOListener Ω))
    (stream : Option (IOStream (Machine (Ω × List FdEvent)))) :
    Ports (Machine (Ω × List FdEvent)) :=
  os.audited.ports stream (listeners.map fun l => (l.1, l.2.logged))

section Log

variable {fd fd' : ℤ} {log : List FdEvent} {ev : FdEvent}

@[simp] theorem isOpen_nil (fd : ℤ) : isOpen fd [] = false := rfl

@[simp] theorem isOpen_append (fd : ℤ) (log : List FdEvent) (ev : FdEvent) :
    isOpen fd (log ++ [ev]) = ev.leaves fd (isOpen fd log) := by
  simp [isOpen]

theorem disciplined_nil : Disciplined [] := by
  intro before ev rest h
  simp at h

theorem disciplined_append :
    Disciplined (log ++ [ev]) ↔ Disciplined log ∧ ev.Allowed log := by
  constructor
  · intro h
    refine ⟨fun before ev' rest heq => h before ev' (rest ++ [ev]) (by simp [heq]), ?_⟩
    exact h log ev [] rfl
  · rintro ⟨h, hev⟩ before ev' rest heq
    rcases List.eq_nil_or_concat rest with rfl | ⟨rest, last, rfl⟩
    · obtain ⟨rfl, hlast⟩ := List.append_inj' heq rfl
      obtain rfl := List.singleton_inj.mp hlast
      exact hev
    · refine h before ev' rest ?_
      have heq' : log ++ [ev] = (before ++ ev' :: rest) ++ [last] := by simpa using heq
      exact (List.append_inj' heq' rfl).1

/-- In a disciplined log a descriptor is closed as often as it is opened, but for the last time
when it is still open. -/
theorem Disciplined.count_closed (h : Disciplined log) (fd : ℤ) :
    log.count (.closed fd) + (if isOpen fd log then 1 else 0) = log.count (.opened fd) := by
  induction log using List.reverseRecOn with
  | nil => simp
  | append_singleton log ev ih =>
    obtain ⟨hlog, hev⟩ := disciplined_append.mp h
    have ih := ih hlog
    rw [List.count_append, List.count_append, isOpen_append]
    cases ev with
    | opened fd' =>
      by_cases hfd : fd' = fd
      · subst hfd
        have hclosed : isOpen fd' log = false := hev
        simp [FdEvent.leaves, hclosed] at ih ⊢
        omega
      · simp [FdEvent.leaves, hfd]
        exact ih
    | closed fd' =>
      by_cases hfd : fd' = fd
      · subst hfd
        have hopen : isOpen fd' log = true := hev
        simp [FdEvent.leaves, hopen] at ih ⊢
        omega
      · simp [FdEvent.leaves, hfd]
        exact ih
    | used fd' =>
      simp [FdEvent.leaves]
      exact ih

theorem isOpen_uses (fd fd' : ℤ) (log : List FdEvent) (n : ℕ) :
    isOpen fd (log ++ List.replicate n (.used fd')) = isOpen fd log := by
  induction n with
  | zero => simp
  | succ n ih => rw [List.replicate_succ', ← List.append_assoc, isOpen_append, ih]; rfl

theorem Disciplined.uses (h : Disciplined log) (hfd : isOpen fd log = true) (n : ℕ) :
    Disciplined (log ++ List.replicate n (.used fd)) := by
  induction n with
  | zero => simpa using h
  | succ n ih =>
    rw [List.replicate_succ', ← List.append_assoc, disciplined_append]
    refine ⟨ih, ?_⟩
    change isOpen fd (log ++ List.replicate n (.used fd)) = true
    rw [isOpen_uses, hfd]

end Log

/-- Between two worlds, only the descriptor `fd` was used, and none was opened or closed. -/
def UsesFd (fd : ℤ) (w w' : Recorded (Machine (Ω × List FdEvent))) : Prop :=
  ∃ n, w'.world.os.2 = w.world.os.2 ++ List.replicate n (.used fd)

variable {fd : ℤ} {os : Os Ω} {listeners : List (ℕ × IOListener Ω)} {k id : ℕ}
  {stream : Option (IOStream (Machine (Ω × List FdEvent)))}
  {w w' w'' : Recorded (Machine (Ω × List FdEvent))}

theorem UsesFd.of_eq (h : w'.world.os.2 = w.world.os.2) : UsesFd fd w w' := ⟨0, by simp [h]⟩

theorem UsesFd.once (h : w'.world.os.2 = w.world.os.2 ++ [.used fd]) : UsesFd fd w w' := ⟨1, h⟩

theorem UsesFd.trans (h : UsesFd fd w w') (h' : UsesFd fd w' w'') : UsesFd fd w w'' := by
  obtain ⟨n, hn⟩ := h
  obtain ⟨m, hm⟩ := h'
  exact ⟨n + m, by rw [hm, hn, List.append_assoc, List.replicate_append_replicate]⟩

theorem recorded_stream (hstream : ∀ st ∈ stream, st = fdStream os.audited id fd false true) :
    ∀ st ∈ ((os.auditedPorts listeners stream).recorded k).stream,
      st = (fdStream os.audited id fd false true).recorded k := by
  intro st hst
  obtain ⟨st', hst', rfl⟩ := Option.map_eq_some_iff.mp hst
  rw [hstream st' hst']

theorem usesFd_keeps (hstream : ∀ st ∈ stream, st = fdStream os.audited id fd false true) :
    ((os.auditedPorts listeners stream).recorded k).Keeps (UsesFd fd) where
  refl _ := .of_eq rfl
  trans := UsesFd.trans
  now _ := .of_eq rfl
  notifyRead data w := by
    apply Os.notifyRead_rule _ (UsesFd.of_eq rfl)
    intro l hl w' hw'
    obtain ⟨l₀, _, rfl⟩ := List.mem_map.mp hl
    exact hw'.trans (.of_eq rfl)
  notifyWrite data w := by
    apply Os.notifyWrite_rule _ (UsesFd.of_eq rfl)
    intro l hl w' hw'
    obtain ⟨l₀, _, rfl⟩ := List.mem_map.mp hl
    exact hw'.trans (.of_eq rfl)
  read := by
    intro st n w r w' hst hr
    obtain rfl := recorded_stream hstream st hst
    cases hr
    exact .once (congrArg Prod.snd (descriptorStream_read_os n w.world))
  waitRead := by
    intro st t w r w' hst hr
    obtain rfl := recorded_stream hstream st hst
    cases hr
    exact .once rfl
  write := by
    intro st data w r w' hst hr
    obtain rfl := recorded_stream hstream st hst
    cases hr
    exact .once (congrArg Prod.snd (descriptorStream_write_os data w.world))
  waitWrite := by
    intro st t w r w' hst hr
    obtain rfl := recorded_stream hstream st hst
    cases hr
    exact .once rfl

/-- The driver is on the audited system, with the stream `fdStream` over `fd` if it has one. -/
def Sys.OnFd (os : Os Ω) (listeners : List (ℕ × IOListener Ω)) (fd : ℤ)
    (s : Sys (Machine (Ω × List FdEvent))) : Prop :=
  ∃ stream, s.io = os.auditedPorts listeners stream ∧
    ∀ st ∈ stream, st = fdStream os.audited s.number fd false true

/-- A call on a stream over `fd` uses no other descriptor; it leaves the stream or, if it is
`close`, deletes it. -/
theorem Sys.OnFd.perform {E : Extract Ω} {fuel : ℕ} {s t : Sys (Machine (Ω × List FdEvent))}
    {op : Op (Machine (Ω × List FdEvent))} {a : Answer} (hs : s.OnFd os listeners fd)
    (hop : ∀ st, op ≠ .setMainStream st) (h : s.perform E.audited fuel op = some (a, t)) :
    UsesFd fd s.world t.world ∧ t.number = s.number ∧
      (t.io = s.io ∨ t.io = os.auditedPorts listeners none) := by
  obtain ⟨stream, hio, hstream⟩ := hs
  have hkeeps : (s.io.recorded s.number).Keeps (UsesFd fd) := hio ▸ usesFd_keeps hstream
  have hE : E.audited.recorded.Keeps (UsesFd fd) := fun _ _ => .of_eq rfl
  cases op with
  | readPacket =>
    obtain ⟨_, hr, _, ht, hn⟩ := Sys.after_eq_some h
    exact ⟨readPacket_keeps hkeeps.toKeepsReading.hearing hE hr, hn, .inl ht⟩
  | readRaw =>
    obtain ⟨_, hr, _, ht, hn⟩ := Sys.after_eq_some h
    exact ⟨readRaw_keeps hkeeps.toKeepsReading.hearing hr, hn, .inl ht⟩
  | writePacket =>
    obtain ⟨_, hr, _, ht, hn⟩ := Sys.after_eq_some h
    exact ⟨writePacket_keeps hkeeps.telling.toKeepsWriting hr, hn, .inl ht⟩
  | hasPacket =>
    obtain ⟨_, hr, _, ht, hn⟩ := Sys.after_eq_some h
    exact ⟨hasPacket_keeps hkeeps.toKeepsReading.hearing hE hr, hn, .inl ht⟩
  | clear =>
    cases h
    refine ⟨?_, rfl, .inl rfl⟩
    rcases stream with _ | st
    · simp only [hio]
      exact .of_eq rfl
    · obtain rfl := hstream st rfl
      simp only [hio]
      exact .of_eq rfl
  | setMainStream st => exact absurd rfl (hop st)
  | close =>
    cases h
    refine ⟨?_, rfl, .inr (by rw [hio]; rfl)⟩
    rcases stream with _ | st
    · simp only [hio]
      exact .of_eq rfl
    · obtain rfl := hstream st rfl
      simp only [hio]
      exact .of_eq rfl
  | _ =>
    cases h
    exact ⟨.of_eq rfl, rfl, .inl rfl⟩

def TCPOp.Serves : TCPOp Ω → Prop
  | .setFileDescriptor _ _ _ | .driver (.setMainStream _) => False
  | _ => True

namespace TCPDriver

/-- The log of the system. -/
def log (t : TCPDriver (Ω × List FdEvent)) : List FdEvent := t.world.world.os.2

/-- A new driver after `tcp_server_init` has opened the socket. -/
def init (os : Os Ω) (listeners : List (ℕ × IOListener Ω)) (driver : Driver) (o : Ω)
    (sockedFd : ℤ) : TCPDriver (Ω × List FdEvent) :=
  .start (os.auditedPorts listeners none) driver (.start (o, [.opened sockedFd])) sockedFd 0

/-- `~TCPDriver`, and `~Driver` after it. -/
def destroy (os : Os Ω) (t : TCPDriver Ω) : TCPDriver Ω :=
  let s := t.onMachine fun m => m.withOs (os.close t.sockedFd m.os)
  let s :=
    if t.clientFd ≠ 0 then s.onMachine fun m => m.withOs (os.close t.clientFd m.os) else s
  { t with
    toSys := { s with
      io := (close s.io s.world.world).1
      world := ⟨(close s.io s.world.world).2, s.world.trace⟩ } }

/-- The log is in order, and whenever `isValid` holds, the descriptor of the main stream is
open. -/
structure Safe (t : TCPDriver (Ω × List FdEvent)) : Prop where
  log : Disciplined t.log
  valid : ∀ st ∈ t.io.stream, isOpen (st.getFileDescriptor t.world.world) t.log = true

/-- A client is accepted while the driver has the stream of another one, and the flags of its
descriptor cannot be set. -/
def Strands (os : Os Ω) (t : TCPDriver Ω) : Prop :=
  t.io.stream ≠ none ∧ ∃ fd o x, t.Accepts os fd o ∧ (setNonBlockingFlag os fd o).1 = .error x

/-- The call of the base class on a client throws the error of a broken pipe. -/
def PipeBroken (E : Extract (Machine Ω)) (fuel : ℕ) (t : TCPDriver Ω) (op : Op (Machine Ω)) :
    Prop :=
  t.clientFd ≠ 0 ∧ ∃ what s, t.toSys.perform E fuel op = some (.threw (.unixError what EPIPE), s)

/-- The handler of the broken pipe runs, or the stream of a new client cannot be made after the old
one was closed. -/
def Breaks (os : Os Ω) (E : Extract (Machine Ω)) (fuel : ℕ) (t : TCPDriver Ω) : TCPOp Ω → Prop
  | .readPacketDefault _ | .checkClientConnection => t.Strands os
  | .readPacket n packetTimeout firstByteTimeout => t.Strands os ∨
      ∃ u, t.checkClientConnection os = (.ok (), u) ∧
        u.PipeBroken E fuel (.readPacket n packetTimeout firstByteTimeout)
  | .writePacket buffer timeout => t.Strands os ∨
      ∃ u, t.checkClientConnection os = (.ok (), u) ∧
        u.PipeBroken E fuel (.writePacket buffer timeout)
  | _ => False

end TCPDriver

/-- A call that comes back, and the server before and after it. -/
structure TCPCall (Ω : Type) where
  before : TCPDriver Ω
  op : TCPOp Ω
  fuel : ℕ
  answer : Answer
  after : TCPDriver Ω

/-- A call of a run. -/
structure TCPCall.Step (os : Os Ω) (E : Extract (Machine Ω)) (t : TCPDriver Ω) (call : TCPCall Ω)
    (t' : TCPDriver Ω) : Prop where
  before : call.before = t
  after : call.after = t'
  serves : call.op.Serves
  performed : t.perform os E call.fuel call.op = some (call.answer, t')

/-- The call leaves the driver a stream on a descriptor that is closed. -/
def TCPCall.Breaks (os : Os Ω) (E : Extract (Machine Ω)) (call : TCPCall Ω) : Prop :=
  call.before.Breaks os E call.fuel call.op

/-- The open descriptors are that of the socket, and that of the client if there is one; the main
stream, if there is one, is on the client. -/
structure TCPDriver.Owns (os : Os Ω) (listeners : List (ℕ × IOListener Ω))
    (t : TCPDriver (Ω × List FdEvent)) : Prop where
  stream : t.OnFd os listeners t.clientFd
  hasClient : t.io.stream ≠ none → t.clientFd ≠ 0
  log : Disciplined t.log
  socked : isOpen t.sockedFd t.log = true
  client : t.clientFd ≠ 0 → isOpen t.clientFd t.log = true ∧ t.clientFd ≠ t.sockedFd
  others : ∀ fd, isOpen fd t.log = true → fd = t.sockedFd ∨ t.clientFd ≠ 0 ∧ fd = t.clientFd

variable {E : Extract Ω} {t t' : TCPDriver (Ω × List FdEvent)}

theorem isOpen_opened (fd fd' : ℤ) : isOpen fd [.opened fd'] = (fd' == fd) := rfl

theorem disciplined_opened (fd : ℤ) : Disciplined [.opened fd] := by
  have hopened : Disciplined ([] ++ [.opened fd]) := disciplined_append.mpr ⟨disciplined_nil, rfl⟩
  exact hopened

theorem TCPDriver.owns_init (os : Os Ω) (listeners : List (ℕ × IOListener Ω)) (driver : Driver)
    (o : Ω) (sockedFd : ℤ) : (init os listeners driver o sockedFd).Owns os listeners where
  stream := ⟨none, rfl, by simp⟩
  hasClient := fun h => absurd rfl h
  log := disciplined_opened sockedFd
  socked := (isOpen_opened sockedFd sockedFd).trans (beq_self_eq_true sockedFd)
  client := fun h => absurd rfl h
  others := by
    intro fd hfd
    rw [show (init os listeners driver o sockedFd).log = [.opened sockedFd] from rfl,
      isOpen_opened, beq_iff_eq] at hfd
    exact .inl hfd.symm

theorem TCPDriver.Owns.safe (h : t.Owns os listeners) : t.Safe where
  log := h.log
  valid := by
    intro st hst
    obtain ⟨stream, hio, hstream⟩ := h.stream
    have hclient := h.hasClient (by rw [hst]; simp)
    rw [hio] at hst
    obtain rfl := hstream st hst
    exact (h.client hclient).1

theorem audited_accept (os : Os Ω) (fd : ℤ) (w : Ω × List FdEvent) :
    (∃ errno o, os.audited.accept fd w = (.error errno, o, w.2 ++ [.used fd])) ∨
      ∃ client o, os.audited.accept fd w = (.ok client, o, w.2 ++ [.used fd] ++ [.opened client]) ∧
        0 < client ∧ isOpen client w.2 = false := by
  simp only [Os.audited]
  rcases os.accept fd w.1 with ⟨errno | client, o⟩
  · exact .inl ⟨errno, o, rfl⟩
  · dsimp only
    split_ifs with hfresh
    · exact .inr ⟨client, o, by simp, hfresh⟩
    · exact .inl ⟨EAGAIN, o, rfl⟩

theorem Sys.OnFd.onMachine {s : Sys (Machine (Ω × List FdEvent))} (hs : s.OnFd os listeners fd)
    (f) : (s.onMachine f).OnFd os listeners fd := hs

/-- A new stream takes the place of the old one, which does not close its descriptor. -/
theorem Sys.OnFd.giveStream {s : Sys (Machine (Ω × List FdEvent))}
    (hs : s.OnFd os listeners fd) (client : ℤ) :
    (s.giveStream os.audited client false true).OnFd os listeners client ∧
      (s.giveStream os.audited client false true).world.world.os = s.world.world.os := by
  obtain ⟨stream, hio, hstream⟩ := hs
  constructor
  · refine ⟨some (fdStream os.audited (s.number + 1) client false true), ?_, ?_⟩
    · simp only [Sys.giveStream, Sys.setMainStream, IodriversBase.setMainStream, Sys.onMachine, hio]
      rfl
    · rintro st ⟨⟩
      rfl
  · rcases stream with _ | st
    · simp only [Sys.giveStream, Sys.setMainStream, IodriversBase.setMainStream, Sys.onMachine, hio,
        Os.auditedPorts, Os.ports]
    · obtain rfl := hstream st rfl
      simp only [Sys.giveStream, Sys.setMainStream, IodriversBase.setMainStream, Sys.onMachine, hio,
        Os.auditedPorts, Os.ports, fdStream, descriptorStream]
      rfl

theorem setNonBlockingFlag_uses (os : Os Ω) (client : ℤ) (w : Ω × List FdEvent) :
    ∃ n, (setNonBlockingFlag os.audited client w).2.2 = w.2 ++ List.replicate n (.used client) := by
  have hmore (log : List FdEvent) (h : ∃ n, log = w.2 ++ List.replicate n (.used client)) :
      ∃ n, log ++ [.used client] = w.2 ++ List.replicate n (.used client) := by
    obtain ⟨n, hn⟩ := h
    exact ⟨n + 1, by rw [hn, List.append_assoc, ← List.replicate_succ']⟩
  have hstart : ∃ n, w.2 = w.2 ++ List.replicate n (.used client) := ⟨0, by simp⟩
  refine setNonBlockingFlag_keeps
    (P := fun w' : Ω × List FdEvent => ∃ n, w'.2 = w.2 ++ List.replicate n (.used client))
    ?_ ?_ hstart
  · exact fun w' h => hmore w'.2 h
  · exact fun _ w' h => hmore w'.2 h

/-- Where the stream cannot be made, the driver keeps its own; only `client` is used. -/
theorem Sys.OnFd.setFileDescriptor {s : Sys (Machine (Ω × List FdEvent))}
    (hs : s.OnFd os listeners fd) (client : ℤ) :
    UsesFd client s.world (s.setFileDescriptor os.audited client false true).2.world ∧
      ((∃ b, (setNonBlockingFlag os.audited client s.world.world.os).1 = .ok b) ∧
          (s.setFileDescriptor os.audited client false true).1 = .ok () ∧
          (s.setFileDescriptor os.audited client false true).2.OnFd os listeners client ∨
        ∃ x, (setNonBlockingFlag os.audited client s.world.world.os).1 = .error x ∧
          (s.setFileDescriptor os.audited client false true).1 = .error x ∧
          (s.setFileDescriptor os.audited client false true).2.io = s.io) := by
  have hused := setNonBlockingFlag_uses os client s.world.world.os
  have hs' : Sys.OnFd os listeners fd (s.onMachine fun m =>
      m.withOs (setNonBlockingFlag os.audited client s.world.world.os).2) := hs
  obtain ⟨hgiven, hos⟩ := hs'.giveStream client
  unfold Sys.setFileDescriptor
  dsimp only
  rcases hflag : (setNonBlockingFlag os.audited client s.world.world.os).1 with x | b
  · exact ⟨hused, .inr ⟨x, rfl, rfl, rfl⟩⟩
  · refine ⟨?_, .inl ⟨⟨b, rfl⟩, rfl, hgiven⟩⟩
    obtain ⟨n, hn⟩ := hused
    exact ⟨n, (congrArg Prod.snd hos).trans hn⟩

theorem TCPDriver.Owns.of_uses (h : t.Owns os listeners) {n : ℕ} (hfd : isOpen fd t.log = true)
    (hlog : t'.log = t.log ++ List.replicate n (.used fd)) (hsocked : t'.sockedFd = t.sockedFd)
    (hclient : t'.clientFd = t.clientFd) (hstream : t'.OnFd os listeners t'.clientFd)
    (hhas : t'.io.stream ≠ none → t'.clientFd ≠ 0) : t'.Owns os listeners where
  stream := hstream
  hasClient := hhas
  log := hlog ▸ h.log.uses hfd n
  socked := by rw [hlog, hsocked, isOpen_uses, h.socked]
  client := by
    rw [hlog, hclient, hsocked, isOpen_uses]
    exact h.client
  others := by
    intro fd'
    rw [hlog, hclient, hsocked, isOpen_uses]
    exact h.others fd'

/-- The log when a client is accepted and the old one, if there is one, is closed. -/
def acceptedLog (log : List FdEvent) (socked old client : ℤ) : List FdEvent :=
  log ++ [.used socked] ++ [.opened client] ++ if old ≠ 0 then [.closed old] else []

theorem TCPDriver.Owns.disciplined_accepted (h : t.Owns os listeners) {client : ℤ}
    (hfresh : isOpen client t.log = false) :
    Disciplined (acceptedLog t.log t.sockedFd t.clientFd client) := by
  have hused : Disciplined (t.log ++ [.used t.sockedFd]) :=
    disciplined_append.mpr ⟨h.log, h.socked⟩
  have hopened : Disciplined (t.log ++ [.used t.sockedFd] ++ [.opened client]) := by
    refine disciplined_append.mpr ⟨hused, ?_⟩
    simpa [FdEvent.Allowed, FdEvent.leaves] using hfresh
  unfold acceptedLog
  by_cases hold : t.clientFd ≠ 0
  · rw [if_pos hold]
    refine disciplined_append.mpr ⟨hopened, ?_⟩
    simp only [FdEvent.Allowed, isOpen_append, FdEvent.leaves, (h.client hold).1, Bool.true_or]
  · rwa [if_neg hold, List.append_nil]

theorem TCPDriver.Owns.isOpen_accepted (h : t.Owns os listeners) {client : ℤ}
    (hfresh : isOpen client t.log = false) (fd : ℤ) :
    isOpen fd (acceptedLog t.log t.sockedFd t.clientFd client) = true ↔
      fd = t.sockedFd ∨ fd = client := by
  have hothers := h.others fd
  unfold acceptedLog
  by_cases hold : t.clientFd ≠ 0
  · obtain ⟨hopen, hdiff⟩ := h.client hold
    have hnew : client ≠ t.clientFd := by
      rintro rfl
      rw [hopen] at hfresh
      cases hfresh
    rw [if_pos hold]
    simp only [isOpen_append, FdEvent.leaves, Bool.and_eq_true, Bool.or_eq_true, beq_iff_eq,
      bne_iff_ne]
    constructor
    · rintro ⟨hfd | rfl, hleft⟩
      · exact .inl ((hothers hfd).resolve_right fun hc => hleft hc.2.symm)
      · exact .inr rfl
    · rintro (rfl | rfl)
      · exact ⟨.inl h.socked, hdiff⟩
      · exact ⟨.inr rfl, hnew.symm⟩
  · rw [if_neg hold, List.append_nil]
    simp only [isOpen_append, FdEvent.leaves, Bool.or_eq_true, beq_iff_eq]
    constructor
    · rintro (hfd | rfl)
      · exact .inl ((hothers hfd).resolve_right fun hc => hold hc.1)
      · exact .inr rfl
    · rintro (rfl | rfl)
      · exact .inl h.socked
      · exact .inr rfl

def AcceptedLog (t : TCPDriver (Ω × List FdEvent)) (client : ℤ) (log : List FdEvent) : Prop :=
  ∃ n, log = acceptedLog t.log t.sockedFd t.clientFd client ++ List.replicate n (.used client)

theorem TCPDriver.Owns.isOpen_acceptedLog (h : t.Owns os listeners) {client : ℤ}
    (hfresh : isOpen client t.log = false) {log : List FdEvent} (hlog : AcceptedLog t client log)
    (fd : ℤ) : isOpen fd log = true ↔ fd = t.sockedFd ∨ fd = client := by
  obtain ⟨n, rfl⟩ := hlog
  rw [isOpen_uses, h.isOpen_accepted hfresh]

theorem TCPDriver.Owns.accepted (h : t.Owns os listeners) {client : ℤ} (hpos : 0 < client)
    (hfresh : isOpen client t.log = false) (hlog : AcceptedLog t client t'.log)
    (hsocked : t'.sockedFd = t.sockedFd) (hclient : t'.clientFd = client)
    (hstream : t'.OnFd os listeners client) : t'.Owns os listeners := by
  have hopen := h.isOpen_acceptedLog hfresh hlog
  have hdisciplined : Disciplined t'.log := by
    obtain ⟨n, hn⟩ := hlog
    rw [hn]
    refine (h.disciplined_accepted hfresh).uses ?_ n
    exact (h.isOpen_accepted hfresh client).mpr (.inr rfl)
  refine ⟨hclient ▸ hstream, fun _ => ?_, hdisciplined, ?_, fun _ => ?_, fun fd hfd => ?_⟩
  · rw [hclient]
    exact hpos.ne'
  · rw [hopen, hsocked]
    exact .inl rfl
  · rw [hopen, hclient, hsocked]
    refine ⟨.inr rfl, ?_⟩
    rintro rfl
    rw [h.socked] at hfresh
    cases hfresh
  · rw [hsocked, hclient]
    exact ((hopen fd).mp hfd).imp id fun h => ⟨hpos.ne', h⟩

theorem TCPDriver.Owns.stranded (h : t.Owns os listeners) {client : ℤ}
    (hfresh : isOpen client t.log = false) (hlog : AcceptedLog t client t'.log)
    (hio : t'.io = t.io) (hstream : t.io.stream ≠ none) : ¬ t'.Safe := by
  intro hsafe
  obtain ⟨hopen, hdiff⟩ := h.client (h.hasClient hstream)
  obtain ⟨stream, hports, hfd⟩ := h.stream
  obtain ⟨st, hst⟩ := Option.ne_none_iff_exists'.mp hstream
  have hvalid := hsafe.valid st (by rw [hio, hst]; rfl)
  rw [hports] at hst
  obtain rfl := hfd st hst
  obtain hsocked | hnew := (h.isOpen_acceptedLog hfresh hlog t.clientFd).mp hvalid
  · exact hdiff hsocked
  · rw [hnew, hfresh] at hopen
    cases hopen

/-- An accepted client has a fresh descriptor, and the log is that of its coming. -/
theorem TCPDriver.Accepts.audited {client : ℤ} {o : Ω × List FdEvent}
    (h : t.Accepts os.audited client o) :
    0 < client ∧ isOpen client t.log = false ∧
      o.2 = acceptedLog t.log t.sockedFd t.clientFd client := by
  obtain ⟨haccept, hpos, rfl⟩ := h
  obtain ⟨errno, o, heq⟩ | ⟨client', o, heq, -, hfresh⟩ :=
    audited_accept os t.sockedFd t.world.world.os
  · rw [heq] at haccept
    cases haccept
  · rw [heq] at haccept ⊢
    obtain rfl := Except.ok.inj haccept
    refine ⟨hpos, hfresh, ?_⟩
    unfold acceptedLog
    split_ifs
    · rfl
    · exact (List.append_nil _).symm

theorem TCPDriver.Accepts.unique {os : Os Ω} {t : TCPDriver Ω} {fd fd' : ℤ} {o o' : Ω}
    (h : t.Accepts os fd o) (h' : t.Accepts os fd' o') : fd = fd' ∧ o = o' :=
  ⟨Except.ok.inj (h.1.symm.trans h'.1), h.2.2.trans h'.2.2.symm⟩

theorem TCPDriver.Owns.checkClientConnection (h : t.Owns os listeners) :
    (t.Strands os.audited ∧ (∃ x, (t.checkClientConnection os.audited).1 = .error x) ∧
        ¬ (t.checkClientConnection os.audited).2.Safe) ∨
      ¬ t.Strands os.audited ∧ (t.checkClientConnection os.audited).2.Owns os listeners := by
  obtain ⟨heq, hnone⟩ | ⟨client, o, haccepts, heq⟩ := t.checkClientConnection_cases os.audited
  · have hcalm : ¬ t.Strands os.audited := by
      rintro ⟨-, fd, o, -, haccepts, -⟩
      exact hnone fd o haccepts
    obtain ⟨errno, o, haccept⟩ | ⟨client, o, haccept, hpos, -⟩ :=
      audited_accept os t.sockedFd t.world.world.os
    · refine .inr ⟨hcalm, ?_⟩
      rw [heq, haccept]
      exact h.of_uses (n := 1) h.socked rfl rfl rfl h.stream h.hasClient
    · exact absurd ⟨by rw [haccept], hpos, rfl⟩ (hnone client _)
  obtain ⟨hpos, hfresh, ho⟩ := haccepts.audited
  obtain ⟨⟨n, hlog⟩, hcases⟩ := (h.stream.onMachine fun m => m.withOs o).setFileDescriptor client
  have hlog' : AcceptedLog t client (t.checkClientConnection os.audited).2.log := by
    rw [heq]
    exact ⟨n, hlog.trans (congrArg (· ++ _) ho)⟩
  rw [heq] at hlog' ⊢
  obtain ⟨⟨b, hb⟩, -, honfd⟩ | ⟨x, hx, hthrew, hio⟩ := hcases
  · have hcalm : ¬ t.Strands os.audited := by
      rintro ⟨-, fd, o', x, haccepts', hx⟩
      obtain ⟨rfl, rfl⟩ := haccepts.unique haccepts'
      cases hb.symm.trans hx
    exact .inr ⟨hcalm, h.accepted hpos hfresh hlog' rfl rfl honfd⟩
  · by_cases hstream : t.io.stream = none
    · refine .inr ⟨fun hstrands => hstrands.1 hstream, ?_⟩
      obtain ⟨stream, hports, -⟩ := h.stream
      have hclosed : stream = none := by
        rw [hports] at hstream
        exact hstream
      refine h.accepted hpos hfresh hlog' rfl rfl ⟨none, ?_, by simp⟩
      rw [← hclosed]
      exact hio.trans hports
    · exact .inl ⟨⟨hstream, client, o, x, haccepts, hx⟩, ⟨x, hthrew⟩,
        h.stranded hfresh hlog' hio hstream⟩

theorem TCPDriver.Owns.perform (h : t.Owns os listeners) {fuel : ℕ}
    {op : Op (Machine (Ω × List FdEvent))} {a : Answer} {s : Sys (Machine (Ω × List FdEvent))}
    (hop : ∀ st, op ≠ .setMainStream st) (hr : t.toSys.perform E.audited fuel op = some (a, s)) :
    ({ t with toSys := s } : TCPDriver (Ω × List FdEvent)).Owns os listeners := by
  -- without a stream any open descriptor will do
  obtain ⟨fd, hopen, honfd⟩ : ∃ fd, isOpen fd t.log = true ∧ t.OnFd os listeners fd := by
    by_cases hnone : t.io.stream = none
    · obtain ⟨stream, hio, -⟩ := h.stream
      refine ⟨t.sockedFd, h.socked, stream, hio, ?_⟩
      rw [hio] at hnone
      rintro st hst
      change stream = none at hnone
      rw [hnone] at hst
      cases hst
    · exact ⟨t.clientFd, (h.client (h.hasClient hnone)).1, h.stream⟩
  obtain ⟨⟨n, hlog⟩, hnumber, hio⟩ := honfd.perform hop hr
  refine h.of_uses hopen hlog rfl rfl ?_ ?_
  · obtain ⟨stream, hstream, hfd⟩ := h.stream
    rcases hio with hio | hio
    · exact ⟨stream, hio.trans hstream, by rwa [hnumber]⟩
    · exact ⟨none, hio, by simp⟩
  · rcases hio with hio | hio
    · rw [hio]
      exact h.hasClient
    · rw [hio]
      exact fun hne => absurd rfl hne

theorem Sys.stream_of_unixError {ω : Type} {E : Extract ω} {fuel : ℕ} {s s' : Sys ω} {op : Op ω}
    {what : String} {error : ℕ} (hop : (∃ n packet first, op = .readPacket n packet first) ∨
      ∃ buffer timeout, op = .writePacket buffer timeout)
    (hr : s.perform E fuel op = some (.threw (.unixError what error), s')) :
    s.io.stream ≠ none ∧ s'.io = s.io := by
  rcases hop with ⟨n, packet, first, rfl⟩ | ⟨buffer, timeout, rfl⟩
  · obtain ⟨x, hread, ha, hio, -⟩ := Sys.after_eq_some hr
    refine ⟨fun hnone => ?_, hio⟩
    have hrec := Ports.recorded_closed s.number hnone
    rcases x with x | p
    · obtain rfl : Exn.unixError what error = x := Answer.threw.inj ha
      rcases readPacket_threw_closed hrec hread with htimeout | ⟨what', hlength⟩
      · exact htimeout
      · cases hlength
    · cases ha
  · obtain ⟨x, hwrite, ha, hio, -⟩ := Sys.after_eq_some hr
    refine ⟨fun hnone => ?_, hio⟩
    have hrec := Ports.recorded_closed s.number hnone
    simp only [Driver.writePacket, Driver.writePacketMilliseconds, hrec] at hwrite
    obtain ⟨rfl, -⟩ : _ = x ∧ _ := by
      simpa only [Option.some.injEq, Prod.mk.injEq] using hwrite
    cases ha

/-- The handler of the broken pipe closes the descriptor that the main stream is on. -/
theorem TCPDriver.Owns.broken (h : t.Owns os listeners) {s : Sys (Machine (Ω × List FdEvent))}
    (hstream : t.io.stream ≠ none) (hio : s.io = t.io)
    (ht' : t' = { t with
      toSys := s.onMachine fun m => m.withOs (os.audited.close t.clientFd m.os), clientFd := 0 }) :
    ¬ t'.Safe := by
  intro hsafe
  obtain ⟨stream, hports, hfd⟩ := h.stream
  obtain ⟨st, hst⟩ := Option.ne_none_iff_exists'.mp hstream
  have hst' : st ∈ t'.io.stream := by
    rw [ht']
    change s.io.stream = some st
    rw [hio, hst]
  rw [hports] at hst
  obtain rfl := hfd st hst
  have hopen := hsafe.valid _ hst'
  have hlog : t'.log = s.world.world.os.2 ++ [.closed t.clientFd] := by
    rw [ht']
    rfl
  rw [hlog, isOpen_append] at hopen
  simp [FdEvent.leaves, fdStream, descriptorStream] at hopen

theorem TCPDriver.Owns.checked (h : t.Owns os listeners)
    {rest : TCPDriver (Ω × List FdEvent) → Option (Answer × TCPDriver (Ω × List FdEvent))}
    {a : Answer} (hr : t.checked os.audited rest = some (a, t')) :
    (t.Strands os.audited ∧ ¬ t'.Safe) ∨
      ¬ t.Strands os.audited ∧ t'.Owns os listeners ∧
        (∀ u, t.checkClientConnection os.audited ≠ (.ok (), u)) ∨
      ¬ t.Strands os.audited ∧ ∃ u, t.checkClientConnection os.audited = (.ok (), u) ∧
        u.Owns os listeners ∧ rest u = some (a, t') := by
  unfold TCPDriver.checked at hr
  obtain ⟨hstrands, ⟨x, hx⟩, hunsafe⟩ | ⟨hcalm, howns⟩ := h.checkClientConnection
  · rcases heq : t.checkClientConnection os.audited with ⟨r, u⟩
    rw [heq] at hr hx hunsafe
    obtain rfl : r = .error x := hx
    cases hr
    exact .inl ⟨hstrands, hunsafe⟩
  · rcases heq : t.checkClientConnection os.audited with ⟨x | _, u⟩
    all_goals rw [heq] at hr howns
    · cases hr
      exact .inr (.inl ⟨hcalm, howns, fun u' heq' => by cases heq'⟩)
    · exact .inr (.inr ⟨hcalm, u, rfl, howns, hr⟩)

theorem TCPDriver.Owns.caught (h : t.Owns os listeners) {fuel : ℕ}
    {op : Op (Machine (Ω × List FdEvent))} {nothing a : Answer}
    (hop : (∃ n packet first, op = .readPacket n packet first) ∨
      ∃ buffer timeout, op = .writePacket buffer timeout)
    (hr : t.caught os.audited nothing (t.toSys.perform E.audited fuel op) = some (a, t')) :
    ((∃ what s, t.toSys.perform E.audited fuel op = some (.threw (.unixError what EPIPE), s)) ∧
        ¬ t'.Safe) ∨
      (¬ ∃ what s, t.toSys.perform E.audited fuel op = some (.threw (.unixError what EPIPE), s)) ∧
        t'.Owns os listeners := by
  have hset : ∀ st, op ≠ .setMainStream st := by
    rintro st rfl
    rcases hop with ⟨_, _, _, h⟩ | ⟨_, _, h⟩ <;> cases h
  rcases hperform : t.toSys.perform E.audited fuel op with _ | ⟨b, s⟩
  · rw [hperform] at hr
    cases hr
  rw [hperform] at hr
  by_cases hbroken : ∃ what, b = .threw (.unixError what EPIPE)
  · obtain ⟨what, rfl⟩ := hbroken
    refine .inl ⟨⟨what, s, rfl⟩, ?_⟩
    -- only a stream throws so, and it is still there when the handler closes its descriptor
    obtain ⟨hstream, hio⟩ := Sys.stream_of_unixError hop hperform
    simp only [TCPDriver.caught, if_true] at hr
    cases hr
    exact h.broken hstream hio rfl
  · have hnone : ¬ ∃ what s', some (b, s) = some (.threw (.unixError what EPIPE), s') := by
      rintro ⟨what, s', heq⟩
      cases heq
      exact hbroken ⟨what, rfl⟩
    refine .inr ⟨hnone, ?_⟩
    have hkept := h.perform hset hperform
    unfold TCPDriver.caught at hr
    split at hr
    · cases hr
    · next what error _ heq =>
      cases heq
      have hother : error ≠ EPIPE := by
        rintro rfl
        exact hbroken ⟨what, rfl⟩
      rw [if_neg hother] at hr
      cases hr
      exact hkept
    · next heq =>
      cases heq
      cases hr
      exact hkept

theorem TCPDriver.Owns.checkedCaught (h : t.Owns os listeners) {fuel : ℕ}
    {op : Op (Machine (Ω × List FdEvent))} {nothing a : Answer}
    (hop : (∃ n packet first, op = .readPacket n packet first) ∨
      ∃ buffer timeout, op = .writePacket buffer timeout)
    (hr : t.checked os.audited (fun t =>
      if t.clientFd ≠ 0 then t.caught os.audited nothing (t.toSys.perform E.audited fuel op)
      else some (nothing, t)) = some (a, t')) :
    ((t.Strands os.audited ∨ ∃ u, t.checkClientConnection os.audited = (.ok (), u) ∧
        u.PipeBroken E.audited fuel op) ∧ ¬ t'.Safe) ∨
      (¬ (t.Strands os.audited ∨ ∃ u, t.checkClientConnection os.audited = (.ok (), u) ∧
        u.PipeBroken E.audited fuel op)) ∧ t'.Owns os listeners := by
  obtain ⟨hstrands, hunsafe⟩ | ⟨hcalm, howns, hthrew⟩ | ⟨hcalm, u, hcheck, howns, hrest⟩ :=
    h.checked hr
  · exact .inl ⟨.inl hstrands, hunsafe⟩
  · refine .inr ⟨?_, howns⟩
    rintro (hstrands | ⟨u, hcheck, -⟩)
    · exact hcalm hstrands
    · exact hthrew u hcheck
  have hbreaks : (t.Strands os.audited ∨ ∃ u, t.checkClientConnection os.audited = (.ok (), u) ∧
      u.PipeBroken E.audited fuel op) ↔ u.PipeBroken E.audited fuel op := by
    constructor
    · rintro (hstrands | ⟨u', hcheck', hbroken⟩)
      · exact absurd hstrands hcalm
      · obtain ⟨-, rfl⟩ := Prod.mk.inj (hcheck.symm.trans hcheck')
        exact hbroken
    · exact fun hbroken => .inr ⟨u, hcheck, hbroken⟩
  rw [hbreaks]
  split_ifs at hrest with hclient
  · obtain ⟨hbroken, hunsafe⟩ | ⟨hwhole, howns⟩ := howns.caught hop hrest
    · exact .inl ⟨⟨hclient, hbroken⟩, hunsafe⟩
    · exact .inr ⟨fun hbroken => hwhole hbroken.2, howns⟩
  · cases hrest
    exact .inr ⟨fun hbroken => hclient hbroken.1, howns⟩

/-- A call keeps the invariant, or it leaves a main stream on a descriptor that is closed. -/
theorem TCPDriver.Owns.step (h : t.Owns os listeners) {call : TCPCall (Ω × List FdEvent)}
    (hstep : call.Step os.audited E.audited t t') :
    (call.Breaks os.audited E.audited ∧ ¬ t'.Safe) ∨
      ¬ call.Breaks os.audited E.audited ∧ t'.Owns os listeners := by
  obtain ⟨before, op, fuel, a, after⟩ := call
  obtain ⟨hbefore, hafter, hserves, hperformed⟩ := hstep
  dsimp only at hbefore hafter hserves hperformed
  subst hbefore hafter
  cases op with
  | readPacketDefault n =>
    obtain ⟨hstrands, hunsafe⟩ | ⟨hcalm, howns, -⟩ | ⟨hcalm, u, -, howns, hrest⟩ :=
      h.checked hperformed
    · exact .inl ⟨hstrands, hunsafe⟩
    · exact .inr ⟨hcalm, howns⟩
    refine .inr ⟨hcalm, ?_⟩
    dsimp only at hrest
    split_ifs at hrest
    · obtain ⟨r, hr, hcall⟩ := Option.map_eq_some_iff.mp hrest
      cases hcall
      exact howns.perform (by simp) hr
    · cases hrest
      exact howns
  | readPacket n packetTimeout firstByteTimeout =>
    exact h.checkedCaught (.inl ⟨_, _, _, rfl⟩) hperformed
  | writePacket buffer timeout => exact h.checkedCaught (.inr ⟨_, _, rfl⟩) hperformed
  | checkClientConnection =>
    obtain ⟨-, rfl⟩ := Prod.mk.inj (Option.some.inj hperformed)
    exact h.checkClientConnection.imp_left fun hstrands => ⟨hstrands.1, hstrands.2.2⟩
  | setFileDescriptor => exact hserves.elim
  | driver op =>
    refine .inr ⟨id, ?_⟩
    obtain ⟨r, hr, hcall⟩ := Option.map_eq_some_iff.mp hperformed
    cases hcall
    refine h.perform ?_ hr
    rintro st rfl
    exact hserves

theorem TCPDriver.Owns.destroy (h : t.Owns os listeners) :
    Disciplined (t.destroy os.audited).log ∧
      ∀ fd, isOpen fd (t.destroy os.audited).log = false := by
  have hlog : (t.destroy os.audited).log = t.log ++ [.closed t.sockedFd] ++
      if t.clientFd ≠ 0 then [.closed t.clientFd] else [] := by
    obtain ⟨stream, hio, hfd⟩ := h.stream
    unfold TCPDriver.destroy
    rcases stream with _ | st
    · split_ifs <;>
        simp [Sys.onMachine, close, hio, TCPDriver.log, Os.auditedPorts, Os.ports, Os.audited,
          Machine.withOs]
    · obtain rfl := hfd st rfl
      split_ifs <;>
        simp [Sys.onMachine, close, hio, TCPDriver.log, Os.auditedPorts, Os.ports, Os.audited,
          Machine.withOs, fdStream, descriptorStream]
  -- deleting the stream adds nothing to the log: it does not own its descriptor
  have hsocked : Disciplined (t.log ++ [.closed t.sockedFd]) :=
    disciplined_append.mpr ⟨h.log, h.socked⟩
  rw [hlog]
  by_cases hclient : t.clientFd ≠ 0
  · obtain ⟨hopen, hne⟩ := h.client hclient
    rw [if_pos hclient]
    constructor
    · refine disciplined_append.mpr ⟨hsocked, ?_⟩
      simp [FdEvent.Allowed, FdEvent.leaves, hopen, hne.symm]
    · intro fd
      rw [isOpen_append, isOpen_append, ← Bool.not_eq_true]
      simp only [FdEvent.leaves, Bool.and_eq_true, bne_iff_ne]
      rintro ⟨⟨hfd, hs⟩, hc⟩
      rcases h.others fd hfd with rfl | ⟨-, rfl⟩
      · exact hs rfl
      · exact hc rfl
  · rw [if_neg hclient, List.append_nil]
    refine ⟨hsocked, fun fd => ?_⟩
    rw [isOpen_append, ← Bool.not_eq_true]
    simp only [FdEvent.leaves, Bool.and_eq_true, bne_iff_ne]
    rintro ⟨hfd, hs⟩
    rcases h.others fd hfd with rfl | ⟨hc, -⟩
    · exact hs rfl
    · exact hclient hc

theorem TCPDriver.Owns.run {calls : List (TCPCall (Ω × List FdEvent))}
    (hrun : Lts.Run (TCPCall.Step os.audited E.audited) t calls t') (h : t.Owns os listeners) :
    ((∀ call ∈ calls, call.after.Safe) ↔ ∀ call ∈ calls, ¬ call.Breaks os.audited E.audited) ∧
      ((∀ call ∈ calls, ¬ call.Breaks os.audited E.audited) → t'.Owns os listeners) := by
  induction hrun with
  | nil => exact ⟨by simp, fun _ => h⟩
  | @cons t u t' call calls hst _ ih =>
    rw [List.forall_mem_cons, List.forall_mem_cons, hst.after]
    obtain ⟨hbreaks, hunsafe⟩ | ⟨hwhole, howns⟩ := h.step hst
    · exact ⟨iff_of_false (fun hs => hunsafe hs.1) fun hn => hn.1 hbreaks,
        fun hn => absurd hbreaks hn.1⟩
    · obtain ⟨hiff, hend⟩ := ih howns
      exact ⟨and_congr (iff_of_true howns.safe hwhole) hiff, fun hn => hend hn.2⟩

/-- **Descriptors of the clients.**  In all states of a run `isValid` means that the descriptor of
the main stream is open, and after the destruction each descriptor has been closed as often as it
was opened, exactly when no call ends in the handler of the broken pipe or fails to make the stream
of a client that replaces another one. -/
theorem server_descriptors_iff (os : Os Ω) (E : Extract Ω) (listeners : List (ℕ × IOListener Ω))
    (driver : Driver) (o : Ω) (sockedFd : ℤ) {calls : List (TCPCall (Ω × List FdEvent))}
    {t : TCPDriver (Ω × List FdEvent)}
    (hrun : Lts.Run (TCPCall.Step os.audited E.audited)
      (TCPDriver.init os listeners driver o sockedFd) calls t) :
    ((∀ call ∈ calls, call.after.Safe) ∧ Disciplined (t.destroy os.audited).log ∧
      ∀ fd, (t.destroy os.audited).log.count (.closed fd) =
        (t.destroy os.audited).log.count (.opened fd)) ↔
      ∀ call ∈ calls, ¬ call.Breaks os.audited E.audited := by
  obtain ⟨hiff, hend⟩ :=
    (TCPDriver.owns_init os listeners driver o sockedFd).run hrun
  constructor
  · intro h
    exact hiff.mp h.1
  · intro h
    obtain ⟨hlog, hclosed⟩ := (hend h).destroy
    refine ⟨hiff.mpr h, hlog, fun fd => ?_⟩
    have hcount := hlog.count_closed fd
    rwa [hclosed fd, if_neg (by decide), Nat.add_zero] at hcount

/-- The next call, as a call of a run. -/
def TCPDriver.call {Ω : Type} (os : Os Ω) (E : Extract (Machine Ω)) (fuel : ℕ) (t : TCPDriver Ω)
    (op : TCPOp Ω) : Option (TCPCall Ω × TCPDriver Ω) :=
  (t.perform os E fuel op).map fun r => (⟨t, op, fuel, r.1, r.2⟩, r.2)

theorem TCPDriver.exists_run {Ω : Type} (os : Os Ω) (E : Extract (Machine Ω)) (fuel : ℕ)
    (t : TCPDriver Ω) (ops : List (TCPOp Ω)) (hserves : ∀ op ∈ ops, op.Serves)
    (P : List (TCPCall Ω) → TCPDriver Ω → Prop) [∀ calls t, Decidable (P calls t)]
    (h : (Lts.performs (TCPDriver.call os E fuel) t ops).any
      (fun r => decide (P (r.1.map Prod.snd) r.2)) = true) :
    ∃ calls t', Lts.Run (TCPCall.Step os E) t calls t' ∧ P calls t' := by
  let next (t : TCPDriver Ω) (l : TCPOp Ω × TCPCall Ω) (t' : TCPDriver Ω) : Prop :=
    l.1.Serves → l.2.Step os E t t'
  have hcall : ∀ t op call t', TCPDriver.call os E fuel t op = some (call, t') →
      next t (op, call) t' := by
    intro t op call t' hcall hop
    obtain ⟨r, hr, heq⟩ := Option.map_eq_some_iff.mp hcall
    cases heq
    exact ⟨rfl, rfl, hop, hr⟩
  obtain ⟨calls, t', hrun, hops, hP⟩ :=
    Lts.exists_run hcall t ops (fun calls t => P (calls.map Prod.snd) t) h
  have hall : ∀ l ∈ calls, l.1.Serves := by
    intro l hl
    apply hserves
    rw [← hops]
    exact List.mem_map_of_mem hl
  exact ⟨_, t', (hrun.restrict hall).map id Prod.snd fun _ _ _ hstep => hstep.1 hstep.2, hP⟩

/-- A packet is read from a client. -/
theorem server_descriptors_iff_sample :
    ∃ calls t, Lts.Run (TCPCall.Step Script.server.audited
        (Extract.pure driverTestExtractPacket).audited)
        (.init Script.server [] (.new 100 false) [[0, 1, 2, 0]] 3) calls t ∧
      t.log = [.opened 3, .used 3, .opened 6, .used 6, .used 6] ∧
      (((∀ call ∈ calls, call.after.Safe) ∧ Disciplined (t.destroy Script.server.audited).log ∧
        ∀ fd, (t.destroy Script.server.audited).log.count (.closed fd) =
          (t.destroy Script.server.audited).log.count (.opened fd)) ↔
        ∀ call ∈ calls,
          ¬ call.Breaks Script.server.audited (Extract.pure driverTestExtractPacket).audited) := by
  obtain ⟨calls, t, hrun, hlog⟩ := TCPDriver.exists_run Script.server.audited
    (Extract.pure driverTestExtractPacket).audited 5
    (.init Script.server [] (.new 100 false) [[0, 1, 2, 0]] 3) [.readPacket 100 0 0]
    (by simp [TCPOp.Serves])
    (fun _ t => t.log = [.opened 3, .used 3, .opened 6, .used 6, .used 6]) (by decide +kernel)
  exact ⟨calls, t, hrun, hlog, server_descriptors_iff _ _ [] _ _ 3 hrun⟩

/-- `Script.server`, where every write meets a broken pipe and nothing can be read. -/
def Script.brokenPipe : Os Script :=
  { Script.server with
    write := fun _ _ w => (.error EPIPE, w)
    select := fun _ _ _ w => (.ok ([], []), w) }

/-- A write meets a broken pipe; the main stream stays on the closed descriptor, and `readRaw` waits
on it. -/
theorem server_uses_closed_descriptor : ∃ calls t,
    Lts.Run (TCPCall.Step Script.brokenPipe.audited (Extract.pure driverTestExtractPacket).audited)
      (.init Script.brokenPipe [] (.new 100 false) [] 3) calls t ∧
    t.io.stream.map (fun st => st.getFileDescriptor t.world.world) = some 5 ∧
    t.log = [.opened 3, .used 3, .opened 5, .used 5, .used 5, .closed 5, .used 5] ∧
    ¬ ∀ call ∈ calls, call.after.Safe := by
  obtain ⟨calls, t, hrun, hfd, hlog, call, hcall, hafter⟩ :=
    TCPDriver.exists_run Script.brokenPipe.audited (Extract.pure driverTestExtractPacket).audited 5
      (.init Script.brokenPipe [] (.new 100 false) [] 3)
      [.writePacket [1] 1000, .driver (.readRaw 10 0 0 0)] (by simp [TCPOp.Serves])
      (fun calls t => t.io.stream.map (fun st => st.getFileDescriptor t.world.world) = some 5 ∧
        t.log = [.opened 3, .used 3, .opened 5, .used 5, .used 5, .closed 5, .used 5] ∧
        ∃ call ∈ calls, call.after.log =
          [.opened 3, .used 3, .opened 5, .used 5, .used 5, .closed 5, .used 5]) (by decide +kernel)
  refine ⟨calls, t, hrun, hfd, hlog, fun hsafe => ?_⟩
  have hdisciplined := (hsafe call hcall).log
  rw [hafter] at hdisciplined
  have hused : isOpen 5 [.opened 3, .used 3, .opened 5, .used 5, .used 5, .closed 5] = true :=
    hdisciplined [.opened 3, .used 3, .opened 5, .used 5, .used 5, .closed 5] (.used 5) [] rfl
  exact absurd hused (by decide)

end IodriversBase
