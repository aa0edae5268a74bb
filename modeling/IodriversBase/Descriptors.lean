import IodriversBase.Recording
import IodriversBase.Timeout

namespace IodriversBase

variable {Ω : Type}

def EINTR : ℕ := 4
def EAGAIN : ℕ := 11
def ENOBUFS : ℕ := 105
def O_NONBLOCK : BitVec 32 := 0o4000

/-- The system calls, a parameter of the model; a call that fails gives its error number. -/
structure Os (Ω : Type) where
  read : (fd : ℤ) → (n : ℕ) → Ω → Except ℕ {data : Bytes // data.length ≤ n} × Ω
  recv : (fd : ℤ) → (flags : ℤ) → (n : ℕ) → Ω → Except ℕ {data : Bytes // data.length ≤ n} × Ω
  write : (fd : ℤ) → (data : Bytes) → Ω → Except ℕ {n : ℕ // n ≤ data.length} × Ω
  send : (fd : ℤ) → (flags : ℤ) → (data : Bytes) → Ω → Except ℕ {n : ℕ // n ≤ data.length} × Ω
  /-- The descriptors that can be read, and those that can be written. -/
  select : (reads writes : List ℤ) → Timeval → Ω → Except ℕ (List ℤ × List ℤ) × Ω
  accept : (fd : ℤ) → Ω → Except ℕ ℤ × Ω
  close : (fd : ℤ) → Ω → Ω
  /-- `fcntl` with `F_GETFL`; all bits are set where it fails. -/
  getFlags : (fd : ℤ) → Ω → BitVec 32 × Ω
  setFlags : (fd : ℤ) → BitVec 32 → Ω → Except ℕ Unit × Ω
  now : Ω → Time × Ω

/-- `FDStream::setNonBlockingFlag`, and `SocketStream::setNonBlockingFlag`. -/
def setNonBlockingFlag (os : Os Ω) (fd : ℤ) (w : Ω) : Except Exn Bool × Ω :=
  let fdFlags := os.getFlags fd w
  if fdFlags.1 &&& O_NONBLOCK = 0 then
    match os.setFlags fd (fdFlags.1 ||| O_NONBLOCK) fdFlags.2 with
    | (.ok _, w) => (.ok true, w)
    | (.error errno, w) => (.error (.unixError "cannot set the O_NONBLOCK flag" errno), w)
  else (.ok false, fdFlags.2)

section NonBlocking

variable {os : Os Ω} {fd : ℤ}

theorem setNonBlockingFlag_keeps {P : Ω → Prop} (hget : ∀ w, P w → P (os.getFlags fd w).2)
    (hset : ∀ flags w, P w → P (os.setFlags fd flags w).2) {w : Ω} (hw : P w) :
    P (setNonBlockingFlag os fd w).2 := by
  unfold setNonBlockingFlag
  dsimp only
  split_ifs
  · have hafter := hset ((os.getFlags fd w).1 ||| O_NONBLOCK) _ (hget w hw)
    rcases hr : os.setFlags fd _ _ with ⟨errno | _, w'⟩
    all_goals
      rw [hr] at hafter
      exact hafter
  · exact hget w hw

theorem setNonBlockingFlag_error {w : Ω} {x : Exn} (h : (setNonBlockingFlag os fd w).1 = .error x) :
    ∃ errno, x = .unixError "cannot set the O_NONBLOCK flag" errno := by
  unfold setNonBlockingFlag at h
  dsimp only at h
  split_ifs at h
  · rcases hr : os.setFlags fd _ _ with ⟨errno | _, w'⟩
    · rw [hr] at h
      cases h
      exact ⟨errno, rfl⟩
    · rw [hr] at h
      cases h

end NonBlocking

/-- A read of `size` bytes that returned `data`, none at the end of the file. -/
structure ReadCall where
  fd : ℤ
  size : ℕ
  data : Bytes
  deriving DecidableEq

/-- The system, `m_eof` of the stream objects under their numbers, and the reads so far. -/
structure Machine (Ω : Type) where
  os : Ω
  eof : ℕ → Bool
  reads : List ReadCall

def Machine.start (os : Ω) : Machine Ω := ⟨os, fun _ => false, []⟩

def Machine.withOs (m : Machine Ω) (os : Ω) : Machine Ω := { m with os := os }

@[simp] theorem Machine.withOs_eof (m : Machine Ω) (os : Ω) : (m.withOs os).eof = m.eof := rfl
@[simp] theorem Machine.withOs_reads (m : Machine Ω) (os : Ω) : (m.withOs os).reads = m.reads := rfl

/-- What a read of stream `id` that returned `data` makes of the machine. -/
def Machine.didRead (m : Machine Ω) (id : ℕ) (hasEof : Bool) (call : ReadCall) (os : Ω) :
    Machine Ω where
  os := os
  eof := if call.data = [] then Function.update m.eof id hasEof else m.eof
  reads := m.reads ++ [call]

def timeoutSpec (t : Time) : Timeval := ⟨t.tdiv 1000000, t.tmod 1000000⟩

def selected (what : String) : Except ℕ (List ℤ × List ℤ) → Except Exn Bool
  | .error errno => if errno ≠ EINTR then .error (.unixError what errno) else .ok false
  | .ok ready => .ok (ready.1.length + ready.2.length > 0)

/-- The two classes of stream, which differ in the calls they read and write with. -/
def descriptorStream (os : Os Ω)
    (osRead : (n : ℕ) → Ω → Except ℕ {data : Bytes // data.length ≤ n} × Ω)
    (osWrite : (data : Bytes) → Ω → Except ℕ {n : ℕ // n ≤ data.length} × Ω)
    (id : ℕ) (fd : ℤ) (autoClose hasEof : Bool) : IOStream (Machine Ω) where
  waitRead t m :=
    let r := os.select [fd] [] (timeoutSpec t) m.os
    (selected "waitRead(): error in select()" r.1, m.withOs r.2)
  waitWrite t m :=
    let r := os.select [] [fd] (timeoutSpec t) m.os
    (selected "waitWrite(): error in select()" r.1, m.withOs r.2)
  read n m :=
    match osRead n m.os with
    | (.ok c, w) => (.ok c, m.didRead id hasEof ⟨fd, n, c.val⟩ w)
    | (.error errno, w) =>
      if errno = EAGAIN then (.ok ⟨[], Nat.zero_le _⟩, m.withOs w)
      else (.error (.unixError "readPacket(): error reading the file descriptor" errno), m.withOs w)
  write data m :=
    match osWrite data m.os with
    | (.ok n, w) => (.ok n, m.withOs w)
    | (.error errno, w) =>
      if errno ≠ EAGAIN ∧ errno ≠ ENOBUFS then
        (.error (.unixError "writePacket(): error during write" errno), m.withOs w)
      else (.ok (wroteNothing data), m.withOs w)
  clear m := m
  eof m := m.eof id
  getFileDescriptor _ := fd
  delete m := if autoClose then m.withOs (os.close fd m.os) else m

/-- `FDStream`. -/
def fdStream (os : Os Ω) (id : ℕ) (fd : ℤ) (autoClose hasEof : Bool) : IOStream (Machine Ω) :=
  descriptorStream os (os.read fd) (os.write fd) id fd autoClose hasEof

def socketStream (os : Os Ω) (sendFlags recvFlags : ℤ) (id : ℕ) (fd : ℤ) (autoClose hasEof : Bool) :
    IOStream (Machine Ω) :=
  descriptorStream os (os.recv fd recvFlags) (os.send fd sendFlags) id fd autoClose hasEof

/-- A stream object of one of the two classes. -/
inductive OverDescriptor (os : Os Ω) (id : ℕ) (fd : ℤ) : IOStream (Machine Ω) → Prop
  | fdStream (autoClose hasEof : Bool) :
      OverDescriptor os id fd (fdStream os id fd autoClose hasEof)
  | socketStream (sendFlags recvFlags : ℤ) (autoClose hasEof : Bool) :
      OverDescriptor os id fd (socketStream os sendFlags recvFlags id fd autoClose hasEof)

def IOListener.onMachine (l : IOListener Ω) : IOListener (Machine Ω) where
  writeData data m := m.withOs (l.writeData data m.os)
  readData data m := m.withOs (l.readData data m.os)

/-- A listener on a system with a log, which it leaves alone. -/
def IOListener.logged {α : Type} (l : IOListener Ω) : IOListener (Ω × α) where
  writeData data w := (l.writeData data w.1, w.2)
  readData data w := (l.readData data w.1, w.2)

/-- The ports of a driver on the machine. -/
def Os.ports (os : Os Ω) (stream : Option (IOStream (Machine Ω)))
    (listeners : List (ℕ × IOListener Ω)) : Ports (Machine Ω) where
  now m := ((os.now m.os).1, m.withOs (os.now m.os).2)
  stream := stream
  listeners := listeners.map fun l => (l.1, l.2.onMachine)

section Listeners

variable {os : Os Ω} {stream : Option (IOStream (Machine Ω))} {listeners : List (ℕ × IOListener Ω)}
  {k : ℕ} {P : Recorded (Machine Ω) → Prop} {data : Bytes} {w : Recorded (Machine Ω)}

/-- What every listener keeps, on the system and in the record, the driver keeps. -/
theorem Os.notifyRead_rule
    (h : ∀ l ∈ listeners, ∀ w, P w →
      P ⟨w.world.withOs (l.2.readData data w.world.os), w.trace ++ [.readData l.1 data]⟩)
    (hw : P w) : P (((os.ports stream listeners).recorded k).notifyRead data w) := by
  apply Ports.notifyRead_rule _ hw
  intro l hl w hw
  obtain ⟨l₁, hl₁, rfl⟩ := List.mem_map.mp hl
  obtain ⟨l₀, hl₀, rfl⟩ := List.mem_map.mp hl₁
  exact h l₀ hl₀ w hw

theorem Os.notifyWrite_rule
    (h : ∀ l ∈ listeners, ∀ w, P w →
      P ⟨w.world.withOs (l.2.writeData data w.world.os), w.trace ++ [.writeData l.1 data]⟩)
    (hw : P w) : P (((os.ports stream listeners).recorded k).notifyWrite data w) := by
  apply Ports.notifyWrite_rule _ hw
  intro l hl w hw
  obtain ⟨l₁, hl₁, rfl⟩ := List.mem_map.mp hl
  obtain ⟨l₀, hl₀, rfl⟩ := List.mem_map.mp hl₁
  exact h l₀ hl₀ w hw

end Listeners

variable {os : Os Ω} {id : ℕ} {fd : ℤ} {st : IOStream (Machine Ω)} {m m' : Machine Ω}

section System

variable {osRead : (n : ℕ) → Ω → Except ℕ {data : Bytes // data.length ≤ n} × Ω}
  {osWrite : (data : Bytes) → Ω → Except ℕ {n : ℕ // n ≤ data.length} × Ω} {autoClose hasEof : Bool}

theorem descriptorStream_read_os (n : ℕ) (m : Machine Ω) :
    ((descriptorStream os osRead osWrite id fd autoClose hasEof).read n m).2.os =
      (osRead n m.os).2 := by
  simp only [descriptorStream]
  rcases osRead n m.os with ⟨errno | c, w⟩
  · dsimp only
    split_ifs <;> rfl
  · rfl

theorem descriptorStream_write_os (data : Bytes) (m : Machine Ω) :
    ((descriptorStream os osRead osWrite id fd autoClose hasEof).write data m).2.os =
      (osWrite data m.os).2 := by
  simp only [descriptorStream]
  rcases osWrite data m.os with ⟨errno | n, w⟩
  · dsimp only
    split_ifs <;> rfl
  · rfl

end System

theorem OverDescriptor.read (h : OverDescriptor os id fd st) {n : ℕ} {r}
    (hr : st.read n m = (r, m')) :
    (∃ c hasEof w, r = .ok c ∧ m' = m.didRead id hasEof ⟨fd, n, c.val⟩ w) ∨
      ((∀ c, r = .ok c → c.val = []) ∧ ∃ w, m' = m.withOs w) := by
  have key : ∀ {osRead : (n : ℕ) → Ω → Except ℕ {data : Bytes // data.length ≤ n} × Ω} {osWrite}
      {autoClose hasEof : Bool},
      (descriptorStream os osRead osWrite id fd autoClose hasEof).read n m = (r, m') →
      (∃ c hasEof w, r = .ok c ∧ m' = m.didRead id hasEof ⟨fd, n, c.val⟩ w) ∨
        ((∀ c, r = .ok c → c.val = []) ∧ ∃ w, m' = m.withOs w) := by
    intro osRead osWrite autoClose hasEof hr
    simp only [descriptorStream] at hr
    rcases hread : osRead n m.os with ⟨errno | c, w⟩ <;> rw [hread] at hr
    · refine .inr ?_
      dsimp only at hr
      split_ifs at hr <;> cases hr
      · exact ⟨by rintro c ⟨⟩; rfl, w, rfl⟩
      · exact ⟨by simp, w, rfl⟩
    · cases hr
      exact .inl ⟨c, hasEof, w, rfl, rfl⟩
  cases h with
  | fdStream => exact key hr
  | socketStream => exact key hr

theorem OverDescriptor.waitRead (h : OverDescriptor os id fd st) {t : Time} {r}
    (hr : st.waitRead t m = (r, m')) : ∃ w, m' = m.withOs w := by
  cases h <;> (cases hr; exact ⟨_, rfl⟩)

theorem OverDescriptor.waitWrite (h : OverDescriptor os id fd st) {t : Time} {r}
    (hr : st.waitWrite t m = (r, m')) : ∃ w, m' = m.withOs w := by
  cases h <;> (cases hr; exact ⟨_, rfl⟩)

theorem OverDescriptor.write (h : OverDescriptor os id fd st) {data : Bytes} {r}
    (hr : st.write data m = (r, m')) : ∃ w, m' = m.withOs w := by
  have key : ∀ {osRead osWrite} {autoClose hasEof : Bool},
      (descriptorStream os osRead osWrite id fd autoClose hasEof).write data m = (r, m') →
      ∃ w, m' = m.withOs w := by
    intro osRead osWrite autoClose hasEof hr
    simp only [descriptorStream] at hr
    rcases hwrite : osWrite data m.os with ⟨errno | n, w⟩ <;> rw [hwrite] at hr
    · dsimp only at hr
      split_ifs at hr <;> (cases hr; exact ⟨w, rfl⟩)
    · cases hr
      exact ⟨w, rfl⟩
  cases h with
  | fdStream => exact key hr
  | socketStream => exact key hr

theorem OverDescriptor.eof (h : OverDescriptor os id fd st) (m : Machine Ω) :
    st.eof m = m.eof id := by
  cases h <;> rfl

theorem OverDescriptor.clear (h : OverDescriptor os id fd st) (m : Machine Ω) : st.clear m = m := by
  cases h <;> rfl

theorem OverDescriptor.getFileDescriptor (h : OverDescriptor os id fd st) (m : Machine Ω) :
    st.getFileDescriptor m = fd := by
  cases h <;> rfl

end IodriversBase
