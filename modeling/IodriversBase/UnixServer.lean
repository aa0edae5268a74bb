import IodriversBase.Datagrams

namespace IodriversBase

variable {Ω σ τ : Type}

def MSG_NOSIGNAL : ℤ := 0x4000

def IOStream.within (st : IOStream τ) (get : σ → τ) (set : σ → τ → σ) : IOStream σ where
  waitRead t w := ((st.waitRead t (get w)).1, set w (st.waitRead t (get w)).2)
  waitWrite t w := ((st.waitWrite t (get w)).1, set w (st.waitWrite t (get w)).2)
  read n w := ((st.read n (get w)).1, set w (st.read n (get w)).2)
  write data w := ((st.write data (get w)).1, set w (st.write data (get w)).2)
  clear w := set w (st.clear (get w))
  eof w := st.eof (get w)
  getFileDescriptor w := st.getFileDescriptor (get w)
  delete w := set w (st.delete (get w))

/-- The machine, and the descriptor of the client, once there is one. -/
structure Server (Ω : Type) extends Machine Ω where
  client : Option ℤ

def Server.start (os : Ω) : Server Ω := ⟨.start os, none⟩

def Server.withMachine (s : Server Ω) (m : Machine Ω) : Server Ω := { s with toMachine := m }

@[simp] theorem Server.withMachine_client (s : Server Ω) (m : Machine Ω) :
    (s.withMachine m).client = s.client := rfl

structure UnixServerStream where
  id : ℕ
  fd : ℤ
  autoClose : Bool

namespace UnixServerStream

def serverStream (os : Os Ω) (x : UnixServerStream) : IOStream (Server Ω) :=
  (fdStream os x.id x.fd false true).within Server.toMachine Server.withMachine

def clientStream (os : Os Ω) (x : UnixServerStream) (fd : ℤ) : IOStream (Server Ω) :=
  (socketStream os MSG_NOSIGNAL 0 x.id fd true true).within Server.toMachine Server.withMachine

def getFileDescriptor (x : UnixServerStream) (s : Server Ω) : ℤ :=
  match s.client with
  | some fd => fd
  | none => x.fd

/-- `UnixServerStream::accept`.  Where the stream of the client cannot be made, its descriptor stays
open. -/
def accept (os : Os Ω) (x : UnixServerStream) (s : Server Ω) : Except Exn Unit × Server Ω :=
  match os.accept (x.getFileDescriptor s) s.os with
  | (.ok fd, o) =>
    match setNonBlockingFlag os fd o with
    | (.ok _, o) => (.ok (), { s with os := o, client := some fd })
    | (.error e, o) => (.error e, { s with os := o })
  | (.error errno, o) =>
    (.error (.unixError "failed to accept() connection on Unix server stream" errno),
      { s with os := o })

def waitRead (os : Os Ω) (x : UnixServerStream) (timeout : Time) (s : Server Ω) :
    Except Exn Bool × Server Ω :=
  match s.client with
  | some fd => (x.clientStream os fd).waitRead timeout s
  | none =>
    match (x.serverStream os).waitRead timeout s with
    | (.error e, s) => (.error e, s)
    | (.ok false, s) => (.ok false, s)
    | (.ok true, s) => ((x.accept os s).1.map fun _ => true, (x.accept os s).2)

def waitWrite (os : Os Ω) (x : UnixServerStream) (timeout : Time) (s : Server Ω) :
    Except Exn Bool × Server Ω :=
  match s.client with
  | some fd => (x.clientStream os fd).waitWrite timeout s
  | none => (.ok true, s)

/-- The end of `UnixServerStream::read`, with whatever client there is. -/
def readClient (os : Os Ω) (x : UnixServerStream) (n : ℕ) (s : Server Ω) :
    Except Exn {data : Bytes // data.length ≤ n} × Server Ω :=
  match s.client with
  | some fd => (x.clientStream os fd).read n s
  | none => (.ok ⟨[], Nat.zero_le _⟩, s)

def read (os : Os Ω) (x : UnixServerStream) (n : ℕ) (s : Server Ω) :
    Except Exn {data : Bytes // data.length ≤ n} × Server Ω :=
  if s.client = none then
    match x.waitRead os 0 s with
    | (.error e, s) => (.error e, s)
    | (.ok false, s) => (.ok ⟨[], Nat.zero_le _⟩, s)
    | (.ok true, s) => x.readClient os n s
  else x.readClient os n s

/-- `UnixServerStream::write`; without a client the data is dropped. -/
def write (os : Os Ω) (x : UnixServerStream) (data : Bytes) (s : Server Ω) :
    Except Exn {n : ℕ // n ≤ data.length} × Server Ω :=
  match s.client with
  | some fd => (x.clientStream os fd).write data s
  | none => (.ok (wroteAll data), s)

def stream (os : Os Ω) (x : UnixServerStream) : IOStream (Server Ω) where
  waitRead := x.waitRead os
  waitWrite := x.waitWrite os
  read := x.read os
  write := x.write os
  clear s :=
    match s.client with
    | some fd => (x.clientStream os fd).clear s
    | none => s
  eof s :=
    match s.client with
    | some fd => (x.clientStream os fd).eof s
    | none => false
  getFileDescriptor := x.getFileDescriptor
  delete s :=
    let s := if x.autoClose then s.withMachine (s.toMachine.withOs (os.close x.fd s.os)) else s
    match s.client with
    | some fd => (x.clientStream os fd).delete s
    | none => s

variable {os : Os Ω} {x : UnixServerStream} {s : Server Ω} {fd : ℤ}

theorem waitRead_client (h : s.client = some fd) (t : Time) :
    (x.waitRead os t s).2.client = some fd := by
  simp only [waitRead, h]
  exact h

theorem readClient_client (n : ℕ) (s : Server Ω) : (x.readClient os n s).2.client = s.client := by
  unfold readClient
  split
  · rfl
  · rfl

theorem read_client (h : s.client = some fd) (n : ℕ) : (x.read os n s).2.client = some fd := by
  simp only [read, h, reduceCtorEq, if_false]
  rw [readClient_client, h]

theorem write_client (data : Bytes) (s : Server Ω) : (x.write os data s).2.client = s.client := by
  unfold write
  split
  · rfl
  · rfl

theorem waitWrite_client (t : Time) (s : Server Ω) :
    (x.waitWrite os t s).2.client = s.client := by
  unfold waitWrite
  split
  · rfl
  · rfl

theorem stream_clear (s : Server Ω) : (x.stream os).clear s = s := by
  simp only [stream]
  split
  · rfl
  · rfl

end UnixServerStream

end IodriversBase
