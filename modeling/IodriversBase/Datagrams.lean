import IodriversBase.Descriptors
import IodriversBase.Library.Loop

namespace IodriversBase

open Loop

variable {Ω : Type}

def ENETUNREACH : ℕ := 101
def ECONNREFUSED : ℕ := 111
def EHOSTUNREACH : ℕ := 113

/-- The system calls on datagram sockets. -/
structure DatagramOs (Ω : Type) extends Os Ω where
  /-- A datagram, cut to the size of the buffer, and the address it came from. -/
  recvfrom : (fd : ℤ) → (n : ℕ) → (peek : Bool) → Ω →
    Except ℕ ({data : Bytes // data.length ≤ n} × Bytes) × Ω
  /-- The address is an object and a length, which need not be that of the object. -/
  sendto : (fd : ℤ) → (data : Bytes) → (siOther : Bytes) → (sLen : ℕ) → Ω →
    Except ℕ {n : ℕ // n ≤ data.length} × Ω

structure RecvCall where
  peek : Bool
  size : ℕ
  answer : Except ℕ Bytes
  deriving DecidableEq

/-- The machine, the fields of a datagram stream, and its calls of `recvfrom` so far. -/
structure Socket (Ω : Type) extends Machine Ω where
  siOther : Bytes
  sLen : ℕ
  hasOther : Bool
  waitReadError : ℕ
  recvs : List RecvCall

/-- A stream that waits for its first peer; `sizeof` the object that will hold the address. -/
def Socket.unconnected (os : Ω) (sizeof : ℕ) : Socket Ω := ⟨.start os, [], sizeof, false, 0, []⟩

/-- A stream that is given its peer. -/
def Socket.connected (os : Ω) (address : Bytes) (sizeof : ℕ) : Socket Ω :=
  ⟨.start os, address.take sizeof, address.length, true, 0, []⟩

def Socket.withMachine (s : Socket Ω) (m : Machine Ω) : Socket Ω := { s with toMachine := m }

def IOStream.onSocket (st : IOStream (Machine Ω)) : IOStream (Socket Ω) where
  waitRead t s := ((st.waitRead t s.toMachine).1, s.withMachine (st.waitRead t s.toMachine).2)
  waitWrite t s := ((st.waitWrite t s.toMachine).1, s.withMachine (st.waitWrite t s.toMachine).2)
  read n s := ((st.read n s.toMachine).1, s.withMachine (st.read n s.toMachine).2)
  write data s := ((st.write data s.toMachine).1, s.withMachine (st.write data s.toMachine).2)
  clear s := s.withMachine (st.clear s.toMachine)
  eof s := st.eof s.toMachine
  getFileDescriptor s := st.getFileDescriptor s.toMachine
  delete s := s.withMachine (st.delete s.toMachine)

def IOListener.onSocket (l : IOListener Ω) : IOListener (Socket Ω) where
  writeData data s := s.withMachine (l.onMachine.writeData data s.toMachine)
  readData data s := s.withMachine (l.onMachine.readData data s.toMachine)

def Os.socketPorts (os : Os Ω) (stream : Option (IOStream (Socket Ω)))
    (listeners : List (ℕ × IOListener Ω)) : Ports (Socket Ω) where
  now s := ((os.now s.os).1, s.withMachine (s.toMachine.withOs (os.now s.os).2))
  stream := stream
  listeners := listeners.map fun l => (l.1, l.2.onSocket)

/-- What `recvfrom` makes of the socket, apart from what the stream keeps of the answer. -/
def Socket.recvfrom (os : DatagramOs Ω) (fd : ℤ) (n : ℕ) (peek : Bool) (s : Socket Ω) :
    Except ℕ ({data : Bytes // data.length ≤ n} × Bytes) × Socket Ω :=
  let r := os.recvfrom fd n peek s.os
  (r.1, { s with os := r.2, recvs := s.recvs ++ [⟨peek, n, r.1.map fun a => a.1.val⟩] })

def Socket.took (s : Socket Ω) (id : ℕ) (dynamic : Bool) (sizeof : ℕ) (data address : Bytes) :
    Socket Ω :=
  { s with
    hasOther := true
    siOther := if dynamic then address.take sizeof else s.siOther
    sLen := if dynamic then address.length else s.sLen
    eof := if data = [] then Function.update s.eof id true else s.eof }

/-- The fields of a `UDPServerStream` that do not change. -/
structure UDPServerStream where
  id : ℕ
  fd : ℤ
  autoClose : Bool
  siOtherDynamic : Bool
  ignoreEconnrefused : Bool
  ignoreEhostunreach : Bool
  ignoreEnetunreach : Bool

namespace UDPServerStream

/-- `sizeof(sockaddr)`. -/
def sizeofSockaddr : ℕ := 16

def base (os : DatagramOs Ω) (u : UDPServerStream) : IOStream (Socket Ω) :=
  (fdStream os.toOs u.id u.fd u.autoClose true).onSocket

def ignores (u : UDPServerStream) (err : ℕ) : Bool :=
  u.ignoreEconnrefused && err == ECONNREFUSED || u.ignoreEhostunreach && err == EHOSTUNREACH ||
    u.ignoreEnetunreach && err == ENETUNREACH

def waitReadIteration (os : DatagramOs Ω) (u : UDPServerStream) (deadline : Time)
    (s : Time × Socket Ω) : Next (Time × Socket Ω) (Except Exn Bool × Socket Ω) :=
  if s.1 ≤ deadline then
    match (u.base os).waitRead (deadline - s.1) s.2 with
    | (.error x, w) => .done (.error x, w)
    | (.ok false, w) => .done (.ok false, w)
    | (.ok true, w) =>
      let now := (os.now w.os).1
      let w := w.withMachine (w.toMachine.withOs (os.now w.os).2)
      match w.recvfrom os u.fd 0 true with
      | (.error err, w) =>
        if u.ignores err then .again (now, w)
        else .done (.ok true, { w with waitReadError := err })
      | (.ok _, w) => .done (.ok true, { w with waitReadError := 0 })
  else .done ((u.base os).waitRead 0 s.2)

/-- `UDPServerStream::waitRead`; `none` when the loop needs more iterations. -/
def waitRead (os : DatagramOs Ω) (u : UDPServerStream) (fuel : ℕ) (timeout : Time) (w : Socket Ω) :
    Option (Except Exn Bool × Socket Ω) :=
  if w.waitReadError ≠ 0 then some (.ok false, w)
  else
    let now := (os.now w.os).1
    let deadline := now + timeout
    run (u.waitReadIteration os deadline) fuel
      (now, w.withMachine (w.toMachine.withOs (os.now w.os).2))

def read (os : DatagramOs Ω) (u : UDPServerStream) (n : ℕ) (w : Socket Ω) :
    Except Exn {data : Bytes // data.length ≤ n} × Socket Ω :=
  if w.waitReadError ≠ 0 then
    (.error (.unixError "readPacket(): error reading the file descriptor" w.waitReadError),
      { w with waitReadError := 0 })
  else
    match w.recvfrom os u.fd n false with
    | (.ok (data, address), w) =>
      (.ok data, w.took u.id u.siOtherDynamic sizeofSockaddr data.val address)
    | (.error err, w) =>
      if err = EAGAIN then (.ok ⟨[], Nat.zero_le _⟩, w)
      else if u.ignores err then (.ok ⟨[], Nat.zero_le _⟩, w)
      else (.error (.unixError "readPacket(): error reading the file descriptor" err), w)

def write (os : DatagramOs Ω) (u : UDPServerStream) (data : Bytes) (w : Socket Ω) :
    Except Exn {n : ℕ // n ≤ data.length} × Socket Ω :=
  if ¬ w.hasOther then (.ok (wroteAll data), w)
  else
    match os.sendto u.fd data w.siOther w.sLen w.os with
    | (.ok n, o) => (.ok n, w.withMachine (w.toMachine.withOs o))
    | (.error err, o) =>
      let w := w.withMachine (w.toMachine.withOs o)
      -- no error is both of them
      if err = EAGAIN ∧ err = ENOBUFS then (.ok (wroteNothing data), w)
      else if u.ignores err then (.ok (wroteAll data), w)
      else (.error (.unixError "UDPServerStream: writePacket(): error during write" err), w)

/-- The stream; a wait that does not end within `fuel t w` iterations counts as timed out. -/
def stream (os : DatagramOs Ω) (u : UDPServerStream) (fuel : Time → Socket Ω → ℕ) :
    IOStream (Socket Ω) where
  __ := u.base os
  waitRead t w := (u.waitRead os (fuel t w) t w).getD (.ok false, w)
  read := u.read os
  write := u.write os

end UDPServerStream

/-- The fields of a `UnixDatagramStream` that do not change. -/
structure UnixDatagramStream where
  id : ℕ
  fd : ℤ
  autoClose : Bool
  siOtherDynamic : Bool

namespace UnixDatagramStream

/-- `sizeof(sockaddr_un)`. -/
def sizeofSockaddr : ℕ := 110

def read (os : DatagramOs Ω) (x : UnixDatagramStream) (n : ℕ) (w : Socket Ω) :
    Except Exn {data : Bytes // data.length ≤ n} × Socket Ω :=
  match w.recvfrom os x.fd n false with
  | (.ok (data, address), w) =>
    (.ok data, w.took x.id x.siOtherDynamic sizeofSockaddr data.val address)
  | (.error err, w) =>
    if err = EAGAIN then (.ok ⟨[], Nat.zero_le _⟩, w)
    else (.error (.unixError "readPacket(): error reading the file descriptor" err), w)

def write (os : DatagramOs Ω) (x : UnixDatagramStream) (data : Bytes) (w : Socket Ω) :
    Except Exn {n : ℕ // n ≤ data.length} × Socket Ω :=
  if ¬ w.hasOther then (.ok (wroteAll data), w)
  else
    match os.sendto x.fd data w.siOther w.sLen w.os with
    | (.ok n, o) => (.ok n, w.withMachine (w.toMachine.withOs o))
    | (.error err, o) =>
      let w := w.withMachine (w.toMachine.withOs o)
      -- no error is both of them
      if err = EAGAIN ∧ err = ENOBUFS then (.ok (wroteNothing data), w)
      else (.error (.unixError "UnixDatagramStream: writePacket(): error during write" err), w)

def stream (os : DatagramOs Ω) (x : UnixDatagramStream) : IOStream (Socket Ω) where
  __ := (fdStream os.toOs x.id x.fd x.autoClose true).onSocket
  read := x.read os
  write := x.write os

end UnixDatagramStream

/-- What the next receptions find, and the errors of the next transmissions. -/
structure SocketScript where
  recvs : List (Except ℕ Bytes)
  sends : List ℕ

namespace SocketScript

def send (data : Bytes) (w : SocketScript) :
    Except ℕ {n : ℕ // n ≤ data.length} × SocketScript :=
  match w.sends with
  | [] => (.ok (wroteAll data), w)
  | err :: errs => (.error err, { w with sends := errs })

/-- A system that goes through the script; a look at a datagram leaves it there. -/
def os : DatagramOs SocketScript where
  read _ _ w := (.error EAGAIN, w)
  recv _ _ _ w := (.error EAGAIN, w)
  write _ := send
  send _ _ := send
  select reads writes _ w := (.ok (if w.recvs.isEmpty then [] else reads, writes), w)
  accept _ w := (.error EAGAIN, w)
  close _ w := w
  getFlags _ w := (O_NONBLOCK, w)
  setFlags _ _ w := (.ok (), w)
  now w := (0, w)
  recvfrom _ n peek w :=
    match w.recvs with
    | [] => (.error EAGAIN, w)
    | .error err :: rs => (.error err, { w with recvs := rs })
    | .ok data :: rs => (.ok (⟨data.take n, List.length_take_le n data⟩, []),
      if peek then w else { w with recvs := rs })
  sendto _ data _ _ := send data

end SocketScript

end IodriversBase
