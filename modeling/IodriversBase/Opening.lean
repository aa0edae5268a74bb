import IodriversBase.Calls
import IodriversBase.Objects
import IodriversBase.SerialSettings
import IodriversBase.TestStream

namespace IodriversBase

open Programs

variable {Ω : Type}

def AF_UNSPEC : ℤ := 0
def AF_UNIX : ℤ := 1
def SOCK_STREAM : ℤ := 1
def SOCK_DGRAM : ℤ := 2
def AI_PASSIVE : ℤ := 1

/-- The fields of an `addrinfo` that are set for a request. -/
structure Hints where
  family : ℤ
  socktype : ℤ
  flags : ℤ
  deriving DecidableEq

/-- An `addrinfo` of the answer, with the `ai_addrlen` bytes of its address. -/
structure Addrinfo where
  family : ℤ
  socktype : ℤ
  protocol : ℤ
  addr : Bytes
  deriving DecidableEq

structure OpenOs (Ω : Type) extends DatagramOs Ω, SerialOs Ω where
  getaddrinfo : (node : Option Text) → (service : Text) → Hints → Ω → Option (List Addrinfo) × Ω
  socket : (family socktype protocol : ℤ) → Ω → Option ℤ × Ω
  bind : (fd : ℤ) → (addr : Bytes) → Ω → Bool × Ω
  connect : (fd : ℤ) → (addr : Bytes) → Ω → Bool × Ω
  listen : (fd backlog : ℤ) → Ω → Bool × Ω
  /-- `setsockopt` with `TCP_NODELAY`. -/
  setNodelay : (fd : ℤ) → Ω → Bool × Ω
  unlink : (path : Text) → Ω → Ω
  /-- `open` with `O_RDWR | O_SYNC | O_NONBLOCK`. -/
  openPath : (path : Text) → Ω → Option ℤ × Ω

def cString (s : Text) : Text := s.takeWhile (· ≠ '\x00')

def lexicalCast (port : ℤ) : Text := (toString port).toList

def sockaddrUn (path : Text) : Bytes :=
  let sunPath := ((cString path).take 107).map fun c => UInt8.ofNat c.toNat
  [1, 0] ++ sunPath ++ List.replicate (108 - sunPath.length) 0

section Sockets

variable (os : OpenOs Ω)

/-- What the loops over the candidates do with one of them: a socket for it that could be
attached, by `bind` or by `connect`. -/
def attachSocket (attach : ℤ → Bytes → Ω → Bool × Ω) (rp : Addrinfo) (w : Ω) :
    Option (ℤ × Bytes) × Ω :=
  match os.socket rp.family rp.socktype rp.protocol w with
  | (none, w) => (none, w)
  | (some sfd, w) =>
    match attach sfd rp.addr w with
    | (true, w) => (some (sfd, rp.addr), w)
    | (false, w) => (none, os.close sfd w)

def createIPServerSocket (port : Text) (hints : Hints) : Act Ω UnixError ℤ := do
  let candidates ← demand os.errno (os.getaddrinfo none port hints)
    ("cannot resolve server port ".toList ++ port)
  let r ← demand os.errno (firstSome (attachSocket os os.bind) candidates)
    ("cannot open server socket on port ".toList ++ port)
  return r.1

def createIPClientSocket (hostname port : Text) (hints : Hints) : Act Ω UnixError (ℤ × Bytes) := do
  let candidates ← demand os.errno (os.getaddrinfo (some (cString hostname)) port hints)
    ("cannot resolve client port ".toList ++ port)
  demand os.errno (firstSome (attachSocket os os.connect) candidates)
    ("cannot open client socket on port ".toList ++ port)

def connectTo (fd : ℤ) (rp : Addrinfo) (w : Ω) : Option Bytes × Ω :=
  match os.connect fd rp.addr w with
  | (true, w) => (some rp.addr, w)
  | (false, w) => (none, w)

def connectIPSocket (fd : ℤ) (hostname port : Text) (hints : Hints) : Act Ω UnixError Bytes := do
  let candidates ← demand os.errno (os.getaddrinfo (some (cString hostname)) port hints)
    ("cannot resolve client port ".toList ++ port)
  demand os.errno (firstSome (connectTo os fd) candidates)
    ("cannot connect client socket on port ".toList ++ port)

/-- A new Unix socket on which `f` succeeds; the `FileGuard` closes it where `f` throws. -/
def unixSocket (socktype : ℤ) (f : ℤ → Act Ω UnixError Unit) : Act Ω UnixError ℤ := do
  let fd ← demand os.errno (os.socket AF_UNIX socktype 0) "failed to create Unix socket".toList
  guarded (os.close fd) (f fd)
  return fd

end Sockets

inductive MainStream (Ω : Type)
  | backed (b : Backed Ω)
  | testStream

structure Heap (Ω : Type) extends Objects Ω where
  test : ℕ → TestStream

namespace Heap

def withObjects (h : Heap Ω) (w : Objects Ω) : Heap Ω := { h with toObjects := w }

def withOs (h : Heap Ω) (os : Ω) : Heap Ω := h.withObjects (h.toObjects.withOs os)

def withTest (id : ℕ) (h : Heap Ω) (s : TestStream) : Heap Ω :=
  { h with test := Function.update h.test id s }

def create (h : Heap Ω) (id : ℕ) (peer : Peer) : Heap Ω :=
  { h with
    eof := Function.update h.eof id false
    peer := Function.update h.peer id peer
    client := Function.update h.client id none
    test := Function.update h.test id .new }

end Heap

/-- The main stream under the number `id`. -/
def MainStream.stream (os : DatagramOs Ω) (id : ℕ) : MainStream Ω → IOStream (Heap Ω)
  | .backed b => (b.stream os id).within Heap.toObjects Heap.withObjects
  | .testStream => (TestStream.stream : IOStream (TestStream × Unit)).within
      (fun h => (h.test id, ())) fun h s => h.withTest id s.1

def IOListener.onHeap (l : IOListener Ω) : IOListener (Heap Ω) where
  writeData data h := h.withOs (l.writeData data h.os)
  readData data h := h.withOs (l.readData data h.os)

/-- A driver that opens its streams, the streams under numbers as in `Sys`. -/
structure Owner (Ω : Type) where
  main : Option (MainStream Ω)
  listeners : List (ℕ × IOListener Ω)
  number : ℕ
  driver : Driver
  world : Recorded (Heap Ω)

namespace Owner

def os (s : Owner Ω) : Ω := s.world.world.os

def withHeap (s : Owner Ω) (h : Heap Ω) : Owner Ω := { s with world := ⟨h, s.world.trace⟩ }

def withOs (s : Owner Ω) (os : Ω) : Owner Ω := s.withHeap (s.world.world.withOs os)

def io (os : DatagramOs Ω) (s : Owner Ω) : Ports (Heap Ω) where
  now h := ((os.now h.os).1, h.withOs (os.now h.os).2)
  stream := s.main.map fun main => main.stream os s.number
  listeners := s.listeners.map fun l => (l.1, l.2.onHeap)

def toSys (os : DatagramOs Ω) (s : Owner Ω) : Sys (Heap Ω) := ⟨s.io os, s.number, s.driver, s.world⟩

/-- `delete m_stream`. -/
def delete (os : DatagramOs Ω) (s : Owner Ω) : Heap Ω := (close (s.io os) s.world.world).2

def close (os : DatagramOs Ω) (s : Owner Ω) : Owner Ω :=
  { s.withHeap (s.delete os) with main := none }

/-- `Driver::setMainStream` for an object that has just been made; the old one is deleted. -/
def setMainStream (os : DatagramOs Ω) (s : Owner Ω) (main : MainStream Ω) (peer : Peer) : Owner Ω :=
  let s := s.withHeap (s.world.world.create (s.number + 1) peer)
  { s.withHeap (s.delete os) with main := some main, number := s.number + 1 }

def getFileDescriptor (os : DatagramOs Ω) (s : Owner Ω) : ℤ :=
  match s.main with
  | some main => (main.stream os s.number).getFileDescriptor s.world.world
  | none => -1

def isTestStream (s : Owner Ω) : Bool :=
  match s.main with
  | some .testStream => true
  | _ => false

end Owner

def Exn.toUnixError : Exn → UnixError
  | .unixError what error => ⟨what.toList, error⟩
  | _ => ⟨[], 0⟩

def throwing {α : Type} (f : Ω → Except Exn α × Ω) : Act Ω UnixError α :=
  ExceptT.mk fun w => ((f w).1.mapError Exn.toUnixError, (f w).2)

def onOs {α : Type} (f : Act Ω UnixError α) : Act (Owner Ω) UnixError α :=
  within Owner.os Owner.withOs f

def noPeer (sizeof : ℕ) : Peer := ⟨[], sizeof, false, 0, []⟩

section Members

variable (os : OpenOs Ω)

def newStream (fd : ℤ) (main : MainStream Ω) (peer : Peer) : Act (Owner Ω) UnixError Unit := do
  let _ ← onOs (throwing (setNonBlockingFlag os.toOs fd))
  act fun s => ((), s.setMainStream os.toDatagramOs main peer)

def setFileDescriptor (fd : ℤ) (autoClose hasEof : Bool) : Act (Owner Ω) UnixError Unit :=
  newStream os fd (.backed (.fdStream fd autoClose hasEof)) (noPeer 0)

def openIPClient (hostname : Text) (port : ℤ) (hints : Hints) : Act (Owner Ω) UnixError Unit := do
  let r ← onOs (createIPClientSocket os hostname (lexicalCast port) hints)
  setFileDescriptor os r.1 true true

def nodelayWhat : Text := "cannot set the TCP_NODELAY flag".toList

def openTCP (hostname : Text) (port : ℤ) : Act (Owner Ω) UnixError Unit := do
  openIPClient os hostname port ⟨AF_UNSPEC, SOCK_STREAM, 0⟩
  let fd ← act fun s => (s.getFileDescriptor os.toDatagramOs, s)
  let result ← onOs (act (os.setNodelay fd))
  if result then pure ()
  else
    act fun s => ((), s.close os.toDatagramOs)
    onOs (check os.errno (fun w => (false, w)) nodelayWhat)

def openUnixStreamServer (path : Text) : Act (Owner Ω) UnixError Unit := do
  onOs (act fun w => ((), os.unlink (cString path) w))
  let fd ← onOs (unixSocket os SOCK_STREAM fun fd => do
    check os.errno (os.bind fd (sockaddrUn path)) ("failed to bind to Unix socket ".toList ++ path)
    check os.errno (os.listen fd 1) ("failed to listen to socket ".toList ++ path))
  newStream os fd (.backed (.unixServerStream ⟨0, fd, true⟩)) (noPeer 0)

def openUnixStreamClient (path : Text) : Act (Owner Ω) UnixError Unit := do
  let fd ← onOs (unixSocket os SOCK_STREAM fun fd =>
    check os.errno (os.connect fd (sockaddrUn path))
      ("failed to connect to socket ".toList ++ path))
  newStream os fd (.backed (.socketStream MSG_NOSIGNAL 0 fd true true)) (noPeer 0)

def openUnixDatagramServer (path : Text) : Act (Owner Ω) UnixError Unit := do
  onOs (act fun w => ((), os.unlink (cString path) w))
  let fd ← onOs (unixSocket os SOCK_DGRAM fun fd =>
    check os.errno (os.bind fd (sockaddrUn path)) ("failed to bind to ".toList ++ path))
  newStream os fd (.backed (.unixDatagramStream ⟨0, fd, true, true⟩)) (noPeer 0)

def openUnixDatagramClient (path : Text) : Act (Owner Ω) UnixError Unit := do
  let fd ← onOs (unixSocket os SOCK_DGRAM fun _ => pure ())
  newStream os fd (.backed (.unixDatagramStream ⟨0, fd, true, false⟩))
    ⟨sockaddrUn path, UnixDatagramStream.sizeofSockaddr, true, 0, []⟩

variable (fuel : Time → Socket Ω → ℕ)

def openUDPServer (port : ℤ) : Act (Owner Ω) UnixError Unit := do
  let sfd ← onOs (createIPServerSocket os (lexicalCast port) ⟨AF_UNSPEC, SOCK_DGRAM, AI_PASSIVE⟩)
  newStream os sfd (.backed (.udpServerStream ⟨0, sfd, true, true, true, true, true⟩ fuel))
    (noPeer UDPServerStream.sizeofSockaddr)

def openUDP (hostname : Text) (port : ℤ) : Act (Owner Ω) UnixError Unit :=
  if hostname = [] then openUDPServer os fuel port
  else openIPClient os hostname port ⟨AF_UNSPEC, SOCK_DGRAM, 0⟩

/-- The address of the peer that `Driver::openUDPBidirectional` finds. -/
def udpPeer (sfd : ℤ) (call : UDPBidirectional) : Act Ω UnixError Bytes :=
  let hints : Hints := ⟨AF_UNSPEC, SOCK_DGRAM, 0⟩
  if call.connected then connectIPSocket os sfd call.hostname (lexicalCast call.remotePort) hints
  else do
    let r ← createIPClientSocket os call.hostname (lexicalCast call.remotePort) hints
    act fun w => ((), os.close r.1 w)
    return r.2

def openUDPBidirectional (call : UDPBidirectional) : Act (Owner Ω) UnixError Unit := do
  let sfd ← onOs (createIPServerSocket os (lexicalCast call.localPort)
    ⟨AF_UNSPEC, SOCK_DGRAM, AI_PASSIVE⟩)
  let peer ← onOs (udpPeer os sfd call)
  newStream os sfd
    (.backed (.udpServerStream ⟨0, sfd, true, false, call.ignoreConnrefused,
      call.ignoreHostunreach, call.ignoreNetunreach⟩ fuel))
    ⟨peer.take UDPServerStream.sizeofSockaddr, peer.length, true, 0, []⟩

def openFile (path : Text) : Act (Owner Ω) UnixError Unit := do
  let fd ← onOs (demand os.errno (os.openPath (cString path)) ("cannot open file ".toList ++ path))
  setFileDescriptor os fd true true

def openTestMode : Act (Owner Ω) UnixError Unit :=
  act fun s => ((), s.setMainStream os.toDatagramOs .testStream (noPeer 0))

/-- The end of `Driver::openSerial`, on the descriptor from `openSerialIO`. -/
def openSerialOn (fd : ℤ) (configuration : SerialConfiguration) :
    Act (Owner Ω) UnixError Unit := do
  setFileDescriptor os fd true false
  let fd ← act fun s => (s.getFileDescriptor os.toDatagramOs, s)
  onOs (setSerialConfiguration os.toSerialOs fd configuration)

/-- `Driver::openSerial`; it has a fault where the baud rate has one. -/
def openSerial (device : Text) (baudrate : ℤ) (configuration : SerialConfiguration)
    (s : Owner Ω) : Except Signed.Fault (Except UnixError Unit × Owner Ω) :=
  match openSerialIO os.toSerialOs (.ofList device) baudrate s.os with
  | .error fault => .error fault
  | .ok (.error x, w) => .ok (.error x.toUnixError, s.withOs w)
  | .ok (.ok fd, w) => .ok ((openSerialOn os fd configuration).run (s.withOs w))

/-- The members that `openURI` calls. -/
def Opening.perform : Opening → Owner Ω → Except Signed.Fault (Except UnixError Unit × Owner Ω)
  | .openSerial device baudrate configuration, s =>
    IodriversBase.openSerial os device baudrate configuration s
  | .openTCP hostname port, s => .ok ((IodriversBase.openTCP os hostname port).run s)
  | .openUDPBidirectional call, s =>
    .ok ((IodriversBase.openUDPBidirectional os fuel call).run s)
  | .openUDPServer port, s => .ok ((IodriversBase.openUDPServer os fuel port).run s)
  | .openFile path, s => .ok ((IodriversBase.openFile os path).run s)
  | .openUnixStreamServer path, s => .ok ((IodriversBase.openUnixStreamServer os path).run s)
  | .openUnixStreamClient path, s => .ok ((IodriversBase.openUnixStreamClient os path).run s)
  | .openUnixDatagramServer path, s => .ok ((IodriversBase.openUnixDatagramServer os path).run s)
  | .openUnixDatagramClient path, s => .ok ((IodriversBase.openUnixDatagramClient os path).run s)
  | .openTestMode, s => .ok ((IodriversBase.openTestMode os).run s)
  | .setFileDescriptor fd autoClose hasEof, s =>
    .ok ((IodriversBase.setFileDescriptor os fd autoClose hasEof).run s)

/-- The driver as `openURI` sees it; after a fault nothing is known of it. -/
def opener : Opener (Except Signed.Fault (Owner Ω)) where
  perform o w :=
    match w with
    | .error fault => (.ok (), .error fault)
    | .ok s =>
      match o.perform os fuel s with
      | .error fault => (.ok (), .error fault)
      | .ok (r, t) => (r, .ok t)
  isTestStream w :=
    match w with
    | .error _ => false
    | .ok s => s.isTestStream

end Members

def unixFailure : Except UnixError Unit → Option UnixError
  | .ok _ => none
  | .error x => some x

def openFailure : Except OpenError Unit → Option UnixError
  | .error (.unixError x) => some x
  | _ => none

/-- `openURI` calls the member that the URI asks for, or leaves the driver alone. -/
theorem openURI_performs {os : OpenOs Ω} {fuel : Time → Socket Ω → ℕ} {uriString : Text}
    {s t : Owner Ω} {r : Except OpenError Unit}
    (h : openURI (opener os fuel) uriString (.ok s) = (r, .ok t)) :
    (t = s ∧ openFailure r = none ∧ ∀ o ∈ askedFor uriString, o = .openTestMode) ∨
      ∃ o r', askedFor uriString = some o ∧ o.perform os fuel s = .ok (r', t) ∧
        r = r'.mapError .unixError := by
  obtain ⟨o, hasked, hcall⟩ | ⟨hasked, hsame, hfailed⟩ :=
    openURI_calls (opener os fuel) uriString (.ok s)
  · rw [hcall] at h
    simp only [Opener.call, opener] at h
    rcases hperform : o.perform os fuel s with fault | ⟨r', t'⟩
    · rw [hperform] at h
      cases h
    · rw [hperform] at h
      cases h
      exact .inr ⟨o, r', hasked, hperform, rfl⟩
  · rw [h] at hsame hfailed
    refine .inl ⟨Except.ok.inj hsame, ?_, hasked⟩
    rcases r with (x | x | x) | a
    case error.unixError => exact absurd rfl (hfailed x)
    all_goals rfl

/-- A system that hands out one number after the other, and on which no peer is known. -/
def OpenOs.lonely : OpenOs ℕ where
  read _ _ w := (.error EAGAIN, w)
  recv _ _ _ w := (.error EAGAIN, w)
  write _ _ w := (.error EAGAIN, w)
  send _ _ _ w := (.error EAGAIN, w)
  select _ _ _ w := (.ok ([], []), w)
  accept _ w := (.error EAGAIN, w)
  close _ w := w
  getFlags _ w := (O_NONBLOCK, w)
  setFlags _ _ w := (.ok (), w)
  now w := (0, w)
  recvfrom _ _ _ w := (.error EAGAIN, w)
  sendto _ _ _ _ w := (.error EAGAIN, w)
  errno _ := 0
  openDevice _ w := (some w, w + 1)
  tiocgserial _ w := (⟨0, 0, 115200⟩, w)
  tiocsserial _ _ w := w
  tcgetattr _ w := (some ⟨0, 0, none, none⟩, w)
  tcsetattr _ _ w := (true, w)
  cfsetispeed t _ := some t
  cfsetospeed t _ := some t
  getaddrinfo node _ _ w := (if node.isSome then none else some [⟨2, 2, 17, []⟩], w)
  socket _ _ _ w := (some w, w + 1)
  bind _ _ w := (true, w)
  connect _ _ w := (true, w)
  listen _ _ w := (true, w)
  setNodelay _ w := (true, w)
  unlink _ w := w
  openPath _ w := (some w, w + 1)

end IodriversBase
