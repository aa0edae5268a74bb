import IodriversBase.Driver
import IodriversBase.UnixServer

namespace IodriversBase

variable {Ω : Type}

structure Peer where
  siOther : Bytes
  sLen : ℕ
  hasOther : Bool
  waitReadError : ℕ
  recvs : List RecvCall
  deriving DecidableEq

/-- The machine, and what the stream objects keep under their numbers. -/
structure Objects (Ω : Type) extends Machine Ω where
  peer : ℕ → Peer
  client : ℕ → Option ℤ

namespace Objects

def withMachine (w : Objects Ω) (m : Machine Ω) : Objects Ω := { w with toMachine := m }

def withOs (w : Objects Ω) (os : Ω) : Objects Ω := w.withMachine (w.toMachine.withOs os)

def socket (id : ℕ) (w : Objects Ω) : Socket Ω where
  toMachine := w.toMachine
  siOther := (w.peer id).siOther
  sLen := (w.peer id).sLen
  hasOther := (w.peer id).hasOther
  waitReadError := (w.peer id).waitReadError
  recvs := (w.peer id).recvs

def withSocket (id : ℕ) (w : Objects Ω) (s : Socket Ω) : Objects Ω where
  toMachine := s.toMachine
  peer := Function.update w.peer id ⟨s.siOther, s.sLen, s.hasOther, s.waitReadError, s.recvs⟩
  client := w.client

/-- What a `UnixServerStream` knows of the world. -/
def server (id : ℕ) (w : Objects Ω) : Server Ω := ⟨w.toMachine, w.client id⟩

def withServer (id : ℕ) (w : Objects Ω) (s : Server Ω) : Objects Ω where
  toMachine := s.toMachine
  peer := w.peer
  client := Function.update w.client id s.client

end Objects

inductive Backed (Ω : Type)
  | fdStream (fd : ℤ) (autoClose hasEof : Bool)
  | socketStream (sendFlags recvFlags fd : ℤ) (autoClose hasEof : Bool)
  | udpServerStream (u : UDPServerStream) (fuel : Time → Socket Ω → ℕ)
  | unixDatagramStream (x : UnixDatagramStream)
  | unixServerStream (x : UnixServerStream)

/-- The stream object under the number `id`. -/
def Backed.stream (os : DatagramOs Ω) (id : ℕ) : Backed Ω → IOStream (Objects Ω)
  | .fdStream fd autoClose hasEof => (IodriversBase.fdStream os.toOs id fd autoClose hasEof).within
      Objects.toMachine Objects.withMachine
  | .socketStream sendFlags recvFlags fd autoClose hasEof =>
    (IodriversBase.socketStream os.toOs sendFlags recvFlags id fd autoClose hasEof).within
      Objects.toMachine Objects.withMachine
  | .udpServerStream u fuel => (UDPServerStream.stream os { u with id := id } fuel).within
      (Objects.socket id) (Objects.withSocket id)
  | .unixDatagramStream x => (UnixDatagramStream.stream os { x with id := id }).within
      (Objects.socket id) (Objects.withSocket id)
  | .unixServerStream x => (UnixServerStream.stream os.toOs { x with id := id }).within
      (Objects.server id) (Objects.withServer id)

def Extract.onObjects (E : Extract Ω) : Extract (Objects Ω) :=
  fun b w => ((E b w.os).1, w.withOs (E b w.os).2)

def IOListener.onObjects (l : IOListener Ω) : IOListener (Objects Ω) where
  writeData data w := w.withOs (l.writeData data w.os)
  readData data w := w.withOs (l.readData data w.os)

/-- The ports of a driver with the stream object `id`. -/
def Backed.ports (os : DatagramOs Ω) (id : ℕ) (b : Backed Ω) (listeners : List (ℕ × IOListener Ω)) :
    Ports (Objects Ω) where
  now w := ((os.now w.os).1, w.withOs (os.now w.os).2)
  stream := some (b.stream os id)
  listeners := listeners.map fun l => (l.1, l.2.onObjects)

end IodriversBase
