import IodriversBase.Calls
import IodriversBase.DatagramErrors

namespace IodriversBase

open Loop

variable {Ω : Type}

/-- The calls. -/
inductive UDPOp
  | waitRead (timeout : Time)
  | hasIO (timeout : Time)
  | readPacket (bufferSize : ℕ) (packetTimeout firstByteTimeout : Time)
  | readRaw (outBufferSize : ℕ) (packetTimeout firstByteTimeout interByteTimeout : Time)

/-- A wait for the stream of the driver; `IOStream::hasIO` is one. -/
def Sys.waitRead {ω : Type} (s : Sys ω) (timeout : Time) : Option (Answer × Sys ω) :=
  (s.io.recorded s.number).stream.map fun stream =>
    let r := stream.waitRead timeout s.world
    (match r.1 with | .ok b => .flag b | .error x => .threw x, { s with world := r.2 })

def UDPOp.perform {ω : Type} (e : Bytes → ℤ) (fuel : ℕ) (s : Sys ω) :
    UDPOp → Option (Answer × Sys ω)
  | .waitRead t | UDPOp.hasIO t => s.waitRead t
  | .readPacket n packet first => s.perform (.pure e) fuel (.readPacket n packet first)
  | .readRaw n packet first inter => s.perform (.pure e) fuel (.readRaw n packet first inter)

/-- The ports of a driver over a UDP socket. -/
def UDPServerStream.ports (os : DatagramOs Ω) (u : UDPServerStream) (fuel : Time → Socket Ω → ℕ)
    (listeners : List (ℕ × IOListener Ω)) : Ports (Socket Ω) :=
  os.socketPorts (some (u.stream os fuel)) listeners

/-- The errors that `recvfrom` met and that are to be reported. -/
def RecvCall.error (u : UDPServerStream) (c : RecvCall) : Option ℕ :=
  match c.answer with
  | .error err =>
    if u.ignores err then none
    else if c.peek then (if err = 0 then none else some err)
    else if err = EAGAIN then none else some err
  | .ok _ => none

def RecvCall.bytes (c : RecvCall) : Bytes :=
  match c.answer with
  | .ok data => if c.peek then [] else data
  | .error _ => []

def Event.reported (k : ℕ) : Event → Option ℕ
  | .read j _ (.error (.unixError _ err)) => if j = k then some err else none
  | _ => none

/-- The recorded error, still to be reported. -/
def Socket.pending (w : Socket Ω) : List ℕ := if w.waitReadError = 0 then [] else [w.waitReadError]

/-- Every error met has been reported once, or is the recorded one; every byte that was taken
from the socket has been delivered. -/
structure Accounted (u : UDPServerStream) (w : Recorded (Socket Ω)) : Prop where
  errors : w.trace.filterMap (Event.reported 0) ++ w.world.pending =
    w.world.recvs.filterMap (RecvCall.error u)
  bytes : received 0 w.trace = w.world.recvs.flatMap RecvCall.bytes

variable {os : DatagramOs Ω} {u : UDPServerStream} {w w' : Recorded (Socket Ω)}

theorem Accounted.event (h : Accounted u w) (calls : List RecvCall) {world : Socket Ω} {ev : Event}
    (hrecvs : world.recvs = w.world.recvs ++ calls)
    (herrors : (ev.reported 0).toList ++ world.pending =
      w.world.pending ++ calls.filterMap (RecvCall.error u))
    (hbytes : (ev.chunk 0).getD [] = calls.flatMap RecvCall.bytes) :
    Accounted u ⟨world, w.trace ++ [ev]⟩ := by
  refine ⟨?_, ?_⟩
  · have hev : [ev].filterMap (Event.reported 0) = (ev.reported 0).toList := by
      cases hr : ev.reported 0 <;> simp [hr]
    rw [hrecvs, List.filterMap_append, List.filterMap_append, ← h.errors, hev, List.append_assoc,
      herrors, List.append_assoc]
  · have hev : received 0 [ev] = (ev.chunk 0).getD [] := by
      cases hc : ev.chunk 0 <;> simp [received, chunks, hc]
    rw [received_append, h.bytes, hev, hbytes, hrecvs, List.flatMap_append]

theorem Accounted.other (h : Accounted u w) {world : Socket Ω} {ev : Event}
    (hrecvs : world.recvs = w.world.recvs) (herror : world.waitReadError = w.world.waitReadError)
    (hreported : ev.reported 0 = none) (hchunk : ev.chunk 0 = none) :
    Accounted u ⟨world, w.trace ++ [ev]⟩ := by
  refine h.event [] (by simp [hrecvs]) ?_ (by simp [hchunk])
  simp [hreported, Socket.pending, herror]

theorem bytes_refused (errs : List ℕ) :
    (errs.map RecvCall.refused).flatMap RecvCall.bytes = [] := by
  simp [RecvCall.refused, RecvCall.bytes]

theorem error_refused {errs : List ℕ} (herrs : ∀ err ∈ errs, u.ignores err) :
    (errs.map RecvCall.refused).filterMap (RecvCall.error u) = [] := by
  rw [List.filterMap_eq_nil_iff]
  intro c hc
  obtain ⟨err, herr, rfl⟩ := List.mem_map.mp hc
  simp [RecvCall.refused, RecvCall.error, herrs err herr]

theorem WaitEnd.accounted {r} {world : Socket Ω} (timeout : Time) (h : Accounted u w)
    (hclean : w.world.waitReadError = 0) (hend : WaitEnd u w.world r world) :
    Accounted u ⟨world, w.trace ++ [Event.waitRead 0 timeout r]⟩ := by
  have hpending : w.world.pending = [] := if_pos hclean
  cases hend with
  | silent errs herrs hrecvs hclean' =>
    refine h.event _ hrecvs ?_ (bytes_refused errs).symm
    rw [hpending, error_refused herrs, Socket.pending, if_pos hclean']
    rfl
  | error errs err herrs hkind hrecvs herror =>
    refine h.event _ hrecvs ?_ (bytes_refused _).symm
    rw [hpending, List.map_append, List.filterMap_append, error_refused herrs, Socket.pending,
      herror]
    by_cases h0 : err = 0 <;> simp [Event.reported, RecvCall.refused, RecvCall.error, hkind, h0]
  | datagram errs data herrs hrecvs hclean' =>
    rw [List.append_assoc] at hrecvs
    refine h.event _ hrecvs ?_ ?_
    · rw [hpending, List.filterMap_append, error_refused herrs, Socket.pending, if_pos hclean']
      rfl
    · rw [List.flatMap_append, bytes_refused]
      rfl

theorem Accounted.waitRead (h : Accounted u w) {fuel : Time → Socket Ω → ℕ} {timeout : Time} {r}
    (hr : ((u.stream os fuel).recorded 0).waitRead timeout w = (r, w')) : Accounted u w' := by
  obtain ⟨rfl, rfl⟩ := Prod.mk.inj hr
  by_cases hclean : w.world.waitReadError = 0
  · rcases hwait : u.waitRead os (fuel timeout w.world) timeout w.world with _ | ⟨r, world⟩
    · apply h.other <;> simp [UDPServerStream.stream, hwait, Event.reported, Event.chunk]
    · have hend := (UDPServerStream.waitRead_end hclean hwait).accounted timeout h hclean
      simpa [UDPServerStream.stream, hwait] using hend
  · apply h.other <;>
      simp [UDPServerStream.stream, UDPServerStream.waitRead, hclean, Event.reported, Event.chunk]

theorem Accounted.read (h : Accounted u w) {fuel : Time → Socket Ω → ℕ} {n : ℕ} {r}
    (hr : ((u.stream os fuel).recorded 0).read n w = (r, w')) : Accounted u w' := by
  obtain ⟨rfl, rfl⟩ := Prod.mk.inj hr
  dsimp only [UDPServerStream.stream]
  by_cases hclean : w.world.waitReadError = 0
  swap
  · -- the recorded error becomes a reported one
    rw [UDPServerStream.read_recorded hclean]
    apply h.event [] <;> simp [Socket.pending, hclean, Event.reported, Event.chunk, Except.map]
  have hpending : w.world.pending = [] := if_pos hclean
  rw [UDPServerStream.read, if_neg (not_not.mpr hclean), Socket.recvfrom]
  rcases os.recvfrom u.fd n false w.world.os with ⟨err | ⟨data, address⟩, o⟩
  swap
  · apply h.event [⟨false, n, .ok data.val⟩] <;>
      simp [Socket.took, Socket.pending, hclean, Event.reported, Event.chunk, RecvCall.error,
        RecvCall.bytes, Except.map]
  dsimp only
  -- no datagram was there
  by_cases hagain : err = EAGAIN
  · rw [if_pos hagain]
    apply h.event [⟨false, n, .error err⟩] <;>
      simp [Socket.pending, hclean, hagain, Event.reported, Event.chunk, RecvCall.error,
        RecvCall.bytes, Except.map]
  rw [if_neg hagain]
  by_cases hignored : u.ignores err
  · rw [if_pos hignored]
    apply h.event [⟨false, n, .error err⟩] <;>
      simp [Socket.pending, hclean, hignored, Event.reported, Event.chunk, RecvCall.error,
        RecvCall.bytes, Except.map]
  · rw [if_neg hignored]
    apply h.event [⟨false, n, .error err⟩] <;>
      simp [Socket.pending, hclean, hagain, hignored, Event.reported, Event.chunk, RecvCall.error,
        RecvCall.bytes, Except.map]

variable {listeners : List (ℕ × IOListener Ω)} {fuel : Time → Socket Ω → ℕ} {e : Bytes → ℤ}

variable {s t : Sys (Socket Ω)} {call : UDPOp × Answer}

end IodriversBase
