import IodriversBase.Datagrams
import IodriversBase.Driver

namespace IodriversBase

open Loop

variable {Ω : Type}

/-- A stream object of one of the classes that write. -/
inductive Outlet
  | fdStream (id : ℕ) (fd : ℤ) (autoClose hasEof : Bool)
  | socketStream (sendFlags recvFlags : ℤ) (id : ℕ) (fd : ℤ) (autoClose hasEof : Bool)
  | udpServerStream (u : UDPServerStream)
  | unixDatagramStream (x : UnixDatagramStream)

namespace Outlet

def stream (os : DatagramOs Ω) (fuel : Time → Socket Ω → ℕ) : Outlet → IOStream (Socket Ω)
  | fdStream id fd autoClose hasEof =>
    (IodriversBase.fdStream os.toOs id fd autoClose hasEof).onSocket
  | socketStream sendFlags recvFlags id fd autoClose hasEof =>
    (IodriversBase.socketStream os.toOs sendFlags recvFlags id fd autoClose hasEof).onSocket
  | udpServerStream u => u.stream os fuel
  | unixDatagramStream x => x.stream os

def send (os : DatagramOs Ω) (data : Bytes) (w : Socket Ω) :
    Outlet → Except ℕ {n : ℕ // n ≤ data.length} × Ω
  | fdStream _ fd _ _ => os.write fd data w.os
  | socketStream sendFlags _ _ fd _ _ => os.send fd sendFlags data w.os
  | udpServerStream u => os.sendto u.fd data w.siOther w.sLen w.os
  | unixDatagramStream x => os.sendto x.fd data w.siOther w.sLen w.os

/-- The datagram streams. -/
def Datagram : Outlet → Prop
  | fdStream .. | socketStream .. => False
  | udpServerStream _ | unixDatagramStream _ => True

instance (o : Outlet) : Decidable o.Datagram := by
  cases o <;> unfold Datagram <;> infer_instance

/-- From `w` on, the send call fails with `errs`, one after the other, and then takes the whole of
`buffer`; in between, the timeout has not elapsed and the descriptor can be written. -/
def Transient (o : Outlet) (os : DatagramOs Ω) (fuel : Time → Socket Ω → ℕ) (io : Ports (Socket Ω))
    (timeOut : Timeout) (buffer : Bytes) : List ℕ → Socket Ω → Prop
  | [], w => ∃ n w', o.send os buffer w = (.ok n, w') ∧ n.val = buffer.length
  | err :: errs, w => (err = EAGAIN ∨ err = ENOBUFS) ∧ ∃ o' w₁ w₂,
      o.send os buffer w = (.error err, o') ∧
      w₁ = io.notifyWrite [] (w.withMachine (w.toMachine.withOs o')) ∧
      timeOut.elapsed (timevalOf (io.now w₁).1) = false ∧
      (o.stream os fuel).waitWrite
        (toInt32 (toInt32 (timeOut.timeLeft (timevalOf (io.now (io.now w₁).2).1)) * 1000))
        (io.now (io.now w₁).2).2 = (.ok true, w₂) ∧
      o.Transient os fuel io timeOut buffer errs w₂

variable {os : DatagramOs Ω} {fuel : Time → Socket Ω → ℕ} {w : Socket Ω} {data : Bytes} {o : Outlet}
  {o' : Ω}

variable (fuel) in
theorem write_taken (hpeer : o.Datagram → w.hasOther = true) {n}
    (h : o.send os data w = (.ok n, o')) :
    (o.stream os fuel).write data w = (.ok n, w.withMachine (w.toMachine.withOs o')) := by
  cases o with
  | fdStream id fd autoClose hasEof =>
    simp only [send] at h
    simp [stream, IOStream.onSocket, IodriversBase.fdStream, descriptorStream, h]
  | socketStream sendFlags recvFlags id fd autoClose hasEof =>
    simp only [send] at h
    simp [stream, IOStream.onSocket, IodriversBase.socketStream, descriptorStream, h]
  | udpServerStream u =>
    simp only [send] at h
    simp [stream, UDPServerStream.stream, UDPServerStream.write, hpeer trivial, h]
  | unixDatagramStream x =>
    simp only [send] at h
    simp [stream, UnixDatagramStream.stream, UnixDatagramStream.write, hpeer trivial, h]

variable (fuel) in
theorem write_refused {err : ℕ} (herr : err = EAGAIN ∨ err = ENOBUFS) (ho : ¬ o.Datagram)
    (h : o.send os data w = (.error err, o')) : (o.stream os fuel).write data w =
      (.ok (wroteNothing data), w.withMachine (w.toMachine.withOs o')) := by
  have hkind : ¬ (err ≠ EAGAIN ∧ err ≠ ENOBUFS) := by
    rintro ⟨hagain, hbufs⟩
    exact herr.elim hagain hbufs
  cases o with
  | fdStream id fd autoClose hasEof =>
    simp only [send] at h
    simp only [stream, IOStream.onSocket, IodriversBase.fdStream, descriptorStream, h, if_neg hkind]
  | socketStream sendFlags recvFlags id fd autoClose hasEof =>
    simp only [send] at h
    simp only [stream, IOStream.onSocket, IodriversBase.socketStream, descriptorStream, h,
      if_neg hkind]
  | udpServerStream => exact absurd trivial ho
  | unixDatagramStream => exact absurd trivial ho

variable (fuel) in
theorem write_threw {err : ℕ} (herr : err = EAGAIN ∨ err = ENOBUFS) (ho : o.Datagram)
    (hpeer : w.hasOther = true) (h : o.send os data w = (.error err, o')) :
    ∃ what, (o.stream os fuel).write data w =
      (.error (.unixError what err), w.withMachine (w.toMachine.withOs o')) := by
  have hkind : ¬ (err = EAGAIN ∧ err = ENOBUFS) := by
    rintro ⟨rfl, hbufs⟩
    exact absurd hbufs (by decide)
  cases o with
  | fdStream => exact ho.elim
  | socketStream => exact ho.elim
  | udpServerStream u =>
    have hignored : u.ignores err = false := by
      rcases herr with rfl | rfl <;>
        simp [UDPServerStream.ignores, EAGAIN, ENOBUFS, ECONNREFUSED, EHOSTUNREACH, ENETUNREACH]
    simp only [send] at h
    refine ⟨"UDPServerStream: writePacket(): error during write", ?_⟩
    simp only [stream, UDPServerStream.stream, UDPServerStream.write, hpeer, h, if_neg hkind,
      hignored]
    rfl
  | unixDatagramStream x =>
    simp only [send] at h
    refine ⟨"UnixDatagramStream: writePacket(): error during write", ?_⟩
    simp only [stream, UnixDatagramStream.stream, UnixDatagramStream.write, hpeer, h, if_neg hkind]
    rfl

end Outlet

/-- A send call, with the packet in the log if the system has taken it. -/
def logSend {data : Bytes} (r : Except ℕ {n : ℕ // n ≤ data.length} × Ω) (log : List Bytes) :
    Except ℕ {n : ℕ // n ≤ data.length} × Ω × List Bytes :=
  (r.1, r.2, match r.1 with | .ok n => log ++ [data.take n] | .error _ => log)

/-- The system, with a log of what its send calls have taken. -/
def DatagramOs.logged (os : DatagramOs Ω) : DatagramOs (Ω × List Bytes) where
  read fd n w := ((os.read fd n w.1).1, (os.read fd n w.1).2, w.2)
  recv fd flags n w := ((os.recv fd flags n w.1).1, (os.recv fd flags n w.1).2, w.2)
  write fd data w := logSend (os.write fd data w.1) w.2
  send fd flags data w := logSend (os.send fd flags data w.1) w.2
  select reads writes t w :=
    ((os.select reads writes t w.1).1, (os.select reads writes t w.1).2, w.2)
  accept fd w := ((os.accept fd w.1).1, (os.accept fd w.1).2, w.2)
  close fd w := (os.close fd w.1, w.2)
  getFlags fd w := ((os.getFlags fd w.1).1, (os.getFlags fd w.1).2, w.2)
  setFlags fd flags w := ((os.setFlags fd flags w.1).1, (os.setFlags fd flags w.1).2, w.2)
  now w := ((os.now w.1).1, (os.now w.1).2, w.2)
  recvfrom fd n peek w := ((os.recvfrom fd n peek w.1).1, (os.recvfrom fd n peek w.1).2, w.2)
  sendto fd data siOther sLen w := logSend (os.sendto fd data siOther sLen w.1) w.2

/-- The ports of a driver over one of the streams, on the system with the log. -/
def Outlet.ports (o : Outlet) (os : DatagramOs Ω) (fuel : Time → Socket (Ω × List Bytes) → ℕ)
    (listeners : List (ℕ × IOListener Ω)) : Ports (Socket (Ω × List Bytes)) :=
  os.logged.socketPorts (some (o.stream os.logged fuel))
    (listeners.map fun l => (l.1, l.2.logged))

abbrev Socket.handed (w : Socket (Ω × List Bytes)) : List Bytes := w.os.2

/-- `writePacket` succeeds, having handed the packet over once. -/
def Outlet.Delivers (o : Outlet) (os : DatagramOs Ω) (fuel : Time → Socket (Ω × List Bytes) → ℕ)
    (listeners : List (ℕ × IOListener Ω)) (n : ℕ) (d : Driver) (buffer : Bytes) (timeout : Time)
    (w : Socket (Ω × List Bytes)) : Prop :=
  ∃ d' w', d.writePacket (o.ports os fuel listeners) n buffer timeout w = some (.ok true, d', w') ∧
    w'.handed = w.handed ++ [buffer]

section Delivering

variable {os : DatagramOs Ω} {fuel : Time → Socket (Ω × List Bytes) → ℕ}
  {listeners : List (ℕ × IOListener Ω)} {o : Outlet} {buffer : Bytes} {timeOut : Timeout}
  {w : Socket (Ω × List Bytes)} {errs : List ℕ}

variable (os fuel listeners) in
theorem notifyWrite_keeps (o : Outlet) (data : Bytes) (w : Socket (Ω × List Bytes)) :
    ((o.ports os fuel listeners).notifyWrite data w).handed = w.handed ∧
      ((o.ports os fuel listeners).notifyWrite data w).hasOther = w.hasOther := by
  refine Ports.notifyWrite_rule
    (P := fun w' : Socket _ => w'.handed = w.handed ∧ w'.hasOther = w.hasOther) ?_ ⟨rfl, rfl⟩
  intro l hl w' hw'
  obtain ⟨l₁, hl₁, rfl⟩ := List.mem_map.mp hl
  obtain ⟨l₀, _, rfl⟩ := List.mem_map.mp hl₁
  exact hw'

variable (os) in
theorem send_logged (o : Outlet) (buffer : Bytes) (w : Socket (Ω × List Bytes)) :
    (o.send os.logged buffer w).2.2 = match (o.send os.logged buffer w).1 with
      | .ok n => w.handed ++ [buffer.take n.val]
      | .error _ => w.handed := by
  cases o <;> rfl

theorem waitWrite_keeps {t : Time} {r} {w' : Socket (Ω × List Bytes)}
    (h : (o.stream os.logged fuel).waitWrite t w = (r, w')) :
    w'.handed = w.handed ∧ w'.hasOther = w.hasOther := by
  cases o <;> (obtain ⟨rfl, rfl⟩ := Prod.mk.inj h; exact ⟨rfl, rfl⟩)

theorem writeIteration_eq {ω : Type} (io : Ports ω) (stream : IOStream ω) {buffer data : Bytes}
    (timeOut : Timeout) {w : ω} {n : ℕ} (hdata : buffer.drop n = data) :
    writeIteration io stream buffer timeOut ⟨w, n⟩ =
      match stream.write data w with
      | (.error e, w) => .done (.error e, w)
      | (.ok c, w) =>
        let w := io.notifyWrite (data.take c.val) w
        let written := n + c.val
        if written = buffer.length then .done (.ok true, w)
        else
          let elapsed := timeOut.elapsed (timevalOf (io.now w).1)
          let w := (io.now w).2
          if elapsed then .done (.error (.timeoutError .packet "writePacket(): timeout"), w)
          else
            let remainingTimeout := toInt32 (timeOut.timeLeft (timevalOf (io.now w).1))
            let w := (io.now w).2
            match stream.waitWrite (toInt32 (remainingTimeout * 1000)) w with
            | (.error e, w) => .done (.error e, w)
            | (.ok false, w) => .done (.error (.timeoutError .none "waitRead(): timeout"), w)
            | (.ok true, w) => .again ⟨w, written⟩ := by
  subst hdata
  unfold writeIteration
  rcases stream.write (buffer.drop n) w with ⟨x | c, w⟩ <;> rfl

variable (listeners) in
theorem writeIteration_taken (hpeer : o.Datagram → w.hasOther = true) {size} {o' : Ω × List Bytes}
    (hsend : o.send os.logged buffer w = (.ok size, o')) (hsize : size.val = buffer.length) :
    ∃ w', writeIteration (o.ports os fuel listeners) (o.stream os.logged fuel) buffer timeOut
      ⟨w, 0⟩ = .done (.ok true, w') ∧ w'.handed = w.handed ++ [buffer] := by
  have hwrite := Outlet.write_taken fuel hpeer hsend
  have hlog := send_logged os o buffer w
  rw [hsend] at hlog
  have hkeeps := (notifyWrite_keeps os fuel listeners o
    (buffer.take size.val) (w.withMachine (w.toMachine.withOs o'))).1
  refine ⟨_, ?_, hkeeps.trans (hlog.trans ?_)⟩
  · rw [writeIteration_eq _ _ _ List.drop_zero, hwrite]
    simp only [Nat.zero_add, if_pos hsize]
  · dsimp only
    rw [hsize, List.take_length]

theorem writeIteration_refused (ho : ¬ o.Datagram) (hne : buffer ≠ []) {err : ℕ} {errs : List ℕ}
    (hscript : o.Transient os.logged fuel (o.ports os fuel listeners) timeOut buffer
      (err :: errs) w) :
    ∃ w', writeIteration (o.ports os fuel listeners) (o.stream os.logged fuel) buffer timeOut
      ⟨w, 0⟩ = .again ⟨w', 0⟩ ∧ w'.handed = w.handed ∧
      o.Transient os.logged fuel (o.ports os fuel listeners) timeOut buffer errs w' := by
  obtain ⟨herr, o', w₁, w₂, hsend, rfl, helapsed, hwait, hscript⟩ := hscript
  have hwrite := Outlet.write_refused fuel herr ho hsend
  have hlog := send_logged os o buffer w
  rw [hsend] at hlog
  have hkeeps := (notifyWrite_keeps os fuel listeners o []
    (w.withMachine (w.toMachine.withOs o'))).1
  refine ⟨w₂, ?_, ?_, hscript⟩
  · have hlen : 0 ≠ buffer.length := (List.length_pos_iff.mpr hne).ne
    rw [writeIteration_eq _ _ _ List.drop_zero, hwrite]
    simp only [wroteNothing_val, Nat.zero_add, List.take_zero, if_neg hlen, helapsed, hwait]
    rfl
  · exact (waitWrite_keeps hwait).1.trans (hkeeps.trans hlog)

theorem writeIteration_delivers (ho : ¬ o.Datagram) (hne : buffer ≠ [])
    (hscript : o.Transient os.logged fuel (o.ports os fuel listeners) timeOut buffer errs w)
    {n : ℕ} (hn : errs.length < n) :
    ∃ w', run (writeIteration (o.ports os fuel listeners) (o.stream os.logged fuel) buffer timeOut)
      n ⟨w, 0⟩ = some (.ok true, w') ∧ w'.handed = w.handed ++ [buffer] := by
  induction errs generalizing w n with
  | nil =>
    obtain ⟨m, rfl⟩ := Nat.exists_eq_add_one_of_ne_zero (by omega : n ≠ 0)
    obtain ⟨size, o', hsend, hsize⟩ := hscript
    obtain ⟨w', hbody, hhanded⟩ := writeIteration_taken listeners (fun h => absurd h ho) hsend hsize
    exact ⟨w', by rw [run, hbody], hhanded⟩
  | cons err errs ih =>
    obtain ⟨m, rfl⟩ := Nat.exists_eq_add_one_of_ne_zero (by omega : n ≠ 0)
    obtain ⟨w₁, hbody, hhanded, hscript⟩ := writeIteration_refused ho hne hscript
    obtain ⟨w', hrun, hlast⟩ := ih hscript (by simpa using hn)
    exact ⟨w', by rw [run, hbody]; exact hrun, by rw [hlast, hhanded]⟩

/-- The timeout object of `writePacket`. -/
def writeTimeout {ω : Type} (io : Ports ω) (timeout : Time) (w : ω) : Timeout :=
  ⟨toUnsigned32 (toInt32 (toMilliseconds timeout)), timevalOf (io.now w).1⟩

theorem delivers_iff {n : ℕ} {d : Driver} {timeout : Time} :
    o.Delivers os fuel listeners n d buffer timeout w ↔ ∃ w',
      run (writeIteration (o.ports os fuel listeners) (o.stream os.logged fuel) buffer
        (writeTimeout (o.ports os fuel listeners) timeout w)) n
          ⟨((o.ports os fuel listeners).now w).2, 0⟩ = some (.ok true, w') ∧
        w'.handed = w.handed ++ [buffer] := by
  have hstream : (o.ports os fuel listeners).stream = some (o.stream os.logged fuel) := rfl
  rw [Outlet.Delivers]
  simp only [Driver.writePacket, Driver.writePacketMilliseconds, hstream, writeTimeout]
  generalize run _ n _ = r
  constructor
  · rintro ⟨d', w', hr, hhanded⟩
    rcases r with _ | ⟨_ | _, w₁⟩
    · cases hr
    · cases hr
    · cases hr
      exact ⟨w', rfl, hhanded⟩
  · rintro ⟨w', rfl, hhanded⟩
    exact ⟨_, w', rfl, hhanded⟩

/-- **Transient failures** of the send call are retried over the streams that are no datagram
streams, with a packet that is not empty, and over no other. -/
theorem writePacket_delivers_iff {n : ℕ} {d : Driver} {timeout : Time}
    (hpeer : o.Datagram → w.hasOther = true)
    (hscript : o.Transient os.logged fuel (o.ports os fuel listeners)
      (writeTimeout (o.ports os fuel listeners) timeout w) buffer errs
      ((o.ports os fuel listeners).now w).2) (hn : errs.length < n) :
    o.Delivers os fuel listeners n d buffer timeout w ↔
      errs = [] ∨ ¬ o.Datagram ∧ buffer ≠ [] := by
  have hnow : ((o.ports os fuel listeners).now w).2.handed = w.handed := rfl
  have hpeer' : o.Datagram → ((o.ports os fuel listeners).now w).2.hasOther = true := hpeer
  obtain ⟨m, rfl⟩ := Nat.exists_eq_add_one_of_ne_zero (by omega : n ≠ 0)
  rw [delivers_iff, ← hnow]
  generalize ((o.ports os fuel listeners).now w).2 = w₀ at hscript hpeer' ⊢
  cases errs with
  | nil =>
    obtain ⟨size, o', hsend, hsize⟩ := hscript
    obtain ⟨w', hbody, hhanded⟩ := writeIteration_taken listeners hpeer' hsend hsize
    exact iff_of_true ⟨w', by rw [run, hbody], hhanded⟩ (.inl rfl)
  | cons err errs =>
    by_cases hretried : ¬ o.Datagram ∧ buffer ≠ []
    · exact iff_of_true (writeIteration_delivers hretried.1 hretried.2 hscript hn) (.inr hretried)
    refine iff_of_false ?_ (by simp [hretried])
    rintro ⟨w', hrun, hhanded⟩
    obtain ⟨herr, o', _, _, hsend, _⟩ := hscript
    rw [run] at hrun
    by_cases ho : o.Datagram
    · -- the first failure is thrown
      obtain ⟨what, hwrite⟩ := Outlet.write_threw fuel herr ho (hpeer' ho) hsend
      rw [writeIteration_eq _ _ _ List.drop_zero, hwrite] at hrun
      cases hrun
    · -- nothing is left to be written
      have hnil : buffer = [] := by
        by_contra hne
        exact hretried ⟨ho, hne⟩
      subst hnil
      have hwrite := Outlet.write_refused fuel herr ho hsend
      have hlog := send_logged os o [] w₀
      rw [hsend] at hlog
      rw [writeIteration_eq _ _ _ List.drop_zero, hwrite] at hrun
      cases hrun
      rw [(notifyWrite_keeps os fuel listeners o _ _).1] at hhanded
      have := hhanded.symm.trans hlog
      simp at this

end Delivering

/-- A socket whose send calls fail with `errs`. -/
def SocketScript.refusing (errs : List ℕ) : Socket (SocketScript × List Bytes) :=
  .connected (⟨[], errs⟩, []) [] 16

/-- Over a file descriptor, a full queue only delays the packet. -/
theorem writePacket_delivers_iff_sample : (Outlet.fdStream 0 5 true true).Delivers SocketScript.os
    (fun _ _ => 5) [] 5 (Driver.new 100 false) [1, 2] 1000000
    (SocketScript.refusing [EAGAIN, ENOBUFS]) := by
  let o : Outlet := .fdStream 0 5 true true
  let w := SocketScript.refusing [EAGAIN, ENOBUFS]
  have hscript : o.Transient SocketScript.os.logged (fun _ _ => 5)
      (o.ports SocketScript.os (fun _ _ => 5) [])
      (writeTimeout (o.ports SocketScript.os (fun _ _ => 5) []) 1000000 w) [1, 2] [EAGAIN, ENOBUFS]
      ((o.ports SocketScript.os (fun _ _ => 5) []).now w).2 :=
    ⟨.inl rfl, _, _, _, rfl, rfl, by decide, rfl, .inr rfl, _, _, _, rfl, rfl, by decide, rfl,
      _, _, rfl, rfl⟩
  exact (writePacket_delivers_iff (fun _ => rfl) hscript (by decide)).mpr (.inr (by decide))

/-- Over UDP, the first `EAGAIN` is thrown. -/
theorem writePacket_throws_eagain :
    let o : Outlet := .udpServerStream ⟨0, 5, true, false, true, true, true⟩
    let w := SocketScript.refusing [EAGAIN]
    o.Transient SocketScript.os.logged (fun _ _ => 5) (o.ports SocketScript.os (fun _ _ => 5) [])
      (writeTimeout (o.ports SocketScript.os (fun _ _ => 5) []) 1000000 w) [1, 2] [EAGAIN]
      ((o.ports SocketScript.os (fun _ _ => 5) []).now w).2 ∧
    (∃ d' w', (Driver.new 100 false).writePacket (o.ports SocketScript.os (fun _ _ => 5) []) 5
      [1, 2] 1000000 w = some (.error (.unixError
        "UDPServerStream: writePacket(): error during write" EAGAIN), d', w')) ∧
    ¬ o.Delivers SocketScript.os (fun _ _ => 5) [] 5 (Driver.new 100 false) [1, 2] 1000000 w := by
  refine ⟨⟨.inl rfl, _, _, _, rfl, rfl, by decide, rfl, _, _, rfl, rfl⟩, ⟨_, _, rfl⟩, ?_⟩
  rintro ⟨d', w', h, _⟩
  cases h

end IodriversBase
