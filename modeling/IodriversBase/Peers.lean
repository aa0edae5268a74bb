import IodriversBase.Datagrams

namespace IodriversBase

open Loop

variable {Ω : Type}

inductive PeerEvent
  | received (address : Bytes)
  | sent (data siOther : Bytes) (sLen : ℕ)
  deriving DecidableEq

def receivedFrom {n : ℕ} (peek : Bool) :
    Except ℕ ({data : Bytes // data.length ≤ n} × Bytes) → List PeerEvent
  | .ok (_, address) => if peek then [] else [.received address]
  | .error _ => []

def DatagramOs.peered (os : DatagramOs Ω) : DatagramOs (Ω × List PeerEvent) where
  read fd n w := ((os.read fd n w.1).1, (os.read fd n w.1).2, w.2)
  recv fd flags n w := ((os.recv fd flags n w.1).1, (os.recv fd flags n w.1).2, w.2)
  write fd data w := ((os.write fd data w.1).1, (os.write fd data w.1).2, w.2)
  send fd flags data w := ((os.send fd flags data w.1).1, (os.send fd flags data w.1).2, w.2)
  select reads writes t w :=
    ((os.select reads writes t w.1).1, (os.select reads writes t w.1).2, w.2)
  accept fd w := ((os.accept fd w.1).1, (os.accept fd w.1).2, w.2)
  close fd w := (os.close fd w.1, w.2)
  getFlags fd w := ((os.getFlags fd w.1).1, (os.getFlags fd w.1).2, w.2)
  setFlags fd flags w := ((os.setFlags fd flags w.1).1, (os.setFlags fd flags w.1).2, w.2)
  now w := ((os.now w.1).1, (os.now w.1).2, w.2)
  recvfrom fd n peek w :=
    ((os.recvfrom fd n peek w.1).1, (os.recvfrom fd n peek w.1).2,
      w.2 ++ receivedFrom peek (os.recvfrom fd n peek w.1).1)
  sendto fd data siOther sLen w :=
    ((os.sendto fd data siOther sLen w.1).1, (os.sendto fd data siOther sLen w.1).2,
      w.2 ++ [.sent data siOther sLen])

abbrev Socket.log (w : Socket (Ω × List PeerEvent)) : List PeerEvent := w.os.2

/-- What is done with the stream. -/
inductive PeerOp
  | read (n : ℕ)
  | write (data : Bytes)
  | waitRead (timeout : Time)
  | waitWrite (timeout : Time)

namespace UDPServerStream

/-- The two constructors: with the address of the peer, or without one. -/
def ofPeer (u : UDPServerStream) (peer : Option Bytes) : UDPServerStream :=
  { u with siOtherDynamic := peer.isNone }

/-- The fields after construction. -/
def socketOfPeer (o : Ω) : Option Bytes → Socket (Ω × List PeerEvent)
  | none => .unconnected (o, []) sizeofSockaddr
  | some address => .connected (o, []) address sizeofSockaddr

/-- The socket after an operation. -/
def after (os : DatagramOs Ω) (u : UDPServerStream) (fuel : Time → Socket (Ω × List PeerEvent) → ℕ)
    (w : Socket (Ω × List PeerEvent)) : PeerOp → Socket (Ω × List PeerEvent)
  | .read n => ((u.stream os.peered fuel).read n w).2
  | .write data => ((u.stream os.peered fuel).write data w).2
  | .waitRead timeout => ((u.stream os.peered fuel).waitRead timeout w).2
  | .waitWrite timeout => ((u.stream os.peered fuel).waitWrite timeout w).2

end UDPServerStream

def lastSender (log : List PeerEvent) : Option Bytes :=
  log.foldl (fun last ev => match ev with
    | .received address => some address
    | .sent _ _ _ => last) none

/-- The peer given at construction, or else the sender of the last datagram. -/
def currentPeer (peer : Option Bytes) (log : List PeerEvent) : Option Bytes :=
  match peer with
  | some address => some address
  | none => lastSender log

/-- A write without a peer sends nothing and succeeds; any other is sent to the complete address
of the peer. -/
def UDPServerStream.Replies (os : DatagramOs Ω) (u : UDPServerStream)
    (fuel : Time → Socket (Ω × List PeerEvent) → ℕ) (peer : Option Bytes)
    (w : Socket (Ω × List PeerEvent)) (data : Bytes) : Prop :=
  match currentPeer peer w.log with
  | none => (u.stream os.peered fuel).write data w = (.ok (wroteAll data), w)
  | some address => ((u.stream os.peered fuel).write data w).2.log =
      w.log ++ [.sent data address address.length]

/-- What the stream knows of its peer: as much of the address as fits in a `sockaddr`, and its
length. -/
structure Socket.Knows (peer : Option Bytes) (w : Socket (Ω × List PeerEvent)) : Prop where
  hasOther : w.hasOther = (currentPeer peer w.log).isSome
  address : ∀ address ∈ currentPeer peer w.log,
    w.siOther = address.take UDPServerStream.sizeofSockaddr ∧ w.sLen = address.length

variable {os : DatagramOs Ω} {u : UDPServerStream} {fuel : Time → Socket (Ω × List PeerEvent) → ℕ}
  {peer : Option Bytes} {w w' w'' : Socket (Ω × List PeerEvent)} {data : Bytes}

structure SamePeer (w w' : Socket (Ω × List PeerEvent)) : Prop where
  hasOther : w'.hasOther = w.hasOther
  siOther : w'.siOther = w.siOther
  sLen : w'.sLen = w.sLen
  log : w'.log = w.log

theorem SamePeer.refl (w : Socket (Ω × List PeerEvent)) : SamePeer w w := ⟨rfl, rfl, rfl, rfl⟩

theorem SamePeer.trans (h : SamePeer w w') (h' : SamePeer w' w'') : SamePeer w w'' :=
  ⟨h'.hasOther.trans h.hasOther, h'.siOther.trans h.siOther, h'.sLen.trans h.sLen,
    h'.log.trans h.log⟩

theorem Socket.Knows.of_same (h : w.Knows peer) (hsame : SamePeer w w') : w'.Knows peer where
  hasOther := by rw [hsame.hasOther, hsame.log, h.hasOther]
  address := by
    rw [hsame.log, hsame.siOther, hsame.sLen]
    exact h.address

theorem UDPServerStream.knows_socketOfPeer (o : Ω) (peer : Option Bytes) :
    (socketOfPeer o peer).Knows peer := by
  cases peer with
  | none => exact ⟨rfl, by rintro address ⟨⟩⟩
  | some address =>
    refine ⟨rfl, ?_⟩
    rintro _ ⟨⟩
    exact ⟨rfl, rfl⟩

variable (os u) in
theorem samePeer_base_waitRead (timeout : Time) (w : Socket (Ω × List PeerEvent)) :
    SamePeer w ((u.base os.peered).waitRead timeout w).2 := ⟨rfl, rfl, rfl, rfl⟩

variable (os) in
theorem samePeer_peek (fd : ℤ) (n : ℕ) (w : Socket (Ω × List PeerEvent)) :
    SamePeer w (w.recvfrom os.peered fd n true).2 := by
  refine ⟨rfl, rfl, rfl, ?_⟩
  change w.log ++ receivedFrom true (os.recvfrom fd n true w.os.1).1 = w.log
  rcases (os.recvfrom fd n true w.os.1).1 with err | ⟨data, address⟩ <;>
    simp [receivedFrom]

theorem samePeer_waitRead (timeout : Time) (w : Socket (Ω × List PeerEvent)) :
    SamePeer w ((u.stream os.peered fuel).waitRead timeout w).2 := by
  have hrun : ∀ r, u.waitRead os.peered (fuel timeout w) timeout w = some r → SamePeer w r.2 := by
    intro r hr
    unfold UDPServerStream.waitRead at hr
    split_ifs at hr
    · cases hr
      exact .refl w
    refine run_rule (I := fun s => SamePeer w s.2)
      (Q := fun b : Except Exn Bool × Socket (Ω × List PeerEvent) => SamePeer w b.2) ?_
      ⟨rfl, rfl, rfl, rfl⟩ hr
    rintro ⟨now, w₁⟩ hw
    unfold UDPServerStream.waitReadIteration
    dsimp only
    split_ifs
    swap
    · exact hw.trans (samePeer_base_waitRead os u 0 w₁)
    have hwaited := hw.trans (samePeer_base_waitRead os u
      ((os.peered.now w.os).1 + timeout - now) w₁)
    generalize (u.base os.peered).waitRead ((os.peered.now w.os).1 + timeout - now) w₁ = waited
      at hwaited ⊢
    rcases waited with ⟨x | _ | _, w₂⟩
    · exact hwaited
    · exact hwaited
    -- the socket is asked for its error
    dsimp only
    have hnow : SamePeer w₂ (w₂.withMachine (w₂.toMachine.withOs (os.peered.now w₂.os).2)) :=
      ⟨rfl, rfl, rfl, rfl⟩
    generalize w₂.withMachine (w₂.toMachine.withOs (os.peered.now w₂.os).2) = w₃ at hnow ⊢
    have hpeek := (hwaited.trans hnow).trans (samePeer_peek os u.fd 0 w₃)
    generalize w₃.recvfrom os.peered u.fd 0 true = looked at hpeek ⊢
    rcases looked with ⟨err | a, w₄⟩
    · dsimp only
      split_ifs
      · exact hpeek
      · exact hpeek.trans ⟨rfl, rfl, rfl, rfl⟩
    · exact hpeek.trans ⟨rfl, rfl, rfl, rfl⟩
  simp only [UDPServerStream.stream]
  rcases hr : u.waitRead os.peered (fuel timeout w) timeout w with _ | r
  · exact .refl w
  · exact hrun r hr

theorem lastSender_received (log : List PeerEvent) (address : Bytes) :
    lastSender (log ++ [.received address]) = some address := by
  simp [lastSender]

theorem lastSender_sent (log : List PeerEvent) (data siOther : Bytes) (sLen : ℕ) :
    lastSender (log ++ [.sent data siOther sLen]) = lastSender log := by
  simp [lastSender]

theorem Socket.Knows.took (h : w.Knows peer) (id : ℕ) (data address : Bytes)
    (htaken : w'.siOther = w.siOther ∧ w'.sLen = w.sLen)
    (hlog : w'.log = w.log ++ [.received address]) :
    (w'.took id peer.isNone UDPServerStream.sizeofSockaddr data address).Knows peer := by
  have hpeer : (w'.took id peer.isNone UDPServerStream.sizeofSockaddr data address).log =
    w.log ++ [.received address] := hlog
  cases peer with
  | none =>
    -- the sender is the new peer
    constructor
    · rw [hpeer]
      change true = (lastSender (w.log ++ [.received address])).isSome
      rw [lastSender_received, Option.isSome_some]
    · intro last hlast
      rw [hpeer] at hlast
      change lastSender (w.log ++ [.received address]) = some last at hlast
      rw [lastSender_received, Option.some.injEq] at hlast
      rw [← hlast]
      exact ⟨rfl, rfl⟩
  | some fixed =>
    constructor
    · rfl
    · intro _ hfixed
      change w'.siOther = _ ∧ w'.sLen = _
      rw [htaken.1, htaken.2]
      exact h.address _ hfixed

theorem Socket.Knows.read (h : w.Knows peer) (n : ℕ) :
    (((u.ofPeer peer).stream os.peered fuel).read n w).2.Knows peer := by
  simp only [UDPServerStream.stream, UDPServerStream.read]
  split_ifs with herror
  · exact h.of_same ⟨rfl, rfl, rfl, rfl⟩
  have hlog : (w.recvfrom os.peered (u.ofPeer peer).fd n false).2.log = w.log ++
      receivedFrom false (w.recvfrom os.peered (u.ofPeer peer).fd n false).1 := rfl
  have hkept : (w.recvfrom os.peered (u.ofPeer peer).fd n false).2.hasOther = w.hasOther ∧
      (w.recvfrom os.peered (u.ofPeer peer).fd n false).2.siOther = w.siOther ∧
      (w.recvfrom os.peered (u.ofPeer peer).fd n false).2.sLen = w.sLen := ⟨rfl, rfl, rfl⟩
  generalize w.recvfrom os.peered (u.ofPeer peer).fd n false = received at hlog hkept ⊢
  rcases received with ⟨err | ⟨data, address⟩, w₁⟩
  · have hsame : SamePeer w w₁ :=
      ⟨hkept.1, hkept.2.1, hkept.2.2, hlog.trans (List.append_nil _)⟩
    dsimp only
    split_ifs <;> exact h.of_same hsame
  · exact h.took (u.ofPeer peer).id data.val address hkept.2 hlog

theorem UDPServerStream.write_log (hhas : w.hasOther = true) (data : Bytes) :
    ((u.stream os.peered fuel).write data w).2.log =
      w.log ++ [.sent data w.siOther w.sLen] := by
  simp only [UDPServerStream.stream, UDPServerStream.write, hhas, not_true_eq_false, if_false]
  have hlog : (os.peered.sendto u.fd data w.siOther w.sLen w.os).2.2 =
    w.log ++ [.sent data w.siOther w.sLen] := rfl
  generalize os.peered.sendto u.fd data w.siOther w.sLen w.os = sent at hlog ⊢
  rcases sent with ⟨err | n, o⟩
  · dsimp only
    split_ifs <;> exact hlog
  · exact hlog

theorem UDPServerStream.write_silent (hhas : w.hasOther = false) (data : Bytes) :
    (u.stream os.peered fuel).write data w = (.ok (wroteAll data), w) := by
  simp [UDPServerStream.stream, UDPServerStream.write, hhas]

variable (os u fuel w) in
theorem UDPServerStream.write_keeps (data : Bytes) :
    ((u.stream os.peered fuel).write data w).2.hasOther = w.hasOther ∧
      ((u.stream os.peered fuel).write data w).2.siOther = w.siOther ∧
      ((u.stream os.peered fuel).write data w).2.sLen = w.sLen := by
  simp only [UDPServerStream.stream, UDPServerStream.write]
  split_ifs with hhas
  swap
  · exact ⟨rfl, rfl, rfl⟩
  generalize os.peered.sendto u.fd data w.siOther w.sLen w.os = sent
  rcases sent with ⟨err | n, o⟩
  · dsimp only
    split_ifs <;> exact ⟨rfl, rfl, rfl⟩
  · exact ⟨rfl, rfl, rfl⟩

theorem currentPeer_sent (log : List PeerEvent) (data siOther : Bytes) (sLen : ℕ) :
    currentPeer peer (log ++ [.sent data siOther sLen]) = currentPeer peer log := by
  cases peer with
  | none => exact lastSender_sent log data siOther sLen
  | some address => rfl

theorem Socket.Knows.write (h : w.Knows peer) (data : Bytes) :
    ((u.stream os.peered fuel).write data w).2.Knows peer := by
  obtain ⟨hother, haddress, hlen⟩ := UDPServerStream.write_keeps os u fuel w data
  cases hhas : w.hasOther with
  | false =>
    rw [UDPServerStream.write_silent hhas]
    exact h
  | true =>
    have hcurrent : currentPeer peer ((u.stream os.peered fuel).write data w).2.log =
        currentPeer peer w.log := by
      rw [UDPServerStream.write_log hhas, currentPeer_sent]
    constructor
    · rw [hcurrent, hother, h.hasOther]
    · rw [hcurrent, haddress, hlen]
      exact h.address

theorem Socket.Knows.after (h : w.Knows peer) (op : PeerOp) :
    ((u.ofPeer peer).after os fuel w op).Knows peer := by
  cases op with
  | read n => exact h.read n
  | write data => exact h.write data
  | waitRead timeout => exact h.of_same (samePeer_waitRead timeout w)
  | waitWrite timeout => exact h.of_same ⟨rfl, rfl, rfl, rfl⟩

variable (os u fuel) in
theorem Socket.Knows.run (h : w.Knows peer) (ops : List PeerOp) :
    (ops.foldl ((u.ofPeer peer).after os fuel) w).Knows peer := by
  induction ops generalizing w with
  | nil => exact h
  | cons op ops ih => exact ih (h.after op)

/-- A write goes to the right place exactly when the address of the peer is complete. -/
theorem Socket.Knows.replies_iff (h : w.Knows peer) (data : Bytes) :
    u.Replies os fuel peer w data ↔ ∀ address ∈ currentPeer peer w.log,
      address.length ≤ UDPServerStream.sizeofSockaddr := by
  unfold UDPServerStream.Replies
  cases hcurrent : currentPeer peer w.log with
  | none =>
    have hhas : w.hasOther = false := by rw [h.hasOther, hcurrent, Option.isSome_none]
    simp [UDPServerStream.write_silent hhas]
  | some address =>
    have hhas : w.hasOther = true := by rw [h.hasOther, hcurrent, Option.isSome_some]
    obtain ⟨haddress, hlen⟩ := h.address address hcurrent
    simp [UDPServerStream.write_log hhas, haddress, hlen]

/-- Every write of a run goes to the right place exactly when no address that is written to is
longer than a `sockaddr`. -/
theorem peer_replies_iff (os : DatagramOs Ω) (u : UDPServerStream)
    (fuel : Time → Socket (Ω × List PeerEvent) → ℕ) (o : Ω) (peer : Option Bytes)
    (ops : List PeerOp) :
    (∀ before data rest, ops = before ++ .write data :: rest →
      (u.ofPeer peer).Replies os fuel peer
        (before.foldl ((u.ofPeer peer).after os fuel) (UDPServerStream.socketOfPeer o peer)) data) ↔
    ∀ before data rest, ops = before ++ .write data :: rest →
      ∀ address ∈ currentPeer peer (before.foldl ((u.ofPeer peer).after os fuel)
        (UDPServerStream.socketOfPeer o peer)).log,
        address.length ≤ UDPServerStream.sizeofSockaddr := by
  have hknows := fun before => (UDPServerStream.knows_socketOfPeer o peer).run
    os u fuel before
  constructor
  · intro h before data rest heq
    exact ((hknows before).replies_iff data).1 (h before data rest heq)
  · intro h before data rest heq
    exact ((hknows before).replies_iff data).2 (h before data rest heq)

/-- A socket on which datagrams arrive, each with its sender. -/
def arrivals : DatagramOs (List (Bytes × Bytes)) where
  read _ _ w := (.error EAGAIN, w)
  recv _ _ _ w := (.error EAGAIN, w)
  write _ data w := (.ok (wroteAll data), w)
  send _ _ data w := (.ok (wroteAll data), w)
  select reads writes _ w := (.ok (if w.isEmpty then [] else reads, writes), w)
  accept _ w := (.error EAGAIN, w)
  close _ w := w
  getFlags _ w := (O_NONBLOCK, w)
  setFlags _ _ w := (.ok (), w)
  now w := (0, w)
  recvfrom _ n peek w :=
    match w with
    | [] => (.error EAGAIN, [])
    | (data, address) :: rest => (.ok (⟨data.take n, List.length_take_le n data⟩, address),
      if peek then w else rest)
  sendto _ data _ _ w := (.ok (wroteAll data), w)

def loopback6 : Bytes :=
  [10, 0, 17, 92] ++ List.replicate 4 0 ++ (List.replicate 15 0 ++ [1]) ++ List.replicate 4 0

/-- The answer to a peer with an IPv6 address is sent to a part of the address. -/
theorem peer_address_cut : ¬ ∀ (u : UDPServerStream) (o : List (Bytes × Bytes))
    (peer : Option Bytes) (ops : List PeerOp) (before : List PeerOp) (data : Bytes)
    (rest : List PeerOp), ops = before ++ .write data :: rest →
    (u.ofPeer peer).Replies arrivals (fun _ _ => 1) peer
      (before.foldl ((u.ofPeer peer).after arrivals (fun _ _ => 1))
        (UDPServerStream.socketOfPeer o peer)) data := by
  intro h
  have hsent : [PeerEvent.received loopback6, .sent [8] (loopback6.take 16) 28] =
      [.received loopback6, .sent [8] loopback6 28] :=
    h ⟨0, 3, true, true, true, true, true⟩ [([7], loopback6)] none
      [.read 10, .write [8]] [.read 10] [8] [] rfl
  exact absurd hsent (by decide)

end IodriversBase
