import IodriversBase.Objects
import IodriversBase.Reading
import IodriversBase.TestStream

namespace IodriversBase

open Framing Loop

/-- What happens before a call of the system, and whether the call fails. -/
structure Moment where
  arrived : List Bytes
  connects : Bool
  time : Time
  error : Option ℕ
  deriving DecidableEq

/-- What is pending: chunks of a stream, or datagrams.  A client may wait to be accepted, and
nothing more happens after the last moment. -/
structure Queue where
  pending : List Bytes
  connecting : Bool
  time : Time
  later : List Moment
  deriving DecidableEq

namespace Queue

def next (q : Queue) : Option ℕ × Queue :=
  match q.later with
  | [] => (none, q)
  | m :: ms => (m.error, ⟨q.pending ++ m.arrived, q.connecting || m.connects, m.time, ms⟩)

/-- A call of the system. -/
def call {α : Type} (f : Queue → Except ℕ α × Queue) (q : Queue) : Except ℕ α × Queue :=
  match q.next with
  | (some errno, q) => (.error errno, q)
  | (none, q) => f q

/-- A read from a stream. -/
def read (n : ℕ) (q : Queue) : Except ℕ {data : Bytes // data.length ≤ n} × Queue :=
  match q.pending with
  | [] => (.error EAGAIN, q)
  | c :: cs => (.ok ⟨c.take n, List.length_take_le n c⟩,
    { q with pending := if c.drop n = [] then cs else c.drop n :: cs })

/-- The reception of a datagram. -/
def recvfrom (n : ℕ) (peek : Bool) (q : Queue) :
    Except ℕ ({data : Bytes // data.length ≤ n} × Bytes) × Queue :=
  match q.pending with
  | [] => (.error EAGAIN, q)
  | c :: cs => (.ok (⟨c.take n, List.length_take_le n c⟩, []),
    { q with pending := if peek then c :: cs else cs })

/-- Whether a descriptor can be read; `listening` is the one that clients connect to. -/
def ready (listening : Option ℤ) (q : Queue) (fd : ℤ) : Bool :=
  if listening = some fd then q.connecting else q.pending ≠ []

/-- The system; the flags of `recv` and `send` change nothing. -/
def os (listening : Option ℤ) : DatagramOs Queue where
  read _ n := call (read n)
  recv _ _ n := call (read n)
  write _ data := call fun q => (.ok (wroteAll data), q)
  send _ _ data := call fun q => (.ok (wroteAll data), q)
  select reads writes _ := call fun q => (.ok (reads.filter (q.ready listening), writes), q)
  accept fd := call fun q =>
    if q.connecting then (.ok (fd + 1), { q with connecting := false }) else (.error EAGAIN, q)
  close _ q := q
  getFlags _ q := (if q.next.1 = none then 0 else -1, q.next.2)
  setFlags _ _ := call fun q => (.ok (), q)
  now q := (q.next.2.time, q.next.2)
  recvfrom _ n peek := call (recvfrom n peek)
  sendto _ data _ _ := call fun q => (.ok (wroteAll data), q)

end Queue

/-- The stream classes. -/
inductive StreamClass
  | testStream
  | backed (b : Backed Queue)

namespace StreamClass

/-- A test stream, and the objects over descriptors. -/
abbrev World := TestStream × Objects Queue

def listening : StreamClass → Option ℤ
  | .backed (.unixServerStream x) => some x.fd
  | _ => none

def stream (c : StreamClass) : IOStream World :=
  match c with
  | .testStream => TestStream.stream
  | .backed b => (b.stream (Queue.os c.listening) 0).within Prod.snd fun w o => (w.1, o)

def withQueue (w : World) (q : Queue) : World := (w.1, w.2.withOs q)

def ports (c : StreamClass) : Ports World where
  now w :=
    let r := (Queue.os c.listening).now w.2.os
    (r.1, withQueue w r.2)
  stream := some c.stream
  listeners := []

/-- Nothing has arrived that has not been read. -/
def NothingPending (w : World) : StreamClass → Prop
  | .testStream => w.1.toDriver = []
  | .backed _ => w.2.os.pending = []

def emptied (w : World) : StreamClass → World
  | .testStream => ({ w.1 with toDriver := [] }, w.2)
  | .backed _ => withQueue w { w.2.os with pending := [] }

def arrive (data : List Bytes) (w : World) : StreamClass → World
  | .testStream => (w.1.pushDataToDriver data.flatten, w.2)
  | .backed _ => withQueue w { w.2.os with pending := w.2.os.pending ++ data }

def withLater (w : World) (later : List Moment) : World :=
  withQueue w { w.2.os with later := later }

/-- What arrives before a call of `readPacket`, and its arguments. -/
structure Call where
  arrived : List Bytes
  bufferSize : ℕ
  packetTimeout : Time
  firstByteTimeout : Time

/-- What the calls return, as far as it is a packet. -/
def packets (c : StreamClass) (e : Bytes → ℤ) (fuel : ℕ) :
    Driver → World → List Call → List (Option Bytes)
  | _, _, [] => []
  | d, w, call :: calls =>
    match d.readPacket (.pure e) c.ports fuel call.bufferSize call.packetTimeout
        call.firstByteTimeout (c.arrive call.arrived w) with
    | none => none :: calls.map fun _ => none
    | some (r, d, w) => r.toOption :: packets c e fuel d w calls

def packetsCleared (c : StreamClass) (e : Bytes → ℤ) (fuel : ℕ) (d : Driver) (w : World)
    (calls : List Call) : List (Option Bytes) :=
  c.packets e fuel (d.clear c.ports w).1 (d.clear c.ports w).2 calls

/-- After `clear` the packets are those of a driver that had nothing in its buffer and nothing
pending, whatever arrives later. -/
def Isolates (c : StreamClass) (d : Driver) (w : World) : Prop :=
  ∀ e fuel later calls, c.packetsCleared e fuel d (withLater w later) calls =
    c.packetsCleared e fuel (d.dropFront d.internalBuffer.length)
      (withLater (c.emptied w) later) calls

end StreamClass

def everything (b : Bytes) : ℤ := b.length

theorem everything_inBounds : InBounds everything where
  lower b hb := by
    have := List.length_pos_iff.mpr hb
    unfold everything
    omega
  upper b hb := le_rfl

theorem cut_everything {b : Bytes} (hb : b ≠ []) (extractLast : Bool) :
    cut everything extractLast b = ⟨[], b, []⟩ := by
  have hpos : 0 < everything b := by
    have := List.length_pos_iff.mpr hb
    unfold everything
    omega
  have hnat : (everything b).natAbs = b.length := Int.natAbs_natCast _
  have hsettled : ¬ Settled everything b := by
    rintro (h | h)
    · exact hb h
    · omega
  rw [cut_stop hsettled (.inl (by rw [hnat, List.drop_length])), ownCut, if_neg (by omega), hnat,
    List.take_length, List.drop_length]

theorem leftOver_everything {b : Bytes} (hb : b ≠ []) (extractLast : Bool) :
    leftOver everything extractLast b = [] := by
  rw [leftOver, cut_everything hb]

section Everything

variable {ω : Type} {io : Ports ω} {st : IOStream ω} {d : Driver} {w : ω} {Good : ω → Prop}
  {first : ω → Bytes} {μ : ω → ℕ}

/-- Reads of a stream that is `Good` give what comes first, and are less than `μ` bytes. -/
structure GivesFirst (st : IOStream ω) (Good : ω → Prop) (first : ω → Bytes) (μ : ω → ℕ) :
    Prop where
  read : ∀ n w, Good w → ∃ c w', st.read n w = (.ok c, w') ∧ Good w' ∧ c.val = (first w).take n ∧
    μ w' + c.val.length ≤ μ w

/-- With something to read, the loop of `readPacketInternal` ends with a packet. -/
theorem GivesFirst.finds (h : GivesFirst st Good first μ) (hlisteners : io.listeners = [])
    (hpos : 0 < d.maxPacketSize) (hbuffer : d.internalBuffer = []) (hw : Good w)
    (hfirst : first w ≠ []) {fuel : ℕ} (hfuel : μ w < fuel) :
    ∃ r, run (readIteration (.pure everything) io st) fuel ⟨d, w, [], false⟩ = some r ∧
      ∃ p something, r.1 = .ok (p, something) ∧ p ≠ [] := by
  refine run_total (I := fun s => s.driver.internalBuffer = [] ∧ 0 < s.driver.maxPacketSize ∧
    Good s.world ∧ (s.packet = [] → first s.world ≠ [])) (fun s => μ s.world) ?_
    ⟨hbuffer, hpos, hw, fun _ => hfirst⟩ hfuel
  rintro ⟨d, w, packet, received⟩ ⟨hbuffer, hpos, hw, hfirst⟩
  dsimp only at hbuffer hpos hw hfirst ⊢
  obtain ⟨c, w', hread, hw', hc, hμ⟩ := h.read (d.maxPacketSize - d.internalBuffer.length) w hw
  have hquiet : io.notifyRead c.val w' = w' := by rw [Ports.notifyRead, hlisteners]; rfl
  have hcases := readIteration_cases everything_inBounds (Extract.answers_pure everything) io st
    ⟨d, w, packet, received⟩
  generalize readIteration _ io st ⟨d, w, packet, received⟩ = next at hcases ⊢
  cases hcases with
  | threw hthrew => rw [hread] at hthrew; cases hthrew
  | noData hnone hnil =>
    rw [hread] at hnone
    cases hnone
    refine .inr ⟨_, rfl, packet, received, rfl, fun hpacket => ?_⟩
    rw [hnil, hbuffer, List.length_nil, Nat.sub_zero] at hc
    have hzero := congrArg List.length hc
    rw [List.length_nil, List.length_take] at hzero
    have := List.length_pos_iff.mpr (hfirst hpacket)
    omega
  | packet hgave hne hlast hpacket =>
    exact .inr ⟨_, rfl, _, _, rfl, hpacket⟩
  | full hgave hne hpacket hfull =>
    dsimp only at hfull
    rw [Driver.scanned_internalBuffer, leftOver_everything (by simp [hne])] at hfull
    exact absurd hfull hpos.ne
  | again hgave hne hpacket hroom =>
    -- everything is taken for a packet, so that the buffer is empty again, and less is pending
    rw [hread] at hgave
    cases hgave
    have hnonempty : d.internalBuffer ++ c.val ≠ [] := by simp [hne]
    refine .inl ⟨_, rfl, ⟨?_, hpos, ?_, ?_⟩, ?_⟩
    · dsimp only
      rw [Driver.scanned_internalBuffer]
      exact leftOver_everything hnonempty _
    · rw [hquiet, Extract.effects_pure]
      exact hw'
    · dsimp only
      rw [cut_everything hnonempty, if_pos hnonempty]
      exact fun hnil => absurd hnil hnonempty
    · dsimp only
      rw [hquiet, Extract.effects_pure]
      have := List.length_pos_iff.mpr hne
      omega

variable (io d) in
theorem GivesFirst.finds_nothing (h : GivesFirst st Good first μ) (hw : Good w)
    (hfirst : first w = []) {fuel : ℕ} (hfuel : 0 < fuel) :
    ∃ d' w', run (readIteration (.pure everything) io st) fuel ⟨d, w, [], false⟩ =
      some (.ok ([], false), d', w') := by
  obtain ⟨fuel, rfl⟩ := Nat.exists_eq_add_one.mpr hfuel
  obtain ⟨c, w', hread, -, hc, -⟩ := h.read (d.maxPacketSize - d.internalBuffer.length) w hw
  rw [hfirst, List.take_nil] at hc
  refine ⟨d, w', ?_⟩
  rw [run, readIteration, hread]
  simp [hc]

theorem readPacket_threw {E : Extract ω} (hio : io.stream = some st)
    (hbuffer : d.internalBuffer = []) {x : Exn} {w' : ω}
    (hread : ∀ n, st.read n (io.now w).2 = (.error x, w')) {fuel : ℕ} (hfuel : 0 < fuel)
    (packetTimeout firstByteTimeout : Time) :
    d.readPacket E io fuel d.maxPacketSize packetTimeout firstByteTimeout w =
      some (.error x, d, w') := by
  obtain ⟨fuel, rfl⟩ := Nat.exists_eq_add_one.mpr hfuel
  rw [Driver.readPacket, if_neg (lt_irrefl _), hio]
  dsimp only
  rw [run, waitIteration, Driver.readPacketInternal, if_neg (lt_irrefl _),
    if_neg (by simp [hbuffer]), run, readIteration]
  dsimp only
  rw [hread]

/-- A call that does not wait returns a packet exactly when there is something to read. -/
theorem GivesFirst.readPacket (h : GivesFirst st Good first μ) (hlisteners : io.listeners = [])
    (hio : io.stream = some st) (hpos : 0 < d.maxPacketSize) (hbuffer : d.internalBuffer = [])
    (hw : Good (io.now w).2) {fuel : ℕ} (hfuel : μ (io.now w).2 < fuel) :
    ∃ r d' w', d.readPacket (.pure everything) io fuel d.maxPacketSize 0 0 w = some (r, d', w') ∧
      (r.toOption.isSome = true ↔ first (io.now w).2 ≠ []) := by
  have hinternal : d.readPacketInternal (.pure everything) io st fuel d.maxPacketSize (io.now w).2 =
      run (readIteration (.pure everything) io st) fuel ⟨d, (io.now w).2, [], false⟩ := by
    rw [Driver.readPacketInternal, if_neg (lt_irrefl _), hbuffer, if_neg (by simp)]
  obtain ⟨fuel, rfl⟩ := Nat.exists_eq_add_one.mpr (Nat.zero_lt_of_lt hfuel)
  rw [Driver.readPacket, if_neg (lt_irrefl _), hio]
  dsimp only
  rw [run, waitIteration, hinternal]
  by_cases hfirst : first (io.now w).2 = []
  · obtain ⟨d', w', hrun⟩ := h.finds_nothing io d hw hfirst (Nat.succ_pos fuel)
    rw [hrun]
    refine ⟨_, d', w', rfl, ?_⟩
    simp [hfirst, Except.toOption]
  · obtain ⟨⟨r, d', w'⟩, hrun, p, something, hr, hp⟩ :=
      h.finds hlisteners hpos hbuffer hw hfirst hfuel
    obtain rfl : r = .ok (p, something) := hr
    rw [hrun]
    dsimp only
    rw [if_pos (List.length_pos_iff.mpr hp)]
    refine ⟨.ok p, d', w', rfl, ?_⟩
    simp [hfirst, Except.toOption]

end Everything

section NoBuffer

variable {ω : Type} {E : Extract ω} {io : Ports ω} {st : IOStream ω} {d d' : Driver} {w w' : ω}
  {fuel n : ℕ}

theorem readPacketInternal_noBuffer (hzero : d.maxPacketSize = 0) {r}
    (h : d.readPacketInternal E io st fuel n w = some (r, d', w')) :
    d' = d ∧ ∀ p something, r = .ok (p, something) → p = [] := by
  have hlength : d.internalBuffer.length = 0 := by
    have := d.fits
    omega
  have hsize : d.maxPacketSize - d.internalBuffer.length = 0 := by omega
  rw [Driver.readPacketInternal, if_neg (by omega), if_neg (by omega)] at h
  refine run_rule (I := fun s : ReadState ω => s.driver = d ∧ s.packet = [])
    (Q := fun b : Except Exn (Bytes × Bool) × Driver × ω => b.2.1 = d ∧
      ∀ p something, b.1 = .ok (p, something) → p = []) ?_ ⟨rfl, rfl⟩ h
  rintro ⟨d₁, w₁, packet, received⟩ ⟨rfl, rfl⟩
  unfold readIteration
  rcases st.read _ w₁ with ⟨x | c, w₂⟩
  · exact ⟨rfl, by simp⟩
  · have hc : ¬ c.val.length > 0 := by
      have := c.property
      dsimp only at this
      omega
    dsimp only
    rw [if_neg hc]
    exact ⟨rfl, by rintro p something ⟨⟩; rfl⟩

theorem readPacket_noBuffer (hzero : d.maxPacketSize = 0) (hio : io.stream = some st)
    {t t' : Time} {r} (h : d.readPacket E io fuel n t t' w = some (r, d', w')) :
    d' = d ∧ r.toOption = none := by
  rw [Driver.readPacket, if_neg (by omega), hio] at h
  refine run_rule (I := fun s : WaitState ω => s.driver = d)
    (Q := fun b : Except Exn Bytes × Driver × ω => b.2.1 = d ∧ b.1.toOption = none) ?_ rfl h
  rintro s hs
  have hstep := waitIteration_step E io st fuel n t (io.now w).1 s
  generalize waitIteration E io st fuel n t (io.now w).1 s = next at hstep ⊢
  have hinternal : ∀ {r d₁ w₁}, s.driver.readPacketInternal E io st fuel n s.world =
      some (r, d₁, w₁) → d₁ = d ∧ ∀ p something, r = .ok (p, something) → p = [] := by
    intro r d₁ w₁ hint
    rw [hs] at hint
    exact readPacketInternal_noBuffer hzero hint
  cases hstep with
  | lost => trivial
  | packet hint hp => exact absurd ((hinternal hint).2 _ _ rfl) hp
  | threw hint | noTimeout hint | late hint | waitThrew hint | waitedOut hint =>
    exact ⟨(hinternal hint).1, rfl⟩
  | ready hint => exact (hinternal hint).1

end NoBuffer

namespace Queue

variable {q q' : Queue} {n : ℕ} {c : Bytes}

structure Gives (q q' : Queue) (n : ℕ) (c : Bytes) : Prop where
  first : c = (q.pending.headD []).take n
  bytes : q'.pending.flatten.length + c.length ≤ q.pending.flatten.length
  later : q'.later = q.later

theorem call_of_later {α : Type} (h : q.later = []) (f : Queue → Except ℕ α × Queue) :
    q.call f = f q := by
  simp [call, next, h]

theorem setNonBlockingFlag_of_later (h : q.later = []) (listening : Option ℤ) (fd : ℤ) :
    setNonBlockingFlag (os listening).toOs fd q = (.ok true, q) := by
  simp [setNonBlockingFlag, os, next, call_of_later, h]

theorem gives_nothing (h : q.pending = []) (n : ℕ) : Gives q q n [] :=
  ⟨by simp [h], by simp, rfl⟩

theorem read_gives (q : Queue) (n : ℕ) :
    (∃ c q', q.read n = (.ok c, q') ∧ q.Gives q' n c.val) ∨
      q.read n = (.error EAGAIN, q) ∧ q.Gives q n [] := by
  rcases hpending : q.pending with _ | ⟨c, cs⟩
  · exact .inr ⟨by simp [read, hpending], gives_nothing hpending n⟩
  · refine .inl ⟨⟨c.take n, List.length_take_le n c⟩,
      { q with pending := if c.drop n = [] then cs else c.drop n :: cs },
      by simp only [read, hpending], ?_, ?_, rfl⟩
    · rw [hpending, List.headD_cons]
    · have hjoin := congrArg List.length (List.take_append_drop n c)
      rw [List.length_append] at hjoin
      dsimp only
      rw [hpending]
      split_ifs with hdrop
      · rw [hdrop, List.length_nil] at hjoin
        rw [List.flatten_cons, List.length_append]
        omega
      · rw [List.flatten_cons, List.flatten_cons, List.length_append, List.length_append]
        omega

theorem recvfrom_gives (q : Queue) (n : ℕ) :
    (∃ c address q', q.recvfrom n false = (.ok (c, address), q') ∧ q.Gives q' n c.val) ∨
      q.recvfrom n false = (.error EAGAIN, q) ∧ q.Gives q n [] := by
  rcases hpending : q.pending with _ | ⟨c, cs⟩
  · exact .inr ⟨by simp [recvfrom, hpending], gives_nothing hpending n⟩
  · refine .inl ⟨⟨c.take n, List.length_take_le n c⟩, [], { q with pending := cs },
      by simp [recvfrom, hpending], ?_, ?_, rfl⟩
    · rw [hpending, List.headD_cons]
    · have hle := List.length_take_le' n c
      dsimp only
      rw [hpending, List.flatten_cons, List.length_append]
      omega

end Queue

section Reads

variable {n : ℕ}

theorem descriptorStream_gives {os : Os Queue} {osRead osWrite} {id : ℕ} {fd : ℤ}
    {autoClose hasEof : Bool} {m : Machine Queue} (hread : osRead n m.os = m.os.read n) :
    ∃ c m', (descriptorStream os osRead osWrite id fd autoClose hasEof).read n m = (.ok c, m') ∧
      m.os.Gives m'.os n c.val := by
  simp only [descriptorStream, hread]
  obtain ⟨c, q', heq, hgives⟩ | ⟨heq, hgives⟩ := m.os.read_gives n <;> rw [heq]
  · exact ⟨_, _, rfl, hgives⟩
  · exact ⟨_, _, rfl, hgives⟩

theorem UDPServerStream.read_gives (os : DatagramOs Queue) {u : UDPServerStream} {w : Socket Queue}
    (herror : w.waitReadError = 0) (hrecv : os.recvfrom u.fd n false w.os = w.os.recvfrom n false) :
    ∃ c w', u.read os n w = (.ok c, w') ∧ w.os.Gives w'.os n c.val ∧ w'.waitReadError = 0 := by
  unfold UDPServerStream.read
  rw [if_neg (not_not.mpr herror)]
  simp only [Socket.recvfrom, hrecv]
  obtain ⟨c, address, q', heq, hgives⟩ | ⟨heq, hgives⟩ := w.os.recvfrom_gives n <;> rw [heq]
  · exact ⟨_, _, rfl, hgives, herror⟩
  · exact ⟨_, _, rfl, hgives, herror⟩

theorem UnixDatagramStream.read_gives (os : DatagramOs Queue) {x : UnixDatagramStream}
    {w : Socket Queue} (hrecv : os.recvfrom x.fd n false w.os = w.os.recvfrom n false) :
    ∃ c w', x.read os n w = (.ok c, w') ∧ w.os.Gives w'.os n c.val := by
  unfold UnixDatagramStream.read
  simp only [Socket.recvfrom, hrecv]
  obtain ⟨c, address, q', heq, hgives⟩ | ⟨heq, hgives⟩ := w.os.recvfrom_gives n <;> rw [heq]
  · exact ⟨_, _, rfl, hgives⟩
  · exact ⟨_, _, rfl, hgives⟩

theorem UnixServerStream.read_gives {x : UnixServerStream} {s : Server Queue}
    (hlater : s.os.later = []) (hclient : s.client ≠ none ∨ s.os.connecting = true) :
    ∃ c s', x.read (Queue.os (some x.fd)).toOs n s = (.ok c, s') ∧ s.os.Gives s'.os n c.val ∧
      s'.client ≠ none := by
  have hread : ∀ {s : Server Queue}, s.os.later = [] → s.client ≠ none → ∃ c s',
      x.readClient (Queue.os (some x.fd)).toOs n s = (.ok c, s') ∧ s.os.Gives s'.os n c.val ∧
        s'.client ≠ none := by
    intro s hlater hclient
    obtain ⟨fd, hfd⟩ := Option.ne_none_iff_exists'.mp hclient
    have hgives : ∃ c m', (socketStream (Queue.os (some x.fd)).toOs MSG_NOSIGNAL 0 x.id fd true
        true).read n s.toMachine = (.ok c, m') ∧ s.os.Gives m'.os n c.val :=
      descriptorStream_gives (Queue.call_of_later hlater _)
    obtain ⟨c, m', heq, hgives⟩ := hgives
    refine ⟨c, s.withMachine m', ?_, hgives, hclient⟩
    simp only [readClient, hfd, clientStream, IOStream.within, heq]
  unfold UnixServerStream.read
  by_cases hnone : s.client = none
  swap
  · rw [if_neg hnone]
    exact hread hlater hnone
  -- the client is accepted
  have hconnecting := hclient.resolve_left (not_not.mpr hnone)
  let o : Queue := { s.os with connecting := false }
  have haccept : (Queue.os (some x.fd)).accept x.fd s.os = (.ok (x.fd + 1), o) := by
    simp [Queue.os, Queue.call_of_later, hlater, hconnecting, o]
  have hwait : x.waitRead (Queue.os (some x.fd)).toOs 0 s =
      (.ok true, { s with os := o, client := some (x.fd + 1) }) := by
    have hready : (x.serverStream (Queue.os (some x.fd)).toOs).waitRead 0 s = (.ok true, s) := by
      simp [serverStream, IOStream.within, fdStream, descriptorStream, Queue.os,
        Queue.call_of_later, hlater, Queue.ready, hconnecting, selected, Server.withMachine,
        Machine.withOs]
    simp only [waitRead, hnone, hready, accept, getFileDescriptor, haccept,
      Queue.setNonBlockingFlag_of_later (q := o) hlater, Except.map]
  rw [if_pos hnone, hwait]
  obtain ⟨c, s', heq, hgives, hclient'⟩ :=
    hread (s := { s with os := o, client := some (x.fd + 1) }) hlater (Option.some_ne_none _)
  exact ⟨c, s', heq, ⟨hgives.first, hgives.bytes, hgives.later⟩, hclient'⟩

end Reads

namespace StreamClass

/-- Nothing happens any more, a client has come, and no error is left from a wait. -/
structure Quiet (b : Backed Queue) (w : World) : Prop where
  later : w.2.os.later = []
  noError : ∀ u fuel, b = .udpServerStream u fuel → (w.2.peer 0).waitReadError = 0
  client : ∀ x, b = .unixServerStream x → w.2.client 0 ≠ none ∨ w.2.os.connecting = true

theorem backed_givesFirst (b : Backed Queue) :
    GivesFirst (StreamClass.backed b).stream (Quiet b) (fun w => w.2.os.pending.headD [])
      fun w => w.2.os.pending.flatten.length where
  read := by
    intro n w hw
    cases b with
    | fdStream fd autoClose hasEof =>
      have hgives : ∃ c m', (IodriversBase.fdStream (Queue.os none).toOs 0 fd autoClose
          hasEof).read n w.2.toMachine = (.ok c, m') ∧ w.2.os.Gives m'.os n c.val :=
        descriptorStream_gives (Queue.call_of_later hw.later _)
      obtain ⟨c, m', heq, hgives⟩ := hgives
      refine ⟨c, (w.1, w.2.withMachine m'), ?_, ⟨?_, by simp, by simp⟩, hgives.first, hgives.bytes⟩
      · simp only [stream, Backed.stream, IOStream.within, listening, heq]
      · exact hgives.later.trans hw.later
    | socketStream sendFlags recvFlags fd autoClose hasEof =>
      have hgives : ∃ c m', (IodriversBase.socketStream (Queue.os none).toOs sendFlags recvFlags 0
          fd autoClose hasEof).read n w.2.toMachine = (.ok c, m') ∧ w.2.os.Gives m'.os n c.val :=
        descriptorStream_gives (Queue.call_of_later hw.later _)
      obtain ⟨c, m', heq, hgives⟩ := hgives
      refine ⟨c, (w.1, w.2.withMachine m'), ?_, ⟨?_, by simp, by simp⟩, hgives.first, hgives.bytes⟩
      · simp only [stream, Backed.stream, IOStream.within, listening, heq]
      · exact hgives.later.trans hw.later
    | udpServerStream u fuel =>
      obtain ⟨c, s, heq, hgives, herror⟩ := UDPServerStream.read_gives (n := n) (Queue.os none)
        (u := { u with id := 0 }) (w := w.2.socket 0) (hw.noError u fuel rfl)
        (Queue.call_of_later hw.later _)
      refine ⟨c, (w.1, w.2.withSocket 0 s), ?_, ⟨?_, ?_, by simp⟩, hgives.first, hgives.bytes⟩
      · simp only [stream, Backed.stream, IOStream.within, UDPServerStream.stream, listening, heq]
      · exact hgives.later.trans hw.later
      · intro _ _ _
        simpa [Objects.withSocket] using herror
    | unixDatagramStream x =>
      obtain ⟨c, s, heq, hgives⟩ := UnixDatagramStream.read_gives (n := n) (Queue.os none)
        (x := { x with id := 0 }) (w := w.2.socket 0) (Queue.call_of_later hw.later _)
      refine ⟨c, (w.1, w.2.withSocket 0 s), ?_, ⟨?_, by simp, by simp⟩, hgives.first, hgives.bytes⟩
      · simp only [stream, Backed.stream, IOStream.within, UnixDatagramStream.stream, listening,
          heq]
      · exact hgives.later.trans hw.later
    | unixServerStream x =>
      obtain ⟨c, s, heq, hgives, hclient⟩ := UnixServerStream.read_gives (n := n)
        (x := { x with id := 0 }) (s := w.2.server 0) hw.later (hw.client x rfl)
      refine ⟨c, (w.1, w.2.withServer 0 s), ?_, ⟨?_, by simp, ?_⟩, hgives.first, hgives.bytes⟩
      · simp only [stream, Backed.stream, IOStream.within, UnixServerStream.stream, listening, heq]
      · exact hgives.later.trans hw.later
      · intro _ _
        refine .inl ?_
        simpa [Objects.withServer] using hclient

variable {b : Backed Queue} {d : Driver} {w : World} {arrived : List Bytes} {fuel : ℕ}

abbrev nowPending (b : Backed Queue) (arrived : List Bytes) (w : World) : List Bytes :=
  ((StreamClass.backed b).ports.now
    ((StreamClass.backed b).arrive arrived w)).2.2.os.pending

variable (fuel) in
/-- A call that does not wait returns a packet exactly when the first thing pending is not empty. -/
theorem packets_single (hpos : 0 < d.maxPacketSize) (hbuffer : d.internalBuffer = [])
    (hquiet : Quiet b ((StreamClass.backed b).ports.now
      ((StreamClass.backed b).arrive arrived w)).2)
    (hfuel : (nowPending b arrived w).flatten.length < fuel) :
    ∃ r, (StreamClass.backed b).packets everything fuel d w [⟨arrived, d.maxPacketSize, 0, 0⟩] =
        [r] ∧ (r.isSome = true ↔ (nowPending b arrived w).headD [] ≠ []) := by
  obtain ⟨r, d', w', hread, hr⟩ := (backed_givesFirst b).readPacket
    (show (StreamClass.backed b).ports.listeners = [] from rfl) rfl hpos hbuffer hquiet hfuel
  refine ⟨r.toOption, ?_, hr⟩
  simp only [packets]
  rw [hread]

theorem backed_clear (b : Backed Queue) (w : World) :
    (StreamClass.backed b).stream.clear w = w := by
  cases b with
  | fdStream | socketStream => rfl
  | udpServerStream | unixDatagramStream =>
    change (w.1, w.2.withSocket 0 (w.2.socket 0)) = w
    simp [Objects.withSocket, Objects.socket]
  | unixServerStream x =>
    change (w.1, w.2.withServer 0 ((UnixServerStream.stream _ _).clear (w.2.server 0))) = w
    rw [UnixServerStream.stream_clear]
    simp [Objects.withServer, Objects.server]

theorem packets_error (u : UDPServerStream) (waitFuel : Time → Socket Queue → ℕ)
    (hbuffer : d.internalBuffer = []) (herror : (w.2.peer 0).waitReadError ≠ 0) :
    ∃ w' : World, (w'.2.peer 0).waitReadError = 0 ∧ w'.2.os = w.2.os.next.2 ∧
      ∀ fuel calls, 0 < fuel →
        (StreamClass.backed (.udpServerStream u waitFuel)).packets everything fuel d w
          (⟨[], d.maxPacketSize, 0, 0⟩ :: calls) =
        none :: (StreamClass.backed (.udpServerStream u waitFuel)).packets everything fuel d w'
          calls := by
  let c : StreamClass := .backed (.udpServerStream u waitFuel)
  let w₁ := (c.ports.now (c.arrive [] w)).2
  have hos : w₁.2.os = w.2.os.next.2 := by
    change (Queue.next { w.2.os with pending := w.2.os.pending ++ [] }).2 = _
    rw [List.append_nil]
  let s : Socket Queue := { w₁.2.socket 0 with waitReadError := 0 }
  have hread : ∀ n, c.stream.read n w₁ =
      (.error (.unixError "readPacket(): error reading the file descriptor"
        (w.2.peer 0).waitReadError), (w.1, w₁.2.withSocket 0 s)) := by
    intro n
    have herror' : (w₁.2.socket 0).waitReadError ≠ 0 := herror
    change (((UDPServerStream.read (Queue.os none) _ n (w₁.2.socket 0)).1, w.1,
      w₁.2.withSocket 0 (UDPServerStream.read (Queue.os none) _ n (w₁.2.socket 0)).2) :
        Except Exn {data : Bytes // data.length ≤ n} × World) = _
    rw [UDPServerStream.read, if_pos herror']
    rfl
  refine ⟨(w.1, w₁.2.withSocket 0 s), by simp [Objects.withSocket, s], hos, ?_⟩
  intro fuel calls hfuel
  rw [packets, readPacket_threw rfl hbuffer hread hfuel]
  rfl

/-- The one thing that still happens, if any, is that a client connects. -/
def Settling (v : World) : Prop :=
  v.2.os.later = [⟨[], true, 0, none⟩] ∨ v.2.os.later = [] ∧ v.2.os.connecting = true

variable {v v' : World}

theorem Settling.next {q : Queue} (h : q.later = [⟨[], true, 0, none⟩] ∨
    q.later = [] ∧ q.connecting = true) :
    q.next.2.later = [] ∧ q.next.2.connecting = true ∧ q.next.2.pending = q.pending := by
  obtain hlater | ⟨hlater, hconnecting⟩ := h
  · simp [Queue.next, hlater]
  · simp [Queue.next, hlater, hconnecting]

theorem Settling.quiet (h : Settling v)
    (hnoError : ∀ u waitFuel, b = .udpServerStream u waitFuel → (v.2.peer 0).waitReadError = 0)
    (arrived : List Bytes) :
    Quiet b ((StreamClass.backed b).ports.now ((StreamClass.backed b).arrive arrived v)).2 ∧
      nowPending b arrived v = v.2.os.pending ++ arrived := by
  obtain ⟨hlater, hconnecting, hpending⟩ := Settling.next
    (q := { v.2.os with pending := v.2.os.pending ++ arrived }) h
  exact ⟨⟨hlater, hnoError, fun _ _ => .inr hconnecting⟩, hpending⟩

/-- A driver with something pending and one without are told apart by what comes next. -/
theorem Settling.differ (hpos : 0 < d.maxPacketSize) (hbuffer : d.internalBuffer = [])
    (h : Settling v) (h' : Settling v')
    (hnoError : ∀ u waitFuel, b = .udpServerStream u waitFuel →
      (v.2.peer 0).waitReadError = 0 ∧ (v'.2.peer 0).waitReadError = 0)
    (hpending : v.2.os.pending ≠ []) (hpending' : v'.2.os.pending = []) :
    ∃ fuel calls, 0 < fuel ∧ (StreamClass.backed b).packets everything fuel d v calls ≠
      (StreamClass.backed b).packets everything fuel d v' calls := by
  obtain ⟨first, rest, hfirst⟩ := List.exists_cons_of_ne_nil hpending
  -- behind an empty datagram, more arrives
  let arrived : List Bytes := if first = [] then [[1]] else []
  obtain ⟨hquiet, hnow⟩ := h.quiet (b := b) (fun u f hu => (hnoError u f hu).1) arrived
  obtain ⟨hquiet', hnow'⟩ := h'.quiet (b := b) (fun u f hu => (hnoError u f hu).2) arrived
  let fuel := (nowPending b arrived v).flatten.length +
    (nowPending b arrived v').flatten.length + 1
  obtain ⟨r, hr, hsome⟩ := packets_single fuel hpos hbuffer hquiet
    (by simp only [fuel]; omega)
  obtain ⟨r', hr', hsome'⟩ := packets_single fuel hpos hbuffer hquiet'
    (by simp only [fuel]; omega)
  refine ⟨fuel, [⟨arrived, d.maxPacketSize, 0, 0⟩], Nat.succ_pos _, ?_⟩
  rw [hr, hr']
  rw [hnow, hfirst] at hsome
  rw [hnow', hpending'] at hsome'
  rintro heq
  obtain rfl : r = r' := by simpa using heq
  have hboth := hsome.symm.trans hsome'
  by_cases hnil : first = []
  · simp [arrived, hnil] at hboth
  · simp [arrived, hnil] at hboth

theorem dropFront_dropFront (d : Driver) :
    (d.dropFront d.internalBuffer.length).dropFront
        (d.dropFront d.internalBuffer.length).internalBuffer.length =
      d.dropFront d.internalBuffer.length := by
  simp [Driver.dropFront]

theorem packetsCleared_backed (e : Bytes → ℤ) (calls : List Call) :
    (StreamClass.backed b).packetsCleared e fuel d w calls =
      (StreamClass.backed b).packets e fuel (d.dropFront d.internalBuffer.length) w calls := by
  have hclear : (d.clear (StreamClass.backed b).ports w).2 = w := backed_clear b w
  rw [packetsCleared, hclear]
  rfl

theorem not_isolates (hpos : 0 < d.maxPacketSize) (hpending : w.2.os.pending ≠ []) :
    ¬ (StreamClass.backed b).Isolates d w := by
  intro h
  let later : List Moment := [⟨[], true, 0, none⟩]
  have hsame := fun fuel calls => h everything fuel later calls
  simp only [packetsCleared_backed, dropFront_dropFront] at hsame
  have hbuffer : (d.dropFront d.internalBuffer.length).internalBuffer = [] := List.drop_length
  have hpos' : 0 < (d.dropFront d.internalBuffer.length).maxPacketSize := hpos
  generalize d.dropFront d.internalBuffer.length = d' at hsame hbuffer hpos'
  have hv : Settling (withLater w later) := .inl rfl
  have hv' : Settling (withLater ((StreamClass.backed b).emptied w) later) := .inl rfl
  by_cases herror : ∃ u waitFuel, b = .udpServerStream u waitFuel ∧
    (w.2.peer 0).waitReadError ≠ 0
  · obtain ⟨u, waitFuel, rfl, herror⟩ := herror
    obtain ⟨w₁, hw₁, hos, hpackets⟩ := packets_error u waitFuel
      (w := withLater w later) hbuffer herror
    obtain ⟨w₂, hw₂, hos', hpackets'⟩ := packets_error u waitFuel
      (w := withLater ((StreamClass.backed (.udpServerStream u waitFuel)).emptied w) later)
      hbuffer herror
    have hnext := Settling.next hv
    have hnext' := Settling.next hv'
    rw [← hos] at hnext
    rw [← hos'] at hnext'
    obtain ⟨fuel, calls, hfuel, hne⟩ := Settling.differ (b := .udpServerStream u waitFuel)
      hpos' hbuffer (show Settling w₁ from .inr ⟨hnext.1, hnext.2.1⟩)
      (show Settling w₂ from .inr ⟨hnext'.1, hnext'.2.1⟩) (fun _ _ _ => ⟨hw₁, hw₂⟩)
      (by rw [hnext.2.2]; exact hpending) hnext'.2.2
    have heq := hsame fuel (⟨[], d'.maxPacketSize, 0, 0⟩ :: calls)
    rw [hpackets fuel calls hfuel, hpackets' fuel calls hfuel] at heq
    exact hne (List.cons.inj heq).2
  · have hnone : ∀ u waitFuel, b = .udpServerStream u waitFuel →
        (w.2.peer 0).waitReadError = 0 := by
      intro u waitFuel hu
      by_contra hne
      exact herror ⟨u, waitFuel, hu, hne⟩
    obtain ⟨fuel, calls, -, hne⟩ := hv.differ (b := b) hpos' hbuffer hv'
      (fun u waitFuel hu => ⟨hnone u waitFuel hu, hnone u waitFuel hu⟩) hpending rfl
    exact hne (hsame fuel calls)

theorem packets_noBuffer (c : StreamClass) (e : Bytes → ℤ) (hzero : d.maxPacketSize = 0) (w : World)
    (calls : List Call) : c.packets e fuel d w calls = calls.map fun _ => none := by
  induction calls generalizing w with
  | nil => rfl
  | cons call calls ih =>
    rw [packets]
    rcases hread : d.readPacket (.pure e) c.ports fuel call.bufferSize call.packetTimeout
      call.firstByteTimeout (c.arrive call.arrived w) with _ | ⟨r, d', w'⟩
    · rfl
    · obtain ⟨rfl, hr⟩ := readPacket_noBuffer hzero rfl hread
      dsimp only
      rw [hr, ih, List.map_cons]

/-- `clear` makes the packets independent of the past exactly for the test stream, when nothing was
pending, and for a driver without a buffer. -/
theorem clear_isolates_iff (c : StreamClass) (d : Driver) (w : World) : c.Isolates d w ↔
    c = .testStream ∨ c.NothingPending w ∨ d.maxPacketSize = 0 := by
  constructor
  · intro h
    cases c with
    | testStream => exact .inl rfl
    | backed b =>
      refine .inr ?_
      by_contra hnot
      rw [not_or] at hnot
      exact not_isolates (Nat.pos_of_ne_zero hnot.2) hnot.1 h
  · intro h e fuel later calls
    obtain rfl | hpending | hzero := h
    · rw [packetsCleared, packetsCleared, Driver.clear, Driver.clear, dropFront_dropFront]
      rfl
    · cases c with
      | testStream =>
        rw [packetsCleared, packetsCleared, Driver.clear, Driver.clear, dropFront_dropFront]
        rfl
      | backed b =>
        have hempty : (StreamClass.backed b).emptied w = w := by
          obtain ⟨t, ⟨⟨⟨pending, connecting, time, later⟩, eof, reads⟩, peer, client⟩⟩ := w
          obtain rfl : pending = [] := hpending
          rfl
        rw [packetsCleared_backed, packetsCleared_backed, hempty, dropFront_dropFront]
    · have hnone : ∀ d w, d.maxPacketSize = 0 →
          c.packetsCleared e fuel d w calls = calls.map fun _ => none :=
        fun d w hd => packets_noBuffer (d := (d.clear c.ports w).1) c e hd _ calls
      have hzero' : (d.dropFront d.internalBuffer.length).maxPacketSize = 0 := hzero
      rw [hnone _ _ hzero, hnone _ _ hzero']

/-- What was pending on a descriptor is returned after `clear`. -/
theorem clear_keeps_pending : ¬ ∀ (c : StreamClass) (d : Driver) (w : World), c.Isolates d w := by
  intro h
  have hsame := h (.backed (.fdStream 3 true true)) (.new 10 false)
    (.new, ⟨.start ⟨[[7]], false, 0, []⟩, fun _ => ⟨[], 16, false, 0, []⟩, fun _ => none⟩)
    everything 3 [] [⟨[], 10, 0, 0⟩]
  exact absurd hsame (by decide)

end StreamClass

end IodriversBase
