import IodriversBase.ExactWrites
import IodriversBase.ForwardEof
import IodriversBase.Library.Messages
import IodriversBase.Library.Network
import IodriversBase.Reassembly
import IodriversBase.Replacement

namespace IodriversBase

open Framing

variable {ω : Type} {e : Bytes → ℤ} {E : Extract ω} {s t : Sys ω} {M : ℕ} {io : Ports ω}
  {d : Driver} {calls more : List (Op ω × Answer)} {call : Op ω × Answer}

/-- A call of a driver that keeps its stream, and writes nothing but whole packets. -/
def Op.Sends (e : Bytes → ℤ) : Op ω → Prop
  | .writePacket buffer _ => IsPacket e buffer
  | .setMainStream _ => False
  | _ => True

instance (e : Bytes → ℤ) : DecidablePred (Op.Sends e : Op ω → Prop)
  | .writePacket buffer _ => inferInstanceAs (Decidable (IsPacket e buffer))
  | .setMainStream _ => isFalse not_false
  | .readPacket _ _ _ | .readRaw _ _ _ _ | .hasPacket | .getStatus | .resetStatus
  | .setExtractLastPacket _ | .clear | .close => isTrue trivial

def Op.IsWrite : Op ω → Prop
  | .writePacket _ _ => True
  | _ => False

instance : DecidablePred (Op.IsWrite : Op ω → Prop)
  | .writePacket _ _ => isTrue trivial
  | .readPacket _ _ _ | .readRaw _ _ _ _ | .hasPacket | .getStatus | .resetStatus
  | .setExtractLastPacket _ | .clear | .setMainStream _ | .close => isFalse not_false

def sentBy : Op ω × Answer → List Bytes
  | (.writePacket buffer _, .flag true) => [buffer]
  | _ => []

/-- The packets that the calls have sent. -/
def sent (calls : List (Op ω × Answer)) : List Bytes := calls.flatMap sentBy

def GaveUp : Op ω × Answer → Prop
  | (.writePacket _ _, a) => a ≠ .flag true
  | _ => False

instance : DecidablePred (GaveUp : Op ω × Answer → Prop)
  | (.writePacket _ _, a) => inferInstanceAs (Decidable (a ≠ .flag true))
  | (.readPacket _ _ _, _) | (.readRaw _ _ _ _, _) | (.hasPacket, _) | (.getStatus, _)
  | (.resetStatus, _) | (.setExtractLastPacket _, _) | (.clear, _) | (.setMainStream _, _)
  | (.close, _) => isFalse not_false

/-- After a `writePacket` that has not succeeded nothing more is written. -/
def StopsSending (calls : List (Op ω × Answer)) : Prop :=
  calls.Pairwise fun call later => GaveUp call → ¬ later.1.IsWrite

instance (calls : List (Op ω × Answer)) : Decidable (StopsSending calls) :=
  inferInstanceAs (Decidable (List.Pairwise _ _))

@[simp] theorem sent_nil : sent ([] : List (Op ω × Answer)) = [] := rfl

@[simp] theorem sent_append (calls more : List (Op ω × Answer)) :
    sent (calls ++ more) = sent calls ++ sent more := List.flatMap_append

@[simp] theorem sent_singleton (call : Op ω × Answer) : sent [call] = sentBy call := by
  simp [sent]

theorem sentBy_of_not_write (h : ¬ call.1.IsWrite) : sentBy call = [] := by
  obtain ⟨op, a⟩ := call
  cases op <;> first | rfl | exact absurd trivial h

theorem Sys.Step.written_of_not_write (h : Sys.Step E s call t) (hop : ¬ call.1.IsWrite) (j : ℕ) :
    written j t.world.trace = written j s.world.trace := by
  have hof : ∀ {w w' : Recorded ω}, (∃ cs, Adds s.number w w' cs) →
      written j w'.trace = written j w.trace := by
    rintro w w' ⟨cs, new, hnew, hof, -⟩
    rw [hnew, written_append, written_of_reading hof, List.append_nil]
  have hkeeps := adds_keeps s.io s.number
  have hE : E.recorded.Keeps fun w w' => ∃ cs, Adds s.number w w' cs :=
    fun _ w => ⟨[], .of_trace rfl⟩
  obtain ⟨op, a⟩ := call
  have hstep := h
  obtain ⟨fuel, h⟩ := h
  cases op with
  | readPacket => exact hof (hstep.readPacket_keeps hkeeps hE)
  | readRaw =>
    obtain ⟨_, hr, _⟩ := Sys.after_eq_some h
    exact hof (readRaw_keeps hkeeps.hearing hr)
  | hasPacket =>
    obtain ⟨_, hr, _⟩ := Sys.after_eq_some h
    exact hof (hasPacket_keeps hkeeps.hearing hE hr)
  | writePacket => exact absurd trivial hop
  | clear =>
    cases h
    apply hof
    refine ⟨[], .of_trace ?_⟩
    unfold Driver.clear Ports.recorded
    cases s.io.stream <;> rfl
  | _ =>
    cases h
    rfl

theorem Sys.Step.number_of_sends (h : Sys.Step E s call t) (hop : call.1.Sends e) :
    t.number = s.number := by
  obtain ⟨op, a⟩ := call
  obtain ⟨fuel, h⟩ := h
  cases op with
  | readPacket | readRaw | writePacket | hasPacket =>
    obtain ⟨_, _, _, _, hnumber⟩ := Sys.after_eq_some h
    exact hnumber
  | setMainStream => exact hop.elim
  | _ =>
    cases h
    rfl

theorem Sys.Step.writes {buffer : Bytes} {timeout : Time} {a : Answer}
    (h : Sys.Step E s (.writePacket buffer timeout, a) t) (hne : buffer ≠ []) : ∃ q,
    written s.number t.world.trace = written s.number s.world.trace ++ q ∧ q <+: buffer ∧
      (a = .flag true ∧ q = buffer ∨ a ≠ .flag true ∧ q ≠ buffer) := by
  obtain ⟨fuel, h⟩ := h
  obtain ⟨r, hwrite, ha, -⟩ := Sys.after_eq_some h
  dsimp only at ha
  rcases hio : s.io.stream with _ | stream
  · have hrec := Ports.recorded_closed s.number hio
    simp only [Driver.writePacket, Driver.writePacketMilliseconds, hrec, Option.some.injEq,
      Prod.mk.injEq] at hwrite
    obtain ⟨rfl, -, hworld⟩ := hwrite
    refine ⟨[], by rw [← hworld, List.append_nil], List.nil_prefix, .inr ⟨?_, hne.symm⟩⟩
    rintro rfl
    cases ha
  · obtain ⟨new, hnew, hinOrder, hwhole, -⟩ := writePacketMilliseconds_exact hio hne hwrite
    refine ⟨written s.number new, by rw [hnew, written_append], hinOrder.accepted, ?_⟩
    by_cases hok : r = .ok true
    · refine .inl ⟨?_, hwhole.mp hok⟩
      rw [ha, hok]
    · refine .inr ⟨?_, fun hall => hok (hwhole.mpr hall)⟩
      rintro rfl
      rcases r with x | b
      · cases ha
      · exact hok (congrArg _ (Answer.flag.inj ha).symm)

/-- What a sender has written: the packets it has sent, and perhaps a part of one it gave up. -/
structure Sending (e : Bytes → ℤ) (calls : List (Op ω × Answer)) (s : Sys ω) : Prop where
  number : s.number = 0
  packets : ∀ p ∈ sent calls, IsPacket e p
  written : ∃ q, written 0 s.world.trace = (sent calls).flatten ++ q ∧ Unfinished e q ∧
    (q ≠ [] → ∃ call ∈ calls, GaveUp call)

theorem Sending.step (hs : Sending e calls s) (h : Sys.Step E s call t) (hop : call.1.Sends e)
    (hstop : StopsSending (calls ++ [call])) : Sending e (calls ++ [call]) t := by
  have hnumber := (h.number_of_sends hop).trans hs.number
  obtain ⟨q, hq, hpart, hgave⟩ := hs.written
  by_cases hwrite : call.1.IsWrite
  swap
  · -- nothing is written
    have hsent : sent (calls ++ [call]) = sent calls := by
      rw [sent_append, sent_singleton, sentBy_of_not_write hwrite, List.append_nil]
    refine ⟨hnumber, hsent ▸ hs.packets, q, ?_, hpart, fun hne => ?_⟩
    · rw [h.written_of_not_write hwrite, hq, hsent]
    · obtain ⟨call', hcall', hgave'⟩ := hgave hne
      exact ⟨call', List.mem_append_left _ hcall', hgave'⟩
  -- no call has given up before
  have hnone : q = [] := by
    by_contra hne
    obtain ⟨call', hcall', hgave'⟩ := hgave hne
    have hlater := (List.pairwise_append.mp hstop).2.2 call' hcall' call (List.mem_singleton_self _)
    exact hlater hgave' hwrite
  rw [hnone, List.append_nil] at hq
  obtain ⟨op, a⟩ := call
  cases op with
  | writePacket buffer timeout =>
    have hpacket : IsPacket e buffer := hop
    obtain ⟨q', hq', hle, hresult⟩ := h.writes hpacket.ne_nil
    rw [hs.number, hq] at hq'
    obtain ⟨rfl, rfl⟩ | ⟨hfailed, hless⟩ := hresult
    · have hsent :
          sent (calls ++ [(.writePacket q' timeout, .flag true)]) = sent calls ++ [q'] := by
        simp [sentBy]
      refine ⟨hnumber, fun p hp => ?_, [], ?_, unfinished_nil, fun h0 => absurd rfl h0⟩
      · rw [hsent, List.mem_append, List.mem_singleton] at hp
        exact hp.elim (hs.packets p) fun hp => hp ▸ hpacket
      · rw [hsent, hq', List.flatten_append, List.flatten_singleton, List.append_nil]
    · have hsent : sent (calls ++ [(.writePacket buffer timeout, a)]) = sent calls := by
        rw [sent_append, sent_singleton]
        cases a with
        | flag b =>
          cases b with
          | true => exact absurd rfl hfailed
          | false => exact List.append_nil _
        | _ => exact List.append_nil _
      obtain ⟨r, rfl⟩ := hle
      refine ⟨hnumber, hsent ▸ hs.packets, q', by rw [hsent, hq'],
        .inr ⟨r, ?_, hpacket⟩, fun _ => ?_⟩
      · rintro rfl
        exact hless (List.append_nil q').symm
      · exact ⟨_, List.mem_append_right _ (List.mem_singleton_self _), hfailed⟩
  | _ => exact hwrite.elim

theorem Sending.run (h : Sys.Run E (.start io d w) calls t) (hops : ∀ call ∈ calls, call.1.Sends e)
    (hstop : StopsSending calls) : Sending e calls t := by
  have hstart : Sending e [] (.start io d w) :=
    ⟨rfl, by simp, [], rfl, unfinished_nil, fun h0 => absurd rfl h0⟩
  refine (h.restrict hops).history (I := fun calls s => StopsSending calls → Sending e calls s)
    ?_ [] (fun _ => hstart) hstop
  rintro calls s call t ih ⟨hstep, hop⟩ hstop
  exact (ih (List.pairwise_append.mp hstop).1).step hstep hop hstop

/-- A call of a driver that keeps its stream and its mode, and reads nothing but packets. -/
def Op.Receives (M : ℕ) : Op ω → Prop
  | .readPacket bufferSize _ _ => M ≤ bufferSize
  | .writePacket _ _ | .hasPacket | .getStatus | .resetStatus => True
  | _ => False

instance (M : ℕ) : DecidablePred (Op.Receives M : Op ω → Prop)
  | .readPacket bufferSize _ _ => inferInstanceAs (Decidable (M ≤ bufferSize))
  | .writePacket _ _ | .hasPacket | .getStatus | .resetStatus => isTrue trivial
  | .readRaw _ _ _ _ | .setExtractLastPacket _ | .clear | .setMainStream _ | .close =>
    isFalse not_false

/-- The other calls of a receiver read nothing, and leave the buffer alone. -/
structure Sys.Spared (s t : Sys ω) : Prop where
  io : t.io = s.io
  number : t.number = s.number
  driver : ∃ stats, t.driver = s.driver.withStats stats
  received : ∀ j, received j t.world.trace = received j s.world.trace

theorem Sys.Step.spares (hb : InBounds e) (hE : E.Answers e) (h : Sys.Step E s call t)
    (hop : call.1.Receives M) (hread : ∀ n packet first, call.1 ≠ .readPacket n packet first) :
    s.Spared t ∧ call.2.packets = [] := by
  obtain ⟨op, a⟩ := call
  have hstep := h
  obtain ⟨fuel, h⟩ := h
  cases op with
  | readPacket n packet first => exact absurd rfl (hread n packet first)
  | writePacket =>
    obtain ⟨r, hwrite, ha, hio, hnumber⟩ := Sys.after_eq_some h
    obtain ⟨-, -, hreceived⟩ := hstep.received_of_writePacket
    refine ⟨⟨hio, hnumber, ?_, hreceived⟩, ?_⟩
    · rcases hstream : s.io.stream with _ | stream
      · have hrec := Ports.recorded_closed s.number hstream
        simp only [Driver.writePacket, Driver.writePacketMilliseconds, hrec, Option.some.injEq,
          Prod.mk.injEq] at hwrite
        exact ⟨s.driver.stats, hwrite.2.1.symm⟩
      · obtain ⟨n, hend⟩ := writePacket_end hstream hwrite
        exact hend.driver
    · dsimp only at ha ⊢
      rcases r with x | b <;> (rw [ha]; rfl)
  | hasPacket =>
    rw [Sys.perform, hasPacket_eq hb hE.recorded] at h
    cases h
    refine ⟨⟨rfl, rfl, ⟨_, rfl⟩, fun j => ?_⟩, rfl⟩
    simpa using received_of_adds (adds_effects (k := j) E _ s.world)
  | getStatus =>
    cases h
    exact ⟨⟨rfl, rfl, ⟨_, rfl⟩, fun _ => rfl⟩, rfl⟩
  | resetStatus =>
    cases h
    exact ⟨⟨rfl, rfl, ⟨_, rfl⟩, fun _ => rfl⟩, rfl⟩
  | _ => exact hop.elim

/-- What a receiver has returned, with what is in its buffer, is the parse of what it has read. -/
structure Receiving (e : Bytes → ℤ) (M : ℕ) (calls : List (Op ω × Answer)) (s : Sys ω) : Prop where
  number : s.number = 0
  extractLast : s.driver.extractLast = false
  maxPacketSize : s.driver.maxPacketSize = M
  parse : ∀ u, parse e (received 0 s.world.trace ++ u) =
    packets calls ++ parse e (s.driver.internalBuffer ++ u)
  idle : ∀ op x, calls.getLast? = some (op, .threw x) → op.Reads M →
    Framing.parse e s.driver.internalBuffer = []

theorem Receiving.step (hb : InBounds e) (hs : Stable e) (hE : E.Answers e) (hdec : Decides e M)
    (hr : Receiving e M calls s) (h : Sys.Step E s call t) (hop : call.1.Receives M)
    (hq : Quiet t.world.trace) : Receiving e M (calls ++ [call]) t := by
  by_cases hread : ∃ n packet first, call.1 = .readPacket n packet first
  swap
  · obtain ⟨hspared, hnone⟩ := h.spares hb hE hop fun n packet first heq =>
      hread ⟨n, packet, first, heq⟩
    obtain ⟨stats, hdriver⟩ := hspared.driver
    refine ⟨hspared.number.trans hr.number, ?_, ?_, fun u => ?_, fun op x hlast hreads => ?_⟩
    · rw [hdriver]
      exact hr.extractLast
    · rw [hdriver]
      exact hr.maxPacketSize
    · rw [hspared.received, hr.parse, packets_append, packets_singleton, hnone, List.append_nil,
        hdriver]
      rfl
    · -- the last call was no read
      rw [List.getLast?_append, List.getLast?_singleton, Option.some_or, Option.some.injEq] at hlast
      subst hlast
      cases op with
      | readPacket n packet first => exact absurd ⟨n, packet, first, rfl⟩ hread
      | _ => exact hreads.elim
  · obtain ⟨op, a⟩ := call
    obtain ⟨n, packet, first, rfl⟩ := hread
    have hn : s.driver.maxPacketSize ≤ n := hr.maxPacketSize.trans_le hop
    obtain ⟨cs, hd⟩ := (h.readPacket hb hE).delivers hn (by rwa [hr.maxPacketSize]) hq
    have hrec := hd.received
    rw [hr.number] at hrec
    refine ⟨hd.number.trans hr.number, hd.fed.extractLast.trans hr.extractLast,
      hd.fed.maxPacketSize.trans hr.maxPacketSize, fun u => ?_, fun op x hlast _ => ?_⟩
    · rw [hrec, List.append_assoc, hr.parse, ← List.append_assoc,
        hd.parse_first hb hs hr.extractLast, packets_append, packets_singleton, List.append_assoc]
    · rw [List.getLast?_append, List.getLast?_singleton, Option.some_or, Option.some.injEq,
        Prod.mk.injEq] at hlast
      apply hd.parse_eq_nil
      rw [hlast.2]
      exact .inr rfl

theorem Receiving.run (hb : InBounds e) (hs : Stable e) (hE : E.Answers e) (hdec : Decides e M)
    {w : ω} (h : Sys.Run E (.start io (.new M false) w) calls t)
    (hops : ∀ call ∈ calls, call.1.Receives M) (hq : Quiet t.world.trace) :
    Receiving e M calls t := by
  have hstart : Receiving e M [] (.start io (.new M false) w) :=
    ⟨rfl, rfl, rfl, fun u => by simp [Sys.start, Driver.new], fun op x hlast => by cases hlast⟩
  refine (h.restrict hops).history (I := fun calls s => Quiet s.world.trace → Receiving e M calls s)
    ?_ [] (fun _ => hstart) hq
  rintro calls s call t ih ⟨hstep, hop⟩ hqt
  exact (ih (hstep.quiet hqt)).step hb hs hE hdec hstep hop hqt

def Event.readBytes (k : ℕ) (ev : Event) : Bytes := (ev.chunk k).getD []

theorem received_eq_flatMap (k : ℕ) (trace : List Event) :
    received k trace = trace.flatMap (Event.readBytes k) := by
  induction trace with
  | nil => rfl
  | cons ev trace ih =>
    rw [List.flatMap_cons, ← ih, received, received, chunks, chunks, List.filterMap_cons,
      Event.readBytes]
    cases ev.chunk k <;> rfl

inductive Side
  | left
  | right
  deriving DecidableEq

instance : Fintype Side where
  elems := {.left, .right}
  complete i := by cases i <;> decide

def Side.other : Side → Side
  | .left => .right
  | .right => .left

/-- What one side writes is there for the other one to read. -/
def link : Network.Wiring Side (Side × Event) UInt8 :=
  Network.ends Side.other id (fun _ => Event.accepted 0) fun _ => Event.readBytes 0

/-- A driver at one end of the link, with the calls that have come back. -/
structure Party where
  ω : Type
  extract : Extract ω
  io : Ports ω
  driver : Driver
  world : ω
  calls : List (Op ω × Answer)
  now : Sys ω
  run : Sys.Run extract (.start io driver world) calls now

/-- What side `i` has read and what is on the way to it is what the other side has written. -/
theorem written_eq {h : List (Side × Event)} {onTheWay : Side → Bytes}
    (hlink : Lts.Run (Network.Step link) (fun _ => []) h onTheWay) (i : Side) :
    written 0 (Network.localTo i.other h) =
      received 0 (Network.localTo i h) ++ onTheWay i := by
  rw [received_eq_flatMap]
  exact Network.sent_eq hlink i

theorem written_mono {k : ℕ} {t t' : List Event} (h : t <+: t') : written k t <+: written k t' := by
  obtain ⟨new, rfl⟩ := h
  exact ⟨written k new, (written_append k t new).symm⟩

theorem Party.parse_written (party : Party) (hb : InBounds e) (hs : Stable e)
    (hsends : ∀ call ∈ party.calls, call.1.Sends e) (hstop : StopsSending party.calls) :
    parse e (written 0 party.now.world.trace) = sent party.calls := by
  have hsending := Sending.run party.run hsends hstop
  obtain ⟨q, hwritten, hpart, -⟩ := hsending.written
  rw [hwritten]
  exact parse_sent hb hs hsending.packets hpart

theorem Party.receiving (party : Party) (hb : InBounds e) (hs : Stable e) (hdec : Decides e M)
    (hE : party.extract.Answers e) (hnew : party.driver = .new M false)
    (hreceives : ∀ call ∈ party.calls, call.1.Receives M) (hq : Quiet party.now.world.trace) :
    Receiving e M party.calls party.now := by
  have hrun := party.run
  rw [hnew] at hrun
  exact .run hb hs hE hdec hrun hreceives hq

/-- **Packets cross the link.**  However the system calls of the two sides interleave, and in
whatever pieces the bytes travel: the packets that one side has sent are those that the other side
has returned, in order and each once, followed by those in its buffer and on the way.  In the
middle of a call of the sender there are at least as many. -/
theorem packets_cross_the_link (hb : InBounds e) (hs : Stable e) (hdec : Decides e M)
    (party : Side → Party) (i : Side) (hE : (party i).extract.Answers e)
    (hnew : (party i).driver = .new M false)
    (hsends : ∀ call ∈ (party i.other).calls, call.1.Sends e)
    (hstop : StopsSending (party i.other).calls)
    (hreceives : ∀ call ∈ (party i).calls, call.1.Receives M)
    (hq : Quiet (party i).now.world.trace) {h : List (Side × Event)} {onTheWay : Side → Bytes}
    (hlink : Lts.Run (Network.Step link) (fun _ => []) h onTheWay)
    (hreceiver : Network.localTo i h = (party i).now.world.trace)
    (hsender : Network.localTo i.other h <+: (party i.other).now.world.trace) :
    packets (party i).calls ++
        parse e ((party i).now.driver.internalBuffer ++ onTheWay i) <+: sent (party i.other).calls ∧
    (Network.localTo i.other h = (party i.other).now.world.trace →
      sent (party i.other).calls = packets (party i).calls ++
        parse e ((party i).now.driver.internalBuffer ++ onTheWay i)) ∧
    (Network.localTo i.other h = (party i.other).now.world.trace → onTheWay i = [] →
      ∀ op x, (party i).calls.getLast? = some (op, .threw x) → op.Reads M →
        packets (party i).calls = sent (party i.other).calls) := by
  have hreceiving := (party i).receiving hb hs hdec hE hnew hreceives hq
  have hall := (party i.other).parse_written hb hs hsends hstop
  -- what has been written so far is what has been read, and what is on the way
  have hway := written_eq hlink i
  rw [hreceiver] at hway
  have hparse := hreceiving.parse (onTheWay i)
  rw [← hway] at hparse
  have hwhole : Network.localTo i.other h = (party i.other).now.world.trace →
      sent (party i.other).calls = packets (party i).calls ++
        parse e ((party i).now.driver.internalBuffer ++ onTheWay i) := by
    intro heq
    rw [← hall, ← heq, hparse]
  refine ⟨?_, hwhole, fun heq hempty op x hlast hop => ?_⟩
  · rw [← hparse, ← hall]
    exact parse_mono hb hs (written_mono hsender)
  · rw [hwhole heq, hempty, List.append_nil, hreceiving.idle op x hlast hop, List.append_nil]

/-- Two packets are written in three pieces, and arrive in others. -/
theorem packets_cross_the_link_sample : ∃ (party : Side → Party) (h : List (Side × Event))
    (onTheWay : Side → Bytes), Lts.Run (Network.Step link) (fun _ => []) h onTheWay ∧
    (∀ i, Network.localTo i h = (party i).now.world.trace) ∧
    sent (party .left).calls = [[0, 1, 2, 0], [0, 3, 4, 0]] ∧
    packets (party .right).calls = [[0, 1, 2, 0]] ∧
    (party .right).now.driver.internalBuffer = [0] ∧ onTheWay .right = [3, 4, 0] ∧
    sent (party .left).calls = packets (party .right).calls ++ parse driverTestExtractPacket
      ((party .right).now.driver.internalBuffer ++ onTheWay .right) := by
  let sender : Option (List (Op (List ℕ) × Answer) × Sys (List ℕ)) :=
    Lts.performs (Sys.perform (.pure driverTestExtractPacket) 5)
      (.start ⟨fun w => (0, w), some acceptingStream, []⟩ (.new 100 false) [1, 3, 4])
      [.writePacket [0, 1, 2, 0] 1000, .writePacket [0, 3, 4, 0] 1000]
  let receiver : Option (List (Op Script × Answer) × Sys Script) :=
    Lts.performs (Sys.perform (.pure driverTestExtractPacket) 5)
      (.start Script.ports (.new 100 false) [[0], [1, 2, 0, 0]])
      [.readPacket 100 0 0, .readPacket 100 0 0]
  -- all of the sender's events come first
  let history (l : Sys (List ℕ)) (r : Sys Script) : List (Side × Event) :=
    l.world.trace.map (Prod.mk .left) ++ r.world.trace.map (Prod.mk .right)
  obtain ⟨⟨l, r⟩, hlr, hsent, hpackets, hbuffer, hways, hsends, hstop, hreceives, hq⟩ :=
    exists_of_any (x := sender.bind fun l => receiver.map fun r => (l, r))
      (fun b => sent b.1.1 = [[0, 1, 2, 0], [0, 3, 4, 0]] ∧ packets b.2.1 = [[0, 1, 2, 0]] ∧
        b.2.2.driver.internalBuffer = [0] ∧
        ((history b.1.2 b.2.2).foldlM (Network.advance link) fun _ => []).any
          (fun q => decide (q .right = [3, 4, 0])) = true ∧
        (∀ call ∈ b.1.1, call.1.Sends driverTestExtractPacket) ∧ StopsSending b.1.1 ∧
        (∀ call ∈ b.2.1, call.1.Receives 100) ∧ Quiet b.2.2.world.trace)
      (by decide +kernel)
  obtain ⟨l', hl, hr⟩ := Option.bind_eq_some_iff.mp hlr
  obtain ⟨r', hr, heq⟩ := Option.map_eq_some_iff.mp hr
  cases heq
  obtain ⟨onTheWay, hway, hthree⟩ := (Option.any_eq_true _ _).mp hways
  have hstep {ω : Type} (E : Extract ω) : ∀ s op a t, s.perform E 5 op = some (a, t) →
      Sys.Step E s (op, a) t := fun _ _ _ _ hop => ⟨5, hop⟩
  let party : Side → Party
    | .left => ⟨_, _, _, _, _, l.1, l.2, Lts.run_of_performs (hstep _) hl⟩
    | .right => ⟨_, _, _, _, _, r.1, r.2, Lts.run_of_performs (hstep _) hr⟩
  have hleft : Network.localTo .left (history l.2 r.2) = l.2.world.trace := by
    simp [history, Network.localTo_append, Network.localTo_map]
  have hright : Network.localTo .right (history l.2 r.2) = r.2.world.trace := by
    simp [history, Network.localTo_append, Network.localTo_map]
  have hcross := packets_cross_the_link driverTest_inBounds driverTest_stable
    (fun b hb _ => driverTest_decides (by omega)) party .right (Extract.answers_pure _) rfl hsends
    hstop hreceives hq (Network.run_of_advance hway) hright (hleft ▸ List.prefix_refl _)
  refine ⟨party, history l.2 r.2, onTheWay, Network.run_of_advance hway, fun i => ?_, hsent,
    hpackets, hbuffer, of_decide_eq_true hthree, hcross.2.1 hleft⟩
  cases i with
  | left => exact hleft
  | right => exact hright

end IodriversBase
