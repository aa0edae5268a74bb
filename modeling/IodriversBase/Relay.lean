import IodriversBase.Delivery
import IodriversBase.ForwardDescriptors

namespace IodriversBase

open Framing

variable {ω : Type} {e e1 e2 : Bytes → ℤ} {E : Extract ω} {rawMode : Bool} {j k : ℕ}
  {io ioFrom ioTo : Ports ω} {w w' : Recorded ω} {fuel bufferSize size : ℕ} {timeout : Time}
  {source target source' target' d d' : Driver} {cs : List Bytes}

theorem RawEnd.bytes {n : ℕ} {r} (h : RawEnd k d n w r d' w' cs) :
    d.internalBuffer ++ cs.flatten =
      d.internalBuffer.take n ++ cs.flatten ++ d'.internalBuffer := by
  rw [h.driver, Driver.dropFront_internalBuffer]
  by_cases hnone : cs.flatten = []
  · have hdrop : d.internalBuffer.drop (min d.internalBuffer.length n) =
        d.internalBuffer.drop n := by
      rw [List.drop_eq_drop_iff]
      omega
    rw [hnone, List.append_nil, List.append_nil, hdrop, List.take_append_drop]
  · have hlt := h.reads hnone
    rw [List.take_of_length_le hlt.le, Nat.min_eq_left hlt.le, List.drop_length, List.append_nil]

/-- A transfer from stream `j` to stream `k`: the bytes that leave the buffer are written, or the
packets that are found in front of them. -/
structure Conveys (rawMode : Bool) (e : Bytes → ℤ) (j k : ℕ) (source target : Driver)
    (w : Recorded ω) (source' target' : Driver) (w' : Recorded ω) (cs : List Bytes) (out : Bytes) :
    Prop where
  transfers : Transfers j k w w' cs out
  target : ∃ stats, target' = target.withStats stats
  extractLast : source'.extractLast = source.extractLast
  raw : rawMode = true → source.internalBuffer ++ cs.flatten = out ++ source'.internalBuffer
  packets : rawMode = false → ∃ ps : List Bytes, out = ps.flatten ∧ ∀ u,
    parse e (source.internalBuffer ++ cs.flatten ++ u) = ps ++ parse e (source'.internalBuffer ++ u)

theorem Conveys.refl (rawMode : Bool) (e : Bytes → ℤ) (j k : ℕ) (source target : Driver)
    (w : Recorded ω) : Conveys rawMode e j k source target w source target w [] [] where
  transfers := .of_adds k (.refl j w)
  target := ⟨target.stats, rfl⟩
  extractLast := rfl
  raw _ := by simp
  packets _ := ⟨[], rfl, fun u => by simp⟩

theorem Quiet.mono {t t' : List Event} (h : Quiet t') (hle : t <+: t') : Quiet t :=
  fun ev hev => h ev (hle.subset hev)

theorem forwardData_conveys (hb : InBounds e) (hs : Stable e) (hE : E.Answers e)
    (hfirst : source.extractLast = false) (hfrom : ioFrom.stream ≠ none) (hto : ioTo.stream ≠ none)
    (hq : Quiet w'.trace)
    (h : forwardData rawMode E.recorded (ioFrom.recorded j) (ioTo.recorded k) fuel bufferSize
      timeout source target w = some (.ok size, source', target', w')) :
    ∃ cs out, Conveys rawMode e j k source target w source' target' w' cs out := by
  cases rawMode with
  | false =>
    obtain ⟨cs, hfed, htarget, htransfers⟩ := forwardData_packet hb hE hfirst hfrom hto h
    have hparse := fun u => hfed.parse_first hb hs hfirst u
    obtain htransfers | ⟨hnone, htransfers⟩ := htransfers
    · exact ⟨cs, _, htransfers, htarget, hfed.extractLast, fun h0 => absurd h0 Bool.false_ne_true,
        fun _ => ⟨_, rfl, hparse⟩⟩
    · refine ⟨cs ++ [[]], [], htransfers, htarget, hfed.extractLast,
        fun h0 => absurd h0 Bool.false_ne_true, fun _ => ⟨[], rfl, fun u => ?_⟩⟩
      rw [List.flatten_append, List.flatten_singleton, List.append_nil, hparse, hnone]
  | true =>
    obtain ⟨stream, hstream⟩ := Option.ne_none_iff_exists'.mp hfrom
    obtain ⟨r, w₁, hread, htarget, hr⟩ := forwardData_cases hto h
    obtain ⟨cs, hend⟩ := readRaw_end hstream hread
    have hlast : source'.extractLast = source.extractLast := by
      rw [hend.driver]
      rfl
    obtain ⟨x, rfl, -, rfl⟩ | ⟨data, rfl, haccepts⟩ := hr
    · -- `readRaw` throws only what the stream has thrown
      obtain hok | ⟨y, -, ev, hev, hthrew⟩ := hend.result
      · cases hok
      · exact absurd hthrew.threw (hq ev hev)
    · obtain hok | ⟨y, hy, -⟩ := hend.result
      · obtain rfl := Except.ok.inj hok
        exact ⟨cs, _, (Transfers.of_adds k hend.adds).then_accepts haccepts, htarget, hlast,
          fun _ => hend.bytes, fun h0 => absurd h0.symm Bool.false_ne_true⟩
      · cases hy

/-- What has been read from stream `j` since the start has been written to stream `k`, or waits in
the buffer. -/
structure Relayed (rawMode : Bool) (e : Bytes → ℤ) (j k : ℕ) (d : Driver) (trace : List Event) :
    Prop where
  extractLast : d.extractLast = false
  raw : rawMode = true → received j trace = written k trace ++ d.internalBuffer
  packets : rawMode = false → ∃ ps : List Bytes, written k trace = ps.flatten ∧ ∀ u,
    parse e (received j trace ++ u) = ps ++ parse e (d.internalBuffer ++ u)

theorem relayed_new (rawMode : Bool) (e : Bytes → ℤ) (j k M : ℕ) :
    Relayed rawMode e j k (.new M false) [] where
  extractLast := rfl
  raw _ := rfl
  packets _ := ⟨[], rfl, fun _ => rfl⟩

theorem Relayed.forth {out : Bytes} (h : Relayed rawMode e j k source w.trace)
    (hpass : Conveys rawMode e j k source target w source' target' w' cs out) :
    Relayed rawMode e j k source' w'.trace := by
  have hreceived := hpass.transfers.received j
  have hwritten := hpass.transfers.written k
  rw [if_pos rfl] at hreceived hwritten
  refine ⟨hpass.extractLast.trans h.extractLast, fun hraw => ?_, fun hraw => ?_⟩
  · rw [hreceived, hwritten, h.raw hraw, List.append_assoc, hpass.raw hraw, List.append_assoc]
  · obtain ⟨ps, hps, hparse⟩ := h.packets hraw
    obtain ⟨qs, hqs, hpassed⟩ := hpass.packets hraw
    refine ⟨ps ++ qs, by rw [hwritten, hps, hqs, List.flatten_append], fun u => ?_⟩
    rw [hreceived, List.append_assoc, hparse, ← List.append_assoc, hpassed, List.append_assoc]

/-- The other direction: nothing is read from its stream, nor written to the other one. -/
theorem Relayed.back {e' : Bytes → ℤ} {out : Bytes} (h : Relayed rawMode e' k j target w.trace)
    (hpass : Conveys rawMode e j k source target w source' target' w' cs out) (hjk : j ≠ k) :
    Relayed rawMode e' k j target' w'.trace := by
  have hreceived := hpass.transfers.received k
  have hwritten := hpass.transfers.written j
  rw [if_neg hjk.symm, List.append_nil] at hreceived
  rw [if_neg hjk, List.append_nil] at hwritten
  obtain ⟨stats, rfl⟩ := hpass.target
  refine ⟨h.extractLast, ?_, ?_⟩
  · rw [hreceived, hwritten]
    exact h.raw
  · rw [hreceived, hwritten]
    exact h.packets

variable {f : Forwarder ω} {fd1 fd2 : ℤ} {s t : ForwardState (Recorded ω)}

structure Forwarder.Relays (f : Forwarder ω) (e1 e2 : Bytes → ℤ)
    (s : ForwardState (Recorded ω)) : Prop where
  forth : Relayed f.rawMode e1 1 2 s.driver1 s.world.trace
  back : Relayed f.rawMode e2 2 1 s.driver2 s.world.trace

def Grows (w w' : Recorded ω) : Prop := w.trace <+: w'.trace

theorem grows_keeps (io : Ports ω) (k : ℕ) : (io.recorded k).Keeps Grows where
  refl w := List.prefix_refl w.trace
  trans := List.IsPrefix.trans
  now w := ((uses_keeps io k).now w).trace
  notifyRead data w := ((uses_keeps io k).notifyRead data w).trace
  read hst hr := ((uses_keeps io k).read hst hr).trace
  waitRead hst hr := ((uses_keeps io k).waitRead hst hr).trace
  notifyWrite data w := ((uses_keeps io k).notifyWrite data w).trace
  write hst hr := ((uses_keeps io k).write hst hr).trace
  waitWrite hst hr := ((uses_keeps io k).waitWrite hst hr).trace

theorem extract_grows (E : Extract ω) : E.recorded.Keeps Grows :=
  fun _ w => List.prefix_refl w.trace

theorem Forwarder.pass1_grows (hpass : f.recorded.Pass1 fuel s t) : Grows s.world t.world := by
  obtain rfl | ⟨size, hdata⟩ := hpass
  · exact List.prefix_refl _
  · exact forwardData_sides (grows_keeps f.io1 1).toKeepsReading (extract_grows f.extract1)
      (grows_keeps f.io2 2).telling.toKeepsWriting hdata

theorem Forwarder.pass2_grows (hpass : f.recorded.Pass2 fuel s t) : Grows s.world t.world := by
  obtain rfl | ⟨size, hdata⟩ := hpass
  · exact List.prefix_refl _
  · exact forwardData_sides (grows_keeps f.io2 2).toKeepsReading (extract_grows f.extract2)
      (grows_keeps f.io1 1).telling.toKeepsWriting hdata

theorem Forwarder.Relays.pass1 (hf : f.Between e1 e2) (hs1 : Stable e1)
    (h : f.Relays e1 e2 s) (hpass : f.recorded.Pass1 fuel s t) (hq : Quiet t.world.trace) :
    f.Relays e1 e2 t := by
  obtain rfl | ⟨size, hdata⟩ := hpass
  · exact h
  · obtain ⟨cs, out, hconveys⟩ := forwardData_conveys hf.inBounds1 hs1 hf.answers1
      h.forth.extractLast hf.stream1 hf.stream2 hq hdata
    exact ⟨h.forth.forth hconveys, h.back.back hconveys (by decide)⟩

theorem Forwarder.Relays.pass2 (hf : f.Between e1 e2) (hs2 : Stable e2)
    (h : f.Relays e1 e2 s) (hpass : f.recorded.Pass2 fuel s t) (hq : Quiet t.world.trace) :
    f.Relays e1 e2 t := by
  obtain rfl | ⟨size, hdata⟩ := hpass
  · exact h
  · obtain ⟨cs, out, hconveys⟩ := forwardData_conveys hf.inBounds2 hs2 hf.answers2
      h.back.extractLast hf.stream2 hf.stream1 hq hdata
    exact ⟨h.forth.back hconveys (by decide), h.back.forth hconveys⟩

theorem Forwarder.round_grows (h : f.recorded.Round fd1 fd2 s t) : Grows s.world t.world := by
  obtain ⟨fuel, hstep⟩ := h
  obtain ⟨_, s₁, hpass1, hpass2, -⟩ := Forwarder.iteration_again hstep
  have hselected := Forwarder.pass1_grows hpass1
  have hforth : s.world.trace <+: s₁.world.trace := hselected
  exact hforth.trans (Forwarder.pass2_grows hpass2)

theorem Forwarder.Relays.round (hf : f.Between e1 e2) (hs1 : Stable e1) (hs2 : Stable e2)
    (h : f.Relays e1 e2 s) (hround : f.recorded.Round fd1 fd2 s t) (hq : Quiet t.world.trace) :
    f.Relays e1 e2 t := by
  obtain ⟨fuel, hstep⟩ := hround
  obtain ⟨_, s₁, hpass1, hpass2, -⟩ := Forwarder.iteration_again hstep
  have hselect : f.Relays e1 e2
      { s with world := (f.recorded.select [fd1, fd2] ⟨10, 0⟩ s.world).2 } := ⟨h.forth, h.back⟩
  have hmiddle := hselect.pass1 hf hs1 hpass1 (hq.mono (Forwarder.pass2_grows hpass2))
  exact hmiddle.pass2 hf hs2 hpass2 hq

theorem Forwarder.relays_run (hf : f.Between e1 e2) (hs1 : Stable e1) (hs2 : Stable e2)
    {M1 M2 : ℕ} {w : ω}
    (h : Relation.ReflTransGen (f.recorded.Round fd1 fd2)
      ⟨.new M1 false, .new M2 false, ⟨w, []⟩⟩ t) (hq : Quiet t.world.trace) :
    f.Relays e1 e2 t := by
  induction h with
  | refl => exact ⟨relayed_new _ _ _ _ _, relayed_new _ _ _ _ _⟩
  | tail _ hround ih =>
    exact (ih (hq.mono (Forwarder.round_grows hround))).round hf hs1 hs2 hround hq

inductive Place
  | party (i : Side)
  | forwarder
  deriving DecidableEq

/-- The two directions of the two links. -/
inductive Hop
  | outOf (i : Side)
  | into (i : Side)
  deriving DecidableEq

instance : Fintype Hop where
  elems := {.outOf .left, .outOf .right, .into .left, .into .right}
  complete c := by rcases c with (_ | _) | (_ | _) <;> decide

def Hop.sender : Hop → Place
  | .outOf i => .party i
  | .into _ => .forwarder

def Hop.receiver : Hop → Place
  | .outOf _ => .forwarder
  | .into i => .party i

/-- The stream of the forwarder on each side. -/
def Side.port : Side → ℕ
  | .left => 1
  | .right => 2

def Hop.put : Hop → Event → Bytes
  | .outOf _ => Event.accepted 0
  | .into i => Event.accepted i.port

def Hop.got : Hop → Event → Bytes
  | .outOf i => Event.readBytes i.port
  | .into _ => Event.readBytes 0

def links : Network.Wiring Hop (Place × Event) UInt8 :=
  Network.ends Hop.sender Hop.receiver Hop.put Hop.got

/-- The driver of the forwarder that reads from each side. -/
def ForwardState.driver (s : ForwardState ω) : Side → Driver
  | .left => s.driver1
  | .right => s.driver2

/-- The packets that have left their sender and not been returned: those at the receiver and on
the way to it, and those at the forwarder and on the way there.  In raw mode a packet may be torn
between the two. -/
def pending (rawMode : Bool) (e : Bytes → ℤ) (atReceiver atForwarder : Bytes) : List Bytes :=
  if rawMode then parse e (atReceiver ++ atForwarder)
  else parse e atReceiver ++ parse e atForwarder

/-- The packets that were read from stream `j` and those on the way there, when `returned` is what
became of the bytes on stream `k`. -/
theorem Relayed.parse_received {trace : List Event} {onTheWay atReceiver : Bytes}
    {returned : List Bytes} (hb : InBounds e) (hs : Stable e) (h : Relayed rawMode e j k d trace)
    (hpackets : ∀ p ∈ parse e (received j trace ++ onTheWay), IsPacket e p)
    (hreturned : ∀ u, parse e (written k trace ++ u) = returned ++ parse e (atReceiver ++ u)) :
    parse e (received j trace ++ onTheWay) =
      returned ++ pending rawMode e atReceiver (d.internalBuffer ++ onTheWay) := by
  rw [pending]
  cases hraw : rawMode with
  | true => rw [if_pos rfl, h.raw hraw, List.append_assoc, hreturned]
  | false =>
    obtain ⟨ps, hps, hrest⟩ := h.packets hraw
    have hflatten : parse e ps.flatten = ps := by
      have hsent : ∀ p ∈ ps, IsPacket e p := fun p hp =>
        hpackets p (by rw [hrest]; exact List.mem_append_left _ hp)
      simpa using parse_sent hb hs hsent unfinished_nil
    have hforwarded : ps = returned ++ parse e atReceiver := by
      rw [← hflatten, ← hps]
      simpa using hreturned []
    rw [if_neg Bool.false_ne_true, hrest, hforwarded, List.append_assoc]

theorem Forwarder.Relays.toward (h : f.Relays e1 e2 t) (i : Side) :
    ∃ e', (e' = e1 ∨ e' = e2) ∧
      Relayed f.rawMode e' i.other.port i.port (t.driver i.other) t.world.trace := by
  cases i with
  | left => exact ⟨e2, .inr rfl, h.back⟩
  | right => exact ⟨e1, .inl rfl, h.forth⟩

/-- What the forwarder has read from side `i`, and what is on the way to it, is what this side has
written. -/
theorem written_outOf {h : List (Place × Event)} {onTheWay : Hop → Bytes}
    (hlinks : Lts.Run (Network.Step links) (fun _ => []) h onTheWay) (i : Side) :
    written 0 (Network.localTo (.party i) h) =
      received i.port (Network.localTo .forwarder h) ++ onTheWay (.outOf i) := by
  rw [received_eq_flatMap]
  exact Network.sent_eq hlinks (.outOf i)

theorem written_into {h : List (Place × Event)} {onTheWay : Hop → Bytes}
    (hlinks : Lts.Run (Network.Step links) (fun _ => []) h onTheWay) (i : Side) :
    written i.port (Network.localTo .forwarder h) =
      received 0 (Network.localTo (.party i) h) ++ onTheWay (.into i) := by
  rw [received_eq_flatMap]
  exact Network.sent_eq hlinks (.into i)

/-- **Packets cross the forwarder.**  Whenever it is at its `select`, and however the system calls
of the three programs interleave: the packets that one side has sent are those that the other side
has returned, in order and each once, followed by those that wait in the two buffers and on the
two links.  In the middle of a call of the sender there are at least as many. -/
theorem packets_cross_the_forwarder {M M1 M2 : ℕ} (hb : InBounds e) (hs : Stable e)
    (hdec : Decides e M) (party : Side → Party) (i : Side) (hE : (party i).extract.Answers e)
    (hnew : (party i).driver = .new M false)
    (hsends : ∀ call ∈ (party i.other).calls, call.1.Sends e)
    (hstop : StopsSending (party i.other).calls)
    (hreceives : ∀ call ∈ (party i).calls, call.1.Receives M)
    (hq : Quiet (party i).now.world.trace) (hf : f.Between e1 e2) (hs1 : Stable e1)
    (hs2 : Stable e2) (hpackets : f.rawMode = false → e1 = e ∧ e2 = e) {w₀ : ω}
    (hloop : Relation.ReflTransGen (f.recorded.Round fd1 fd2)
      ⟨.new M1 false, .new M2 false, ⟨w₀, []⟩⟩ t) (hqt : Quiet t.world.trace)
    {h : List (Place × Event)} {onTheWay : Hop → Bytes}
    (hlinks : Lts.Run (Network.Step links) (fun _ => []) h onTheWay)
    (hreceiver : Network.localTo (.party i) h = (party i).now.world.trace)
    (hforwarder : Network.localTo .forwarder h = t.world.trace)
    (hsender : Network.localTo (.party i.other) h <+: (party i.other).now.world.trace) :
    let waiting := pending f.rawMode e
      ((party i).now.driver.internalBuffer ++ onTheWay (.into i))
      ((t.driver i.other).internalBuffer ++ onTheWay (.outOf i.other))
    packets (party i).calls ++ waiting <+: sent (party i.other).calls ∧
    (Network.localTo (.party i.other) h = (party i.other).now.world.trace →
      sent (party i.other).calls = packets (party i).calls ++ waiting) := by
  intro waiting
  have hreceiving := (party i).receiving hb hs hdec hE hnew hreceives hq
  have hall := (party i.other).parse_written hb hs hsends hstop
  have hrelayed :
      Relayed f.rawMode e i.other.port i.port (t.driver i.other) t.world.trace := by
    obtain ⟨e', he', h⟩ := (Forwarder.relays_run hf hs1 hs2 hloop hqt).toward i
    refine ⟨h.extractLast, h.raw, fun hraw => ?_⟩
    obtain ⟨h1, h2⟩ := hpackets hraw
    obtain rfl : e' = e := he'.elim (·.trans h1) (·.trans h2)
    exact h.packets hraw
  have hout := written_outOf hlinks i.other
  have hin := written_into hlinks i
  rw [hforwarder] at hout hin
  rw [hreceiver] at hin
  have hless := parse_mono hb hs (written_mono (k := 0) hsender)
  rw [hall] at hless
  -- what has been written so far is waiting, or has been returned
  have hparse : parse e (written 0 (Network.localTo (.party i.other) h)) =
      packets (party i).calls ++ waiting := by
    rw [hout] at hless ⊢
    refine hrelayed.parse_received hb hs (fun p hp => ?_) fun u => ?_
    · -- only packets of the sender are handed on
      exact (Sending.run (party i.other).run hsends hstop).packets p (hless.subset hp)
    · rw [hin, List.append_assoc, hreceiving.parse, List.append_assoc]
  refine ⟨hparse ▸ hless, fun hwhole => ?_⟩
  rw [← hall, ← hwhole, hparse]

/-- A packet has been forwarded, and its last bytes are on the way. -/
theorem packets_cross_the_forwarder_sample : ∃ (party : Side → Party) (h : List (Place × Event))
    (onTheWay : Hop → Bytes), Lts.Run (Network.Step links) (fun _ => []) h onTheWay ∧
    (∀ i, Network.localTo (.party i) h = (party i).now.world.trace) ∧
    sent (party .left).calls = [[0, 1, 2, 0]] ∧ packets (party .right).calls = [] ∧
    (party .right).now.driver.internalBuffer = [0, 1] ∧ onTheWay (.into .right) = [2, 0] ∧
    onTheWay (.outOf .left) = [] ∧
    sent (party .left).calls = packets (party .right).calls ++
      pending false driverTestExtractPacket
        ((party .right).now.driver.internalBuffer ++ onTheWay (.into .right)) [] := by
  let sender : Option (List (Op (List ℕ) × Answer) × Sys (List ℕ)) :=
    Lts.performs (Sys.perform (.pure driverTestExtractPacket) 5)
      (.start ⟨fun w => (0, w), some acceptingStream, []⟩ (.new 100 false) [3, 1])
      [.writePacket [0, 1, 2, 0] 1000]
  let receiver : Option (List (Op Script × Answer) × Sys Script) :=
    Lts.performs (Sys.perform (.pure driverTestExtractPacket) 5)
      (.start Script.ports (.new 100 false) [[0, 1]]) [.readPacket 100 0 0]
  -- the sender acts first, then the forwarder, and the receiver last
  let history (l : Sys (List ℕ)) (t : ForwardState (Recorded (Machine Script))) (r : Sys Script) :
      List (Place × Event) :=
    l.world.trace.map (Prod.mk (.party .left)) ++ t.world.trace.map (Prod.mk .forwarder) ++
      r.world.trace.map (Prod.mk (.party .right))
  obtain ⟨t, hround, hqt, hbuffer1, hlr⟩ := Loop.Next.exists_again
    (x := (Script.forwarder false).recorded.iteration 5 5 6 (Script.enter [[0, 1, 2, 0]]))
    (fun t => Quiet t.world.trace ∧ t.driver1.internalBuffer = [] ∧
      (sender.bind fun l => receiver.map fun r => (l, r)).any (fun b => decide (
        sent b.1.1 = [[0, 1, 2, 0]] ∧ packets b.2.1 = [] ∧
        b.2.2.driver.internalBuffer = [0, 1] ∧
        ((history b.1.2 t b.2.2).foldlM (Network.advance links) fun _ => []).any
          (fun q => decide (q (.into .right) = [2, 0] ∧ q (.outOf .left) = [])) = true ∧
        (∀ call ∈ b.1.1, call.1.Sends driverTestExtractPacket) ∧ StopsSending b.1.1 ∧
        (∀ call ∈ b.2.1, call.1.Receives 100) ∧ Quiet b.2.2.world.trace)) = true)
    (by decide +kernel)
  obtain ⟨⟨l, r⟩, hlr, hsent, hpackets, hbuffer, hways, hsends, hstop, hreceives, hq⟩ :=
    exists_of_any _ hlr
  obtain ⟨l', hl, hr⟩ := Option.bind_eq_some_iff.mp hlr
  obtain ⟨r', hr, heq⟩ := Option.map_eq_some_iff.mp hr
  cases heq
  obtain ⟨onTheWay, hway, htwo⟩ := (Option.any_eq_true _ _).mp hways
  obtain ⟨hinto, hout⟩ := of_decide_eq_true htwo
  have hstep {ω : Type} (E : Extract ω) : ∀ s op a t, s.perform E 5 op = some (a, t) →
      Sys.Step E s (op, a) t := fun _ _ _ _ hop => ⟨5, hop⟩
  let party : Side → Party
    | .left => ⟨_, _, _, _, _, l.1, l.2, Lts.run_of_performs (hstep _) hl⟩
    | .right => ⟨_, _, _, _, _, r.1, r.2, Lts.run_of_performs (hstep _) hr⟩
  have hleft : Network.localTo (.party .left) (history l.2 t r.2) = l.2.world.trace := by
    simp [history, Network.localTo_append, Network.localTo_map]
  have hmiddle : Network.localTo .forwarder (history l.2 t r.2) = t.world.trace := by
    simp [history, Network.localTo_append, Network.localTo_map]
  have hright : Network.localTo (.party .right) (history l.2 t r.2) = r.2.world.trace := by
    simp [history, Network.localTo_append, Network.localTo_map]
  have hcross := packets_cross_the_forwarder driverTest_inBounds driverTest_stable
    (fun b hb _ => driverTest_decides (by omega)) party .right (Extract.answers_pure _) rfl hsends
    hstop hreceives hq (Script.between false) driverTest_stable driverTest_stable
    (fun _ => ⟨rfl, rfl⟩) (.single ⟨5, hround⟩) hqt (Network.run_of_advance hway) hright hmiddle
    (hleft ▸ List.prefix_refl _)
  have hall := hcross.2 hleft
  have hempty : (t.driver Side.right.other).internalBuffer ++ onTheWay (.outOf Side.right.other) =
      [] := by
    change t.driver1.internalBuffer ++ onTheWay (.outOf .left) = []
    rw [hbuffer1, hout]
    rfl
  rw [hempty] at hall
  refine ⟨party, history l.2 t r.2, onTheWay, Network.run_of_advance hway, fun i => ?_, hsent,
    hpackets, hbuffer, hinto, hout, hall⟩
  cases i with
  | left => exact hleft
  | right => exact hright

end IodriversBase
