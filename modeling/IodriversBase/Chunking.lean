import IodriversBase.FullBuffer
import IodriversBase.Reassembly

namespace IodriversBase

open Framing Loop

variable {ω : Type} {e : Bytes → ℤ} {E : Extract ω} {io : Ports ω} {stream : IOStream ω}
  {left : ω → Bytes} {idle : ω → ℕ} {k M : ℕ} {d : Driver} {w w' w'' : Recorded ω}
  {new new' : List Event} {s t : Sys ω} {calls : List (Op ω × Answer)}

/-- What is still to be handed out is left alone. -/
def Leaves (left : ω → Bytes) (idle : ω → ℕ) (w w' : ω) : Prop :=
  left w' = left w ∧ idle w' ≤ idle w

/-- The stream still hands out the bytes `left`.  At most `idle` times it has no data although there
are bytes left, or announces data although there are none. -/
structure HandsOut (E : Extract ω) (io : Ports ω) (stream : IOStream ω) (left : ω → Bytes)
    (idle : ω → ℕ) : Prop where
  opened : io.stream = some stream
  now : ∀ w, Leaves left idle w (io.now w).2
  notifyRead : ∀ data w, Leaves left idle w (io.notifyRead data w)
  extract : ∀ b w, Leaves left idle w (E b w).2
  reads : ∀ n w, ∃ c, (stream.read n w).1 = .ok c ∧ left w = c.val ++ left (stream.read n w).2 ∧
    idle (stream.read n w).2 ≤ idle w ∧
    (c.val = [] → 0 < n → left w = [] ∨ idle (stream.read n w).2 < idle w)
  waits : ∀ t w, ∃ ready, (stream.waitRead t w).1 = .ok ready ∧
    Leaves left idle w (stream.waitRead t w).2 ∧
    (ready = true → left w = [] → idle (stream.waitRead t w).2 < idle w)

/-- The events `new` take what they have read off the front of the stream; every read without data
for which there was room has used up one of the times without data, or met the end. -/
structure Spends (left : ω → Bytes) (idle : ω → ℕ) (k : ℕ) (new : List Event) (w w' : Recorded ω) :
    Prop where
  trace : w'.trace = w.trace ++ new
  quiet : Quiet new
  taken : left w.world = received k new ++ left w'.world
  idle_le : idle w'.world ≤ idle w.world
  starves : ∀ n, Event.read k n (.ok []) ∈ new → 0 < n →
    left w'.world = [] ∨ idle w'.world < idle w.world

theorem Spends.refl (left : ω → Bytes) (idle : ω → ℕ) (k : ℕ) (w : Recorded ω) :
    Spends left idle k [] w w := ⟨by simp, quiet_nil, by simp, le_rfl, by simp⟩

theorem Spends.trans (h : Spends left idle k new w w') (h' : Spends left idle k new' w' w'') :
    Spends left idle k (new ++ new') w w'' := by
  refine ⟨by rw [h'.trace, h.trace, List.append_assoc], quiet_append.mpr ⟨h.quiet, h'.quiet⟩,
    by rw [h.taken, h'.taken, received_append, List.append_assoc], h'.idle_le.trans h.idle_le, ?_⟩
  intro n hmem hn
  rcases List.mem_append.mp hmem with hmem | hmem
  · refine (h.starves n hmem hn).imp (fun hnil => ?_) fun hlt => h'.idle_le.trans_lt hlt
    exact (List.append_eq_nil_iff.mp (h'.taken.symm.trans hnil)).2
  · exact (h'.starves n hmem hn).imp_right fun hlt => hlt.trans_le h.idle_le

theorem mem_chunks_of_read {n : ℕ} {data : Bytes} (h : Event.read k n (.ok data) ∈ new) :
    data ∈ chunks k new := List.mem_filterMap.mpr ⟨_, h, by simp [Event.chunk]⟩

@[simp] theorem received_read (k n : ℕ) (data : Bytes) :
    received k [.read k n (.ok data)] = data := by simp [received, chunks, Event.chunk]

theorem Spends.of_leaves (htrace : w'.trace = w.trace ++ new) (hquiet : Quiet new)
    (hchunks : chunks k new = []) (h : Leaves left idle w.world w'.world) :
    Spends left idle k new w w' := by
  refine ⟨htrace, hquiet, by rw [received, hchunks, h.1]; rfl, h.2, fun n hmem => ?_⟩
  have hnil := mem_chunks_of_read hmem
  rw [hchunks] at hnil
  cases hnil

theorem Spends.length_le (h : Spends left idle k new w w') :
    (left w'.world).length ≤ (left w.world).length := by
  have hlen := congrArg List.length h.taken
  rw [List.length_append] at hlen
  omega

/-- A read without data, for which there was room, has come to the end of the stream or used up one
of the times that there is no data. -/
theorem Spends.starved {cs : List Bytes} (h : Spends left idle k new w w')
    (hadds : Adds k w w' (cs ++ [[]])) (hasks : AsksForBytes w'.trace) :
    left w'.world = [] ∨ idle w'.world < idle w.world := by
  obtain ⟨new', htrace, _, hchunks⟩ := hadds
  obtain rfl : new = new' := List.append_cancel_left (h.trace.symm.trans htrace)
  have hmem : [] ∈ chunks k new := by simp [hchunks]
  obtain ⟨ev, hev, hchunk⟩ := List.mem_filterMap.mp hmem
  rcases ev with _ | ⟨j, n, _ | data⟩ | _ | _ | _ | _ | _ <;> try cases hchunk
  obtain ⟨rfl, rfl⟩ : j = k ∧ data = [] := by simpa [Event.chunk] using hchunk
  exact h.starves n hev (hasks j n _ (htrace ▸ List.mem_append_right _ hev))

theorem HandsOut.read (h : HandsOut E io stream left idle) {n : ℕ} {r}
    (hr : (stream.recorded k).read n w = (r, w')) :
    ∃ c, r = .ok c ∧ Spends left idle k [.read k n (.ok c.val)] w w' := by
  obtain ⟨hres, rfl⟩ := Prod.mk.inj hr
  obtain ⟨c, hc, hleft, hidle, hnone⟩ := h.reads n w.world
  refine ⟨c, hres.symm.trans hc, by rw [hc]; rfl, quiet_singleton.mpr id, ?_, hidle, ?_⟩
  · rw [received_read, hleft]
  · intro m hmem hm
    obtain ⟨rfl, hnil⟩ : m = n ∧ c.val = [] := by simpa [eq_comm] using hmem
    refine (hnone hnil hm).imp_left fun hdone => ?_
    rwa [hleft, hnil] at hdone

theorem HandsOut.waitRead (h : HandsOut E io stream left idle) {τ : Time} {r}
    (hr : (stream.recorded k).waitRead τ w = (r, w')) : ∃ ready, r = .ok ready ∧
      Spends left idle k [.waitRead k τ (.ok ready)] w w' ∧
      (ready = true → left w.world = [] → idle w'.world < idle w.world) := by
  obtain ⟨hres, rfl⟩ := Prod.mk.inj hr
  obtain ⟨ready, hok, hleaves, hready⟩ := h.waits τ w.world
  exact ⟨ready, hres.symm.trans hok,
    .of_leaves (by rw [← hok]) (quiet_singleton.mpr id) rfl hleaves, hready⟩

theorem HandsOut.recorded_now (h : HandsOut E io stream left idle) (k : ℕ) (w : Recorded ω) :
    Spends left idle k [.now (io.now w.world).1] w ((io.recorded k).now w).2 :=
  .of_leaves rfl (quiet_singleton.mpr id) rfl (h.now w.world)

theorem HandsOut.keeps (h : HandsOut E io stream left idle) (k : ℕ) :
    (io.recorded k).KeepsReading fun w w' => ∃ new, Spends left idle k new w w' where
  refl w := ⟨[], .refl left idle k w⟩
  trans := by
    rintro w w' w'' ⟨new, hnew⟩ ⟨new', hnew'⟩
    exact ⟨new ++ new', hnew.trans hnew'⟩
  now w := ⟨_, h.recorded_now k w⟩
  notifyRead data w := by
    obtain ⟨new, htrace, hquiet, hchunks⟩ : ∃ new,
        ((io.recorded k).notifyRead data w).trace = w.trace ++ new ∧ Quiet new ∧
          chunks k new = [] := by
      refine Ports.recorded_notifyRead_rule (P := fun w' : Recorded ω => ∃ new,
        w'.trace = w.trace ++ new ∧ Quiet new ∧ chunks k new = []) ?_
        ⟨[], by simp, quiet_nil, rfl⟩
      rintro l w₁ w₂ htrace ⟨new, hnew, hquiet, hchunks⟩
      exact ⟨new ++ [.readData l data], by rw [htrace, hnew, List.append_assoc],
        quiet_append.mpr ⟨hquiet, quiet_singleton.mpr id⟩, by rw [chunks_append, hchunks]; rfl⟩
    refine ⟨new, .of_leaves htrace hquiet hchunks ?_⟩
    rw [notifyRead_recorded]
    exact h.notifyRead data w.world
  read := by
    intro st n w r w' hst hr
    obtain rfl := mem_recorded_stream h.opened hst
    obtain ⟨c, _, hspends⟩ := h.read hr
    exact ⟨_, hspends⟩
  waitRead := by
    intro st τ w r w' hst hr
    obtain rfl := mem_recorded_stream h.opened hst
    obtain ⟨ready, _, hspends, _⟩ := h.waitRead hr
    exact ⟨_, hspends⟩

theorem HandsOut.recorded_keeps (h : HandsOut E io stream left idle) (k : ℕ) :
    E.recorded.Keeps fun w w' => ∃ new, Spends left idle k new w w' :=
  fun b w => ⟨[], .of_leaves (by simp [Extract.recorded]) quiet_nil rfl (h.extract b w.world)⟩

theorem HandsOut.effects (h : HandsOut E io stream left idle) (k : ℕ) (bs : List Bytes)
    (w : Recorded ω) : ∃ new, Spends left idle k new w (E.recorded.effects bs w) := by
  induction bs generalizing w with
  | nil => exact ⟨[], .refl left idle k w⟩
  | cons b bs ih => exact (h.keeps k).trans (h.recorded_keeps k b w) (ih _)

theorem Decides.not_stuck (hdec : Decides e d.maxPacketSize) (hM : 0 < d.maxPacketSize) :
    ¬ d.Stuck e := by
  rintro ⟨hfull, h0⟩
  exact hdec _ hfull (List.length_pos_iff.mp (by omega)) h0

section Calls

variable (hb : InBounds e) (hE : E.Answers e)

include hb hE

theorem HandsOut.readIteration_total (h : HandsOut E io stream left idle)
    (s : ReadState (Recorded ω)) :
    (∃ s', readIteration E.recorded (io.recorded k) (stream.recorded k) s = .again s' ∧ True ∧
      (left s'.world.world).length < (left s.world.world).length) ∨
    ∃ r, readIteration E.recorded (io.recorded k) (stream.recorded k) s = .done r ∧ True := by
  have hcases := readIteration_cases hb hE.recorded (io.recorded k) (stream.recorded k) s
  generalize readIteration E.recorded (io.recorded k) (stream.recorded k) s = next at hcases ⊢
  cases hcases with
  | @again c w₁ hread hc _ _ =>
    obtain ⟨c', hc', hspends⟩ := h.read hread
    obtain rfl := Except.ok.inj hc'
    obtain ⟨new, hlater⟩ := (h.keeps k).trans ((h.keeps k).notifyRead c.val w₁)
      (h.effects k (asked e s.driver.extractLast (s.driver.internalBuffer ++ c.val)) _)
    have hle := hlater.length_le
    have htaken := congrArg List.length hspends.taken
    have hpos := List.length_pos_iff.mpr hc
    rw [received_read, List.length_append] at htaken
    refine .inl ⟨_, rfl, trivial, hle.trans_lt ?_⟩
    omega
  | threw | noData | packet | full => exact .inr ⟨_, rfl, trivial⟩

theorem HandsOut.readPacketInternal_total (h : HandsOut E io stream left idle)
    {fuel outBufferSize : ℕ} (hsize : d.maxPacketSize ≤ outBufferSize)
    (hfuel : (left w.world).length < fuel) :
    ∃ r, d.readPacketInternal E.recorded (io.recorded k) (stream.recorded k) fuel outBufferSize w =
      some r := by
  rw [readPacketInternal_eq hb hE.recorded _ _ _ hsize]
  split_ifs
  · exact ⟨_, rfl⟩
  obtain ⟨new, hscan⟩ := h.effects k (asked e d.extractLast d.internalBuffer) w
  obtain ⟨r, hr, _⟩ := run_total (fun s : ReadState (Recorded ω) => (left s.world.world).length)
    (fun s _ => h.readIteration_total hb hE s)
    (s := ⟨d.scanned e, E.recorded.effects (asked e d.extractLast d.internalBuffer) w,
      (cut e d.extractLast d.internalBuffer).packet, false⟩) trivial
    (hscan.length_le.trans_lt hfuel)
  exact ⟨r, hr⟩

theorem HandsOut.waitIteration_total (h : HandsOut E io stream left idle) {fuel bufferSize : ℕ}
    (hsize : M ≤ bufferSize) (packetTimeout startTime : Time) {s : WaitState (Recorded ω)}
    (hs : Roomy e M s) (hfuel : (left s.world.world).length < fuel) :
    (∃ s', waitIteration E.recorded (io.recorded k) (stream.recorded k) fuel bufferSize
        packetTimeout startTime s = .again s' ∧
      (Roomy e M s' ∧ (left s'.world.world).length < fuel) ∧
      idle s'.world.world < idle s.world.world) ∨
    ∃ r, waitIteration E.recorded (io.recorded k) (stream.recorded k) fuel bufferSize
      packetTimeout startTime s = .done r ∧ True := by
  have hsize' : s.driver.maxPacketSize ≤ bufferSize := hs.maxPacketSize.trans_le hsize
  obtain ⟨r, hint⟩ := h.readPacketInternal_total (k := k) hb hE hsize' hfuel
  have hstep := waitIteration_step E.recorded (io.recorded k) (stream.recorded k) fuel bufferSize
    packetTimeout startTime s
  have hroom : (waitIteration E.recorded (io.recorded k) (stream.recorded k) fuel bufferSize
      packetTimeout startTime s).Holds (Roomy e M) (RoomEnd M) :=
    waitIteration_room hb hE hsize packetTimeout startTime hs
  generalize waitIteration E.recorded (io.recorded k) (stream.recorded k) fuel bufferSize
    packetTimeout startTime s = next at hstep hroom ⊢
  cases hstep with
  | lost hnone => cases hnone.symm.trans hint
  | @ready something d' w' w'' hint' _ hwait =>
    have hasks : AsksForBytes w'.trace :=
      (readPacketInternal_room hb hE hsize' hs.room hs.asks hint').asks
    obtain ⟨cs, _, _, hadds⟩ := (readPacketInternal_end hb hE hsize' hint').idle
    obtain ⟨new, hread⟩ := readPacketInternal_keeps (h.keeps k).hearing (h.recorded_keeps k)
      (Ports.recorded_opened k h.opened) hint'
    have hasked : Spends left idle k [_] w' ((io.recorded k).now w').2 := h.recorded_now k w'
    obtain ⟨ready, hok, hwaited, hready⟩ := h.waitRead hwait
    obtain rfl := Except.ok.inj hok
    have hall := (hread.trans hasked).trans hwaited
    refine .inl ⟨_, rfl, ⟨hroom, hall.length_le.trans_lt hfuel⟩, ?_⟩
    obtain hnil | hlt := hread.starved hadds hasks
    · -- there is nothing left, so that the announcement counts
      have hnil' : left ((io.recorded k).now w').2.world = [] :=
        (h.now w'.world).1.trans hnil
      exact (hready rfl hnil').trans_le (hread.trans hasked).idle_le
    · exact (hasked.trans hwaited).idle_le.trans_lt hlt
  | _ => exact .inr ⟨_, rfl, trivial⟩

theorem HandsOut.readPacket_total (h : HandsOut E io stream left idle) {bufferSize : ℕ}
    (hsize : d.maxPacketSize ≤ bufferSize) (hM : 1 ≤ d.maxPacketSize) (hstuck : ¬ d.Stuck e)
    (hw : AsksForBytes w.trace) (packetTimeout firstByteTimeout : Time) :
    ∃ fuel r, d.readPacket E.recorded (io.recorded k) fuel bufferSize packetTimeout
      firstByteTimeout w = some r := by
  let fuel := (left w.world).length + idle w.world + 1
  have hnow := h.recorded_now k w
  have hlength : (left ((io.recorded k).now w).2.world).length < fuel :=
    hnow.length_le.trans_lt (by omega)
  obtain ⟨r, hr, _⟩ := run_total (n := fuel) (fun s : WaitState (Recorded ω) => idle s.world.world)
    (fun s hs => h.waitIteration_total hb hE hsize packetTimeout ((io.recorded k).now w).1
      hs.1 hs.2)
    (s := ⟨d, ((io.recorded k).now w).2,
      ((io.recorded k).now w).1 + min packetTimeout firstByteTimeout, .firstByte⟩)
    ⟨⟨hw.now (k := k) io, rfl, Driver.scanned_hasRoom hM hstuck⟩, hlength⟩
    (hnow.idle_le.trans_lt (by omega))
  refine ⟨fuel, r, ?_⟩
  rw [Driver.readPacket, if_neg (by omega), Ports.recorded_opened k h.opened]
  exact hr

theorem HandsOut.step (h : HandsOut E s.io stream left idle)
    (hdec : Decides e s.driver.maxPacketSize) (hM : 0 < s.driver.maxPacketSize)
    (hasks : AsksForBytes s.world.trace) {op : Op ω} (hop : op.Reads s.driver.maxPacketSize) :
    ∃ a t, Sys.Step E s (op, a) t := by
  cases op with
  | readPacket n packetTimeout firstByteTimeout =>
    obtain ⟨fuel, ⟨r, d', w'⟩, hr⟩ := h.readPacket_total (k := s.number) hb hE hop hM
      (hdec.not_stuck hM) hasks packetTimeout firstByteTimeout
    cases r <;> exact ⟨_, _, fuel, by rw [Sys.perform, hr]; rfl⟩
  | _ => exact absurd hop id

/-- What a driver in the first mode has made of the stream. -/
structure Spent (e : Bytes → ℤ) (M : ℕ) (left : ω → Bytes) (idle : ω → ℕ) (w : ω)
    (calls : List (Op ω × Answer)) (s : Sys ω) : Prop where
  spends : Spends left idle 0 s.world.trace ⟨w, []⟩ s.world
  asks : 0 < M → AsksForBytes s.world.trace
  fewer : 0 < M → parse e (s.driver.internalBuffer ++ left s.world.world) = [] ∨
    s.driver.internalBuffer.length + (left s.world.world).length + idle s.world.world +
      calls.length ≤ (left w).length + idle w

theorem Spent.step (hs : Stable e) (hdec : Decides e M) (h : HandsOut E io stream left idle) {w : ω}
    {call : Op ω × Answer} (hp : Parsed e io (.new M false) calls s)
    (hspent : Spent e M left idle w calls s) (hstep : Sys.Step E s call t)
    (hop : call.1.Reads M) : Spent e M left idle w (calls ++ [call]) t := by
  obtain ⟨op, a⟩ := call
  cases op with
  | readPacket n packetTimeout firstByteTimeout =>
    have hM : s.driver.maxPacketSize = M := hp.maxPacketSize
    have hio : s.io.stream = some stream := hp.io ▸ h.opened
    have hkeeps : (s.io.recorded s.number).KeepsReading
        fun w w' => ∃ new, Spends left idle 0 new w w' := by
      rw [hp.io, hp.number]
      exact h.keeps 0
    obtain ⟨new, hnew⟩ := hstep.readPacket_keeps hkeeps (h.recorded_keeps 0)
    have hall : Spends left idle 0 t.world.trace ⟨w, []⟩ t.world := by
      rw [hnew.trace]
      exact hspent.spends.trans hnew
    have hasks : 0 < M → AsksForBytes t.world.trace := by
      intro hpos
      obtain ⟨fuel, hstep⟩ := hstep
      obtain ⟨r, hread, _⟩ := Sys.after_eq_some hstep
      exact (readPacket_room hb hE hio (hM.trans_le hop) (hM.symm ▸ hpos)
        (Decides.not_stuck (hM.symm ▸ hdec) (hM.symm ▸ hpos)) (hspent.asks hpos) hread).asks
    refine ⟨hall, hasks, fun hpos => ?_⟩
    obtain ⟨cs, hdel⟩ := (hstep.readPacket hb hE).delivers (hM.trans_le hop) (hM.symm ▸ hdec)
      hall.quiet
    have hread : received 0 new = cs.flatten := by
      have hrec := hdel.received
      rw [hp.number, hnew.trace, received_append] at hrec
      exact List.append_cancel_left hrec
    have htaken : left s.world.world = cs.flatten ++ left t.world.world := hread ▸ hnew.taken
    have hparse : parse e (s.driver.internalBuffer ++ left s.world.world) =
        a.packets ++ parse e (t.driver.internalBuffer ++ left t.world.world) := by
      rw [htaken, ← List.append_assoc]
      exact hdel.parse_first hb hs hp.extractLast _
    obtain hnil | hle := hspent.fewer hpos
    · -- nothing was left to be found
      exact .inl (List.append_eq_nil_iff.mp (hparse.symm.trans hnil)).2
    have hlen := hdel.length_le hb
    have hleft := congrArg List.length htaken
    have hidle := hnew.idle_le
    rw [List.length_append] at hleft
    obtain ⟨p, rfl⟩ | ⟨x, rfl, _⟩ := hdel.answer
    · refine .inr ?_
      simp only [Answer.packets, List.length_append, List.length_singleton] at hlen ⊢
      omega
    -- a call without a packet has come to the end of the stream, or used up a time without data
    obtain ⟨cs', hadds⟩ := hdel.starved rfl (by rw [hio]; simp)
    rw [hp.number] at hadds
    obtain hnil | hlt := hnew.starved hadds (hasks hpos)
    · refine .inl ?_
      rw [hnil, List.append_nil]
      exact hdel.parse_eq_nil (.inr rfl)
    · refine .inr ?_
      simp only [Answer.packets, List.length_append, List.length_singleton, List.length_nil]
        at hlen ⊢
      omega
  | _ => exact absurd hop id

theorem Spent.run (hs : Stable e) (hdec : Decides e M) (h : HandsOut E io stream left idle) {w : ω}
    {more : List (Op ω × Answer)} (hp : Parsed e io (.new M false) calls s)
    (hspent : Spent e M left idle w calls s) (hrun : Sys.Run E s more t)
    (hops : ∀ call ∈ more, call.1.Reads M) :
    Parsed e io (.new M false) (calls ++ more) t ∧ Spent e M left idle w (calls ++ more) t := by
  refine (hrun.restrict hops).history (I := fun calls s =>
    Parsed e io (.new M false) calls s ∧ Spent e M left idle w calls s) ?_ calls ⟨hp, hspent⟩
  rintro calls s call t ⟨hp, hspent⟩ ⟨hstep, hop⟩
  have ht := hspent.step hb hE hs hdec h hp hstep hop
  exact ⟨hp.step hb hs hE hdec hstep hop ht.spends.quiet, ht⟩

theorem Spent.exists_run (hs : Stable e) (hdec : Decides e M) (hM : 0 < M)
    (h : HandsOut E io stream left idle) {w : ω} (hp : Parsed e io (.new M false) calls s)
    (hspent : Spent e M left idle w calls s) {ops : List (Op ω)} (hops : ∀ op ∈ ops, op.Reads M) :
    ∃ more t, Sys.Run E s more t ∧ more.map Prod.fst = ops := by
  induction ops generalizing calls s with
  | nil => exact ⟨[], s, .nil s, rfl⟩
  | cons op ops ih =>
    have hop : op.Reads M := hops op (List.mem_cons_self ..)
    have hsize : s.driver.maxPacketSize = M := hp.maxPacketSize
    have hout : HandsOut E s.io stream left idle := hp.io ▸ h
    obtain ⟨a, t, hstep⟩ := hout.step hb hE (hsize.symm ▸ hdec) (hsize.symm ▸ hM) (hspent.asks hM)
      (hsize.symm ▸ hop)
    have ht := hspent.step hb hE hs hdec h hp hstep hop
    obtain ⟨more, u, hrun, hmore⟩ := ih (hp.step hb hs hE hdec hstep hop ht.spends.quiet) ht
      fun op hmem => hops op (List.mem_cons_of_mem _ hmem)
    exact ⟨_ :: more, u, .cons hstep hrun, by rw [List.map_cons, hmore]⟩

end Calls

theorem Spent.start (e : Bytes → ℤ) (M : ℕ) (left : ω → Bytes) (idle : ω → ℕ) (io : Ports ω)
    (w : ω) : Spent e M left idle w [] (.start io (.new M false) w) :=
  ⟨.refl left idle 0 ⟨w, []⟩, fun _ => by simp [AsksForBytes, Sys.start],
    fun _ => .inr (by simp [Sys.start, Driver.new])⟩

/-- **Chunking independence**: whatever the pieces in which a stream hands out its bytes, and
wherever it has no data for a while, successive calls of `readPacket` return the packets of the
reference parse of these bytes, in order and each once, and nothing else but timeouts.  All of them
have been returned after as many calls as there were bytes and times without data, and one more; a
call that times out has left none behind in what has been read.  Every call comes back. -/
theorem readPacket_returns_the_parse (hb : InBounds e) (hs : Stable e) (hE : E.Answers e)
    (hdec : Decides e M) (h : HandsOut E io stream left idle) (w : ω) :
    (∀ calls t, Sys.Run E (.start io (.new M false) w) calls t → (∀ call ∈ calls, call.1.Reads M) →
      (∀ call ∈ calls, (∃ p, call.2 = .packet p) ∨ ∃ x, call.2 = .threw x ∧ x.IsTimeout) ∧
      left w = received 0 t.world.trace ++ left t.world.world ∧
      parse e (left w) =
        packets calls ++ parse e (t.driver.internalBuffer ++ left t.world.world) ∧
      (∀ x, calls.getLast?.map Prod.snd = some (.threw x) →
        packets calls = parse e (received 0 t.world.trace)) ∧
      (0 < M → (left w).length + idle w < calls.length → packets calls = parse e (left w))) ∧
    (0 < M → ∀ ops : List (Op ω), (∀ op ∈ ops, op.Reads M) →
      ∃ calls t, Sys.Run E (.start io (.new M false) w) calls t ∧ calls.map Prod.fst = ops) := by
  have hstart : Parsed e io (.new M false) [] (.start io (.new M false) w) :=
    Parsed.start e io rfl w
  refine ⟨fun calls t hrun hops => ?_, fun hM ops hops =>
    (Spent.start e M left idle io w).exists_run hb hE hs hdec hM h hstart hops⟩
  obtain ⟨hp, hspent⟩ :=
    (Spent.start e M left idle io w).run hb hE hs hdec h hstart hrun hops
  have hparse : parse e (left w) =
      packets calls ++ parse e (t.driver.internalBuffer ++ left t.world.world) := by
    rw [hspent.spends.taken]
    exact hp.parse _
  refine ⟨hp.answers, hspent.spends.taken, hparse, fun x hlast => hp.complete hlast, ?_⟩
  intro hM hmany
  have hnil := (hspent.fewer hM).resolve_right fun hle => by
    rw [List.nil_append] at hle
    omega
  rw [hparse, hnil, List.append_nil]

/-- The scripted stream hands out its chunks; the empty ones are the times without data. -/
theorem Script.handsOut (e : Bytes → ℤ) : HandsOut (.pure e) Script.ports Script.stream
    List.flatten (List.countP List.isEmpty) where
  opened := rfl
  now _ := ⟨rfl, le_rfl⟩
  notifyRead _ _ := ⟨rfl, le_rfl⟩
  extract _ _ := ⟨rfl, le_rfl⟩
  reads n w := by
    cases w with
    | nil => exact ⟨⟨[], Nat.zero_le _⟩, rfl, rfl, le_rfl, fun _ _ => .inl rfl⟩
    | cons c cs =>
      refine ⟨⟨c.take n, List.length_take_le n c⟩, rfl, ?_⟩
      have hjoin := List.take_append_drop n c
      simp only [Script.stream]
      by_cases hdrop : c.drop n = []
      · rw [if_pos hdrop]
        rw [hdrop, List.append_nil] at hjoin
        refine ⟨by rw [hjoin, List.flatten_cons], ?_, fun hnil _ => .inr ?_⟩
        · exact (List.sublist_cons_self c cs).countP_le
        · rw [← hjoin, hnil]
          simp
      · rw [if_neg hdrop]
        have hfull : (c.drop n).isEmpty = false := by simpa using hdrop
        refine ⟨by rw [List.flatten_cons, List.flatten_cons, ← List.append_assoc, hjoin], ?_, ?_⟩
        · simp [List.countP_cons, hfull]
        · intro hnil hn
          obtain rfl := (List.take_eq_nil_iff.mp hnil).resolve_left hn.ne'
          exact absurd List.drop_nil hdrop
  waits _ _ := ⟨false, rfl, ⟨rfl, le_rfl⟩, by simp⟩

/-- Five bytes in two pieces, with a read without data in between. -/
theorem readPacket_returns_the_parse_sample : ∃ calls t, Sys.Run (.pure driverTestExtractPacket)
      (.start Script.ports (.new 100 false) [[7, 0], [], [1, 2, 0]]) calls t ∧
    calls.map Prod.fst = List.replicate 7 (.readPacket 100 0 0) ∧
    packets calls = [[0, 1, 2, 0]] := by
  have h := readPacket_returns_the_parse driverTest_inBounds driverTest_stable
    (Extract.answers_pure driverTestExtractPacket)
    (fun b (hb : b.length = 100) _ => driverTest_decides (by omega))
    (Script.handsOut driverTestExtractPacket) [[7, 0], [], [1, 2, 0]]
  obtain ⟨calls, t, hrun, hcalls⟩ := h.2 (by decide) (List.replicate 7 (.readPacket 100 0 0))
    (by simp [Op.Reads])
  refine ⟨calls, t, hrun, hcalls, ?_⟩
  have hops : ∀ call ∈ calls, call.1.Reads 100 := by
    intro call hcall
    have hmem := List.mem_map_of_mem (f := Prod.fst) hcall
    rw [hcalls] at hmem
    rw [List.eq_of_mem_replicate hmem]
    exact le_rfl
  have hlen : calls.length = 7 := by
    simpa using congrArg List.length hcalls
  have hall := (h.1 calls t hrun hops).2.2.2.2 (by decide) (by rw [hlen]; decide)
  have hskip : driverTestExtractPacket [7, 0, 1, 2, 0] = -1 := by decide
  have hparse : parse driverTestExtractPacket [7, 0, 1, 2, 0] = [[0, 1, 2, 0]] := by
    rw [parse_skip (by simp) (by omega), hskip]
    exact driverTest_parse
  exact hall.trans hparse

end IodriversBase
