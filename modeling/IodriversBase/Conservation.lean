import IodriversBase.Calls
import IodriversBase.Samples

namespace IodriversBase

open Framing

variable {ω : Type} {e : Bytes → ℤ} {E : Extract ω} {s t : Sys ω}

/-- The calls that read, and those that look at the buffer. -/
def Op.ReadsEither : Op ω → Prop
  | .readPacket _ _ _ | .readRaw _ _ _ _ | .hasPacket | .getStatus | .setExtractLastPacket _ => True
  | _ => False

instance : DecidablePred (Op.ReadsEither : Op ω → Prop)
  | .readPacket _ _ _ | .readRaw _ _ _ _ | .hasPacket | .getStatus | .setExtractLastPacket _ =>
    isTrue trivial
  | .writePacket _ _ | .resetStatus | .clear | .setMainStream _ | .close => isFalse not_false

/-- What a call gave back, as a part of the bytes `gone` that it removed. -/
def Answer.PartOf (gone : Bytes) : Answer → Prop
  | .packet p => p <:+: gone
  | .raw data => data = gone
  | .threw _ => True
  | _ => gone = []

/-- The bytes there are before a call, and those it reads, have been removed or are in the buffer
after it. -/
structure Conserves (s : Sys ω) (a : Answer) (t : Sys ω) (gone : Bytes) : Prop where
  io : t.io = s.io
  number : t.number = s.number
  bytes : ∃ read, received s.number t.world.trace = received s.number s.world.trace ++ read ∧
    s.driver.internalBuffer ++ read = gone ++ t.driver.internalBuffer
  part : a.PartOf gone

theorem Conserves.refl {a : Answer} (ha : a.PartOf []) : Conserves s a s [] :=
  ⟨rfl, rfl, ⟨[], by simp, by simp⟩, ha⟩

theorem Sys.Step.conserves_readPacket (hb : InBounds e) (hE : E.Answers e)
    (hio : s.io.stream ≠ none) {n : ℕ} {packetTimeout firstByteTimeout : Time} {a : Answer}
    (h : Sys.Step E s (.readPacket n packetTimeout firstByteTimeout, a) t) :
    ∃ gone, Conserves s a t gone := by
  have hpacket := h.readPacket hb hE
  have hanswer := hpacket.answer
  obtain ⟨htio, htnumber⟩ := hpacket.io
  rcases hpacket.fed hio with ⟨rfl, hnone⟩ | ⟨cs, hfed, hadds, hlast⟩
  · refine ⟨[], .refl ?_⟩
    obtain ⟨p, rfl⟩ | ⟨x, rfl⟩ := hanswer
    · cases hnone
    · trivial
  · have hrec : received s.number t.world.trace =
        received s.number s.world.trace ++ cs.flatten := by
      rcases hadds with hadds | hadds <;> simpa using received_of_adds hadds
    obtain ⟨gone, hgone, hblock⟩ := hfed.conserved hb
    refine ⟨gone, htio, htnumber, ⟨cs.flatten, hrec, hgone⟩, ?_⟩
    obtain ⟨p, rfl⟩ | ⟨x, rfl⟩ := hanswer
    · exact hblock p (hlast p rfl)
    · trivial

theorem Sys.Step.conserves_readRaw (hio : s.io.stream ≠ none) {n : ℕ}
    {packetTimeout firstByteTimeout interByteTimeout : Time} {a : Answer}
    (h : Sys.Step E s (.readRaw n packetTimeout firstByteTimeout interByteTimeout, a) t)
    (hq : Quiet t.world.trace) : ∃ gone, Conserves s a t gone := by
  obtain ⟨stream, hstream⟩ := Option.ne_none_iff_exists'.mp hio
  obtain ⟨fuel, h⟩ := h
  obtain ⟨r, hread, ha, htio, htnumber⟩ := Sys.after_eq_some h
  obtain ⟨cs, hend⟩ := readRaw_end hstream hread
  obtain hresult | ⟨_, _, ev, hev, hthrew⟩ := hend.result
  swap
  · exact absurd hthrew.threw (hq ev hev)
  rw [hresult] at ha
  have ha : a = .raw (s.driver.internalBuffer.take n ++ cs.flatten) := ha
  refine ⟨_, htio, htnumber, ⟨cs.flatten, received_of_adds hend.adds, ?_⟩, by rw [ha]; rfl⟩
  rw [hend.driver, Driver.dropFront_internalBuffer]
  by_cases hnone : cs.flatten = []
  · have hdrop : s.driver.internalBuffer.drop (min s.driver.internalBuffer.length n) =
        s.driver.internalBuffer.drop n := by
      rw [List.drop_eq_drop_iff]
      omega
    rw [hnone, List.append_nil, List.append_nil, hdrop, List.take_append_drop]
  · -- the stream was read, so the buffer is empty now
    have hlt := hend.reads hnone
    rw [List.take_of_length_le hlt.le, Nat.min_eq_left hlt.le, List.drop_length, List.append_nil]

theorem Sys.Step.conserves (hb : InBounds e) (hE : E.Answers e) (hio : s.io.stream ≠ none)
    {call : Op ω × Answer} (h : Sys.Step E s call t) (hop : call.1.ReadsEither)
    (hq : Quiet t.world.trace) : ∃ gone, Conserves s call.2 t gone := by
  obtain ⟨op, a⟩ := call
  cases op with
  | readPacket => exact h.conserves_readPacket hb hE hio
  | readRaw => exact h.conserves_readRaw hio hq
  | hasPacket =>
    obtain ⟨fuel, h⟩ := h
    rw [Sys.perform, hasPacket_eq hb hE.recorded] at h
    cases h
    have hrec := received_of_adds (adds_effects (k := s.number) E
      (asked e s.driver.extractLast s.driver.internalBuffer) s.world)
    exact ⟨[], rfl, rfl, ⟨[], by simpa using hrec, by simp⟩, rfl⟩
  | getStatus =>
    obtain ⟨fuel, h⟩ := h
    cases h
    exact ⟨[], rfl, rfl, ⟨[], by simp, by simp [Driver.getStatus]⟩, rfl⟩
  | setExtractLastPacket flag =>
    obtain ⟨fuel, h⟩ := h
    cases h
    exact ⟨[], rfl, rfl, ⟨[], by simp, by simp [Driver.setExtractLastPacket]⟩, rfl⟩
  | _ => exact absurd hop id

structure Conserved (d : Driver) (io : Ports ω) (calls : List (Op ω × Answer)) (s : Sys ω)
    (gone : List Bytes) : Prop where
  io : s.io = io
  number : s.number = 0
  parts : List.Forall₂ (fun call block => call.2.PartOf block) calls gone
  bytes : d.internalBuffer ++ received 0 s.world.trace =
    gone.flatten ++ s.driver.internalBuffer

theorem Conserved.step {d : Driver} {io : Ports ω} {calls : List (Op ω × Answer)}
    {gone : List Bytes} {call : Op ω × Answer} {block : Bytes} (hs : Conserved d io calls s gone)
    (h : Conserves s call.2 t block) : Conserved d io (calls ++ [call]) t (gone ++ [block]) := by
  obtain ⟨read, hread, hblock⟩ := h.bytes
  rw [hs.number] at hread
  refine ⟨h.io.trans hs.io, h.number.trans hs.number,
    List.rel_append hs.parts (.cons h.part .nil), ?_⟩
  rw [hread, ← List.append_assoc, hs.bytes, List.append_assoc, hblock]
  simp

/-- **Conservation**: whatever the calls of `readPacket`, `readRaw` and `hasPacket`, in whatever
order, the bytes that they removed, call by call, followed by the internal buffer are the bytes
there were and those read from the stream; the buffer holds the last of them.  A packet is a
block of the bytes its call removed, and a raw block is all of them. -/
theorem reading_conserves_the_stream (hb : InBounds e) (hE : E.Answers e) {io : Ports ω}
    (hio : io.stream ≠ none) {d : Driver} {w : ω} {calls : List (Op ω × Answer)}
    (h : Sys.Run E (.start io d w) calls t) (hops : ∀ call ∈ calls, call.1.ReadsEither)
    (hq : Quiet t.world.trace) :
    ∃ gone : List Bytes,
      d.internalBuffer ++ received 0 t.world.trace = gone.flatten ++ t.driver.internalBuffer ∧
      List.Forall₂ (fun call block => call.2.PartOf block) calls gone ∧
      t.driver.internalBuffer <:+ d.internalBuffer ++ received 0 t.world.trace := by
  have hstart : ∃ gone, Conserved d io [] (.start io d w) gone :=
    ⟨[], rfl, rfl, .nil, by simp [Sys.start]⟩
  obtain ⟨gone, hgone⟩ := (h.restrict hops).history
    (I := fun calls s => Quiet s.world.trace → ∃ gone, Conserved d io calls s gone)
    (fun calls s call t ih hstep hqt => by
      obtain ⟨gone, hs⟩ := ih (hstep.1.quiet hqt)
      obtain ⟨block, hblock⟩ := hstep.1.conserves hb hE (hs.io ▸ hio) hstep.2 hqt
      exact ⟨_, hs.step hblock⟩) [] (fun _ => hstart) hq
  exact ⟨gone, hgone.bytes, hgone.parts, gone.flatten, hgone.bytes.symm⟩

/-- A packet, and then a raw block that begins in the buffer and ends in the stream. -/
theorem reading_conserves_the_stream_sample :
    ∃ calls t gone, Sys.Run (.pure driverTestExtractPacket)
        (.start (Script.os.ports (some (fdStream Script.os 0 5 true true)) []) (.new 100 false)
          (.start [[0, 1, 2, 0, 9], [8, 7]])) calls t ∧
      calls.map Prod.snd = [.packet [0, 1, 2, 0], .flag false, .raw [9, 8, 7]] ∧
      received 0 t.world.trace = gone.flatten ++ t.driver.internalBuffer ∧
      List.Forall₂ (fun call block => call.2.PartOf block) calls gone := by
  obtain ⟨calls, t, hrun, hops, hq, hanswers⟩ := Sys.exists_run (.pure driverTestExtractPacket) 5
    (.start (Script.os.ports (some (fdStream Script.os 0 5 true true)) []) (.new 100 false)
      (.start [[0, 1, 2, 0, 9], [8, 7]]))
    [.readPacket 100 0 0, .hasPacket, .readRaw 3 0 0 0]
    (fun calls t => (∀ call ∈ calls, call.1.ReadsEither) ∧ Quiet t.world.trace ∧
      calls.map Prod.snd = [.packet [0, 1, 2, 0], .flag false, .raw [9, 8, 7]])
    (by decide +kernel)
  obtain ⟨gone, hbytes, hparts, _⟩ := reading_conserves_the_stream driverTest_inBounds
    (Extract.answers_pure _) (by simp [Os.ports]) hrun hops hq
  exact ⟨calls, t, gone, hrun, hanswers, hbytes, hparts⟩

end IodriversBase
