import IodriversBase.Reading
import IodriversBase.Worlds

namespace IodriversBase

open Framing Loop

variable {ω : Type} {E : Extract ω} {e : Bytes → ℤ} {io : Ports ω} {stream : IOStream ω}
  {μ : ω → ℕ} {d : Driver}

/-- No read and no wait throws; `μ` bounds the bytes still to be read and the waits that still
announce data. -/
structure Drains (E : Extract ω) (io : Ports ω) (stream : IOStream ω) (μ : ω → ℕ) : Prop where
  keeps : io.KeepsReading fun w w' => μ w' ≤ μ w
  extract : E.Keeps fun w w' => μ w' ≤ μ w
  reads : ∀ n w, ∃ c, (stream.read n w).1 = .ok c ∧ μ (stream.read n w).2 + c.val.length ≤ μ w
  waits : ∀ t w, ∃ ready, (stream.waitRead t w).1 = .ok ready ∧
    (ready = true → μ (stream.waitRead t w).2 < μ w)

theorem Drains.effects (h : Drains E io stream μ) (bs : List Bytes) (w : ω) :
    μ (E.effects bs w) ≤ μ w := by
  induction bs generalizing w with
  | nil => exact le_rfl
  | cons b bs ih => exact (ih _).trans (h.extract b w)

theorem readIteration_total (h : Drains E io stream μ) (hb : InBounds e) (hE : E.Answers e)
    (s : ReadState ω) :
    (∃ s', readIteration E io stream s = .again s' ∧ True ∧ μ s'.world < μ s.world) ∨
      ∃ r, readIteration E io stream s = .done r ∧ True := by
  have hcases := readIteration_cases hb hE io stream s
  generalize readIteration E io stream s = next at hcases ⊢
  cases hcases with
  | again hread hc _ _ =>
    obtain ⟨c', hc', hlt⟩ :=
      h.reads (s.driver.maxPacketSize - s.driver.internalBuffer.length) s.world
    rw [hread] at hc' hlt
    obtain rfl := Except.ok.inj hc'
    have hpos := List.length_pos_iff.mpr hc
    refine .inl ⟨_, rfl, trivial, ((h.effects _ _).trans (h.keeps.notifyRead _ _)).trans_lt ?_⟩
    simp only at hlt
    omega
  | threw | noData | packet | full => exact .inr ⟨_, rfl, trivial⟩

theorem readPacketInternal_total (h : Drains E io stream μ) (hb : InBounds e) (hE : E.Answers e)
    {fuel : ℕ} (outBufferSize : ℕ) {w : ω} (hfuel : μ w < fuel) :
    ∃ r, d.readPacketInternal E io stream fuel outBufferSize w = some r := by
  by_cases hsize : outBufferSize < d.maxPacketSize
  · exact ⟨_, by rw [Driver.readPacketInternal, if_pos hsize]⟩
  rw [readPacketInternal_eq hb hE _ _ _ (by omega)]
  split_ifs
  · exact ⟨_, rfl⟩
  let s : ReadState ω := ⟨d.scanned e, E.effects (asked e d.extractLast d.internalBuffer) w,
    (cut e d.extractLast d.internalBuffer).packet, false⟩
  have hs : μ s.world < fuel := (h.effects _ w).trans_lt hfuel
  obtain ⟨r, hr, _⟩ := run_total (fun s => μ s.world) (fun s _ => readIteration_total h hb hE s)
    trivial hs
  exact ⟨r, hr⟩

theorem waitIteration_total (h : Drains E io stream μ) (hio : io.stream = some stream)
    (hb : InBounds e) (hE : E.Answers e) {fuel : ℕ} (bufferSize : ℕ)
    (packetTimeout startTime : Time) {s : WaitState ω} (hfuel : μ s.world < fuel) :
    (∃ s', waitIteration E io stream fuel bufferSize packetTimeout startTime s = .again s' ∧
      μ s'.world < fuel ∧ μ s'.world < μ s.world) ∨
    ∃ r, waitIteration E io stream fuel bufferSize packetTimeout startTime s = .done r ∧ True := by
  obtain ⟨r, hint⟩ := readPacketInternal_total h hb hE bufferSize (d := s.driver) hfuel
  have hstep := waitIteration_step E io stream fuel bufferSize packetTimeout startTime s
  generalize waitIteration E io stream fuel bufferSize packetTimeout startTime s = next at hstep ⊢
  cases hstep with
  | lost hnone => cases hnone.symm.trans hint
  | @ready something d' w' w'' hint' _ hwait =>
    have hread : μ w' ≤ μ s.world := readPacketInternal_keeps h.keeps.hearing h.extract hio hint'
    have hnow : μ (io.now w').2 ≤ μ w' := h.keeps.now w'
    -- the wait has seen data, which is fewer from now on
    obtain ⟨ready, hok, hlt⟩ := h.waits _ (io.now w').2
    rw [hwait] at hok hlt
    have hless : μ w'' < μ s.world := (hlt (Except.ok.inj hok).symm).trans_le (hnow.trans hread)
    exact .inl ⟨_, rfl, hless.trans hfuel, hless⟩
  | _ => exact .inr ⟨_, rfl, trivial⟩

theorem readPacket_total (h : Drains E io stream μ) (hio : io.stream = some stream)
    (hb : InBounds e) (hE : E.Answers e) {fuel : ℕ} (bufferSize : ℕ)
    (packetTimeout firstByteTimeout : Time) {w : ω} (hfuel : μ w < fuel) :
    ∃ r, d.readPacket E io fuel bufferSize packetTimeout firstByteTimeout w = some r := by
  unfold Driver.readPacket
  split_ifs
  · exact ⟨_, rfl⟩
  rw [hio]
  have hnow : μ (io.now w).2 < fuel := (h.keeps.now w).trans_lt hfuel
  obtain ⟨r, hr, _⟩ := run_total (fun s : WaitState ω => μ s.world)
    (fun s hs => waitIteration_total h hio hb hE bufferSize packetTimeout (io.now w).1 hs)
    (s := ⟨d, (io.now w).2, (io.now w).1 + min packetTimeout firstByteTimeout, .firstByte⟩)
    hnow hnow
  exact ⟨r, hr⟩

variable {k : ℕ}

theorem mem_recorded_stream {st : IOStream (Recorded ω)} (hio : io.stream = some stream)
    (h : st ∈ (io.recorded k).stream) : st = stream.recorded k := by
  simp only [Ports.recorded, hio, Option.map_some, Option.mem_some_iff] at h
  exact h.symm

theorem notifyRead_recorded (io : Ports ω) (data : Bytes) (w : Recorded ω) :
    ((io.recorded k).notifyRead data w).world = io.notifyRead data w.world := by
  simp only [Ports.notifyRead, Ports.recorded]
  induction io.listeners generalizing w with
  | nil => rfl
  | cons l ls ih => exact ih _

theorem Drains.recorded (h : Drains E io stream μ) (hio : io.stream = some stream) :
    Drains E.recorded (io.recorded k) (stream.recorded k) fun w => μ w.world where
  keeps :=
    { refl := fun _ => le_rfl
      trans := fun h h' => h'.trans h
      now := fun w => h.keeps.now w.world
      notifyRead := fun data w => by
        rw [notifyRead_recorded]
        exact h.keeps.notifyRead data w.world
      read := by
        intro st n w r w' hst hread
        obtain rfl := mem_recorded_stream hio hst
        rw [← (Prod.mk.inj hread).2]
        exact h.keeps.read hio (n := n) (w := w.world) (Prod.mk.eta).symm
      waitRead := by
        intro st t w r w' hst hwait
        obtain rfl := mem_recorded_stream hio hst
        rw [← (Prod.mk.inj hwait).2]
        exact h.keeps.waitRead hio (t := t) (w := w.world) (Prod.mk.eta).symm }
  extract b w := h.extract b w.world
  reads n w := h.reads n w.world
  waits t w := h.waits t w.world

theorem Drains.quiet (h : Drains E io stream μ) (hio : io.stream = some stream) :
    (io.recorded k).KeepsReading fun w w' => Quiet w.trace → Quiet w'.trace where
  refl _ := id
  trans h h' := h' ∘ h
  now w hw := quiet_append.mpr ⟨hw, quiet_singleton.mpr id⟩
  notifyRead data w := by
    intro hw
    refine Ports.recorded_notifyRead_rule (P := fun w : Recorded ω => Quiet w.trace) ?_ hw
    intro l w w' htrace hw
    rw [htrace]
    exact quiet_append.mpr ⟨hw, quiet_singleton.mpr id⟩
  read := by
    intro st n w r w' hst hread hw
    obtain rfl := mem_recorded_stream hio hst
    obtain ⟨c, hc, _⟩ := h.reads n w.world
    rw [← (Prod.mk.inj hread).2, hc]
    exact quiet_append.mpr ⟨hw, quiet_singleton.mpr id⟩
  waitRead := by
    intro st t w r w' hst hwait hw
    obtain rfl := mem_recorded_stream hio hst
    obtain ⟨c, hc, _⟩ := h.waits t w.world
    rw [← (Prod.mk.inj hwait).2, hc]
    exact quiet_append.mpr ⟨hw, quiet_singleton.mpr id⟩

end IodriversBase
