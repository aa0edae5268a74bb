import IodriversBase.Reading

namespace IodriversBase

open Framing Loop

variable {ω : Type} {e : Bytes → ℤ} {E : Extract ω} {io : Ports ω} {stream : IOStream ω}
  {I₀ I W : Driver → ω → Prop} {d d' : Driver} {w w' : ω}

/-- `I₀` before the buffer is scanned, `I` after a scan, `W` after a read without data.  In the
first mode a driver reads only when its buffer has nothing more to give. -/
structure ReadRule (E : Extract ω) (e : Bytes → ℤ) (io : Ports ω) (stream : IOStream ω)
    (I₀ I W : Driver → ω → Prop) : Prop where
  start : ∀ {d w}, I₀ d w → I₀ d (io.now w).2
  scan : ∀ {d w}, I₀ d w →
    I (d.scanned e) (E.effects (asked e d.extractLast d.internalBuffer) w)
  chunk : ∀ {d w c w'}, I d w →
    stream.read (d.maxPacketSize - d.internalBuffer.length) w = (.ok c, w') → c.val ≠ [] →
    I ((d.append c.val c.property).scanned e)
      (E.effects (asked e d.extractLast (d.internalBuffer ++ c.val)) (io.notifyRead c.val w'))
  threw : ∀ {d w n x w'}, I d w → stream.read n w = (.error x, w') → I d w'
  noData : ∀ {d w c w'}, I d w → (d.extractLast = false → Settled e d.internalBuffer) →
    stream.read (d.maxPacketSize - d.internalBuffer.length) w = (.ok c, w') → c.val = [] → W d w'
  now : ∀ {d w}, W d w → W d (io.now w).2
  waitRead : ∀ {d w t r w'}, W d w → stream.waitRead t w = (r, w') → W d w'
  again : ∀ {d w}, W d w → I₀ d w

/-- After `readPacketInternal`; without a packet, a read has returned no data. -/
structure ReadRule.End (I W : Driver → ω → Prop) (M : ℕ)
    (b : Except Exn (Bytes × Bool) × Driver × ω) : Prop where
  holds : I b.2.1 b.2.2 ∨ W b.2.1 b.2.2
  waits : ∀ something, b.1 = .ok ([], something) → W b.2.1 b.2.2
  maxPacketSize : b.2.1.maxPacketSize = M

structure ReadRule.Head (e : Bytes → ℤ) (I : Driver → ω → Prop) (M : ℕ) (d : Driver) (w : ω) :
    Prop where
  holds : I d w
  settled : d.extractLast = false → Settled e d.internalBuffer
  maxPacketSize : d.maxPacketSize = M

theorem Driver.scanned_settled
    (h : d.extractLast = false → (cut e false d.internalBuffer).packet = [])
    (hf : (d.scanned e).extractLast = false) : Settled e (d.scanned e).internalBuffer := by
  rw [Driver.scanned_extractLast] at hf
  rw [Driver.scanned_internalBuffer, hf]
  exact firstPacket_rest_settled _ (h hf)

theorem readIteration_rule (hb : InBounds e) (hE : E.Answers e) (h : ReadRule E e io stream I₀ I W)
    {M : ℕ} {s : ReadState ω} (hs : ReadRule.Head e I M s.driver s.world) :
    (readIteration E io stream s).Holds (fun s' => ReadRule.Head e I M s'.driver s'.world)
      (ReadRule.End I W M) := by
  obtain ⟨hI, hset, hM⟩ := hs
  have hcases := readIteration_cases hb hE io stream s
  generalize readIteration E io stream s = next at hcases ⊢
  cases hcases with
  | threw hread => exact ⟨.inl (h.threw hI hread), by simp, hM⟩
  | noData hread hc =>
    have hW := h.noData hI hset hread hc
    exact ⟨.inr hW, fun _ _ => hW, hM⟩
  | packet hread hc hfirst hp =>
    refine ⟨.inl (hfirst ▸ h.chunk hI hread hc), fun something hr => absurd ?_ hp, hM⟩
    exact (Prod.mk.inj (Except.ok.inj hr)).1
  | full hread hc _ _ => exact ⟨.inl (h.chunk hI hread hc), by simp, hM⟩
  | again hread hc hnone _ =>
    refine ⟨h.chunk hI hread hc, ?_, hM⟩
    apply Driver.scanned_settled
    simpa only [Driver.append_internalBuffer, Driver.append_extractLast] using hnone

theorem readPacketInternal_rule (hb : InBounds e) (hE : E.Answers e)
    (h : ReadRule E e io stream I₀ I W) {fuel outBufferSize : ℕ}
    (hsize : d.maxPacketSize ≤ outBufferSize) (h₀ : I₀ d w) {b}
    (hr : d.readPacketInternal E io stream fuel outBufferSize w = some b) :
    ReadRule.End I W d.maxPacketSize b := by
  rw [readPacketInternal_eq hb hE io stream fuel hsize] at hr
  split_ifs at hr with hp
  · cases hr
    refine ⟨.inl (h.scan h₀), fun something hr => absurd ?_ hp.1, rfl⟩
    exact (Prod.mk.inj (Except.ok.inj hr)).1
  · have hset : d.extractLast = false → (cut e false d.internalBuffer).packet = [] := by
      intro hf
      by_contra hne
      exact hp ⟨by rwa [hf], by simp [hf]⟩
    exact run_rule (Q := ReadRule.End I W d.maxPacketSize)
      (I := fun s => ReadRule.Head e I d.maxPacketSize s.driver s.world)
      (fun _ => readIteration_rule hb hE h) ⟨h.scan h₀, Driver.scanned_settled hset, rfl⟩ hr

theorem waitIteration_rule (hb : InBounds e) (hE : E.Answers e) (h : ReadRule E e io stream I₀ I W)
    {fuel bufferSize M : ℕ} (hsize : M ≤ bufferSize) {packetTimeout startTime : Time}
    {s : WaitState ω} (hs : I₀ s.driver s.world ∧ s.driver.maxPacketSize = M) :
    (waitIteration E io stream fuel bufferSize packetTimeout startTime s).Holds
      (fun s' => I₀ s'.driver s'.world ∧ s'.driver.maxPacketSize = M)
      fun b => I b.2.1 b.2.2 ∨ W b.2.1 b.2.2 := by
  have hstep := waitIteration_step E io stream fuel bufferSize packetTimeout startTime s
  generalize waitIteration E io stream fuel bufferSize packetTimeout startTime s = next at hstep ⊢
  have hend {b} (hint : s.driver.readPacketInternal E io stream fuel bufferSize s.world = some b) :
      ReadRule.End I W s.driver.maxPacketSize b :=
    readPacketInternal_rule hb hE h (hs.2.trans_le hsize) hs.1 hint
  have hnow {something d w} (hint : s.driver.readPacketInternal E io stream fuel bufferSize
      s.world = some (.ok ([], something), d, w)) : W d (io.now w).2 :=
    h.now ((hend hint).waits something rfl)
  cases hstep with
  | lost _ => trivial
  | threw hint => exact (hend hint).holds
  | packet hint _ => exact (hend hint).holds
  | noTimeout hint _ => exact (hend hint).holds
  | late hint _ => exact .inr (hnow hint)
  | waitThrew hint _ hwait => exact .inr (h.waitRead (hnow hint) hwait)
  | waitedOut hint _ hwait => exact .inr (h.now (h.waitRead (hnow hint) hwait))
  | ready hint _ hwait =>
    exact ⟨h.again (h.waitRead (hnow hint) hwait), (hend hint).maxPacketSize.trans hs.2⟩

theorem readPacket_rule (hb : InBounds e) (hE : E.Answers e) (h : ReadRule E e io stream I₀ I W)
    (hio : io.stream = some stream) {fuel bufferSize : ℕ} (hsize : d.maxPacketSize ≤ bufferSize)
    {packetTimeout firstByteTimeout : Time} (h₀ : I₀ d w) {r}
    (hr : d.readPacket E io fuel bufferSize packetTimeout firstByteTimeout w = some (r, d', w')) :
    I d' w' ∨ W d' w' := by
  rw [Driver.readPacket, if_neg (by omega), hio] at hr
  exact run_rule (Q := fun b => I b.2.1 b.2.2 ∨ W b.2.1 b.2.2)
    (fun _ => waitIteration_rule hb hE h hsize) ⟨h.start h₀, rfl⟩ hr

end IodriversBase
