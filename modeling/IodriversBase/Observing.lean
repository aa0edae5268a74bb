import IodriversBase.Accounting

namespace IodriversBase

open Framing Loop

variable {ω : Type} {e : Bytes → ℤ} {E : Extract ω} {d : Driver} {w : ω}

/-- What can be observed of a driver, its timeouts and its mode apart. -/
def Driver.observed (d : Driver) : Bytes × UInt32 × UInt32 × UInt32 :=
  (d.internalBuffer, d.stats.goodRx, d.stats.badRx, d.stats.tx)

def Driver.hasPackets (E : Extract ω) : ℕ → Driver → ω → Option (Driver × ω)
  | 0, d, w => some (d, w)
  | n + 1, d, w =>
    match d.hasPacket E w with
    | none => none
    | some (_, d, w) => Driver.hasPackets E n d w

/-- `hasPacket` tells whether the internal buffer alone would yield a packet, and any number of
calls leaves all there is to observe as it is. -/
structure HasPacketObserves (E : Extract ω) (d : Driver) (w : ω) : Prop where
  tells : ∃ b d' w', d.hasPacket E w = some (.ok b, d', w') ∧
    (d.internalBuffer ≠ [] → ∃ p d' w',
      d.doPacketExtraction (E.at d.internalBuffer) w = some (.ok p, d', w') ∧
        (b = true ↔ p ≠ [])) ∧
    ∀ (io : Ports ω) fuel bufferSize packetTimeout firstByteTimeout, io.stream = none →
      d.maxPacketSize ≤ bufferSize → ∃ r d' w',
        d.readPacket E io fuel bufferSize packetTimeout firstByteTimeout w = some (r, d', w') ∧
          (b = true ↔ ∃ p, r = .ok p)
  quiet : ∀ n, ∃ d' w', Driver.hasPackets E n d w = some (d', w') ∧ d'.observed = d.observed

theorem drain_keeps_packet {fuel : ℕ} {s : DrainState ω} (hs : s.result ≠ [])
    {b : Except Exn (Bytes × Bool) × Driver × ω} (h : run (drainIteration E) fuel s = some b)
    {p : Bytes} {flag : Bool} (hb : b.1 = .ok (p, flag)) : p ≠ [] := by
  refine run_rule (I := fun s : DrainState ω => s.result ≠ [])
    (Q := fun b => ∀ p flag, b.1 = .ok (p, flag) → p ≠ []) ?_ hs h p flag hb
  intro s hs
  unfold drainIteration
  split_ifs
  swap
  · rintro p flag ⟨⟩
    exact hs
  generalize Driver.doPacketExtraction _ _ _ = extracted
  rcases extracted with _ | ⟨x | packet, d₁, w₁⟩
  · trivial
  · rintro p flag ⟨⟩
  have hresult : (if packet.length > 0 then packet else s.result) ≠ [] := by
    split_ifs with hpos
    · exact List.length_pos_iff.mp hpos
    · exact hs
  dsimp only
  generalize (if packet.length > 0 then packet else s.result) = result at hresult ⊢
  split_ifs
  · rintro p flag ⟨⟩
    exact hresult
  · exact hresult

/-- The internal buffer alone yields a packet if and only if its first scan finds one. -/
theorem extractPacketFromInternalBuffer_yields (hb : InBounds e) (hE : E.Answers e) (d : Driver)
    (w : ω) : ∃ p d' w', d.extractPacketFromInternalBuffer E w = some (.ok (p, false), d', w') ∧
      (p ≠ [] ↔ (cut e d.extractLast d.internalBuffer).packet ≠ []) := by
  obtain ⟨ps, d', w', hend, -⟩ := extractPacketFromInternalBuffer_end hb hE d w
  refine ⟨_, d', w', hend, ?_⟩
  generalize ps.getLast?.getD [] = p at hend
  rw [Driver.extractPacketFromInternalBuffer, run] at hend
  by_cases hne : d.internalBuffer = []
  · simp only [drainIteration, hne, List.length_nil, gt_iff_lt, lt_self_iff_false, if_false,
      Option.some.injEq, Prod.mk.injEq, Except.ok.injEq] at hend
    rw [hne, cut_nil, ← hend.1.1]
  have hpos : d.internalBuffer.length > 0 := List.length_pos_iff.mpr hne
  simp only [drainIteration, hpos, if_true, doPacketExtraction_eq hb hE hne, gt_iff_lt,
    List.length_pos_iff, List.length_eq_zero_iff] at hend
  by_cases hpacket : (cut e d.extractLast d.internalBuffer).packet = []
  · simp only [hpacket, true_or, if_true, ne_eq, not_true_eq_false, if_false, Option.some.injEq,
      Prod.mk.injEq, Except.ok.injEq] at hend
    rw [hpacket, ← hend.1.1]
  simp only [hpacket, false_or, ne_eq, not_false_eq_true, if_true] at hend
  refine iff_of_true ?_ hpacket
  split_ifs at hend
  · exact drain_keeps_packet hpacket hend rfl
  · simp only [Option.some.injEq, Prod.mk.injEq, Except.ok.injEq] at hend
    rw [← hend.1.1]
    exact hpacket

theorem hasPacket_tells (hb : InBounds e) (hE : E.Answers e) (d : Driver) (w : ω) :
    ∃ b d' w', d.hasPacket E w = some (.ok b, d', w') ∧
      (d.internalBuffer ≠ [] → ∃ p d' w',
        d.doPacketExtraction (E.at d.internalBuffer) w = some (.ok p, d', w') ∧
          (b = true ↔ p ≠ [])) ∧
      ∀ (io : Ports ω) fuel bufferSize packetTimeout firstByteTimeout, io.stream = none →
        d.maxPacketSize ≤ bufferSize → ∃ r d' w',
          d.readPacket E io fuel bufferSize packetTimeout firstByteTimeout w = some (r, d', w') ∧
            (b = true ↔ ∃ p, r = .ok p) := by
  refine ⟨_, _, _, hasPacket_eq hb hE d w, fun hne => ?_, ?_⟩
  · exact ⟨_, _, _, doPacketExtraction_eq hb hE hne w, decide_eq_true_iff⟩
  intro io fuel bufferSize packetTimeout firstByteTimeout hio hsize
  obtain ⟨p, d', w', hextract, hp⟩ := extractPacketFromInternalBuffer_yields hb hE d w
  rw [Driver.readPacket, if_neg (by omega), hio, hextract, decide_eq_true_iff, ← hp]
  dsimp only
  by_cases h : p = []
  · rw [if_neg (by simp [h])]
    exact ⟨_, _, _, rfl, by simp [h]⟩
  · rw [if_pos (List.length_pos_iff.mpr h)]
    exact ⟨_, _, _, rfl, by simp [h]⟩

theorem tally_le_length (hb : InBounds e) (b : Bytes) :
    (tally e b).1 + (tally e b).2 ≤ b.length := by
  induction b using scan_induction (E := e) with
  | hsettled b h => simp [tally_settled h]
  | hmove b h ih =>
    have hle := natAbs_le_length hb (ne_nil_of_not_settled h)
    rw [List.length_drop] at ih
    rw [tally, dif_neg h]
    split_ifs <;> dsimp only <;> omega

theorem tally_pos (h : ¬ Settled e b) : 0 < (tally e b).1 + (tally e b).2 := by
  have hpos := natAbs_pos_of_not_settled h
  rw [tally, dif_neg h]
  split_ifs <;> dsimp only <;> omega

theorem counted_eq_iff (hb : InBounds e) {extractLast : Bool} {b : Bytes}
    (hlen : b.length < 2 ^ 31) (stats : Status) :
    ((counted e extractLast b stats).goodRx = stats.goodRx ∧
      (counted e extractLast b stats).badRx = stats.badRx) ↔
      extractLast = false ∨ Settled e b := by
  constructor
  · rintro ⟨hgood, hbad⟩
    by_contra hnot
    obtain ⟨hlast, hset⟩ := not_or.mp hnot
    rw [counted, if_pos (by simpa using hlast)] at hgood hbad
    have hle := tally_le_length hb b
    have hpos := tally_pos hset
    have hgood₀ := congrArg UInt32.toNat hgood
    have hbad₀ := congrArg UInt32.toNat hbad
    simp only [Status.count, ofInt_natCast, UInt32.toNat_add, UInt32.toNat_ofNat'] at hgood₀ hbad₀
    -- counters of 32 bits do not come round within one buffer
    have := stats.goodRx.toNat_lt
    have := stats.badRx.toNat_lt
    omega
  · rintro (rfl | hset)
    · exact ⟨rfl, rfl⟩
    · rw [counted_settled hset]
      exact ⟨rfl, rfl⟩

theorem hasPackets_eq (hb : InBounds e) (hE : E.Answers e)
    (h : d.extractLast = false ∨ Settled e d.internalBuffer) (n : ℕ) (w : ω) :
    ∃ w', Driver.hasPackets E n d w = some (d, w') := by
  have hsame : counted e d.extractLast d.internalBuffer d.stats = d.stats := by
    rcases h with h | h
    · rw [h]
      rfl
    · exact counted_settled h _ _
  induction n generalizing w with
  | zero => exact ⟨w, rfl⟩
  | succ n ih =>
    rw [Driver.hasPackets, hasPacket_eq hb hE, hsame]
    exact ih _

theorem hasPacketObserves_iff (hb : InBounds e) (hE : E.Answers e)
    (hmax : d.maxPacketSize < 2 ^ 31) (w : ω) :
    HasPacketObserves E d w ↔ d.extractLast = false ∨ Settled e d.internalBuffer := by
  constructor
  · intro h
    obtain ⟨d', w', hcall, hsame⟩ := h.quiet 1
    rw [Driver.hasPackets, hasPacket_eq hb hE] at hcall
    cases hcall
    rw [Driver.observed, Driver.observed, Prod.mk.injEq, Prod.mk.injEq, Prod.mk.injEq] at hsame
    exact (counted_eq_iff hb (d.fits.trans_lt hmax) d.stats).mp ⟨hsame.2.1, hsame.2.2.1⟩
  · intro h
    refine ⟨hasPacket_tells hb hE d w, fun n => ?_⟩
    obtain ⟨w', hcalls⟩ := hasPackets_eq hb hE h n w
    exact ⟨d, w', hcalls, rfl⟩

variable {s t : Sys ω} {a : Answer}

theorem Sys.Step.maxPacketSize_of_readRaw {n : ℕ} {packet first inter : Time}
    (h : Sys.Step E s (.readRaw n packet first inter, a) t) :
    t.driver.maxPacketSize = s.driver.maxPacketSize := by
  obtain ⟨fuel, h⟩ := h
  obtain ⟨r, hread, -⟩ := Sys.after_eq_some h
  cases hio : s.io.stream with
  | none =>
    simp only [Driver.readRaw, Ports.recorded, hio, Option.map_none, Option.some.injEq,
      Prod.mk.injEq] at hread
    rw [← hread.2.1]
  | some stream =>
    obtain ⟨cs, hend⟩ := readRaw_end hio hread
    rw [hend.driver]
    rfl

theorem Sys.Step.maxPacketSize_of_writePacket {buffer : Bytes} {timeout : Time}
    (h : Sys.Step E s (.writePacket buffer timeout, a) t) :
    t.driver.maxPacketSize = s.driver.maxPacketSize := by
  obtain ⟨fuel, h⟩ := h
  obtain ⟨r, hwrite, -⟩ := Sys.after_eq_some h
  cases hio : s.io.stream with
  | none =>
    simp only [Driver.writePacket, Driver.writePacketMilliseconds, Ports.recorded, hio,
      Option.map_none, Option.some.injEq, Prod.mk.injEq] at hwrite
    rw [← hwrite.2.1]
  | some stream =>
    obtain ⟨n, hend⟩ := writePacket_end hio hwrite
    obtain ⟨stats, hdriver⟩ := hend.driver
    rw [hdriver]
    rfl

theorem Sys.Step.maxPacketSize (hb : InBounds e) (hE : E.Answers e) {call : Op ω × Answer}
    (h : Sys.Step E s call t) : t.driver.maxPacketSize = s.driver.maxPacketSize := by
  obtain ⟨op, a⟩ := call
  cases op with
  | readPacket =>
    rcases (h.readPacket hb hE).feeds with ⟨rfl, -⟩ | ⟨cs, hfed, -⟩
    · rfl
    · exact hfed.maxPacketSize
  | readRaw => exact h.maxPacketSize_of_readRaw
  | writePacket => exact h.maxPacketSize_of_writePacket
  | hasPacket =>
    obtain ⟨fuel, h⟩ := h
    rw [Sys.perform, hasPacket_eq hb hE.recorded] at h
    cases h
    rfl
  | _ =>
    obtain ⟨fuel, h⟩ := h
    cases h
    rfl

/-- In every state a driver gets into, `hasPacket` tells what an extraction would do; it observes
only, unless it scans in the last-packet mode. -/
theorem hasPacket_observes_iff (hb : InBounds e) (hE : E.Answers e) {io : Ports ω} {M : ℕ}
    (hM : M < 2 ^ 31) {extractLast : Bool} {w : ω} {calls : List (Op ω × Answer)}
    (h : Sys.Run E (.start io (.new M extractLast) w) calls t) :
    HasPacketObserves E.recorded t.driver t.world ↔
      t.driver.extractLast = false ∨ Settled e t.driver.internalBuffer := by
  have hmax : t.driver.maxPacketSize = M :=
    h.invariant (I := fun t => t.driver.maxPacketSize = M)
      (fun s call t hs hst => (hst.maxPacketSize hb hE).trans hs) rfl
  exact hasPacketObserves_iff hb hE.recorded (hmax ▸ hM) t.world

/-- The last-packet mode is set while a part of a packet waits in the buffer. -/
theorem hasPacket_observes_iff_sample : ∃ (calls : _) (t : Sys Script),
    Sys.Run (.pure driverTestExtractPacket) (.start Script.ports (.new 100 false)
      [[0, 1, 2, 0, 0]]) calls t ∧ t.driver.internalBuffer = [0] ∧
    (HasPacketObserves (Extract.recorded (.pure driverTestExtractPacket)) t.driver t.world ↔
      t.driver.extractLast = false ∨ Settled driverTestExtractPacket t.driver.internalBuffer) := by
  obtain ⟨calls, t, hrun, hbuffer⟩ := Sys.exists_run (.pure driverTestExtractPacket) 5
    (.start Script.ports (.new 100 false) [[0, 1, 2, 0, 0]])
    [.readPacket 100 0 0, .setExtractLastPacket true]
    (fun _ t => t.driver.internalBuffer = [0]) (by decide +kernel)
  exact ⟨calls, t, hrun, hbuffer, hasPacket_observes_iff driverTest_inBounds
    (Extract.answers_pure _) (by decide) hrun⟩

/-- Garbage behind a packet stays in the buffer in the last-packet mode; looking at it counts it. -/
theorem hasPacket_counts : ∃ (calls : _) (t : Sys Script),
    Sys.Run (.pure driverTestExtractPacket) (.start Script.ports (.new 100 true)
      [[0, 1, 2, 0, 7]]) calls t ∧
    ¬ HasPacketObserves (Extract.recorded (.pure driverTestExtractPacket)) t.driver t.world := by
  obtain ⟨calls, t, hrun, hcounts⟩ := Sys.exists_run (.pure driverTestExtractPacket) 5
    (.start Script.ports (.new 100 true) [[0, 1, 2, 0, 7]]) [.readPacket 100 0 0]
    (fun _ t => ((Driver.hasPackets (Extract.recorded (.pure driverTestExtractPacket)) 1 t.driver
      t.world).all fun r => r.1.observed ≠ t.driver.observed) = true) (by decide +kernel)
  refine ⟨calls, t, hrun, fun h => ?_⟩
  obtain ⟨d', w', hcall, hsame⟩ := h.quiet 1
  rw [hcall] at hcounts
  simp [hsame] at hcounts

end IodriversBase
