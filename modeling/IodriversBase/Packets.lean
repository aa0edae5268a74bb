import IodriversBase.Reading

namespace IodriversBase

open Framing

variable {e : Bytes → ℤ} {d d' : Driver} {cs : List Bytes}

structure CutMoves (e : Bytes → ℤ) (extractLast : Bool) (b : Bytes) (ms : List (Move UInt8)) :
    Prop where
  run : Lts.Run (Step e) b ms (leftOver e extractLast b)
  scanning : ∀ m ∈ ms, m.Scanning
  last : (emitted ms).getLast? = (asList (cut e extractLast b).packet).getLast?
  first : extractLast = false → emitted ms = asList (cut e extractLast b).packet

theorem getLast?_eq_of_getD {ps : List Bytes} {p : Bytes} (hne : ∀ q ∈ ps, q ≠ [])
    (h : ps.getLast?.getD [] = p) : ps.getLast? = (asList p).getLast? := by
  rcases hlast : ps.getLast? with _ | q
  · rw [hlast] at h
    subst h
    rfl
  · rw [hlast] at h
    obtain rfl : q = p := h
    simp [asList, hne q (List.mem_of_getLast? hlast)]

theorem cut_moves (hb : InBounds e) (extractLast : Bool) (b : Bytes) :
    ∃ ms, CutMoves e extractLast b ms := by
  cases extractLast
  · obtain ⟨ms, hrun, hscan, _, hemit⟩ := firstPacket_moves hb b
    exact ⟨ms, hrun, hscan, congrArg _ hemit, fun _ => hemit⟩
  · obtain ⟨ms, hrun, hscan, _, hemit⟩ := lastPacket_moves hb b
    exact ⟨ms, hrun, hscan, getLast?_eq_of_getD (emitted_ne_nil hrun) hemit, by simp⟩

theorem parse_leftOver {extractLast : Bool} {b : Bytes}
    (h : extractLast = true ∨ (cut e extractLast b).packet = []) :
    parse e (leftOver e extractLast b) = [] := by
  cases extractLast
  · exact parse_settled (firstPacket_rest_settled b (h.resolve_left (by simp)))
  · exact (parse_lastPacket_rest b).1

theorem leftOver_length_le (e : Bytes → ℤ) (extractLast : Bool) (b : Bytes) :
    (leftOver e extractLast b).length ≤ b.length := by
  cases extractLast
  · exact firstPacket_rest_le b
  · exact lastPacket_rest_le b

theorem leftOver_length_lt {extractLast : Bool} {b : Bytes} (h : ¬ Settled e b) :
    (leftOver e extractLast b).length < b.length := by
  cases extractLast
  · exact firstPacket_rest_lt h
  · exact lastPacket_rest_lt h

theorem Driver.scanned_length_lt {d : Driver}
    (hfull : ∀ b : Bytes, b.length = d.maxPacketSize → b ≠ [] → e b ≠ 0)
    (hne : (d.scanned e).internalBuffer ≠ []) :
    (d.scanned e).internalBuffer.length < d.maxPacketSize := by
  rw [Driver.scanned_internalBuffer] at hne ⊢
  have hle := leftOver_length_le e d.extractLast d.internalBuffer
  have hpos := List.length_pos_iff.mpr hne
  by_cases hlen : d.internalBuffer.length = d.maxPacketSize
  · have hset : ¬ Settled e d.internalBuffer := by
      rintro (h0 | h0)
      · have := List.length_eq_zero_iff.mpr h0
        omega
      · exact hfull _ hlen (List.length_pos_iff.mp (by omega)) h0
    exact (leftOver_length_lt hset).trans_le hlen.le
  · have := d.fits
    omega

structure FedMoves (e : Bytes → ℤ) (d : Driver) (cs : List Bytes) (d' : Driver)
    (ms : List (Move UInt8)) : Prop where
  run : Lts.Run (Step e) d.internalBuffer ms d'.internalBuffer
  asked : ∀ m ∈ ms, m.Asked
  arrived : arrived ms = cs.flatten
  last : (emitted ms).getLast? = (d.finds e cs).getLast?
  first : d.extractLast = false → emitted ms = d.finds e cs

theorem Fed.moves (hb : InBounds e) (h : Fed e d cs d') : ∃ ms, FedMoves e d cs d' ms := by
  induction h with
  | start =>
    obtain ⟨ms, hms⟩ := cut_moves hb d.extractLast d.internalBuffer
    refine ⟨ms, ?_, fun m hm => (hms.scanning m hm).asked, arrived_of_scanning hms.scanning, ?_, ?_⟩
    · simpa using hms.run
    · rw [Driver.finds_nil]
      exact hms.last
    · rw [Driver.finds_nil]
      exact hms.first
  | @chunk cs d₁ c hc hfed ih =>
    obtain ⟨ms, hms⟩ := ih
    -- the chunk arrives, and the scan takes from the front of the buffer
    obtain ⟨ms', hms'⟩ := cut_moves hb d₁.extractLast (d₁.internalBuffer ++ c)
    refine ⟨ms ++ .arrive c :: ms', ?_, ?_, ?_, ?_, ?_⟩
    · refine hms.run.append (.cons (.arrive _ c) ?_)
      simpa using hms'.run
    · intro m hm
      rcases List.mem_append.mp hm with hm | hm
      · exact hms.asked m hm
      · rcases List.mem_cons.mp hm with rfl | hm
        · trivial
        · exact (hms'.scanning m hm).asked
    · simp [hms.arrived, arrived_of_scanning hms'.scanning]
    · rw [hfed.finds_chunk, emitted_append, emitted_cons, Move.emitted_arrive, List.nil_append,
        List.getLast?_append, List.getLast?_append, hms.last, hms'.last]
    · intro hf
      rw [hfed.finds_chunk, emitted_append, emitted_cons, Move.emitted_arrive, List.nil_append,
        hms.first hf, hms'.first (hfed.extractLast.trans hf)]

theorem Fed.parse_eq_nil (h : Fed e d cs d') (hnone : d.extractLast = true ∨ d.finds e cs = []) :
    parse e d'.internalBuffer = [] := by
  cases h with
  | start =>
    rw [Driver.scanned_internalBuffer]
    refine parse_leftOver (hnone.imp_right fun h0 => ?_)
    rw [Driver.finds_nil] at h0
    by_contra hp
    simp [asList, hp] at h0
  | @chunk cs d₁ c hc hfed =>
    rw [Driver.scanned_internalBuffer]
    refine parse_leftOver (hnone.imp (hfed.extractLast.trans) fun h0 => ?_)
    rw [hfed.finds_chunk] at h0
    by_contra hp
    exact hp (by simpa [asList] using (List.append_eq_nil_iff.mp h0).2)

theorem Fed.length_lt (h : Fed e d cs d')
    (hfull : ∀ b : Bytes, b.length = d.maxPacketSize → b ≠ [] → e b ≠ 0)
    (hne : d'.internalBuffer ≠ []) : d'.internalBuffer.length < d.maxPacketSize := by
  cases h with
  | start => exact Driver.scanned_length_lt hfull hne
  | @chunk cs d₁ c hc hfed =>
    rw [← hfed.maxPacketSize] at hfull ⊢
    exact Driver.scanned_length_lt (d := d₁.append c hc) hfull hne

/-- Whatever comes next, a driver in the first mode finds the next packets of the parse. -/
theorem Fed.parse_first (hb : InBounds e) (hs : Stable e) (h : Fed e d cs d')
    (hf : d.extractLast = false) (t : Bytes) :
    parse e (d.internalBuffer ++ cs.flatten ++ t) =
      d.finds e cs ++ parse e (d'.internalBuffer ++ t) := by
  obtain ⟨ms, hms⟩ := h.moves hb
  rw [← hms.arrived, ← hms.first hf]
  exact parse_moves hb hs hms.run hms.asked t

/-- No byte is lost: what was in the buffer and what arrived, in order, has left or is in the
buffer. -/
theorem Fed.conserved (hb : InBounds e) (h : Fed e d cs d') : ∃ gone,
    d.internalBuffer ++ cs.flatten = gone ++ d'.internalBuffer ∧
      ∀ p, (d.finds e cs).getLast? = some p → p <:+: gone := by
  obtain ⟨ms, hms⟩ := h.moves hb
  refine ⟨removed ms, hms.arrived ▸ conservation hms.run, fun p hp => ?_⟩
  rw [← hms.last] at hp
  exact infix_removed_of_mem_emitted (List.mem_of_getLast? hp)

end IodriversBase
