import IodriversBase.Driver
import IodriversBase.Recording

namespace IodriversBase

open Loop

variable {ω : Type} {k : ℕ} {d : Driver}

theorem Driver.pullBytesFromInternal_front {n : ℕ} (h : n ≤ d.internalBuffer.length) :
    d.pullBytesFromInternal 0 n = some (d.internalBuffer.take n, d.dropFront n) := by
  rw [Driver.pullBytesFromInternal, if_pos ⟨le_rfl, by omega, by
    simp only [Driver.newInternalSize]; omega⟩]
  simp

/-- How `readRaw` ends: what it took from the buffer, and the chunks it read. -/
structure RawEnd (k : ℕ) (d : Driver) (outBufferSize : ℕ) (w : Recorded ω) (r : Except Exn Bytes)
    (d' : Driver) (w' : Recorded ω) (cs : List Bytes) : Prop where
  driver : d' = d.dropFront (min d.internalBuffer.length outBufferSize)
  adds : Adds k w w' cs
  /-- The stream is read only when the buffer does not suffice. -/
  reads : cs.flatten ≠ [] → d.internalBuffer.length < outBufferSize
  result : r = .ok (d.internalBuffer.take outBufferSize ++ cs.flatten) ∨
    ∃ x, r = .error x ∧ ∃ ev ∈ w'.trace, ev.Throws x

theorem readRaw_end {io : Ports ω} {stream : IOStream ω} (hio : io.stream = some stream)
    {fuel outBufferSize : ℕ} {packetTimeout firstByteTimeout interByteTimeout : Time}
    {w : Recorded ω} {r d' w'}
    (h : d.readRaw (io.recorded k) fuel outBufferSize packetTimeout firstByteTimeout
      interByteTimeout w = some (r, d', w')) :
    ∃ cs, RawEnd k d outBufferSize w r d' w' cs := by
  have hstream := Ports.recorded_opened k hio
  simp only [Driver.readRaw, hstream] at h
  have htake : d.internalBuffer.take (min d.internalBuffer.length outBufferSize) =
      d.internalBuffer.take outBufferSize := by
    rw [List.take_eq_take_iff]
    omega
  rw [Driver.pullBytesFromInternal_front (Nat.min_le_left _ _), htake] at h
  dsimp only at h
  set timeout := if interByteTimeout = 0 then packetTimeout else interByteTimeout
  rcases hrun : run (rawIteration (io.recorded k) (stream.recorded k) outBufferSize packetTimeout
    timeout) fuel _ with _ | ⟨r₀, w₀⟩
  · rw [hrun] at h
    cases h
  rw [hrun] at h
  cases h
  suffices hend : ∃ cs, Adds k w w' cs ∧
      (cs.flatten ≠ [] → d.internalBuffer.length < outBufferSize) ∧
      (r = .ok (d.internalBuffer.take outBufferSize ++ cs.flatten) ∨
        ∃ x, r = .error x ∧ ∃ ev ∈ w'.trace, ev.Throws x) by
    obtain ⟨cs, hadds, hreads, hresult⟩ := hend
    exact ⟨cs, rfl, hadds, hreads, hresult⟩
  refine run_rule (Q := fun b : Except Exn Bytes × Recorded ω => ∃ cs, Adds k w b.2 cs ∧
    (cs.flatten ≠ [] → d.internalBuffer.length < outBufferSize) ∧
    (b.1 = .ok (d.internalBuffer.take outBufferSize ++ cs.flatten) ∨
      ∃ x, b.1 = .error x ∧ ∃ ev ∈ b.2.trace, ev.Throws x))
    (I := fun s => ∃ cs, Adds k w s.world cs ∧
      s.buffer = d.internalBuffer.take outBufferSize ++ cs.flatten ∧
      (cs.flatten ≠ [] → d.internalBuffer.length < outBufferSize)) ?_ ?_ hrun
  · rintro s ⟨cs, hadds, hbuffer, hreads⟩
    by_cases hgo : s.buffer.length < outBufferSize ∧ s.now ≤ s.globalDeadline
    swap
    · rw [rawIteration, if_neg hgo]
      exact ⟨cs, hadds, hreads, .inl (by rw [hbuffer])⟩
    rw [rawIteration, if_pos hgo]
    -- room is left only when the whole internal buffer has been taken
    have hroom : d.internalBuffer.length < outBufferSize := by
      have hlen := hgo.1
      rw [hbuffer, List.length_append, List.length_take] at hlen
      omega
    dsimp only
    rcases hwait : (stream.recorded k).waitRead
      (min s.globalDeadline (s.lastChar + timeout) - s.now) s.world with ⟨x | _ | _, w₁⟩
    all_goals
      obtain ⟨haddw, hthrew⟩ := adds_waitRead hwait
      have hwaited := hadds.trans haddw
      rw [List.append_nil] at hwaited
      dsimp only
    · exact ⟨cs, hwaited, hreads, .inr ⟨x, rfl, hthrew x rfl⟩⟩
    · exact ⟨cs, hwaited, hreads, .inl (by rw [hbuffer])⟩
    rcases hread : (stream.recorded k).read (outBufferSize - s.buffer.length) w₁ with ⟨x | c, w₂⟩
    · obtain ⟨haddr, hthrew⟩ := adds_read_threw hread
      exact ⟨cs, by simpa using hwaited.trans haddr, hreads, .inr ⟨x, rfl, hthrew⟩⟩
    have hnow := (hwaited.trans (adds_read hread)).trans (adds_now io w₂)
    rw [List.append_nil] at hnow
    dsimp only
    by_cases hc : c.val.length > 0
    · rw [if_pos hc]
      exact ⟨cs ++ [c.val], by simpa using hnow.trans (adds_notifyRead io c.val _),
        by simp [hbuffer], fun _ => hroom⟩
    · have hnil : c.val = [] := by simpa using hc
      rw [if_neg hc]
      exact ⟨cs ++ [c.val], hnow, by simp [hbuffer, hnil], fun _ => hroom⟩
  · exact ⟨[], adds_now io w, by simp, by simp⟩

end IodriversBase
