import IodriversBase.Samples
import IodriversBase.Writing

namespace IodriversBase

open Loop

variable {ω : Type} {k : ℕ} {d : Driver} {buffer : Bytes}

/-- Stream `k` accepts a prefix of `buffer`, and each write is of what it has not accepted yet. -/
structure WritesInOrder (k : ℕ) (buffer : Bytes) (new : List Event) : Prop where
  accepted : written k new <+: buffer
  requests : ∀ before data answer after, new = before ++ .write k data answer :: after →
    data = buffer.drop (written k before).length

/-- What a call that began in `w` and ended in `w'` with the result `r` has written. -/
def WritesExactly (k : ℕ) (buffer : Bytes) (w : Recorded ω) (r : Except Exn Bool)
    (w' : Recorded ω) : Prop :=
  ∃ new, w'.trace = w.trace ++ new ∧ WritesInOrder k buffer new ∧
    (r = .ok true ↔ written k new = buffer) ∧
    ∀ x, r = .error x → (written k new).length < buffer.length

/-- In `w'`, the first `n` bytes of `buffer` have been accepted, in order. -/
structure Sent (k : ℕ) (buffer : Bytes) (w w' : Recorded ω) (n : ℕ) (new : List Event) : Prop where
  trace : w'.trace = w.trace ++ new
  inOrder : WritesInOrder k buffer new
  written : written k new = buffer.take n

variable {w w' w'' : Recorded ω} {n : ℕ} {new : List Event} {ev : Event}

theorem Sent.refl (w : Recorded ω) : Sent k buffer w w 0 [] where
  trace := by simp
  inOrder := ⟨List.nil_prefix, by simp⟩
  written := by simp

theorem Sent.event (h : Sent k buffer w w' n new) {m : ℕ}
    (htrace : w''.trace = w'.trace ++ [ev])
    (hask : ∀ data answer, ev = .write k data answer → data = buffer.drop n)
    (hdata : buffer.take n ++ ev.accepted k = buffer.take m) :
    Sent k buffer w w'' m (new ++ [ev]) := by
  have hwritten : IodriversBase.written k (new ++ [ev]) = buffer.take m := by
    rw [written_append, h.written, ← hdata]
    simp [IodriversBase.written]
  refine ⟨by rw [htrace, h.trace, List.append_assoc], ⟨?_, ?_⟩, hwritten⟩
  · rw [hwritten]
    exact List.take_prefix m buffer
  · intro before data answer after hsplit
    rcases after.eq_nil_or_concat with rfl | ⟨after, last, rfl⟩
    · obtain ⟨rfl, hev⟩ := List.append_inj' hsplit rfl
      rw [hask data answer (List.head_eq_of_cons_eq hev), h.written, List.length_take]
      -- beyond the end of the buffer there is nothing more to ask for
      by_cases hn : n ≤ buffer.length
      · rw [min_eq_left hn]
      · rw [min_eq_right (by omega), List.drop_length, List.drop_eq_nil_of_le (by omega)]
    · rw [List.concat_eq_append, ← List.cons_append, ← List.append_assoc] at hsplit
      exact h.inOrder.requests before data answer after (List.append_inj' hsplit rfl).1

theorem Sent.other (h : Sent k buffer w w' n new) (htrace : w''.trace = w'.trace ++ [ev])
    (hev : ∀ j data answer, ev ≠ .write j data answer) :
    Sent k buffer w w'' n (new ++ [ev]) := by
  refine h.event htrace (fun data answer h => absurd h (hev k data answer)) ?_
  have hnone : ev.accepted k = [] := by
    cases ev <;> first | rfl | exact absurd rfl (hev _ _ _)
  rw [hnone, List.append_nil]

theorem sent_pieces (io : Ports ω) (stream : IOStream ω) (buffer : Bytes) (w : Recorded ω) :
    WritesPieces (io.recorded k) (stream.recorded k) buffer
      (fun w' n => ∃ new, Sent k buffer w w' n new) (fun _ _ => True) where
  now := by
    rintro w' n ⟨new, h⟩
    exact ⟨_, h.other rfl (by simp)⟩
  notifyWrite := by
    rintro w' n data h
    apply Ports.recorded_notifyWrite_rule
      (P := fun w' : Recorded ω => ∃ new, Sent k buffer w w' n new) _ h
    rintro l w' w'' htrace ⟨new, h⟩
    exact ⟨_, h.other htrace (by simp)⟩
  write := by
    rintro w' n c w'' ⟨new, h⟩ hwrite
    obtain ⟨hc, rfl⟩ := Prod.mk.inj hwrite
    refine ⟨_, h.event (m := n + c.val) rfl (by simp) ?_⟩
    rw [List.take_add]
    simp [hc, Except.map, Event.accepted]
  write_threw := by
    rintro w' n x w'' ⟨new, h⟩ hwrite
    obtain ⟨hx, rfl⟩ := Prod.mk.inj hwrite
    refine ⟨⟨_, h.event (m := n) rfl (by simp) ?_⟩, trivial⟩
    simp [hx, Except.map, Event.accepted]
  waitWrite := by
    rintro w' n t r w'' ⟨new, h⟩ hwait
    obtain ⟨-, rfl⟩ := Prod.mk.inj hwait
    exact ⟨⟨_, h.other rfl (by simp)⟩, fun _ _ => trivial⟩

theorem writePacketMilliseconds_exact {io : Ports ω} {stream : IOStream ω}
    (hio : io.stream = some stream) (hne : buffer ≠ []) {fuel : ℕ} {timeout : ℤ} {r d'}
    (hr : d.writePacketMilliseconds (io.recorded k) fuel buffer timeout w = some (r, d', w')) :
    WritesExactly k buffer w r w' := by
  have hstream := Ports.recorded_opened k hio
  have hpos : 0 < buffer.length := List.length_pos_iff.mpr hne
  obtain ⟨-, n, ⟨new, h⟩, hresult⟩ := writePacketMilliseconds_pieces hstream
    (sent_pieces io stream buffer w) ⟨[], .refl w⟩ hr
  refine ⟨new, h.trace, h.inOrder, ?_⟩
  rw [h.written]
  obtain ⟨rfl, rfl⟩ | ⟨hpart, x, rfl, -⟩ := hresult
  · exact ⟨iff_of_true rfl List.take_length, fun x hx => by cases hx⟩
  · have hless : (buffer.take n).length < buffer.length := by
      rw [List.length_take]
      omega
    exact ⟨iff_of_false (fun h => by cases h) fun hall => hless.ne (congrArg _ hall),
      fun _ _ => hless⟩

/-- Every call writes the packet exactly, and a call that has not come back has written a part of
it. -/
theorem writePacket_exact {io : Ports ω} {stream : IOStream ω} (hio : io.stream = some stream)
    (hne : buffer ≠ []) (k : ℕ) (d : Driver) (w : Recorded ω) :
    (∀ fuel (timeout : Time) r d' w',
      d.writePacket (io.recorded k) fuel buffer timeout w = some (r, d', w') →
        WritesExactly k buffer w r w') ∧
    (∀ fuel timeout r d' w',
      d.writePacketMilliseconds (io.recorded k) fuel buffer timeout w = some (r, d', w') →
        WritesExactly k buffer w r w') ∧
    ∀ timeOut s,
      Relation.ReflTransGen
        (Loop.Step (writeIteration (io.recorded k) (stream.recorded k) buffer timeOut))
        ⟨((io.recorded k).now w).2, 0⟩ s →
      ∃ new, s.world.trace = w.trace ++ new ∧ WritesInOrder k buffer new := by
  refine ⟨fun fuel timeout r d' w' => writePacketMilliseconds_exact hio hne,
    fun fuel timeout r d' w' => writePacketMilliseconds_exact hio hne, ?_⟩
  intro timeOut s hreach
  have hstart : ∃ new, Sent k buffer w ((io.recorded k).now w).2 0 new :=
    (sent_pieces io stream buffer w).now ⟨[], .refl w⟩
  obtain ⟨⟨new, h⟩, -⟩ := reaches_rule
    (writeIteration_pieces (sent_pieces io stream buffer w) timeOut) ⟨hstart, .inl rfl⟩ hreach
  exact ⟨new, h.trace, h.inOrder⟩

/-- A stream that accepts as many bytes as the script says. -/
def acceptingStream : IOStream (List ℕ) where
  waitRead _ w := (.ok false, w)
  waitWrite _ w := (.ok true, w)
  read _ w := (.ok ⟨[], Nat.zero_le _⟩, w)
  write data w := (.ok ⟨min (w.headD 0) data.length, min_le_right _ _⟩, w.tail)
  clear w := w
  eof _ := false
  getFileDescriptor _ := -1
  delete w := w

theorem writePacket_exact_sample : ∃ b : Except Exn Bool × Driver × Recorded (List ℕ),
    (Driver.new 10 false).writePacket
      (Ports.recorded 1 ⟨fun w => (0, w), some acceptingStream, []⟩) 5 [7, 8, 9] 1000
      ⟨[0, 2, 0, 1], []⟩ = some b ∧ b.1 = .ok true ∧
    WritesExactly 1 [7, 8, 9] ⟨[0, 2, 0, 1], []⟩ b.1 b.2.2 := by
  have hcall : ∃ b : Except Exn Bool × Driver × Recorded (List ℕ),
      (Driver.new 10 false).writePacket
        (Ports.recorded 1 ⟨fun w => (0, w), some acceptingStream, []⟩) 5 [7, 8, 9] 1000
        ⟨[0, 2, 0, 1], []⟩ = some b ∧ b.1 = .ok true :=
    exists_of_any (fun b : Except Exn Bool × Driver × Recorded (List ℕ) => b.1 = .ok true)
      (by decide +kernel)
  obtain ⟨b, hb, hok⟩ := hcall
  exact ⟨b, hb, hok, (writePacket_exact rfl (by decide) 1 _ _).1 5 1000 b.1 b.2.1 b.2.2 hb⟩

end IodriversBase
