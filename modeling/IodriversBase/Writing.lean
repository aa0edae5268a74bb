import IodriversBase.Driver
import IodriversBase.Recording

namespace IodriversBase

open Loop

variable {ω : Type} {k : ℕ} {d : Driver}

def Event.OfWriting (k : ℕ) : Event → Prop
  | .now _ | .writeData _ _ => True
  | .write j _ _ | .waitWrite j _ _ => j = k
  | _ => False

theorem chunks_of_writing {t : List Event} (h : ∀ ev ∈ t, ev.OfWriting k) (j : ℕ) :
    chunks j t = [] := by
  rw [chunks, List.filterMap_eq_nil_iff]
  intro ev hev
  have := h ev hev
  cases ev <;> first | rfl | exact absurd this id

theorem written_of_writing {t : List Event} (h : ∀ ev ∈ t, ev.OfWriting k) {j : ℕ} (hj : j ≠ k) :
    written j t = [] := by
  rw [written, List.flatMap_eq_nil_iff]
  intro ev hev
  have := h ev hev
  rcases ev with _ | _ | ⟨i, data, _ | n⟩ | _ | _ | _ | _ <;> try rfl
  simp only [Event.OfWriting] at this
  simp [Event.accepted, this, hj.symm]

/-- Between two worlds, stream `k` accepted `data`, and nothing else of interest happened. -/
def Accepts (k : ℕ) (w w' : Recorded ω) (data : Bytes) : Prop :=
  ∃ t, w'.trace = w.trace ++ t ∧ (∀ ev ∈ t, ev.OfWriting k) ∧ written k t = data

variable {w w' w'' : Recorded ω} {data data' : Bytes}

theorem Accepts.refl (k : ℕ) (w : Recorded ω) : Accepts k w w [] := ⟨[], by simp, by simp, rfl⟩

theorem Accepts.trans (h : Accepts k w w' data) (h' : Accepts k w' w'' data') :
    Accepts k w w'' (data ++ data') := by
  obtain ⟨t, ht, hof, rfl⟩ := h
  obtain ⟨t', ht', hof', rfl⟩ := h'
  refine ⟨t ++ t', by rw [ht', ht, List.append_assoc], ?_, written_append k t t'⟩
  intro ev hev
  exact (List.mem_append.mp hev).elim (hof ev) (hof' ev)

theorem Accepts.of_event {ev : Event} (h : w'.trace = w.trace ++ [ev]) (hof : ev.OfWriting k)
    (hdata : ev.accepted k = data) : Accepts k w w' data :=
  ⟨[ev], h, by simpa using hof, by simp [written, hdata]⟩

theorem accepts_now (io : Ports ω) (w : Recorded ω) : Accepts k w ((io.recorded k).now w).2 [] :=
  .of_event rfl trivial rfl

theorem accepts_notifyWrite (io : Ports ω) (data : Bytes) (w : Recorded ω) :
    Accepts k w ((io.recorded k).notifyWrite data w) [] := by
  refine Ports.recorded_notifyWrite_rule (P := fun w' : Recorded ω => Accepts k w w' []) ?_
    (.refl k w)
  intro l w' w'' htrace h
  have hl : Accepts k w' w'' [] := .of_event htrace trivial rfl
  exact h.trans hl

theorem accepts_write {st : IOStream ω} {n} (h : (st.recorded k).write data w = (.ok n, w')) :
    Accepts k w w' (data.take n.val) := by
  obtain ⟨hr, rfl⟩ := Prod.mk.inj h
  exact .of_event rfl rfl (by simp [hr, Except.map, Event.accepted])

theorem accepts_write_threw {st : IOStream ω} {x : Exn}
    (h : (st.recorded k).write data w = (.error x, w')) :
    Accepts k w w' [] ∧ ∃ ev ∈ w'.trace, ev.Throws x := by
  obtain ⟨hr, rfl⟩ := Prod.mk.inj h
  refine ⟨.of_event rfl rfl (by simp [hr, Except.map, Event.accepted]), _, by simp; right; rfl, ?_⟩
  simp [hr, Except.map, Event.Throws]

theorem accepts_waitWrite {st : IOStream ω} {t : Time} {r}
    (h : (st.recorded k).waitWrite t w = (r, w')) :
    Accepts k w w' [] ∧ ∀ x, r = .error x → ∃ ev ∈ w'.trace, ev.Throws x := by
  obtain ⟨hr, rfl⟩ := Prod.mk.inj h
  refine ⟨.of_event rfl rfl rfl, ?_⟩
  rintro x rfl
  exact ⟨_, by simp; right; rfl, by simp [hr, Event.Throws]⟩

/-- `R w n` says that the first `n` bytes of `buffer` have been accepted in `w`, and `T w x` that
`x` has been thrown: what `writePacket` does keeps the one and gives the other. -/
structure WritesPieces (io : Ports ω) (stream : IOStream ω) (buffer : Bytes) (R : ω → ℕ → Prop)
    (T : ω → Exn → Prop) : Prop where
  now : ∀ {w n}, R w n → R (io.now w).2 n
  notifyWrite : ∀ {w n} data, R w n → R (io.notifyWrite data w) n
  write : ∀ {w n c w'}, R w n → stream.write (buffer.drop n) w = (.ok c, w') → R w' (n + c.val)
  write_threw : ∀ {w n x w'}, R w n → stream.write (buffer.drop n) w = (.error x, w') →
    R w' n ∧ T w' x
  waitWrite : ∀ {w n t r w'}, R w n → stream.waitWrite t w = (r, w') →
    R w' n ∧ ∀ x, r = .error x → T w' x

/-- How the loop of `writePacket` ends: all of the packet was accepted, or the call throws before
that. -/
def WriteOutcome (buffer : Bytes) (T : Exn → Prop) (r : Except Exn Bool) (n : ℕ) : Prop :=
  r = .ok true ∧ n = buffer.length ∨
    (n = 0 ∨ n < buffer.length) ∧ ∃ x, r = .error x ∧ (x.IsTimeout ∨ T x)

theorem writeIteration_pieces {io : Ports ω} {stream : IOStream ω} {buffer : Bytes}
    {R : ω → ℕ → Prop} {T : ω → Exn → Prop} (h : WritesPieces io stream buffer R T)
    (timeOut : Timeout) (s : WriteState ω)
    (hs : R s.world s.written ∧ (s.written = 0 ∨ s.written < buffer.length)) :
    (writeIteration io stream buffer timeOut s).Holds
      (fun s => R s.world s.written ∧ (s.written = 0 ∨ s.written < buffer.length))
      fun b => ∃ n, R b.2 n ∧ WriteOutcome buffer (T b.2) b.1 n := by
  obtain ⟨hR, hpart⟩ := hs
  unfold writeIteration
  rcases hwrite : stream.write (buffer.drop s.written) s.world with ⟨x | ⟨n, hn⟩, w₁⟩
  · obtain ⟨hR, hthrew⟩ := h.write_threw hR hwrite
    exact ⟨s.written, hR, .inr ⟨hpart, x, rfl, .inr hthrew⟩⟩
  have hle : n ≤ buffer.length - s.written := by simpa using hn
  -- the listeners are told what has been accepted
  have hpiece := h.notifyWrite ((buffer.drop s.written).take n) (h.write hR hwrite)
  dsimp only at hpiece ⊢
  generalize io.notifyWrite ((buffer.drop s.written).take n) w₁ = w₂ at hpiece ⊢
  by_cases hall : s.written + n = buffer.length
  · rw [if_pos hall]
    exact ⟨_, hpiece, .inl ⟨rfl, hall⟩⟩
  rw [if_neg hall]
  have hless : s.written + n < buffer.length := by omega
  have hnow := h.now hpiece
  by_cases helapsed : timeOut.elapsed (timevalOf (io.now w₂).1) = true
  · rw [if_pos helapsed]
    exact ⟨_, hnow, .inr ⟨.inr hless, _, rfl, .inl trivial⟩⟩
  rw [if_neg helapsed]
  rcases hwait : stream.waitWrite _ (io.now (io.now w₂).2).2 with ⟨x | _ | _, w₃⟩
  all_goals obtain ⟨hwaited, hthrew⟩ := h.waitWrite (h.now hnow) hwait
  · exact ⟨_, hwaited, .inr ⟨.inr hless, x, rfl, .inr (hthrew x rfl)⟩⟩
  · exact ⟨_, hwaited, .inr ⟨.inr hless, _, rfl, .inl trivial⟩⟩
  · exact ⟨hwaited, .inr hless⟩

theorem writePacketMilliseconds_pieces {io : Ports ω} {stream : IOStream ω}
    (hio : io.stream = some stream) {buffer : Bytes} {R : ω → ℕ → Prop} {T : ω → Exn → Prop}
    (h : WritesPieces io stream buffer R T) {fuel : ℕ} {timeout : ℤ} {w : ω} (hw : R w 0) {r d' w'}
    (hr : d.writePacketMilliseconds io fuel buffer timeout w = some (r, d', w')) :
    (∃ stats, d' = d.withStats stats) ∧ ∃ n, R w' n ∧ WriteOutcome buffer (T w') r n := by
  simp only [Driver.writePacketMilliseconds, hio] at hr
  rcases hrun : run (writeIteration io stream buffer _) fuel (WriteState.mk (io.now w).2 0) with
    _ | ⟨r₀, w₀⟩
  · rw [hrun] at hr
    cases hr
  have hend : ∃ n, R w₀ n ∧ WriteOutcome buffer (T w₀) r₀ n :=
    run_rule (Q := fun b : Except Exn Bool × ω => ∃ n, R b.2 n ∧ WriteOutcome buffer (T b.2) b.1 n)
      (writeIteration_pieces h _) ⟨h.now hw, .inl rfl⟩ hrun
  rw [hrun] at hr
  rcases r₀ with x | r₀ <;> cases hr
  · exact ⟨⟨d.stats, rfl⟩, hend⟩
  · exact ⟨⟨_, rfl⟩, hend⟩

/-- How `writePacket` ends: all of the packet was accepted, or part of it, the call throwing. -/
structure WriteEnd (k : ℕ) (d : Driver) (buffer : Bytes) (w : Recorded ω) (r : Except Exn Bool)
    (d' : Driver) (w' : Recorded ω) (n : ℕ) : Prop where
  driver : ∃ stats, d' = d.withStats stats
  accepts : Accepts k w w' (buffer.take n)
  result : r = .ok true ∧ n = buffer.length ∨
    ∃ x, r = .error x ∧ (x.IsTimeout ∨ ∃ ev ∈ w'.trace, ev.Throws x)

theorem accepts_pieces (io : Ports ω) (stream : IOStream ω) (buffer : Bytes) (w : Recorded ω) :
    WritesPieces (io.recorded k) (stream.recorded k) buffer
      (fun w' n => Accepts k w w' (buffer.take n))
      (fun w' x => ∃ ev ∈ w'.trace, ev.Throws x) where
  now h := by simpa using h.trans (accepts_now io _)
  notifyWrite data h := by simpa using h.trans (accepts_notifyWrite io data _)
  write h hwrite := by
    rw [List.take_add]
    exact h.trans (accepts_write hwrite)
  write_threw h hwrite := by
    obtain ⟨hadd, hthrew⟩ := accepts_write_threw hwrite
    exact ⟨by simpa using h.trans hadd, hthrew⟩
  waitWrite h hwait := by
    obtain ⟨hadd, hthrew⟩ := accepts_waitWrite hwait
    exact ⟨by simpa using h.trans hadd, hthrew⟩

theorem writePacket_end {io : Ports ω} {stream : IOStream ω} (hio : io.stream = some stream)
    {buffer : Bytes} {fuel : ℕ} {timeout : Time} {w : Recorded ω} {r d' w'}
    (h : d.writePacket (io.recorded k) fuel buffer timeout w = some (r, d', w')) :
    ∃ n, WriteEnd k d buffer w r d' w' n := by
  have hstream := Ports.recorded_opened k hio
  obtain ⟨hdriver, n, haccepts, hresult⟩ := writePacketMilliseconds_pieces hstream
    (accepts_pieces io stream buffer w) (.refl k w) h
  exact ⟨n, hdriver, haccepts, hresult.imp_right And.right⟩

end IodriversBase
