import IodriversBase.Forward
import IodriversBase.Samples

namespace IodriversBase

open Framing Loop

variable {ω : Type} {e e1 e2 : Bytes → ℤ} {d d' : Driver} {cs : List Bytes}

/-- In the first-packet mode an extraction takes the first packet off the parse. -/
theorem parse_cut (hb : InBounds e) (b : Bytes) :
    parse e b = asList (cut e false b).packet ++ parse e (leftOver e false b) := by
  obtain ⟨ms, hms⟩ := cut_moves hb false b
  rw [← hms.first rfl]
  exact parse_scanning hms.run hms.scanning

/-- Every buffer that is scanned while the driver is fed holds at most one packet. -/
def AtMostOne (e : Bytes → ℤ) (d : Driver) (cs : List Bytes) : Prop :=
  ∀ b ∈ scans (leftOver e false) d.internalBuffer cs, (parse e b).length ≤ 1

theorem parse_leftOver_of_one (hb : InBounds e) {b : Bytes} (hone : (parse e b).length ≤ 1) :
    parse e (leftOver e false b) = [] := by
  by_cases hp : (cut e false b).packet = []
  · exact parse_leftOver (.inr hp)
  · have hlen := congrArg List.length (parse_cut hb b)
    simp only [asList, hp, if_false, List.length_append, List.length_singleton] at hlen
    exact List.length_eq_zero_iff.mp (by omega)

theorem Fed.parse_eq_nil_of_one (hb : InBounds e) (h : Fed e d cs d') (hf : d.extractLast = false)
    (hone : AtMostOne e d cs) : parse e d'.internalBuffer = [] := by
  cases h with
  | start =>
    rw [Driver.scanned_internalBuffer, hf]
    exact parse_leftOver_of_one hb (hone _ (List.mem_singleton_self _))
  | @chunk cs d₁ c hc hfed =>
    have hlast := hfed.extractLast.trans hf
    have hmem : d₁.internalBuffer ++ c ∈ scans (leftOver e false) d.internalBuffer (cs ++ [c]) := by
      rw [hfed.internalBuffer, hf, scans_append]
      exact List.mem_append_right _ (List.mem_singleton_self _)
    rw [Driver.scanned_internalBuffer, Driver.append_internalBuffer, Driver.append_extractLast,
      hlast]
    exact parse_leftOver_of_one hb (hone _ hmem)

theorem hasPacket_eq_false (hb : InBounds e) {E : Extract ω} (hE : E.Answers e)
    (hf : d.extractLast = false) (hnil : parse e d.internalBuffer = []) (w : ω) :
    (d.hasPacket E w).map Prod.fst = some (.ok false) := by
  have hp : (cut e false d.internalBuffer).packet = [] := by
    have h := (parse_cut hb d.internalBuffer).symm.trans hnil
    by_contra hp
    simp [asList, hp] at h
  rw [hasPacket_eq hb hE, hf]
  simp [hp]

variable {f : Forwarder ω} {fuel : ℕ} {fd1 fd2 : ℤ} {s s' t : ForwardState (Recorded ω)}

/-- What the reads of stream `k` returned from `s` to `t`. -/
def ForwardState.reads (k : ℕ) (s t : ForwardState (Recorded ω)) : List Bytes :=
  chunks k (t.world.trace.drop s.world.trace.length)

/-- Neither buffer holds a packet. -/
structure Idle (e1 e2 : Bytes → ℤ) (s : ForwardState ω) : Prop where
  first1 : s.driver1.extractLast = false
  first2 : s.driver2.extractLast = false
  parse1 : parse e1 s.driver1.internalBuffer = []
  parse2 : parse e2 s.driver2.internalBuffer = []

/-- An iteration in which every buffer that is scanned holds at most one packet. -/
def Forwarder.SparseStep (f : Forwarder ω) (e1 e2 : Bytes → ℤ) (fuel : ℕ) (fd1 fd2 : ℤ)
    (s t : ForwardState (Recorded ω)) : Prop :=
  Loop.Step (f.recorded.iteration fuel fd1 fd2) s t ∧
    AtMostOne e1 s.driver1 (s.reads 1 t) ∧ AtMostOne e2 s.driver2 (s.reads 2 t)

/-- What one direction of an iteration does: the one driver is fed, if it is served at all, and
the other one only written to. -/
structure PassEnd (e : Bytes → ℤ) (j k : ℕ) (source target : Driver) (w : Recorded ω)
    (source' target' : Driver) (w' : Recorded ω) (cs : List Bytes) : Prop where
  source : source' = source ∨
    ∃ cs', Fed e source cs' source' ∧ (cs = cs' ∨ cs = cs' ++ [[]])
  target : ∃ stats, target' = target.withStats stats
  transfers : ∃ out, Transfers j k w w' cs out

theorem PassEnd.refl (e : Bytes → ℤ) (j k : ℕ) (source target : Driver) (w : Recorded ω) :
    PassEnd e j k source target w source target w [] :=
  ⟨.inl rfl, ⟨target.stats, rfl⟩, [], .of_adds k (.refl j w)⟩

theorem forwardData_passEnd {E : Extract ω} {j k : ℕ} {ioFrom ioTo : Ports ω}
    {source target source' target' : Driver} {w w' : Recorded ω} {bufferSize size : ℕ}
    {timeout : Time} (hb : InBounds e) (hE : E.Answers e) (hf : source.extractLast = false)
    (hfrom : ioFrom.stream ≠ none) (hto : ioTo.stream ≠ none)
    (h : forwardData false E.recorded (ioFrom.recorded j) (ioTo.recorded k) fuel bufferSize timeout
      source target w = some (.ok size, source', target', w')) :
    ∃ cs, PassEnd e j k source target w source' target' w' cs := by
  obtain ⟨cs, hfed, htarget, htransfers | ⟨_, htransfers⟩⟩ :=
    forwardData_packet hb hE hf hfrom hto h
  · exact ⟨cs, .inr ⟨cs, hfed, .inl rfl⟩, htarget, _, htransfers⟩
  · exact ⟨cs ++ [[]], .inr ⟨cs, hfed, .inr rfl⟩, htarget, _, htransfers⟩

theorem PassEnd.parse_eq_nil {j k : ℕ} {source target source' target' : Driver} {w w' : Recorded ω}
    (h : PassEnd e j k source target w source' target' w' cs) (hb : InBounds e)
    (hf : source.extractLast = false) (hnil : parse e source.internalBuffer = [])
    (hone : AtMostOne e source cs) :
    parse e source'.internalBuffer = [] ∧ source'.extractLast = false := by
  obtain rfl | ⟨cs', hfed, hcs⟩ := h.source
  · exact ⟨hnil, hf⟩
  · refine ⟨hfed.parse_eq_nil_of_one hb hf fun b hmem => hone b ?_, hfed.extractLast.trans hf⟩
    obtain rfl | rfl := hcs
    · exact hmem
    · exact mem_scans_append [] hmem

theorem ForwardState.reads_eq {w₀ w₁ : Recorded ω} {cs1 cs2 : List Bytes} {out1 out2 : Bytes}
    (h₀ : w₀.trace = s.world.trace) (h₁ : Transfers 1 2 w₀ w₁ cs1 out1)
    (h₂ : Transfers 2 1 w₁ t.world cs2 out2) : s.reads 1 t = cs1 ∧ s.reads 2 t = cs2 := by
  obtain ⟨new₁, hnew₁, hchunks₁, _⟩ := h₁
  obtain ⟨new₂, hnew₂, hchunks₂, _⟩ := h₂
  have htrace : t.world.trace.drop s.world.trace.length = new₁ ++ new₂ := by
    rw [hnew₂, hnew₁, h₀, List.append_assoc, List.drop_left]
  constructor <;> simp [reads, htrace, hchunks₁, hchunks₂]

/-- The two drivers with their extractors, as `forward` uses them. -/
structure Forwarder.Between (f : Forwarder ω) (e1 e2 : Bytes → ℤ) : Prop where
  inBounds1 : InBounds e1
  inBounds2 : InBounds e2
  answers1 : f.extract1.Answers e1
  answers2 : f.extract2.Answers e2
  stream1 : f.io1.stream ≠ none
  stream2 : f.io2.stream ≠ none

theorem Idle.step (hf : f.Between e1 e2) (hraw : f.rawMode = false) (hs : Idle e1 e2 s)
    (h : f.SparseStep e1 e2 fuel fd1 fd2 s t) : Idle e1 e2 t := by
  obtain ⟨hstep, hone1, hone2⟩ := h
  obtain ⟨_, s₁, hpass1, hpass2, -⟩ := Forwarder.iteration_again hstep
  obtain ⟨cs1, hend1⟩ : ∃ cs, PassEnd e1 1 2 s.driver1 s.driver2
      (f.recorded.select [fd1, fd2] ⟨10, 0⟩ s.world).2 s₁.driver1 s₁.driver2 s₁.world cs := by
    obtain rfl | ⟨size, hdata⟩ := hpass1
    · exact ⟨[], .refl e1 1 2 s.driver1 s.driver2 _⟩
    · exact forwardData_passEnd hf.inBounds1 hf.answers1 hs.first1 hf.stream1 hf.stream2
        (hraw ▸ hdata)
  obtain ⟨stats2, htarget2⟩ := hend1.target
  have hfirst2 : s₁.driver2.extractLast = false := by
    rw [htarget2]
    exact hs.first2
  have hbuffer2 : s₁.driver2.internalBuffer = s.driver2.internalBuffer := by rw [htarget2]; rfl
  -- the first direction has only counted on the second driver
  obtain ⟨cs2, hend2⟩ : ∃ cs, PassEnd e2 2 1 s₁.driver2 s₁.driver1 s₁.world t.driver2 t.driver1
      t.world cs := by
    obtain rfl | ⟨size, hdata⟩ := hpass2
    · exact ⟨[], .refl e2 2 1 t.driver2 t.driver1 t.world⟩
    · exact forwardData_passEnd hf.inBounds2 hf.answers2 hfirst2 hf.stream2 hf.stream1
        (hraw ▸ hdata)
  obtain ⟨stats1, htarget1⟩ := hend2.target
  obtain ⟨_, htransfers1⟩ := hend1.transfers
  obtain ⟨_, htransfers2⟩ := hend2.transfers
  obtain ⟨hreads1, hreads2⟩ := ForwardState.reads_eq rfl htransfers1 htransfers2
  rw [hreads1] at hone1
  rw [hreads2] at hone2
  obtain ⟨hparse1, hlast1⟩ := hend1.parse_eq_nil hf.inBounds1 hs.first1 hs.parse1 hone1
  obtain ⟨hparse2, hlast2⟩ := hend2.parse_eq_nil hf.inBounds2 hfirst2 (by rw [hbuffer2, hs.parse2])
    (by rwa [AtMostOne, hbuffer2])
  refine ⟨?_, hlast2, ?_, hparse2⟩
  · rw [htarget1]
    exact hlast1
  · rw [htarget1]
    exact hparse1

/-- **`forward` never sleeps on a packet**, as long as no driver scans a buffer with more than one:
whenever the loop comes back to `select`, `hasPacket` is false for both drivers. -/
theorem forward_never_sleeps_on_a_packet (hf : f.Between e1 e2) (hraw : f.rawMode = false)
    (hs : Idle e1 e2 s) (h : Relation.ReflTransGen (f.SparseStep e1 e2 fuel fd1 fd2) s t) (w : ω) :
    (t.driver1.hasPacket f.extract1 w).map Prod.fst = some (.ok false) ∧
      (t.driver2.hasPacket f.extract2 w).map Prod.fst = some (.ok false) := by
  have ht : Idle e1 e2 t := by
    induction h with
    | refl => exact hs
    | tail _ hstep ih => exact ih.step hf hraw hstep
  exact ⟨hasPacket_eq_false hf.inBounds1 hf.answers1 ht.first1 ht.parse1 w,
    hasPacket_eq_false hf.inBounds2 hf.answers2 ht.first2 ht.parse2 w⟩

/-- Two drivers of `DriverTest` on one machine, forwarding packets. -/
def Script.forwarder (rawMode : Bool) : Forwarder (Machine Script) :=
  Script.os.forwarder rawMode driverTestExtractPacket driverTestExtractPacket
    (Script.os.ports (some (fdStream Script.os 1 5 true true)) [])
    (Script.os.ports (some (fdStream Script.os 2 6 true true)) []) 0 0 100

theorem Script.between (rawMode : Bool) : (Script.forwarder rawMode).Between
    driverTestExtractPacket driverTestExtractPacket where
  inBounds1 := driverTest_inBounds
  inBounds2 := driverTest_inBounds
  answers1 := Extract.answers_pure _
  answers2 := Extract.answers_pure _
  stream1 := Option.some_ne_none _
  stream2 := Option.some_ne_none _

/-- `forward` is entered with two fresh drivers. -/
def Script.enter (script : Script) : ForwardState (Recorded (Machine Script)) :=
  ⟨.new 100 false, .new 100 false, ⟨.start script, []⟩⟩

/-- One packet in one chunk. -/
theorem forward_never_sleeps_on_a_packet_sample : ∃ t : ForwardState (Recorded (Machine Script)),
    (Script.forwarder false).recorded.iteration 5 5 6 (Script.enter [[0, 1, 2, 0]]) = .again t ∧
    written 2 t.world.trace = [0, 1, 2, 0] ∧
    (t.driver1.hasPacket (Script.forwarder false).extract1 (.start [])).map Prod.fst =
      some (.ok false) := by
  obtain ⟨t, hstep, hreads1, hreads2, hwritten⟩ := Next.exists_again
    (x := (Script.forwarder false).recorded.iteration 5 5 6 (Script.enter [[0, 1, 2, 0]]))
    (fun t => (Script.enter [[0, 1, 2, 0]]).reads 1 t = [[0, 1, 2, 0]] ∧
      (Script.enter [[0, 1, 2, 0]]).reads 2 t = [[]] ∧ written 2 t.world.trace = [0, 1, 2, 0])
    (by decide +kernel)
  have hempty : parse driverTestExtractPacket [] = [] := parse_settled settled_nil
  have hnew : (Driver.new 100 false).internalBuffer = [] := rfl
  have hleft : leftOver driverTestExtractPacket false [] = [] := by simp [leftOver, cut_nil]
  have hsparse : (Script.forwarder false).SparseStep driverTestExtractPacket driverTestExtractPacket
      5 5 6 (Script.enter [[0, 1, 2, 0]]) t := by
    refine ⟨hstep, ?_, ?_⟩
    · rw [hreads1]
      simp [AtMostOne, Script.enter, scans, hnew, hleft, hempty, driverTest_parse]
    · rw [hreads2]
      simp [AtMostOne, Script.enter, scans, hnew, hleft, hempty]
  exact ⟨t, hstep, hwritten, (forward_never_sleeps_on_a_packet (Script.between false) rfl
    ⟨rfl, rfl, hempty, hempty⟩ (.single hsparse) (.start [])).1⟩

/-- Two packets in one chunk: the second one is in the buffer when the loop comes back to
`select`. -/
theorem forward_sleeps_on_a_packet : ∃ t : ForwardState (Recorded (Machine Script)),
    Loop.Step ((Script.forwarder false).recorded.iteration 5 5 6)
      (Script.enter [[0, 1, 2, 0, 0, 3, 4, 0]]) t ∧
    ((Script.forwarder false).recorded.eof t.world).toOption = some false ∧
    written 2 t.world.trace = [0, 1, 2, 0] ∧
    (t.driver1.hasPacket (Script.forwarder false).extract1 (.start [])).map
      (fun r => r.1.toOption) = some (some true) :=
  Next.exists_again _ (by decide +kernel)

end IodriversBase
