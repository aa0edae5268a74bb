import IodriversBase.Calls
import IodriversBase.Samples

namespace IodriversBase

open Framing

variable {ω : Type} {e : Bytes → ℤ} {E : Extract ω} {s t : Sys ω} {d d' : Driver}
  {cs : List Bytes}

def Status.total (stats : Status) : UInt32 := stats.goodRx + stats.badRx + stats.queuedBytes

def Driver.accounted (d : Driver) : UInt32 := d.getStatus.1.total

def CountsOnce (e : Bytes → ℤ) (extractLast : Bool) (b : Bytes) : Prop :=
  extractLast = true → Settled e (lastPacket e b).rest

theorem ofInt_natCast (n : ℕ) : UInt32.ofInt n = UInt32.ofNat n := by
  have h : ((n : ℤ) % 2 ^ 32).toNat = n % 2 ^ 32 := by omega
  rw [UInt32.ofInt, h, UInt32.ofNat_mod_size]

theorem Driver.accounted_count (d : Driver) (bad good : ℕ) :
    (d.withStats (d.stats.count bad good)).accounted = d.accounted + UInt32.ofNat (bad + good) := by
  simp only [Driver.accounted, Driver.getStatus, Status.total, Status.count, Driver.withStats,
    ofInt_natCast, UInt32.ofNat_add]
  ac_rfl

theorem Driver.accounted_append (d : Driver) (data : Bytes) (h) :
    (d.append data h).accounted = d.accounted + UInt32.ofNat data.length := by
  simp only [Driver.accounted, Driver.getStatus, Status.total, Driver.append_internalBuffer,
    Driver.append_stats, List.length_append, UInt32.ofNat_add]
  ac_rfl

theorem Driver.accounted_dropFront {d : Driver} {n : ℕ} (h : n ≤ d.internalBuffer.length) :
    (d.dropFront n).accounted + UInt32.ofNat n = d.accounted := by
  simp only [Driver.accounted, Driver.getStatus, Status.total, Driver.dropFront_internalBuffer,
    Driver.dropFront_stats, List.length_drop]
  rw [UInt32.add_assoc, ← UInt32.ofNat_add, Nat.sub_add_cancel h]

theorem Status.scanned_eq_count (hb : InBounds e) {extractLast : Bool} {b : Bytes}
    (h : CountsOnce e extractLast b) (stats : Status) : ∃ bad good : ℕ,
      stats.scanned e extractLast b = stats.count bad good ∧
      bad + good = (cut e extractLast b).skipped.length + (cut e extractLast b).packet.length := by
  cases extractLast with
  | false => exact ⟨_, _, rfl, rfl⟩
  | true => exact ⟨_, _, rfl, tally_of_settled_rest hb b (h rfl)⟩

theorem Driver.accounted_scanned (hb : InBounds e)
    (h : CountsOnce e d.extractLast d.internalBuffer) : (d.scanned e).accounted = d.accounted := by
  obtain ⟨bad, good, hcount, hsum⟩ := Status.scanned_eq_count hb h d.stats
  have hjoin := congrArg List.length (cut_join e d.extractLast d.internalBuffer)
  simp only [List.length_append] at hjoin
  have hdrop := Driver.accounted_dropFront (n := bad + good)
    (d := d.withStats (d.stats.count bad good)) (by rw [Driver.withStats_internalBuffer]; omega)
  rw [Driver.accounted_count] at hdrop
  rw [Driver.scanned, hcount, ← hsum]
  exact (UInt32.add_left_inj _).mp hdrop

theorem Fed.accounted (hb : InBounds e) (h : Fed e d cs d')
    (hcounts : ∀ b ∈ scans (leftOver e d.extractLast) d.internalBuffer cs,
      CountsOnce e d.extractLast b) :
    d'.accounted = d.accounted + UInt32.ofNat cs.flatten.length := by
  induction h with
  | start =>
    rw [Driver.accounted_scanned hb (hcounts _ (List.mem_singleton_self _))]
    simp
  | @chunk cs d₁ c hc hfed ih =>
    rw [scans_append] at hcounts
    have hown : CountsOnce e d₁.extractLast (d₁.internalBuffer ++ c) := by
      rw [hfed.internalBuffer, hfed.extractLast]
      exact hcounts _ (List.mem_append_right _ (List.mem_singleton_self _))
    rw [Driver.accounted_scanned hb hown, Driver.accounted_append,
      ih fun b hmem => hcounts b (List.mem_append_left _ hmem)]
    simp only [List.flatten_append, List.length_append, List.flatten_cons, List.flatten_nil,
      List.length_nil, Nat.add_zero, UInt32.ofNat_add]
    ac_rfl

/-- `hasPacket` removes nothing, and in the last-packet mode counts what it scans. -/
theorem Driver.accounted_counted (h : d.extractLast = true → Settled e d.internalBuffer) :
    (d.withStats (counted e d.extractLast d.internalBuffer d.stats)).accounted = d.accounted := by
  cases hlast : d.extractLast with
  | false => rfl
  | true =>
    rw [counted_settled (h hlast)]
    rfl

/-- The calls whose bytes are accounted for. -/
def Op.Counts : Op ω → Prop
  | .readPacket _ _ _ | .hasPacket | .getStatus | .setExtractLastPacket _ => True
  | _ => False

instance : DecidablePred (Op.Counts : Op ω → Prop)
  | .readPacket _ _ _ | .hasPacket | .getStatus | .setExtractLastPacket _ => isTrue trivial
  | .readRaw _ _ _ _ | .writePacket _ _ | .resetStatus | .clear | .setMainStream _ | .close =>
    isFalse not_false

def Sys.CountsOnce (e : Bytes → ℤ) (s : Sys ω) (call : Op ω × Answer) (t : Sys ω) : Prop :=
  match call.1 with
  | .readPacket _ _ _ =>
    ∀ b ∈ scans (leftOver e s.driver.extractLast) s.driver.internalBuffer (s.reads t),
      IodriversBase.CountsOnce e s.driver.extractLast b
  | .hasPacket => s.driver.extractLast = true → Settled e s.driver.internalBuffer
  | _ => True

/-- A call whose bytes are accounted for, and each of them once. -/
def Sys.CountingStep (E : Extract ω) (e : Bytes → ℤ) (s : Sys ω) (call : Op ω × Answer)
    (t : Sys ω) : Prop :=
  Sys.Step E s call t ∧ call.1.Counts ∧ s.CountsOnce e call t

structure Accounts (io : Ports ω) (s : Sys ω) : Prop where
  io : s.io = io
  number : s.number = 0
  bytes : UInt32.ofNat (received 0 s.world.trace).length = s.driver.accounted

theorem Accounts.step (hb : InBounds e) (hE : E.Answers e) {io : Ports ω} (hio : io.stream ≠ none)
    {call : Op ω × Answer} (hs : Accounts io s) (h : s.CountingStep E e call t) :
    Accounts io t := by
  obtain ⟨op, a⟩ := call
  obtain ⟨hstep, hop, hcounts⟩ := h
  cases op with
  | readPacket n packetTimeout firstByteTimeout =>
    have hpacket := hstep.readPacket hb hE
    obtain ⟨htio, htnum⟩ := hpacket.io
    rcases hpacket.fed (hs.io ▸ hio) with ⟨rfl, _⟩ | ⟨cs, hfed, hadds, _⟩
    · exact hs
    have hrec : received s.number t.world.trace =
        received s.number s.world.trace ++ cs.flatten := by
      rcases hadds with hadds | hadds <;> simpa using received_of_adds hadds
    -- the last read of a call may have returned nothing, and then it is not scanned
    have hscans : ∀ b ∈ scans (leftOver e s.driver.extractLast) s.driver.internalBuffer cs,
        CountsOnce e s.driver.extractLast b := by
      intro b hmem
      rcases hadds with hadds | hadds
      · exact hcounts b (by rwa [Sys.reads_of_adds hadds])
      · exact hcounts b (by rw [Sys.reads_of_adds hadds]; exact mem_scans_append [] hmem)
    refine ⟨htio.trans hs.io, htnum.trans hs.number, ?_⟩
    rw [hs.number] at hrec
    rw [hfed.accounted hb hscans, hrec, List.length_append, UInt32.ofNat_add, hs.bytes]
  | hasPacket =>
    obtain ⟨fuel, hstep⟩ := hstep
    rw [Sys.perform, hasPacket_eq hb hE.recorded] at hstep
    cases hstep
    refine ⟨hs.io, hs.number, ?_⟩
    have hrec := received_of_adds (adds_effects (k := 0) E
      (asked e s.driver.extractLast s.driver.internalBuffer) s.world)
    rw [List.flatten_nil, List.append_nil] at hrec
    rw [Driver.accounted_counted hcounts, hrec, hs.bytes]
  | getStatus =>
    obtain ⟨fuel, hstep⟩ := hstep
    cases hstep
    exact ⟨hs.io, hs.number, hs.bytes⟩
  | setExtractLastPacket flag =>
    obtain ⟨fuel, hstep⟩ := hstep
    cases hstep
    exact ⟨hs.io, hs.number, hs.bytes⟩
  | _ => exact absurd hop id

/-- **Byte accounting**: on a fresh driver with a stream, every byte read is counted exactly once,
as long as every scan that counts also removes what it counts. -/
theorem bytes_are_counted_once (hb : InBounds e) (hE : E.Answers e) {io : Ports ω}
    (hio : io.stream ≠ none) {M : ℕ} {extractLast : Bool} {w : ω}
    {calls : List (Op ω × Answer)}
    (h : Lts.Run (Sys.CountingStep E e) (.start io (.new M extractLast) w) calls t) :
    UInt32.ofNat (received 0 t.world.trace).length =
      t.driver.getStatus.1.goodRx + t.driver.getStatus.1.badRx +
        t.driver.getStatus.1.queuedBytes := by
  have hstart : Accounts io (.start io (.new M extractLast) w) := ⟨rfl, rfl, rfl⟩
  exact (h.invariant (fun s call t hs hst => hs.step hb hE hio hst) hstart).bytes

/-- A packet in the last-packet mode, with nothing behind it; then the mode is switched. -/
theorem bytes_are_counted_once_sample : ∃ a t,
    Lts.Run (Sys.CountingStep (.pure driverTestExtractPacket) driverTestExtractPacket)
      (.start Script.ports (.new 100 true) [[0, 1, 2, 0]])
      [(.readPacket 100 0 0, a), (.setExtractLastPacket false, .done)] t ∧
    received 0 t.world.trace = [0, 1, 2, 0] ∧ UInt32.ofNat (received 0 t.world.trace).length =
      t.driver.getStatus.1.goodRx + t.driver.getStatus.1.badRx +
        t.driver.getStatus.1.queuedBytes := by
  let start : Sys Script := .start Script.ports (.new 100 true) [[0, 1, 2, 0]]
  obtain ⟨a, t, hstep, hreads, hrec⟩ := Sys.exists_step (.pure driverTestExtractPacket) 5 start
    (.readPacket 100 0 0)
    (fun a t => start.reads t = [[0, 1, 2, 0], []] ∧ received 0 t.world.trace = [0, 1, 2, 0])
    (by decide +kernel)
  have hcut : lastPacket driverTestExtractPacket [0, 1, 2, 0] = ⟨[], [0, 1, 2, 0], []⟩ := by
    have he : driverTestExtractPacket [0, 1, 2, 0] = 4 := by decide
    rw [lastPacket, dif_neg (by simp [Settled, he]), he]
    simp [lastPacket_settled settled_nil]
  have hcounts : start.CountsOnce driverTestExtractPacket (.readPacket 100 0 0, a) t := by
    change ∀ b ∈ scans (leftOver _ true) [] (start.reads t), CountsOnce _ true b
    have hnil := lastPacket_settled (E := driverTestExtractPacket) settled_nil
    simp [hreads, scans, leftOver, cut, CountsOnce, hcut, hnil, settled_nil]
  have hrun : Lts.Run (Sys.CountingStep (.pure driverTestExtractPacket) driverTestExtractPacket)
      start [(.readPacket 100 0 0, a), (.setExtractLastPacket false, .done)]
      { t with driver := t.driver.setExtractLastPacket false } :=
    .cons ⟨hstep, trivial, hcounts⟩ (.single ⟨⟨0, rfl⟩, trivial, trivial⟩)
  exact ⟨a, _, hrun, hrec, bytes_are_counted_once driverTest_inBounds (Extract.answers_pure _)
    (show Script.ports.stream ≠ none by simp [Script.ports]) hrun⟩

/-- Two bytes of garbage in the last-packet mode: the second one is counted by a scan, stays in
the buffer, and is counted again. -/
theorem bytes_are_counted_twice : ∃ calls t,
    Sys.Run (.pure driverTestExtractPacket) (.start Script.ports (.new 100 true) [[7, 7]]) calls t ∧
      (∀ call ∈ calls, call.1.Counts) ∧ (received 0 t.world.trace).length = 2 ∧
      t.driver.getStatus.1 = ⟨0, 0, 2, 1⟩ :=
  Sys.exists_run (.pure driverTestExtractPacket) 5
    (.start Script.ports (.new 100 true) [[7, 7]]) [.readPacket 100 0 0]
    (fun calls t => (∀ call ∈ calls, call.1.Counts) ∧ (received 0 t.world.trace).length = 2 ∧
      t.driver.getStatus.1 = ⟨0, 0, 2, 1⟩) (by decide +kernel)

end IodriversBase
