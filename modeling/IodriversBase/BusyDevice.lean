import IodriversBase.Reading
import IodriversBase.Samples

namespace IodriversBase

open Framing Loop

variable {ω : Type} {e : Bytes → ℤ}

/-- What the successive reads give, for ever. -/
abbrev Feed := Stream' (Except Exn Bytes)

def readable : Except Exn Bytes → ℕ → Bytes
  | .ok c, room => c.take room
  | .error _, _ => []

/-- The stream that gives what the script says, beside the rest of the world. -/
def Feed.stream : IOStream (Feed × ω) where
  waitRead _ w := (.ok true, w)
  waitWrite _ w := (.ok true, w)
  read n w := (w.1.head.map fun c => ⟨c.take n, List.length_take_le n c⟩, w.1.tail, w.2)
  write data w := (.ok (wroteAll data), w)
  clear w := w
  eof _ := false
  getFileDescriptor _ := -1
  delete w := w

/-- The internal buffer at the head of the loop, and the reads to come. -/
structure Intake where
  buffer : Bytes
  feed : Feed

def Intake.scanned (M : ℕ) (i : Intake) : Bytes :=
  i.buffer ++ readable i.feed.head (M - i.buffer.length)

def Intake.next (e : Bytes → ℤ) (last : Bool) (M : ℕ) (i : Intake) : Intake :=
  ⟨leftOver e last (i.scanned M), i.feed.tail⟩

/-- The next read gives nothing or throws; or there is a packet, which ends the call in the first
mode; or what is left of the bytes fills the buffer. -/
def Intake.Ends (e : Bytes → ℤ) (last : Bool) (M : ℕ) (i : Intake) : Prop :=
  readable i.feed.head (M - i.buffer.length) = [] ∨
    (last = false ∧ (cut e false (i.scanned M)).packet ≠ []) ∨
      (leftOver e last (i.scanned M)).length = M

/-- The output buffer is too small, or there is a packet without reading, or one of the reads ends
the call. -/
def Driver.ComesBack (e : Bytes → ℤ) (d : Driver) (outBufferSize : ℕ) (feed : Feed) : Prop :=
  outBufferSize < d.maxPacketSize ∨
    (d.extractLast = false ∧ (cut e false d.internalBuffer).packet ≠ []) ∨
    ∃ n, Intake.Ends e d.extractLast d.maxPacketSize
      ((Intake.next e d.extractLast d.maxPacketSize)^[n]
        ⟨leftOver e d.extractLast d.internalBuffer, feed⟩)

def ReadState.intake (s : ReadState (Feed × ω)) : Intake := ⟨s.driver.internalBuffer, s.world.1⟩

theorem effects_beside {σ : Type} (E : Extract ω) (bs : List Bytes) (w : σ × ω) :
    (E.beside.effects bs w).1 = w.1 := by
  induction bs generalizing w with
  | nil => rfl
  | cons b bs ih => exact ih _

theorem Extract.Answers.beside {σ : Type} {E : Extract ω} (hE : E.Answers e) :
    (E.beside : Extract (σ × ω)).Answers e := fun b w => hE b w.2

theorem Feed.read_ok {n : ℕ} {w w' : Feed × ω} {c}
    (h : Feed.stream.read n w = (.ok c, w')) : readable w.1.head n = c.val ∧ w'.1 = w.1.tail := by
  obtain ⟨hanswer, rfl⟩ := Prod.mk.inj h
  refine ⟨?_, rfl⟩
  cases hread : w.1.head with
  | error x =>
    rw [hread] at hanswer
    cases hanswer
  | ok data =>
    rw [hread] at hanswer
    cases hanswer
    rfl

theorem Feed.read_error {n : ℕ} {w w' : Feed × ω} {x : Exn}
    (h : Feed.stream.read n w = (.error x, w')) : readable w.1.head n = [] := by
  obtain ⟨hanswer, rfl⟩ := Prod.mk.inj h
  cases hread : w.1.head with
  | error y => rfl
  | ok data =>
    rw [hread] at hanswer
    cases hanswer

section Loop

variable (hb : InBounds e) {E : Extract ω} (hE : E.Answers e) (now : ω → Time × ω)
  (listeners : List (ℕ × IOListener ω)) {s : ReadState (Feed × ω)}

include hb hE

theorem readIteration_ends (h : s.intake.Ends e s.driver.extractLast s.driver.maxPacketSize) :
    ∃ r, readIteration E.beside (portsBeside Feed.stream now listeners) Feed.stream s =
      .done r := by
  have hcases := readIteration_cases hb hE.beside (portsBeside Feed.stream now listeners)
    Feed.stream s
  generalize readIteration E.beside (portsBeside Feed.stream now listeners) Feed.stream s = next
    at hcases ⊢
  cases hcases with
  | again hread hc hquiet hfull =>
    have hchunk := (Feed.read_ok hread).1
    simp only [Intake.Ends, Intake.scanned, ReadState.intake, hchunk] at h
    rcases h with hnone | ⟨hlast, hpacket⟩ | hlength
    · exact absurd hnone hc
    · exact absurd (hquiet hlast) hpacket
    · exact absurd (by rwa [Driver.scanned_internalBuffer]) hfull
  | _ => exact ⟨_, rfl⟩

theorem readIteration_goes (h : ¬ s.intake.Ends e s.driver.extractLast s.driver.maxPacketSize) :
    ∃ s', readIteration E.beside (portsBeside Feed.stream now listeners) Feed.stream s =
        .again s' ∧ s'.driver.extractLast = s.driver.extractLast ∧
      s'.driver.maxPacketSize = s.driver.maxPacketSize ∧
      s'.intake = s.intake.next e s.driver.extractLast s.driver.maxPacketSize := by
  have hcases := readIteration_cases hb hE.beside (portsBeside Feed.stream now listeners)
    Feed.stream s
  generalize readIteration E.beside (portsBeside Feed.stream now listeners) Feed.stream s = next
    at hcases ⊢
  simp only [Intake.Ends, Intake.scanned, ReadState.intake, not_or, not_and_or, not_not] at h
  obtain ⟨hdata, hpacket, hlength⟩ := h
  cases hcases with
  | threw hread => exact absurd (Feed.read_error hread) hdata
  | noData hread hc => exact absurd ((Feed.read_ok hread).1.trans hc) hdata
  | packet hread hc hlast hp =>
    rw [(Feed.read_ok hread).1] at hpacket
    exact absurd (hpacket.resolve_left (not_not.mpr hlast)) hp
  | full hread hc hquiet hfull =>
    rw [(Feed.read_ok hread).1] at hlength
    exact absurd (by rwa [Driver.scanned_internalBuffer] at hfull) hlength
  | @again c w hread hc hquiet hfull =>
    obtain ⟨hchunk, hfeed⟩ := Feed.read_ok hread
    refine ⟨_, rfl, rfl, rfl, ?_⟩
    simp only [ReadState.intake, Intake.next, Intake.scanned, Driver.scanned_internalBuffer,
      effects_beside, notifyRead_beside, hchunk, hfeed, Driver.append_internalBuffer,
      Driver.append_extractLast]

theorem readLoop_ends_iff : (∃ fuel r,
      run (readIteration E.beside (portsBeside Feed.stream now listeners) Feed.stream) fuel s =
        some r) ↔
    ∃ n, Intake.Ends e s.driver.extractLast s.driver.maxPacketSize
      ((Intake.next e s.driver.extractLast s.driver.maxPacketSize)^[n] s.intake) := by
  refine run_ends_iff (I := fun s' => s'.driver.extractLast = s.driver.extractLast ∧
    s'.driver.maxPacketSize = s.driver.maxPacketSize) ?_ ?_ ⟨rfl, rfl⟩
  · intro s' hs' hends
    rw [← hs'.1, ← hs'.2] at hends
    exact readIteration_ends hb hE now listeners hends
  · intro s' hs' hgoes
    rw [← hs'.1, ← hs'.2] at hgoes
    obtain ⟨t, ht, hlast, hmax, hnext⟩ := readIteration_goes hb hE now listeners hgoes
    rw [hs'.1, hs'.2] at hnext
    exact ⟨t, ht, ⟨hlast.trans hs'.1, hmax.trans hs'.2⟩, hnext⟩

theorem readPacketInternal_ends_iff (d : Driver) (outBufferSize : ℕ) (feed : Feed) (w : ω) :
    (∃ fuel r, d.readPacketInternal E.beside (portsBeside Feed.stream now listeners) Feed.stream
        fuel outBufferSize (feed, w) = some r) ↔
      d.ComesBack e outBufferSize feed := by
  unfold Driver.ComesBack
  by_cases hsize : outBufferSize < d.maxPacketSize
  · refine iff_of_true ⟨0, ?_⟩ (.inl hsize)
    rw [Driver.readPacketInternal, if_pos hsize]
    exact ⟨_, rfl⟩
  simp only [readPacketInternal_eq hb hE.beside _ _ _ (not_lt.mp hsize), hsize, false_or]
  by_cases hpacket : d.extractLast = false ∧ (cut e false d.internalBuffer).packet ≠ []
  · refine iff_of_true ⟨0, ?_⟩ (.inl hpacket)
    rw [hpacket.1, if_pos ⟨hpacket.2, Bool.false_ne_true⟩]
    exact ⟨_, rfl⟩
  have hquiet :
      ¬ ((cut e d.extractLast d.internalBuffer).packet ≠ [] ∧ ¬ d.extractLast = true) := by
    intro h
    have hlast : d.extractLast = false := by simpa using h.2
    exact hpacket ⟨hlast, hlast ▸ h.1⟩
  simp only [if_neg hquiet, readLoop_ends_iff hb hE now listeners, hpacket, false_or]
  simp [ReadState.intake, effects_beside]

end Loop

/-- When `readPacketInternal` does not come back, neither does `readPacket`, whatever its
timeouts. -/
theorem readPacket_captured {E : Extract ω} {now : ω → Time × ω}
    {listeners : List (ℕ × IOListener ω)} {d : Driver} {outBufferSize : ℕ} {feed : Feed}
    (hsize : d.maxPacketSize ≤ outBufferSize)
    (h : ∀ fuel w, d.readPacketInternal E.beside (portsBeside Feed.stream now listeners)
      Feed.stream fuel outBufferSize (feed, w) = none) (fuel : ℕ)
    (packetTimeout firstByteTimeout : Time) (w : ω) :
    d.readPacket E.beside (portsBeside Feed.stream now listeners) fuel outBufferSize packetTimeout
      firstByteTimeout (feed, w) = none := by
  have hstream : (portsBeside Feed.stream now listeners).stream = some Feed.stream := rfl
  rw [Driver.readPacket, if_neg (not_lt.mpr hsize)]
  simp only [hstream]
  cases fuel with
  | zero => rfl
  | succ fuel =>
    rw [run, waitIteration]
    have hnone := h (fuel + 1) (now w).2
    simp only [portsBeside] at hnone ⊢
    rw [hnone]

theorem readPacket_never_returns (hb : InBounds e) {E : Extract ω} (hE : E.Answers e)
    {now : ω → Time × ω} {listeners : List (ℕ × IOListener ω)} {d : Driver} {outBufferSize : ℕ}
    {feed : Feed} (h : ¬ d.ComesBack e outBufferSize feed) (fuel : ℕ)
    (packetTimeout firstByteTimeout : Time) (w : ω) :
    d.readPacket E.beside (portsBeside Feed.stream now listeners) fuel outBufferSize packetTimeout
      firstByteTimeout (feed, w) = none := by
  refine readPacket_captured (not_lt.mp fun hsize => h (.inl hsize)) ?_ fuel packetTimeout
    firstByteTimeout w
  intro fuel w
  rw [Option.eq_none_iff_forall_not_mem]
  intro r hr
  have hends := readPacketInternal_ends_iff hb hE now listeners d outBufferSize feed w
  exact h (hends.mp ⟨fuel, r, hr⟩)

/-- On an endless script of reads, `readPacketInternal` comes back exactly when its output buffer
is too small, when it finds a packet without reading, or when one of the reads ends it; and when
it does not, `readPacket` does not either. -/
theorem busy_device_iff (hb : InBounds e) {E : Extract ω} (hE : E.Answers e) (now : ω → Time × ω)
    (listeners : List (ℕ × IOListener ω)) (d : Driver) (outBufferSize : ℕ) (feed : Feed) (w : ω) :
    ((∃ fuel r, d.readPacketInternal E.beside (portsBeside Feed.stream now listeners) Feed.stream
        fuel outBufferSize (feed, w) = some r) ↔ d.ComesBack e outBufferSize feed) ∧
      (¬ d.ComesBack e outBufferSize feed → ∀ fuel packetTimeout firstByteTimeout,
        d.readPacket E.beside (portsBeside Feed.stream now listeners) fuel outBufferSize
          packetTimeout firstByteTimeout (feed, w) = none) := by
  constructor
  · exact readPacketInternal_ends_iff hb hE now listeners d outBufferSize feed w
  · intro h fuel packetTimeout firstByteTimeout
    exact readPacket_never_returns hb hE h fuel packetTimeout firstByteTimeout w

/-- A script that never gives anything. -/
theorem busy_device_iff_sample : ∃ fuel r, (Driver.new 10 false).readPacketInternal
    (Extract.pure driverTestExtractPacket).beside
    (portsBeside Feed.stream (fun w : Unit => (0, w)) []) Feed.stream fuel 10
    (Stream'.const (.ok []), ()) = some r :=
  (busy_device_iff driverTest_inBounds (Extract.answers_pure _) (fun w => (0, w)) [] (.new 10 false)
    10 (Stream'.const (.ok [])) ()).1.mpr (.inr (.inr ⟨0, .inl List.take_nil⟩))

/-- An extractor that skips byte after byte. -/
def skipsAll (_ : Bytes) : ℤ := -1

/-- An extractor that takes everything for a packet. -/
def takesAll (b : Bytes) : ℤ := b.length

theorem skipsAll_inBounds : InBounds skipsAll where
  lower b hb := by
    have := List.length_pos_iff.mpr hb
    simp only [skipsAll]
    omega
  upper b hb := by simp only [skipsAll]; omega

theorem takesAll_inBounds : InBounds takesAll where
  lower b hb := by simp only [takesAll]; omega
  upper b hb := le_rfl

/-- One byte at every read. -/
def endlessBytes : Feed := Stream'.const (.ok [1])

theorem Intake.not_ends_of_fixed {last : Bool} {M : ℕ} {i : Intake} (hnext : i.next e last M = i)
    (h : ¬ i.Ends e last M) (n : ℕ) : ¬ ((Intake.next e last M)^[n] i).Ends e last M := by
  rwa [Function.iterate_fixed hnext]

theorem cut_skipsAll : cut skipsAll false [1] = ⟨[1], [], []⟩ := by
  have hset : ¬ Settled skipsAll [1] := by decide
  have hgo := firstPacket_settled (E := skipsAll) settled_nil
  simp only [cut, Bool.false_eq_true, if_false]
  rw [firstPacket, dif_neg hset, if_neg (by decide)]
  simp [skipsAll, hgo]

theorem cut_takesAll : cut takesAll true [1] = ⟨[], [1], []⟩ := by
  have hset : ¬ Settled takesAll [1] := by decide
  have hgo := lastPacket_settled (E := takesAll) settled_nil
  simp only [cut, if_true]
  rw [lastPacket, dif_neg hset]
  simp [takesAll, hgo]

/-- An extraction that keeps nothing of the one byte, without a packet that ends the call. -/
theorem endlessBytes_not_comesBack {last : Bool} (hleft : leftOver e last [1] = [])
    (hquiet : last = false → (cut e false [1]).packet = []) :
    ¬ (Driver.new 10 last).ComesBack e 10 endlessBytes := by
  have hnext : (⟨[], endlessBytes⟩ : Intake).next e last 10 = ⟨[], endlessBytes⟩ := by
    simp only [Intake.next, Intake.mk.injEq]
    exact ⟨hleft, rfl⟩
  have hends : ¬ (⟨[], endlessBytes⟩ : Intake).Ends e last 10 := by
    rintro (hnone | ⟨hlast, hpacket⟩ | hfull)
    · cases hnone
    · exact hpacket (hquiet hlast)
    · change (leftOver e last [1]).length = 10 at hfull
      simp [hleft] at hfull
  have hempty : leftOver e last [] = [] := by simp [leftOver]
  rintro (hsize | ⟨-, hpacket⟩ | ⟨n, hn⟩)
  · exact absurd hsize (lt_irrefl 10)
  · exact hpacket (by simp [Driver.new])
  · change Intake.Ends e last 10 ((Intake.next e last 10)^[n] ⟨leftOver e last [], endlessBytes⟩)
      at hn
    rw [hempty] at hn
    exact Intake.not_ends_of_fixed hnext hends n hn

/-- A device that sends one byte at every read holds a call with timeouts of a millisecond: in the
first mode with bytes that are skipped, in the last mode with packets. -/
theorem busy_device_captures : InBounds skipsAll ∧ InBounds takesAll ∧
    (∀ fuel, (Driver.new 10 false).readPacket (Extract.pure skipsAll).beside
      (portsBeside Feed.stream (fun w : Unit => (0, w)) []) fuel 10 1000 1000 (endlessBytes, ()) =
        none) ∧
    ∀ fuel, (Driver.new 10 true).readPacket (Extract.pure takesAll).beside
      (portsBeside Feed.stream (fun w : Unit => (0, w)) []) fuel 10 1000 1000 (endlessBytes, ()) =
        none := by
  have hskips : ¬ (Driver.new 10 false).ComesBack skipsAll 10 endlessBytes := by
    apply endlessBytes_not_comesBack
    · rw [leftOver, cut_skipsAll]
    · intro
      rw [cut_skipsAll]
  have htakes : ¬ (Driver.new 10 true).ComesBack takesAll 10 endlessBytes := by
    apply endlessBytes_not_comesBack
    · rw [leftOver, cut_takesAll]
    · intro hlast
      cases hlast
  refine ⟨skipsAll_inBounds, takesAll_inBounds, fun fuel => ?_, fun fuel => ?_⟩
  · have hskip := Extract.answers_pure (ω := Unit) skipsAll
    exact readPacket_never_returns skipsAll_inBounds hskip hskips fuel 1000 1000 ()
  · have htake := Extract.answers_pure (ω := Unit) takesAll
    exact readPacket_never_returns takesAll_inBounds htake htakes fuel 1000 1000 ()

end IodriversBase
