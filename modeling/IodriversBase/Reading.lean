import IodriversBase.Extraction
import IodriversBase.Recording

namespace IodriversBase

open Framing Loop

variable {ω : Type} {e : Bytes → ℤ} {k : ℕ}

/-- What one iteration does, for an extractor that stays in bounds. -/
inductive ReadCase (E : Extract ω) (e : Bytes → ℤ) (io : Ports ω) (stream : IOStream ω)
    (s : ReadState ω) : Next (ReadState ω) (Except Exn (Bytes × Bool) × Driver × ω) → Prop
  | threw {x : Exn} {w : ω} :
      stream.read (s.driver.maxPacketSize - s.driver.internalBuffer.length) s.world =
        (.error x, w) →
      ReadCase E e io stream s (.done (.error x, s.driver, w))
  | noData {c} {w : ω} :
      stream.read (s.driver.maxPacketSize - s.driver.internalBuffer.length) s.world = (.ok c, w) →
      c.val = [] →
      ReadCase E e io stream s (.done (.ok (s.packet, s.receivedSomething), s.driver, w))
  | packet {c} {w : ω} :
      stream.read (s.driver.maxPacketSize - s.driver.internalBuffer.length) s.world = (.ok c, w) →
      c.val ≠ [] → s.driver.extractLast = false →
      (cut e false (s.driver.internalBuffer ++ c.val)).packet ≠ [] →
      ReadCase E e io stream s
        (.done (.ok ((cut e false (s.driver.internalBuffer ++ c.val)).packet, true),
          (s.driver.append c.val c.property).scanned e,
          E.effects (asked e false (s.driver.internalBuffer ++ c.val)) (io.notifyRead c.val w)))
  | full {c} {w : ω} :
      stream.read (s.driver.maxPacketSize - s.driver.internalBuffer.length) s.world = (.ok c, w) →
      c.val ≠ [] →
      (s.driver.extractLast = false →
        (cut e false (s.driver.internalBuffer ++ c.val)).packet = []) →
      ((s.driver.append c.val c.property).scanned e).internalBuffer.length =
        s.driver.maxPacketSize →
      ReadCase E e io stream s
        (.done (.error (.lengthError "readPacket(): current packet too large for buffer"),
          (s.driver.append c.val c.property).scanned e,
          E.effects (asked e s.driver.extractLast (s.driver.internalBuffer ++ c.val))
            (io.notifyRead c.val w)))
  | again {c} {w : ω} :
      stream.read (s.driver.maxPacketSize - s.driver.internalBuffer.length) s.world = (.ok c, w) →
      c.val ≠ [] →
      (s.driver.extractLast = false →
        (cut e false (s.driver.internalBuffer ++ c.val)).packet = []) →
      ((s.driver.append c.val c.property).scanned e).internalBuffer.length ≠
        s.driver.maxPacketSize →
      ReadCase E e io stream s
        (.again ⟨(s.driver.append c.val c.property).scanned e,
          E.effects (asked e s.driver.extractLast (s.driver.internalBuffer ++ c.val))
            (io.notifyRead c.val w),
          if (cut e s.driver.extractLast (s.driver.internalBuffer ++ c.val)).packet ≠ [] then
            (cut e s.driver.extractLast (s.driver.internalBuffer ++ c.val)).packet
          else s.packet, true⟩)

theorem readIteration_cases (hb : InBounds e) {E : Extract ω} (hE : E.Answers e) (io : Ports ω)
    (stream : IOStream ω) (s : ReadState ω) :
    ReadCase E e io stream s (readIteration E io stream s) := by
  rcases hread : stream.read (s.driver.maxPacketSize - s.driver.internalBuffer.length) s.world
    with ⟨x | c, w⟩
  · simpa only [readIteration, hread] using .threw hread
  by_cases hc : c.val = []
  · simpa only [readIteration, hread, hc, List.length_nil, gt_iff_lt, lt_self_iff_false,
      if_false] using .noData hread hc
  have hne : (s.driver.append c.val c.property).internalBuffer ≠ [] := by
    simp [Driver.append, hc]
  have hextract := doPacketExtraction_eq hb hE hne (io.notifyRead c.val w)
  have hpos : c.val.length > 0 := List.length_pos_iff.mpr hc
  simp only [readIteration, hread, hpos, if_true, hextract]
  change ReadCase E e io stream s
    (if (cut e s.driver.extractLast (s.driver.internalBuffer ++ c.val)).packet.length > 0 ∧
      ¬ s.driver.extractLast = true then _ else
        if _ = s.driver.maxPacketSize then _ else _)
  simp only [gt_iff_lt, List.length_pos_iff]
  by_cases hp : (cut e s.driver.extractLast (s.driver.internalBuffer ++ c.val)).packet ≠ [] ∧
      ¬ s.driver.extractLast = true
  · have hlast : s.driver.extractLast = false := by simpa using hp.2
    rw [if_pos hp]
    have h : ReadCase E e io stream s _ :=
      .packet hread hc hlast (by simpa [hlast] using hp.1)
    rw [← hlast] at h
    exact h
  -- the loop goes on in the first mode only without a packet
  have hquiet : s.driver.extractLast = false →
      (cut e false (s.driver.internalBuffer ++ c.val)).packet = [] := by
    intro hlast
    by_contra hpacket
    exact hp ⟨by rwa [hlast], by simp [hlast]⟩
  rw [if_neg hp]
  by_cases hfull : ((s.driver.append c.val c.property).scanned e).internalBuffer.length =
      s.driver.maxPacketSize
  · rw [if_pos hfull]
    exact .full hread hc hquiet hfull
  · rw [if_neg hfull]
    exact .again hread hc hquiet hfull

theorem readPacketInternal_eq (hb : InBounds e) {E : Extract ω} (hE : E.Answers e) (io : Ports ω)
    (stream : IOStream ω) (fuel : ℕ) {d : Driver} {outBufferSize : ℕ}
    (hsize : d.maxPacketSize ≤ outBufferSize) (w : ω) :
    d.readPacketInternal E io stream fuel outBufferSize w =
      if (cut e d.extractLast d.internalBuffer).packet ≠ [] ∧ ¬ d.extractLast = true then
        some (.ok ((cut e d.extractLast d.internalBuffer).packet, false), d.scanned e,
          E.effects (asked e d.extractLast d.internalBuffer) w)
      else
        run (readIteration E io stream) fuel ⟨d.scanned e,
          E.effects (asked e d.extractLast d.internalBuffer) w,
          (cut e d.extractLast d.internalBuffer).packet, false⟩ := by
  rw [Driver.readPacketInternal, if_neg (by omega)]
  by_cases hne : d.internalBuffer = []
  · rw [if_neg (by simp [hne]), Driver.scanned_of_nil e hne, hne, asked, if_pos rfl]
    simp [Extract.effects]
  · rw [if_pos (List.length_pos_iff.mpr hne), doPacketExtraction_eq hb hE hne]
    simp only [gt_iff_lt, List.length_pos_iff, Driver.scanned_extractLast]

/-- The driver scans its buffer, and again with each chunk behind what is left. -/
inductive Fed (e : Bytes → ℤ) (d : Driver) : List Bytes → Driver → Prop
  | start : Fed e d [] (d.scanned e)
  | chunk {cs : List Bytes} {d' : Driver} (c : Bytes)
      (h : c.length ≤ d'.maxPacketSize - d'.internalBuffer.length) :
      Fed e d cs d' → Fed e d (cs ++ [c]) ((d'.append c h).scanned e)

def found (e : Bytes → ℤ) (extractLast : Bool) (b : Bytes) (cs : List Bytes) : List Bytes :=
  (scans (leftOver e extractLast) b cs).flatMap fun b => asList (cut e extractLast b).packet

variable {d d' d'' : Driver} {cs cs' : List Bytes}

@[simp] theorem found_nil (e : Bytes → ℤ) (extractLast : Bool) (b : Bytes) :
    found e extractLast b [] = asList (cut e extractLast b).packet := by
  simp [found, scans]

theorem found_append (e : Bytes → ℤ) (extractLast : Bool) (b : Bytes) (cs : List Bytes) (c : Bytes)
    (cs' : List Bytes) : found e extractLast b (cs ++ c :: cs') = found e extractLast b cs ++
      found e extractLast (absorb (leftOver e extractLast) b cs ++ c) cs' := by
  simp [found, scans_append]

theorem ne_nil_of_mem_found {extractLast : Bool} {b p : Bytes}
    (hp : p ∈ found e extractLast b cs) : p ≠ [] := by
  obtain ⟨b', _, hp⟩ := List.mem_flatMap.mp hp
  unfold asList at hp
  split_ifs at hp with h
  · cases hp
  · rwa [List.mem_singleton.mp hp]

theorem Fed.extractLast (h : Fed e d cs d') : d'.extractLast = d.extractLast := by
  induction h with
  | start => rfl
  | chunk c hc _ ih => exact ih

theorem Fed.maxPacketSize (h : Fed e d cs d') : d'.maxPacketSize = d.maxPacketSize := by
  induction h with
  | start => rfl
  | chunk c hc _ ih => exact ih

theorem Fed.internalBuffer (h : Fed e d cs d') :
    d'.internalBuffer = absorb (leftOver e d.extractLast) d.internalBuffer cs := by
  induction h with
  | start => exact d.scanned_internalBuffer e
  | chunk c hc h ih =>
    rw [absorb_append, ← ih, Driver.scanned_internalBuffer, Driver.append_extractLast,
      h.extractLast]
    rfl

theorem Fed.stats (h : Fed e d cs d') :
    d'.stats = (scans (leftOver e d.extractLast) d.internalBuffer cs).foldl
      (fun stats b => stats.scanned e d.extractLast b) d.stats := by
  induction h with
  | start => rfl
  | chunk c hc h ih =>
    rw [scans_append, List.foldl_append, ← ih, ← h.internalBuffer, ← h.extractLast]
    rfl

theorem Fed.again (h : Fed e d cs d') : Fed e d (cs ++ [[]]) (d'.scanned e) := by
  have happend : d'.append [] (Nat.zero_le _) = d' := by
    rcases d' with ⟨b, M, last, rt, wt, stats, fits⟩
    simp [Driver.append]
  simpa [happend] using h.chunk [] (Nat.zero_le _)

theorem Fed.trans (h : Fed e d cs d') (h' : Fed e d' cs' d'') : Fed e d (cs ++ [] :: cs') d'' := by
  induction h' with
  | start => exact h.again
  | chunk c hc _ ih => simpa using ih.chunk c hc

abbrev Driver.finds (e : Bytes → ℤ) (d : Driver) (cs : List Bytes) : List Bytes :=
  found e d.extractLast d.internalBuffer cs

theorem Driver.finds_nil (e : Bytes → ℤ) (d : Driver) :
    d.finds e [] = asList (cut e d.extractLast d.internalBuffer).packet := found_nil ..

theorem Fed.finds_trans (h : Fed e d cs d') (cs' : List Bytes) :
    d.finds e (cs ++ [] :: cs') = d.finds e cs ++ d'.finds e cs' := by
  simp only [Driver.finds]
  rw [found_append, List.append_nil, ← h.internalBuffer, h.extractLast]

theorem Fed.finds_chunk (h : Fed e d cs d') (c : Bytes) :
    d.finds e (cs ++ [c]) =
      d.finds e cs ++ asList (cut e d'.extractLast (d'.internalBuffer ++ c)).packet := by
  rw [Driver.finds, found_append, ← h.internalBuffer, found_nil, h.extractLast]

/-- The extractor in a recorded world. -/
def Extract.recorded (E : Extract ω) : Extract (Recorded ω) :=
  fun b w => ((E b w.world).1, ⟨(E b w.world).2, w.trace⟩)

theorem Extract.Answers.recorded {E : Extract ω} (hE : E.Answers e) : E.recorded.Answers e :=
  fun b w => hE b w.world

theorem adds_effects (E : Extract ω) (bs : List Bytes) (w : Recorded ω) :
    Adds k w (E.recorded.effects bs w) [] := by
  induction bs generalizing w with
  | nil => exact .refl k w
  | cons b bs ih => exact (Adds.of_trace rfl).trans (ih _)

theorem getLast_append_asList (ps : List Bytes) (p : Bytes) :
    (ps ++ asList p).getLast?.getD [] = if p ≠ [] then p else ps.getLast?.getD [] := by
  unfold asList
  by_cases hp : p = [] <;> simp [hp]

inductive InternalEnd (e : Bytes → ℤ) (k : ℕ) (d : Driver) (w : Recorded ω) :
    Except Exn (Bytes × Bool) × Driver × Recorded ω → Prop
  | packet {cs d' w' p r} : Fed e d cs d' → d.extractLast = false → d.finds e cs = [p] →
      Adds k w w' cs → InternalEnd e k d w (.ok (p, r), d', w')
  | noData {cs d' w' r} : Fed e d cs d' → (d.extractLast = false → d.finds e cs = []) →
      Adds k w w' (cs ++ [[]]) →
      InternalEnd e k d w (.ok ((d.finds e cs).getLast?.getD [], r), d', w')
  | full {cs d' w'} : Fed e d cs d' → (d.extractLast = false → d.finds e cs = []) →
      Adds k w w' cs → d'.internalBuffer.length = d.maxPacketSize → d'.internalBuffer ≠ [] →
      InternalEnd e k d w
        (.error (.lengthError "readPacket(): current packet too large for buffer"), d', w')
  | threw {cs d' w' x} : Fed e d cs d' → (d.extractLast = false → d.finds e cs = []) →
      Adds k w w' cs → (∃ ev ∈ w'.trace, ev.Throws x) → InternalEnd e k d w (.error x, d', w')

theorem readPacketInternal_end (hb : InBounds e) {E : Extract ω} (hE : E.Answers e) {io : Ports ω}
    {stream : IOStream ω} {fuel outBufferSize : ℕ} (hsize : d.maxPacketSize ≤ outBufferSize)
    {w : Recorded ω} {r}
    (h : d.readPacketInternal E.recorded (io.recorded k) (stream.recorded k) fuel outBufferSize w =
      some r) : InternalEnd e k d w r := by
  rw [readPacketInternal_eq hb hE.recorded _ _ _ hsize] at h
  split_ifs at h with hp
  · cases h
    have hlast : d.extractLast = false := by simpa using hp.2
    exact .packet .start hlast (by simp [Driver.finds, asList, hp.1]) (adds_effects E _ _)
  -- at the head of the loop
  let I : ReadState (Recorded ω) → Prop := fun s => ∃ cs, Fed e d cs s.driver ∧
    Adds k w s.world cs ∧ s.packet = (d.finds e cs).getLast?.getD [] ∧
    (d.extractLast = false → d.finds e cs = [])
  refine run_rule (I := I) ?_ ?_ h
  · rintro s ⟨cs, hfed, hadds, hpacket, hquiet⟩
    have hlast := hfed.extractLast
    have hcases := readIteration_cases hb hE.recorded (io.recorded k) (stream.recorded k) s
    generalize readIteration E.recorded (io.recorded k) (stream.recorded k) s = next at hcases ⊢
    cases hcases with
    | threw hread =>
      obtain ⟨hadd, hthrew⟩ := adds_read_threw hread
      exact .threw hfed hquiet (by simpa using hadds.trans hadd) hthrew
    | noData hread hc =>
      have hadd := hadds.trans (adds_read hread)
      rw [hc] at hadd
      rw [Next.holds_done, hpacket]
      exact .noData hfed hquiet hadd
    | @packet c w₁ hread hc hfirst hp =>
      have hadd := ((hadds.trans (adds_read hread)).trans (adds_notifyRead io c.val w₁)).trans
        (adds_effects E (asked e false (s.driver.internalBuffer ++ c.val)) _)
      rw [List.append_nil, List.append_nil] at hadd
      refine .packet (hfed.chunk c.val c.property) (hlast ▸ hfirst) ?_ hadd
      rw [hfed.finds_chunk, hquiet (hlast ▸ hfirst), hfirst]
      simp [asList, hp]
    | @full c w₁ hread hc hnone hfull =>
      have hadd := ((hadds.trans (adds_read hread)).trans (adds_notifyRead io c.val w₁)).trans
        (adds_effects E (asked e s.driver.extractLast (s.driver.internalBuffer ++ c.val)) _)
      rw [List.append_nil, List.append_nil] at hadd
      refine .full (hfed.chunk c.val c.property) (fun hf => ?_) hadd
        (hfull.trans hfed.maxPacketSize) ?_
      · rw [hfed.finds_chunk, hquiet hf, hlast, hf, hnone (hlast.trans hf)]
        rfl
      · -- there was room for the chunk
        have hroom := c.property
        have hpos := List.length_pos_iff.mpr hc
        exact List.length_pos_iff.mp (by omega)
    | @again c w₁ hread hc hnone hfull =>
      have hadd := ((hadds.trans (adds_read hread)).trans (adds_notifyRead io c.val w₁)).trans
        (adds_effects E (asked e s.driver.extractLast (s.driver.internalBuffer ++ c.val)) _)
      rw [List.append_nil, List.append_nil] at hadd
      refine ⟨_, hfed.chunk c.val c.property, hadd, ?_, fun hf => ?_⟩
      · rw [hfed.finds_chunk, getLast_append_asList, hpacket]
      · rw [hfed.finds_chunk, hquiet hf, hlast, hf, hnone (hlast.trans hf)]
        rfl
  · refine ⟨[], .start, adds_effects E _ _, ?_, fun hf => ?_⟩
    · rw [Driver.finds_nil, ← List.nil_append (asList _), getLast_append_asList]
      by_cases hc : (cut e d.extractLast d.internalBuffer).packet = [] <;> simp [hc]
    · rw [Driver.finds_nil, asList, if_pos]
      by_contra hc
      exact hp ⟨hc, by simp [hf]⟩

/-- How `readPacket` ends.  In the last mode a call that fails loses the packets it has found. -/
inductive Outcome (e : Bytes → ℤ) (k : ℕ) (d : Driver) (w : Recorded ω) :
    Except Exn Bytes × Driver × Recorded ω → Prop
  | packet {cs d' w' p} : Fed e d cs d' → p ≠ [] → (d.finds e cs).getLast? = some p →
      (d.extractLast = false → d.finds e cs = [p]) →
      Adds k w w' (if d.extractLast then cs ++ [[]] else cs) → Outcome e k d w (.ok p, d', w')
  | timeout {cs d' w' x} : Fed e d cs d' → d.finds e cs = [] → Adds k w w' (cs ++ [[]]) →
      x.IsTimeout → Outcome e k d w (.error x, d', w')
  | full {cs d' w'} : Fed e d cs d' → (d.extractLast = false → d.finds e cs = []) →
      Adds k w w' cs → d'.internalBuffer.length = d.maxPacketSize → d'.internalBuffer ≠ [] →
      Outcome e k d w
        (.error (.lengthError "readPacket(): current packet too large for buffer"), d', w')
  | threw {cs d' w' x} : Fed e d cs d' → (d.extractLast = false → d.finds e cs = []) →
      (Adds k w w' cs ∨ Adds k w w' (cs ++ [[]])) → (∃ ev ∈ w'.trace, ev.Throws x) →
      Outcome e k d w (.error x, d', w')

/-- However a call ends, the driver has been fed what was read; the last read may have returned
nothing. -/
theorem Outcome.fed {w w' : Recorded ω} {r} (h : Outcome e k d w (r, d', w')) :
    ∃ cs, Fed e d cs d' ∧ (Adds k w w' cs ∨ Adds k w w' (cs ++ [[]])) ∧
      ∀ p, r = .ok p → (d.finds e cs).getLast? = some p := by
  cases h with
  | packet hfed _ hlast _ hadds =>
    refine ⟨_, hfed, ?_, fun p hp => by cases hp; exact hlast⟩
    split_ifs at hadds
    · exact .inr hadds
    · exact .inl hadds
  | timeout hfed _ hadds _ => exact ⟨_, hfed, .inr hadds, by simp⟩
  | full hfed _ hadds _ _ => exact ⟨_, hfed, .inl hadds, by simp⟩
  | threw hfed _ hadds _ => exact ⟨_, hfed, hadds, by simp⟩

def Waiting (e : Bytes → ℤ) (k : ℕ) (d : Driver) (w : Recorded ω) (d₁ : Driver)
    (w₁ : Recorded ω) : Prop :=
  (d₁ = d ∧ Adds k w w₁ []) ∨
    ∃ cs, Fed e d cs d₁ ∧ d.finds e cs = [] ∧ Adds k w w₁ (cs ++ [[]])

theorem Waiting.extractLast {w w₁ : Recorded ω} {d₁ : Driver} (h : Waiting e k d w d₁ w₁) :
    d₁.extractLast = d.extractLast := by
  obtain ⟨rfl, _⟩ | ⟨cs, hfed, _⟩ := h
  · rfl
  · exact hfed.extractLast

theorem Waiting.maxPacketSize {w w₁ : Recorded ω} {d₁ : Driver} (h : Waiting e k d w d₁ w₁) :
    d₁.maxPacketSize = d.maxPacketSize := by
  obtain ⟨rfl, _⟩ | ⟨cs, hfed, _⟩ := h
  · rfl
  · exact hfed.maxPacketSize

theorem Waiting.resume {w w₁ : Recorded ω} {d₁ d₂ : Driver} (h : Waiting e k d w d₁ w₁)
    (hfed : Fed e d₁ cs d₂) : ∃ cs₀, Fed e d cs₀ d₂ ∧ d.finds e cs₀ = d₁.finds e cs ∧
      ∀ t w₂, Adds k w₁ w₂ (cs ++ t) → Adds k w w₂ (cs₀ ++ t) := by
  obtain ⟨rfl, hadds⟩ | ⟨cs₁, hfed₁, hnone, hadds⟩ := h
  · exact ⟨cs, hfed, rfl, fun t w₂ hadd => hadds.trans hadd⟩
  · refine ⟨cs₁ ++ [] :: cs, hfed₁.trans hfed, by rw [hfed₁.finds_trans, hnone, List.nil_append],
      fun t w₂ hadd => ?_⟩
    simpa using hadds.trans hadd

theorem eq_nil_of_getLast?_getD {ps : List Bytes} (hne : ∀ p ∈ ps, p ≠ [])
    (h : ps.getLast?.getD [] = []) : ps = [] := by
  by_contra hps
  rw [List.getLast?_eq_getLast_of_ne_nil hps] at h
  exact hne _ (List.getLast_mem hps) h

def Idled (e : Bytes → ℤ) (k : ℕ) (d : Driver) (w : Recorded ω) (d' : Driver) (w' : Recorded ω) :
    Prop := ∃ cs, Fed e d cs d' ∧ d.finds e cs = [] ∧ Adds k w w' (cs ++ [[]])

section Ends

variable {w w' w₁ : Recorded ω} {d₁ : Driver} {something : Bool} {p : Bytes} {x : Exn}

theorem InternalEnd.idle (h : InternalEnd e k d w (.ok ([], something), d', w')) :
    Idled e k d w d' w' := by
  generalize hr : (Except.ok ([], something), d', w') = r at h
  cases h with
  | packet hfed hfirst hfinds hadds =>
    cases hr
    exact absurd rfl (ne_nil_of_mem_found (hfinds ▸ List.mem_singleton_self []))
  | full => cases hr
  | threw => cases hr
  | noData hfed hquiet hadds =>
    obtain ⟨hpacket, rfl, rfl⟩ : _ ∧ _ ∧ _ := by simpa using hr
    exact ⟨_, hfed, eq_nil_of_getLast?_getD (fun _ => ne_nil_of_mem_found) hpacket.1, hadds⟩

theorem Waiting.idle (hs : Waiting e k d w d₁ w₁)
    (h : InternalEnd e k d₁ w₁ (.ok ([], something), d', w')) : Idled e k d w d' w' := by
  obtain ⟨cs, hfed, hnone, hadds⟩ := h.idle
  obtain ⟨cs₀, hfed₀, hfinds₀, hadds₀⟩ := hs.resume hfed
  exact ⟨cs₀, hfed₀, hfinds₀.trans hnone, hadds₀ _ _ hadds⟩

theorem Idled.adds (h : Idled e k d w d' w₁) (hadds : Adds k w₁ w' []) : Idled e k d w d' w' := by
  obtain ⟨cs, hfed, hnone, hcs⟩ := h
  exact ⟨cs, hfed, hnone, by simpa using hcs.trans hadds⟩

theorem Idled.now (h : Idled e k d w d' w₁) (io : Ports ω) :
    Idled e k d w d' ((io.recorded k).now w₁).2 := h.adds (adds_now io w₁)

theorem Idled.waitRead (h : Idled e k d w d' w₁) {stream : IOStream ω} {t : Time} {r}
    (hwait : (stream.recorded k).waitRead t w₁ = (r, w')) : Idled e k d w d' w' :=
  h.adds (adds_waitRead hwait).1

theorem Idled.timeout (h : Idled e k d w d' w') (hx : x.IsTimeout) :
    Outcome e k d w (.error x, d', w') := by
  obtain ⟨cs, hfed, hnone, hadds⟩ := h
  exact .timeout hfed hnone hadds hx

theorem Idled.threw (h : Idled e k d w d' w') (hx : ∃ ev ∈ w'.trace, ev.Throws x) :
    Outcome e k d w (.error x, d', w') := by
  obtain ⟨cs, hfed, hnone, hadds⟩ := h
  exact .threw hfed (fun _ => hnone) (.inr hadds) hx

theorem Waiting.threw (hs : Waiting e k d w d₁ w₁)
    (h : InternalEnd e k d₁ w₁ (.error x, d', w')) : Outcome e k d w (.error x, d', w') := by
  cases h with
  | full hfed hquiet hadds hfull hne =>
    obtain ⟨cs₀, hfed₀, hfinds₀, hadds₀⟩ := hs.resume hfed
    refine .full hfed₀ (fun hf => hfinds₀.trans (hquiet (hs.extractLast.trans hf))) ?_
      (hfull.trans hs.maxPacketSize) hne
    simpa using hadds₀ [] _ (by simpa using hadds)
  | threw hfed hquiet hadds hthrew =>
    obtain ⟨cs₀, hfed₀, hfinds₀, hadds₀⟩ := hs.resume hfed
    refine .threw hfed₀ (fun hf => hfinds₀.trans (hquiet (hs.extractLast.trans hf))) (.inl ?_)
      hthrew
    simpa using hadds₀ [] _ (by simpa using hadds)

theorem Waiting.packet (hs : Waiting e k d w d₁ w₁) (hp : p ≠ [])
    (h : InternalEnd e k d₁ w₁ (.ok (p, something), d', w')) :
    Outcome e k d w (.ok p, d', w') := by
  cases h with
  | packet hfed hfirst hfinds hadds =>
    obtain ⟨cs₀, hfed₀, hfinds₀, hadds₀⟩ := hs.resume hfed
    rw [hfinds] at hfinds₀
    refine .packet hfed₀ hp (by simp [hfinds₀]) (fun _ => hfinds₀) ?_
    rw [if_neg (by simp [← hs.extractLast, hfirst])]
    simpa using hadds₀ [] _ (by simpa using hadds)
  | noData hfed hquiet hadds =>
    -- a packet that is not followed by data: the last mode
    obtain ⟨cs₀, hfed₀, hfinds₀, hadds₀⟩ := hs.resume hfed
    rw [hs.extractLast, ← hfinds₀] at hquiet
    rw [← hfinds₀] at hp ⊢
    have hne : d.finds e cs₀ ≠ [] := fun h0 => hp (by rw [h0]; rfl)
    have htrue : d.extractLast = true := by
      by_contra hf
      exact hne (hquiet (by simpa using hf))
    refine .packet hfed₀ hp ?_ (by simp [htrue]) (by simpa [htrue] using hadds₀ _ _ hadds)
    rw [List.getLast?_eq_getLast_of_ne_nil hne]
    rfl

end Ends

theorem readPacket_end (hb : InBounds e) {E : Extract ω} (hE : E.Answers e) {io : Ports ω}
    {stream : IOStream ω} (hio : io.stream = some stream) {fuel bufferSize : ℕ}
    (hsize : d.maxPacketSize ≤ bufferSize) {packetTimeout firstByteTimeout : Time}
    {w : Recorded ω} {r}
    (h : d.readPacket E.recorded (io.recorded k) fuel bufferSize packetTimeout firstByteTimeout w =
      some r) : Outcome e k d w r := by
  rw [Driver.readPacket, if_neg (by omega), Ports.recorded_opened k hio] at h
  refine run_rule (I := fun s => Waiting e k d w s.driver s.world) ?_ (.inl ⟨rfl, adds_now io w⟩) h
  intro s hs
  have hend {b} (hint : s.driver.readPacketInternal E.recorded (io.recorded k)
      (stream.recorded k) fuel bufferSize s.world = some b) : InternalEnd e k s.driver s.world b :=
    readPacketInternal_end hb hE (by rw [hs.maxPacketSize]; exact hsize) hint
  have hstep := waitIteration_step E.recorded (io.recorded k) (stream.recorded k) fuel bufferSize
    packetTimeout ((io.recorded k).now w).1 s
  generalize waitIteration E.recorded (io.recorded k) (stream.recorded k) fuel bufferSize
    packetTimeout ((io.recorded k).now w).1 s = next at hstep ⊢
  cases hstep with
  | lost _ => trivial
  | threw hint => exact hs.threw (hend hint)
  | packet hint hp => exact hs.packet hp (hend hint)
  | noTimeout hint _ => exact (hs.idle (hend hint)).timeout trivial
  | late hint _ => exact ((hs.idle (hend hint)).now io).timeout trivial
  | waitThrew hint _ hwait =>
    exact (((hs.idle (hend hint)).now io).waitRead hwait).threw ((adds_waitRead hwait).2 _ rfl)
  | waitedOut hint _ hwait =>
    exact ((((hs.idle (hend hint)).now io).waitRead hwait).now io).timeout trivial
  | ready hint _ hwait => exact .inr (((hs.idle (hend hint)).now io).waitRead hwait)

/-- The buffer has been scanned, perhaps repeatedly, and no byte was read. -/
def Drained (e : Bytes → ℤ) (d : Driver) (ps : List Bytes) (d' : Driver) : Prop :=
  ∃ cs, cs.flatten = [] ∧ Fed e d cs d' ∧ d.finds e cs = ps

theorem Drained.again {ps : List Bytes} (h : Drained e d ps d') :
    Drained e d (ps ++ asList (cut e d.extractLast d'.internalBuffer).packet) (d'.scanned e) := by
  obtain ⟨cs, hcs, hfed, rfl⟩ := h
  refine ⟨cs ++ [[]], by simp [hcs], hfed.again, ?_⟩
  rw [hfed.finds_trans, Driver.finds_nil, hfed.extractLast]

/-- At the head of the loop of `extractPacketFromInternalBuffer`: it goes round again only in
the last mode, behind a packet. -/
def Draining (E : Extract ω) (e : Bytes → ℤ) (d : Driver) (w : ω) (s : DrainState ω) : Prop :=
  (∃ bs, s.world = E.effects bs w) ∧ ((s.driver = d ∧ s.result = []) ∨
    d.extractLast = true ∧ ∃ ps, Drained e d ps s.driver ∧ s.result = ps.getLast?.getD [])

theorem Draining.extractLast {E : Extract ω} {w : ω} {s : DrainState ω}
    (h : Draining E e d w s) : s.driver.extractLast = d.extractLast := by
  obtain ⟨_, ⟨hd, _⟩ | ⟨_, _, ⟨_, _, hfed, _⟩, _⟩⟩ := h
  · rw [hd]
  · exact hfed.extractLast

structure DrainEnd (E : Extract ω) (e : Bytes → ℤ) (d : Driver) (w : ω) (ps : List Bytes)
    (d' : Driver) (w' : ω) : Prop where
  drained : Drained e d ps d'
  first : d.extractLast = false → ps.length ≤ 1
  world : ∃ bs, w' = E.effects bs w

theorem Draining.stop {E : Extract ω} {w : ω} {s : DrainState ω} (hs : Draining E e d w s)
    (hne : s.driver.internalBuffer = []) : ∃ ps, s.result = ps.getLast?.getD [] ∧
      DrainEnd E e d w ps s.driver s.world := by
  obtain ⟨hworld, ⟨rfl, hres⟩ | ⟨htrue, ps, hps, hres⟩⟩ := hs
  · refine ⟨[], hres, ⟨[], rfl, ?_, ?_⟩, by simp, hworld⟩
    · simpa only [Driver.scanned_of_nil e hne] using Fed.start (e := e) (d := s.driver)
    · rw [Driver.finds_nil, hne, cut_nil]
      rfl
  · exact ⟨ps, hres, hps, by simp [htrue], hworld⟩

theorem Draining.scan {E : Extract ω} {w : ω} {s : DrainState ω} (hs : Draining E e d w s) :
    ∃ ps, ps.getLast?.getD [] = (if (cut e d.extractLast s.driver.internalBuffer).packet ≠ [] then
        (cut e d.extractLast s.driver.internalBuffer).packet else s.result) ∧
      DrainEnd E e d w ps (s.driver.scanned e)
        (E.effects (asked e s.driver.extractLast s.driver.internalBuffer) s.world) := by
  obtain ⟨⟨bs, hbs⟩, hs⟩ := hs
  have hworld : ∃ bs', E.effects (asked e s.driver.extractLast s.driver.internalBuffer) s.world =
      E.effects bs' w := ⟨bs ++ asked e s.driver.extractLast s.driver.internalBuffer, by
    rw [hbs, Extract.effects, Extract.effects, Extract.effects, List.foldl_append]⟩
  obtain ⟨rfl, hres⟩ | ⟨htrue, ps, hps, hres⟩ := hs
  · refine ⟨asList (cut e s.driver.extractLast s.driver.internalBuffer).packet, ?_,
      ⟨[], rfl, .start, Driver.finds_nil e s.driver⟩, fun _ => ?_, hworld⟩
    · rw [← List.nil_append (asList _), getLast_append_asList, hres]
      rfl
    · unfold asList
      split_ifs <;> simp
  · exact ⟨_, by rw [getLast_append_asList, hres], hps.again, by simp [htrue], hworld⟩

theorem drainIteration_draining (hb : InBounds e) {E : Extract ω} (hE : E.Answers e) {w : ω}
    {s : DrainState ω} (hs : Draining E e d w s) :
    (∃ s', drainIteration E s = .again s' ∧ Draining E e d w s' ∧
      s'.driver.internalBuffer.length < s.driver.internalBuffer.length) ∨
    ∃ r, drainIteration E s = .done r ∧ ∃ ps d' w', r = (.ok (ps.getLast?.getD [], false), d', w') ∧
      DrainEnd E e d w ps d' w' := by
  have hlast := hs.extractLast
  by_cases hne : s.driver.internalBuffer = []
  · obtain ⟨ps, hres, hend⟩ := hs.stop hne
    exact .inr ⟨_, by rw [drainIteration, if_neg (by simp [hne])], ps, _, _, by rw [hres], hend⟩
  obtain ⟨ps, hresult, hend⟩ := hs.scan
  have hbody : drainIteration E s =
      if (cut e d.extractLast s.driver.internalBuffer).packet = [] ∨ ¬ d.extractLast = true then
        .done (.ok (ps.getLast?.getD [], false), s.driver.scanned e,
          E.effects (asked e s.driver.extractLast s.driver.internalBuffer) s.world)
      else .again ⟨s.driver.scanned e,
        E.effects (asked e s.driver.extractLast s.driver.internalBuffer) s.world,
        ps.getLast?.getD []⟩ := by
    rw [drainIteration, if_pos (List.length_pos_iff.mpr hne), doPacketExtraction_eq hb hE hne,
      hresult, ← hlast]
    simp only [List.length_eq_zero_iff, gt_iff_lt, List.length_pos_iff, Driver.scanned_extractLast]
  by_cases hstop : (cut e d.extractLast s.driver.internalBuffer).packet = [] ∨
    ¬ d.extractLast = true
  · exact .inr ⟨_, by rw [hbody, if_pos hstop], ps, _, _, rfl, hend⟩
  · obtain ⟨hp, htrue⟩ := not_or.mp hstop
    refine .inl ⟨_, by rw [hbody, if_neg hstop],
      ⟨hend.world, .inr ⟨not_not.mp htrue, ps, hend.drained, rfl⟩⟩, ?_⟩
    have hjoin := congrArg List.length (cut_join e d.extractLast s.driver.internalBuffer)
    have := List.length_pos_iff.mpr hp
    simp only [List.length_append] at hjoin
    rw [Driver.scanned_internalBuffer, hlast, leftOver]
    omega

/-- The loop of `extractPacketFromInternalBuffer` ends, with the last packet there is. -/
theorem extractPacketFromInternalBuffer_end (hb : InBounds e) {E : Extract ω} (hE : E.Answers e)
    (d : Driver) (w : ω) : ∃ ps d' w', d.extractPacketFromInternalBuffer E w =
      some (.ok (ps.getLast?.getD [], false), d', w') ∧ DrainEnd E e d w ps d' w' := by
  obtain ⟨_, hrun, ps, d', w', rfl, hps⟩ := run_total (s := ⟨d, w, []⟩) _
    (fun s hs => drainIteration_draining hb hE hs) ⟨⟨[], rfl⟩, .inl ⟨rfl, rfl⟩⟩ (Nat.lt_succ_self _)
  exact ⟨ps, d', w', hrun, hps⟩

/-- How `readPacket` ends without a stream: always, and with the packet that is there, if any. -/
theorem readPacket_end_closed (hb : InBounds e) {E : Extract ω} (hE : E.Answers e) {io : Ports ω}
    (hio : io.stream = none) (fuel : ℕ) {bufferSize : ℕ} (hsize : d.maxPacketSize ≤ bufferSize)
    (packetTimeout firstByteTimeout : Time) (w : ω) : ∃ ps d' w',
      d.readPacket E io fuel bufferSize packetTimeout firstByteTimeout w =
        some (if ps = [] then
            .error (.timeoutError .packet ("readPacket(): no packet in the internal " ++
              "buffer and no stream to read from"))
          else .ok (ps.getLast?.getD []), d', w') ∧ DrainEnd E e d w ps d' w' := by
  obtain ⟨ps, d', w', hextract, hend⟩ := extractPacketFromInternalBuffer_end hb hE d w
  refine ⟨ps, d', w', ?_, hend⟩
  have hne : ∀ p ∈ ps, p ≠ [] := by
    obtain ⟨cs, _, _, rfl⟩ := hend.drained
    exact fun _ => ne_nil_of_mem_found
  rw [Driver.readPacket, if_neg (by omega), hio]
  simp only [hextract, gt_iff_lt, List.length_pos_iff]
  by_cases h0 : ps = []
  · simp [h0]
  · rw [if_pos fun h => h0 (eq_nil_of_getLast?_getD hne h), if_neg h0]

end IodriversBase
