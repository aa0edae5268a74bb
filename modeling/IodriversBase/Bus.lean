import IodriversBase.Packets
import IodriversBase.Samples

namespace IodriversBase

open Framing

variable {ω : Type}

/-- A `Parser`; a `BusHandler` is one with a `packedReady`. -/
structure Parser (ω : Type) where
  extractPacket : Bytes → ℤ
  packedReady : Option (Bytes → ℤ → ω → ω)

/-- A `Bus`.  The mutex is left out: a call runs alone. -/
structure Bus (ω : Type) where
  driver : Driver
  parser : List (Parser ω)
  caller : Option (Parser ω)

/-- The constructor. -/
def Bus.new (maxPacketSize : ℕ) (extractLast : Bool) : Bus ω where
  driver := .new maxPacketSize extractLast
  parser := []
  caller := none

def Bus.addParser (bus : Bus ω) (parser : Parser ω) : Bus ω :=
  { bus with parser := bus.parser ++ [parser] }

def Bus.consult (buffer : Bytes) (s : ℤ × ω) (p : Parser ω) : ℤ × ω :=
  let tmp := p.extractPacket buffer
  let w :=
    if tmp > 0 then
      match p.packedReady with
      | some packedReady => packedReady buffer s.1 s.2
      | none => s.2
    else s.2
  (if |tmp| < s.1 then |tmp| else s.1, w)

def Bus.extractPacket (bus : Bus ω) : Extract ω := fun buffer w =>
  match bus.caller with
  | some p => (p.extractPacket buffer, w)
  | none => bus.parser.foldl (Bus.consult buffer) ((buffer.length : ℤ), w)

def Bus.readPacket (io : Ports ω) (fuel : ℕ) (bus : Bus ω) (bufferSize : ℕ)
    (packetTimeout firstByteTimeout : ℤ) (parser : Option (Parser ω)) (w : ω) :
    Option (Except Exn Bytes × Bus ω × ω) :=
  let bus := { bus with caller := parser }
  match bus.driver.readPacketMilliseconds bus.extractPacket io fuel bufferSize packetTimeout
      firstByteTimeout w with
  | none => none
  | some (.ok p, d, w) => some (.ok p, { bus with driver := d }, w)
  | some (.error x, d, w) => some (.error x, { bus with driver := d, caller := none }, w)

/-- The parsers as functions of the bytes. -/
def Bus.extractors (bus : Bus ω) : List (Bytes → ℤ) := bus.parser.map Parser.extractPacket

def minSkip (es : List (Bytes → ℤ)) (b : Bytes) : ℤ :=
  es.foldl (fun m e => min |e b| m) b.length

variable {es : List (Bytes → ℤ)} {b : Bytes}

theorem Bus.extractPacket_eq {bus : Bus ω} (h : bus.caller = none) (b : Bytes) (w : ω) :
    (bus.extractPacket b w).1 = minSkip bus.extractors b := by
  have key : ∀ (ps : List (Parser ω)) (s : ℤ × ω), (ps.foldl (Bus.consult b) s).1 =
      (ps.map Parser.extractPacket).foldl (fun m e => min |e b| m) s.1 := by
    intro ps
    induction ps with
    | nil => exact fun _ => rfl
    | cons p ps ih =>
      intro s
      rw [List.foldl_cons, ih, List.map_cons, List.foldl_cons]
      congr 1
      simp only [Bus.consult, min_def]
      split_ifs <;> omega
  rw [Bus.extractPacket, h]
  exact key bus.parser _

theorem foldl_min_le (es : List (Bytes → ℤ)) (b : Bytes) (m : ℤ) :
    es.foldl (fun m e => min |e b| m) m ≤ m ∧
      ∀ e ∈ es, es.foldl (fun m e => min |e b| m) m ≤ |e b| := by
  induction es generalizing m with
  | nil => simp
  | cons e es ih =>
    obtain ⟨hle, hall⟩ := ih (min |e b| m)
    refine ⟨hle.trans (min_le_right _ _), fun e' he' => ?_⟩
    rcases List.mem_cons.mp he' with rfl | he'
    · exact hle.trans (min_le_left _ _)
    · exact hall e' he'

theorem foldl_min_mem (es : List (Bytes → ℤ)) (b : Bytes) (m : ℤ) :
    es.foldl (fun m e => min |e b| m) m = m ∨
      ∃ e ∈ es, es.foldl (fun m e => min |e b| m) m = |e b| := by
  induction es generalizing m with
  | nil => exact .inl rfl
  | cons e es ih =>
    rw [List.foldl_cons]
    rcases ih (min |e b| m) with h | ⟨e', he', h⟩
    · rcases min_choice |e b| m with hmin | hmin
      · exact .inr ⟨e, List.mem_cons_self, h.trans hmin⟩
      · exact .inl (h.trans hmin)
    · exact .inr ⟨e', List.mem_cons_of_mem _ he', h⟩

theorem minSkip_le (es : List (Bytes → ℤ)) (b : Bytes) : minSkip es b ≤ b.length :=
  (foldl_min_le es b _).1

theorem minSkip_le_abs {e : Bytes → ℤ} (he : e ∈ es) (b : Bytes) : minSkip es b ≤ |e b| :=
  (foldl_min_le es b _).2 e he

theorem minSkip_nonneg (es : List (Bytes → ℤ)) (b : Bytes) : 0 ≤ minSkip es b := by
  rcases foldl_min_mem es b b.length with h | ⟨e, _, h⟩
  · exact (Int.natCast_nonneg _).trans h.ge
  · exact (abs_nonneg _).trans h.ge

theorem minSkip_inBounds (es : List (Bytes → ℤ)) : InBounds (minSkip es) where
  lower b hb := by
    have := minSkip_nonneg es b
    have := List.length_pos_iff.mpr hb
    omega
  upper b _ := minSkip_le es b

/-- What the answer `r` for the bytes `b` has to say about the answers of the parsers. -/
structure Refines (es : List (Bytes → ℤ)) (b : Bytes) (r : ℤ) : Prop where
  accept : 0 < r → ∃ e ∈ es, e b = r
  reject : (∀ e ∈ es, e b < 0) → r < 0 ∧ (∃ e ∈ es, |r| = |e b|) ∧ ∀ e ∈ es, |r| ≤ |e b|
  wait : (∀ e ∈ es, e b ≤ 0) → (∃ e ∈ es, e b = 0) → r = 0

/-- Some parser waits, or some parser accepts a packet that fits, and no other answer is nearer
to zero. -/
def Decided (es : List (Bytes → ℤ)) (b : Bytes) : Prop :=
  (∃ e ∈ es, e b = 0) ∨ ∃ e ∈ es, 0 < e b ∧ e b ≤ b.length ∧ ∀ e' ∈ es, e b ≤ |e' b|

theorem minSkip_eq_zero (hb : b ≠ []) : minSkip es b = 0 ↔ ∃ e ∈ es, e b = 0 := by
  constructor
  · intro h
    rcases foldl_min_mem es b b.length with hm | ⟨e, he, hm⟩
    · have := List.length_pos_iff.mpr hb
      have : (b.length : ℤ) = 0 := hm.symm.trans h
      omega
    · exact ⟨e, he, abs_eq_zero.mp (hm.symm.trans h)⟩
  · rintro ⟨e, he, h0⟩
    have := minSkip_le_abs he b
    have := minSkip_nonneg es b
    rw [h0, abs_zero] at *
    omega

theorem minSkip_eq_of_least {e : Bytes → ℤ} (he : e ∈ es) (hpos : 0 < e b)
    (hlen : e b ≤ b.length) (hleast : ∀ e' ∈ es, e b ≤ |e' b|) : minSkip es b = e b := by
  apply le_antisymm
  · exact (minSkip_le_abs he b).trans (abs_of_pos hpos).le
  · rcases foldl_min_mem es b b.length with hm | ⟨e', he', hm⟩
    · exact hlen.trans hm.ge
    · exact (hleast e' he').trans hm.ge

theorem refines_minSkip_iff (hb : b ≠ []) : Refines es b (minSkip es b) ↔ Decided es b := by
  constructor
  · intro h
    by_cases h0 : ∃ e ∈ es, e b = 0
    · exact .inl h0
    · have hne : minSkip es b ≠ 0 := fun hz => h0 ((minSkip_eq_zero hb).mp hz)
      have hpos : 0 < minSkip es b := lt_of_le_of_ne (minSkip_nonneg es b) hne.symm
      obtain ⟨e, he, hr⟩ := h.accept hpos
      refine .inr ⟨e, he, hr ▸ hpos, hr ▸ minSkip_le es b, fun e' he' => ?_⟩
      exact hr ▸ minSkip_le_abs he' b
  · rintro (hwait | ⟨e, he, hpos, hlen, hleast⟩)
    · have hz := (minSkip_eq_zero hb).mpr hwait
      obtain ⟨e, he, h0⟩ := hwait
      refine ⟨fun hpos => absurd hz hpos.ne', fun hneg => ?_, fun _ _ => hz⟩
      have := hneg e he
      omega
    · have heq := minSkip_eq_of_least he hpos hlen hleast
      refine ⟨fun _ => ⟨e, he, heq.symm⟩, fun hneg => ?_, fun hle _ => ?_⟩
      · have := hneg e he
        omega
      · have := hle e he
        omega

variable {e : Bytes → ℤ} {d d' : Driver} {cs : List Bytes}

/-- The buffers that an extractor is shown while a driver is fed. -/
def shown (e : Bytes → ℤ) (extractLast : Bool) (b : Bytes) (cs : List Bytes) : List Bytes :=
  (scans (leftOver e extractLast) b cs).flatMap (asked e extractLast)

/-- The block is the packet that the extractor accepts in one of the buffers it is shown. -/
def AcceptedIn (e : Bytes → ℤ) (buffers : List Bytes) (block : Bytes) : Prop :=
  ∃ b ∈ buffers, 0 < e b ∧ block = b.take (e b).toNat

theorem AcceptedIn.mono {bs bs' : List Bytes} {block : Bytes} (h : AcceptedIn e bs block)
    (hsub : bs ⊆ bs') : AcceptedIn e bs' block := by
  obtain ⟨b, hmem, hb⟩ := h
  exact ⟨b, hsub hmem, hb⟩

theorem cut_blocks (hpos : ∀ b, 0 ≤ e b) (extractLast : Bool) (b : Bytes) :
    ∃ blocks : List Bytes, b = blocks.flatten ++ leftOver e extractLast b ∧
      blocks.getLast? = (asList (cut e extractLast b).packet).getLast? ∧
      ∀ block ∈ blocks, AcceptedIn e (asked e extractLast b) block := by
  induction b using scan_induction (E := e) with
  | hsettled b h =>
    rw [leftOver, cut_settled h]
    exact ⟨[], rfl, rfl, by simp⟩
  | hmove b h ih =>
    have hne := ne_nil_of_not_settled h
    have hE : 0 < e b := lt_of_le_of_ne (hpos b) fun h0 => h (.inr h0.symm)
    have hnat : (e b).natAbs = (e b).toNat := by omega
    have htake : b.take (e b).natAbs ≠ [] := take_ne_nil_of_not_settled h
    have hown : ownCut e b = ⟨[], b.take (e b).natAbs, b.drop (e b).natAbs⟩ := by
      rw [ownCut, if_neg (by omega)]
    have hmem : b ∈ asked e extractLast b := by
      rw [asked, if_neg hne]
      split_ifs <;> exact List.mem_cons_self
    have haccept : AcceptedIn e (asked e extractLast b) (b.take (e b).natAbs) :=
      ⟨b, hmem, hE, by rw [hnat]⟩
    have hsingle : cut e extractLast b = ownCut e b → ∃ blocks : List Bytes,
        b = blocks.flatten ++ leftOver e extractLast b ∧
          blocks.getLast? = (asList (cut e extractLast b).packet).getLast? ∧
          ∀ block ∈ blocks, AcceptedIn e (asked e extractLast b) block := by
      intro hcut
      rw [leftOver, hcut, hown]
      refine ⟨[b.take (e b).natAbs], by simp, by simp [asList, htake], ?_⟩
      intro block hblock
      rw [List.mem_singleton.mp hblock]
      exact haccept
    by_cases hstop : b.drop (e b).natAbs = [] ∨ (0 < e b ∧ ¬ extractLast)
    · exact hsingle (cut_stop h hstop)
    have hlast : extractLast = true := by
      by_contra hf
      exact hstop (.inr ⟨hE, hf⟩)
    have hcut := cut_go h hstop
    by_cases hp : (cut e extractLast (b.drop (e b).natAbs)).packet = []
    · exact hsingle (hcut.trans (if_pos ⟨hlast, hp⟩))
    -- the scan went on to a later packet
    obtain ⟨blocks, hjoin, hget, hall⟩ := ih
    rw [if_neg (fun hand => hp hand.2)] at hcut
    refine ⟨b.take (e b).natAbs :: blocks, ?_, ?_, ?_⟩
    · rw [leftOver, hcut, List.flatten_cons, List.append_assoc]
      exact (List.take_append_drop _ _).symm.trans (congrArg _ hjoin)
    · rw [hcut, List.getLast?_cons, hget]
      simp [asList, hp]
    · have hsub : asked e extractLast (b.drop (e b).natAbs) ⊆ asked e extractLast b := by
        rw [asked.eq_def e extractLast b, if_neg hne, dif_neg (by tauto)]
        exact List.subset_cons_self _ _
      intro block hblock
      rcases List.mem_cons.mp hblock with rfl | hblock
      · exact haccept
      · exact (hall block hblock).mono hsub

theorem Fed.blocks (hpos : ∀ b, 0 ≤ e b) (h : Fed e d cs d') : ∃ blocks : List Bytes,
    d.internalBuffer ++ cs.flatten = blocks.flatten ++ d'.internalBuffer ∧
      blocks.getLast? = (d.finds e cs).getLast? ∧
      ∀ block ∈ blocks, AcceptedIn e (shown e d.extractLast d.internalBuffer cs) block := by
  induction h with
  | start =>
    obtain ⟨blocks, hjoin, hget, hall⟩ := cut_blocks hpos d.extractLast d.internalBuffer
    refine ⟨blocks, by simpa using hjoin, by rw [Driver.finds_nil, hget], ?_⟩
    simpa [shown, scans] using hall
  | @chunk cs d₁ c hc hfed ih =>
    obtain ⟨blocks, hjoin, hget, hall⟩ := ih
    -- the blocks of the scan of the new chunk follow those of the scans before
    obtain ⟨blocks', hjoin', hget', hall'⟩ :=
      cut_blocks hpos d₁.extractLast (d₁.internalBuffer ++ c)
    refine ⟨blocks ++ blocks', ?_, ?_, ?_⟩
    · rw [Driver.scanned_internalBuffer, Driver.append_internalBuffer, Driver.append_extractLast]
      calc d.internalBuffer ++ (cs ++ [c]).flatten
          = d.internalBuffer ++ cs.flatten ++ c := by simp
        _ = blocks.flatten ++ (d₁.internalBuffer ++ c) := by rw [hjoin, List.append_assoc]
        _ = (blocks ++ blocks').flatten ++
              leftOver e d₁.extractLast (d₁.internalBuffer ++ c) := by
            rw [List.flatten_append, List.append_assoc, ← hjoin']
    · rw [hfed.finds_chunk, List.getLast?_append, List.getLast?_append, hget, hget']
    · have hshown : shown e d.extractLast d.internalBuffer (cs ++ [c]) =
          shown e d.extractLast d.internalBuffer cs ++
            asked e d₁.extractLast (d₁.internalBuffer ++ c) := by
        simp only [shown, scans_append, List.flatMap_append, hfed.internalBuffer, hfed.extractLast]
        simp [scans]
      rw [hshown]
      intro block hblock
      rcases List.mem_append.mp hblock with hblock | hblock
      · exact (hall block hblock).mono (List.subset_append_left _ _)
      · exact (hall' block hblock).mono (List.subset_append_right _ _)

/-- A parser accepts the whole block in one of the buffers the bus is shown. -/
def AcceptedBy (es : List (Bytes → ℤ)) (buffers : List Bytes) (block : Bytes) : Prop :=
  ∃ b ∈ buffers, ∃ e ∈ es, e b = block.length ∧ block ≠ [] ∧ block <+: b

theorem AcceptedIn.acceptedBy {buffers : List Bytes} {block : Bytes}
    (h : AcceptedIn (minSkip es) buffers block) (hdec : ∀ b ∈ buffers, b ≠ [] → Decided es b) :
    AcceptedBy es buffers block := by
  obtain ⟨b, hmem, hpos, rfl⟩ := h
  have hle := minSkip_le es b
  have hb : b ≠ [] := by
    rintro rfl
    simp at hle
    omega
  obtain ⟨e, he, hr⟩ := ((refines_minSkip_iff hb).mpr (hdec b hmem hb)).accept hpos
  have hlen : (b.take (minSkip es b).toNat).length = (minSkip es b).toNat := by
    rw [List.length_take]
    omega
  refine ⟨b, hmem, e, he, by rw [hr, hlen]; omega, ?_, List.take_prefix _ _⟩
  exact List.length_pos_iff.mp (by omega)

/-- The bus in a recorded world. -/
def Bus.recorded (bus : Bus ω) : Bus (Recorded ω) where
  driver := bus.driver
  parser := bus.parser.map fun p =>
    ⟨p.extractPacket, p.packedReady.map fun f b n w => ⟨f b n w.world, w.trace⟩⟩
  caller := bus.caller.map fun p =>
    ⟨p.extractPacket, p.packedReady.map fun f b n w => ⟨f b n w.world, w.trace⟩⟩

theorem Bus.recorded_extractPacket (bus : Bus ω) :
    bus.recorded.extractPacket = bus.extractPacket.recorded := by
  funext b w
  rcases hcaller : bus.caller with _ | p
  · simp only [Bus.extractPacket, Bus.recorded, Extract.recorded, hcaller, Option.map_none]
    generalize (b.length : ℤ) = m
    induction bus.parser generalizing m w with
    | nil => rfl
    | cons p ps ih =>
      rw [List.map_cons, List.foldl_cons, List.foldl_cons]
      refine Eq.trans ?_ (ih ⟨(Bus.consult b (m, w.world) p).2, w.trace⟩ _)
      congr 1
      rcases hready : p.packedReady with _ | f <;>
        simp only [Bus.consult, hready, Option.map_none, Option.map_some] <;> split_ifs <;> rfl
  · simp only [Bus.extractPacket, Bus.recorded, Extract.recorded, hcaller, Option.map_some]

variable {io : Ports ω} {stream : IOStream ω} {bus : Bus ω} {bus' : Bus (Recorded ω)} {k : ℕ}
  {w w' : Recorded ω}

theorem Bus.readPacket_end (hio : io.stream = some stream) {fuel n : ℕ}
    {packetTimeout firstByteTimeout : ℤ} (hsize : bus.driver.maxPacketSize ≤ n) {r}
    (h : bus.recorded.readPacket (io.recorded k) fuel n packetTimeout firstByteTimeout none w =
      some (r, bus', w')) : ∃ cs, Fed (minSkip bus.extractors) bus.driver cs bus'.driver ∧
      (Adds k w w' cs ∨ Adds k w w' (cs ++ [[]])) ∧
      ∀ p, r = .ok p → (bus.driver.finds (minSkip bus.extractors) cs).getLast? = some p := by
  have hshared : { bus.recorded with caller := none } = { bus with caller := none }.recorded := rfl
  have hanswers : { bus with caller := none }.extractPacket.Answers (minSkip bus.extractors) :=
    fun b w => Bus.extractPacket_eq rfl b w
  simp only [Bus.readPacket, hshared, Bus.recorded_extractPacket] at h
  rcases hread : bus.driver.readPacketMilliseconds
    { bus with caller := none }.extractPacket.recorded (io.recorded k) fuel n packetTimeout
      firstByteTimeout w with _ | ⟨x | p, d, w₁⟩
  all_goals
    simp only [Bus.recorded, hread] at h
    cases h
  · exact (IodriversBase.readPacket_end (minSkip_inBounds _) hanswers hio hsize hread).fed
  · exact (IodriversBase.readPacket_end (minSkip_inBounds _) hanswers hio hsize hread).fed

/-- The buffers a call shows to the bus. -/
def Bus.shown (bus : Bus ω) (cs : List Bytes) : List Bytes :=
  IodriversBase.shown (minSkip bus.extractors) bus.driver.extractLast bus.driver.internalBuffer cs

/-- **The contract of `extractPacket`**: the bus keeps it exactly when a parser waits, or when a
parser accepts a packet and no other answer is nearer to zero.  A call of `Bus::readPacket` that
is shown only such buffers removes whole packets, each of them accepted by a parser, and returns
the last of them. -/
theorem bus_refines_iff (hcaller : bus.caller = none) :
    (∀ b w, b ≠ [] →
      (Refines bus.extractors b (bus.extractPacket b w).1 ↔ Decided bus.extractors b)) ∧
    ∀ (io : Ports ω) stream k fuel n packetTimeout firstByteTimeout w r bus' w',
      io.stream = some stream → bus.driver.maxPacketSize ≤ n →
      bus.recorded.readPacket (io.recorded k) fuel n packetTimeout firstByteTimeout none w =
        some (r, bus', w') →
      ∃ cs, (Adds k w w' cs ∨ Adds k w w' (cs ++ [[]])) ∧
        ((∀ b ∈ bus.shown cs, b ≠ [] → Decided bus.extractors b) →
          ∃ blocks : List Bytes, bus.driver.internalBuffer ++ cs.flatten =
              blocks.flatten ++ bus'.driver.internalBuffer ∧
            (∀ block ∈ blocks, AcceptedBy bus.extractors (bus.shown cs) block) ∧
            ∀ p, r = .ok p → blocks.getLast? = some p) := by
  constructor
  · intro b w hb
    rw [Bus.extractPacket_eq hcaller]
    exact refines_minSkip_iff hb
  · intro io stream k fuel n packetTimeout firstByteTimeout w r bus' w' hio hsize h
    obtain ⟨cs, hfed, hadds, hlast⟩ := Bus.readPacket_end hio hsize h
    obtain ⟨blocks, hjoin, hget, hall⟩ := hfed.blocks (minSkip_nonneg bus.extractors)
    refine ⟨cs, hadds, fun hdec => ?_⟩
    refine ⟨blocks, hjoin, fun block hblock => (hall block hblock).acceptedBy hdec, ?_⟩
    intro p hp
    rw [hget, hlast p hp]

/-- Two parsers, one that accepts and one that rejects more. -/
theorem bus_refines_iff_sample : Refines [driverTestExtractPacket, fun _ => -5] [0, 1, 2, 0] 4 := by
  let bus : Bus Unit := ((Bus.new 100 false).addParser ⟨driverTestExtractPacket, none⟩).addParser
    ⟨fun _ => -5, none⟩
  have hcaller : bus.caller = none := rfl
  have h := (bus_refines_iff hcaller).1 [0, 1, 2, 0] () (by simp)
  exact h.mpr (.inr ⟨driverTestExtractPacket, by simp [Bus.extractors, bus, Bus.addParser, Bus.new],
    by decide, by decide, by simp [Bus.extractors, bus, Bus.addParser, Bus.new]; decide⟩)

/-- A single parser that rejects: the bus answers with the length of its skip, as if it were that
of a packet. -/
theorem bus_accepts_garbage : ∃ bus : Bus Unit, bus.caller = none ∧
    bus.extractors = [driverTestExtractPacket] ∧ driverTestExtractPacket [7, 7] = -1 ∧
    (bus.extractPacket [7, 7] ()).1 = 1 ∧
    ¬ Refines bus.extractors [7, 7] (bus.extractPacket [7, 7] ()).1 := by
  refine ⟨(Bus.new 100 false).addParser ⟨driverTestExtractPacket, none⟩, rfl, rfl, by decide,
    by decide, fun h => ?_⟩
  obtain ⟨e, he, hr⟩ := h.accept (by decide)
  rw [List.mem_singleton.mp he] at hr
  exact absurd hr (by decide)

end IodriversBase
