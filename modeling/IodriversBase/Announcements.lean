import Mathlib.Data.List.Sigma
import IodriversBase.Bus
import IodriversBase.Calls
import IodriversBase.ReadRule

namespace IodriversBase

open Framing

variable {ω : Type}

/-- A call of `packedReady`: the position of the handler, the offset in the stream where its bytes
start, and the bytes. -/
structure Notice where
  handler : ℕ
  offset : ℕ
  buffer : Bytes
  deriving DecidableEq

/-- The packet that is announced. -/
def Notice.packet (x : Notice) : ℕ × ℕ := (x.handler, x.offset)

/-- A world, with what the reads have returned and what has been announced. -/
structure Watched (ω : Type) where
  world : ω
  reads : List Bytes
  notices : List Notice

def Watched.arrived (w : Watched ω) : ℕ := w.reads.flatten.length

theorem Watched.arrived_of_reads {w w' : Watched ω} (h : w'.reads = w.reads) :
    w'.arrived = w.arrived := congrArg (fun cs : List Bytes => cs.flatten.length) h

def IOStream.watched (st : IOStream ω) : IOStream (Watched ω) where
  waitRead t w := ((st.waitRead t w.world).1, { w with world := (st.waitRead t w.world).2 })
  waitWrite t w := ((st.waitWrite t w.world).1, { w with world := (st.waitWrite t w.world).2 })
  read n w :=
    match st.read n w.world with
    | (.ok c, w') => (.ok c, { w with world := w', reads := w.reads ++ [c.val] })
    | (.error x, w') => (.error x, { w with world := w' })
  write data w := ((st.write data w.world).1, { w with world := (st.write data w.world).2 })
  clear w := { w with world := st.clear w.world }
  eof w := st.eof w.world
  getFileDescriptor w := st.getFileDescriptor w.world
  delete w := { w with world := st.delete w.world }

def IOListener.watched (l : IOListener ω) : IOListener (Watched ω) where
  writeData data w := { w with world := l.writeData data w.world }
  readData data w := { w with world := l.readData data w.world }

def Ports.watched (io : Ports ω) : Ports (Watched ω) where
  now w := ((io.now w.world).1, { w with world := (io.now w.world).2 })
  stream := io.stream.map IOStream.watched
  listeners := io.listeners.map fun l => (l.1, l.2.watched)

/-- The parser at position `i`. -/
def Parser.watched (p : Parser ω) (i : ℕ) : Parser (Watched ω) where
  extractPacket := p.extractPacket
  packedReady := p.packedReady.map fun packedReady buffer size w =>
    { w with
      world := packedReady buffer size w.world
      notices := w.notices ++ [⟨i, w.arrived - buffer.length, buffer⟩] }

def Bus.watched (bus : Bus ω) : Bus (Watched ω) where
  driver := bus.driver
  parser := bus.parser.zipIdx.map fun p => p.1.watched p.2
  caller := bus.caller.map fun p => p.watched 0

def Parser.Announces (p : Parser ω) (b : Bytes) : Prop :=
  p.packedReady.isSome ∧ 0 < p.extractPacket b

instance (p : Parser ω) (b : Bytes) : Decidable (p.Announces b) :=
  inferInstanceAs (Decidable (_ ∧ _))

/-- What is announced when the parsers are shown `b`, the last of `n` bytes. -/
def announced (ps : List (Parser ω)) (n : ℕ) (b : Bytes) : List Notice :=
  (ps.zipIdx.filter fun p => p.1.Announces b).map fun p => ⟨p.2, n - b.length, b⟩

theorem consult_watched (p : Parser ω) (i : ℕ) (b : Bytes) (m : ℤ) (w : Watched ω) :
    (Bus.consult b (m, w) (p.watched i)).2.reads = w.reads ∧
      (Bus.consult b (m, w) (p.watched i)).2.notices = w.notices ++
        if p.Announces b then [⟨i, w.arrived - b.length, b⟩] else [] := by
  rcases hready : p.packedReady with _ | f
  · simp [Bus.consult, Parser.watched, Parser.Announces, hready]
  · by_cases hpos : 0 < p.extractPacket b <;>
      simp [Bus.consult, Parser.watched, Parser.Announces, hready, hpos]

theorem extractPacket_watched {bus : Bus ω} (h : bus.caller = none) (b : Bytes) (w : Watched ω) :
    (bus.watched.extractPacket b w).2.reads = w.reads ∧
      (bus.watched.extractPacket b w).2.notices =
        w.notices ++ announced bus.parser w.arrived b := by
  simp only [Bus.extractPacket, Bus.watched, h, Option.map_none, announced]
  generalize (b.length : ℤ) = m
  induction bus.parser.zipIdx generalizing m w with
  | nil => simp
  | cons p ps ih =>
    obtain ⟨hreads, hnotices⟩ := consult_watched p.1 p.2 b m w
    rw [List.map_cons, List.foldl_cons, ← Prod.mk.eta (p := Bus.consult b (m, w) _)]
    obtain ⟨ihreads, ihnotices⟩ := ih (Bus.consult b (m, w) (p.1.watched p.2)).2
      (Bus.consult b (m, w) (p.1.watched p.2)).1
    refine ⟨ihreads.trans hreads, ?_⟩
    rw [ihnotices, hnotices, Watched.arrived_of_reads hreads, List.append_assoc]
    congr 1
    by_cases hp : p.1.Announces b <;> simp [hp]

theorem effects_watched {bus : Bus ω} (h : bus.caller = none) (bs : List Bytes) (w : Watched ω) :
    (bus.watched.extractPacket.effects bs w).reads = w.reads ∧
      (bus.watched.extractPacket.effects bs w).notices =
        w.notices ++ bs.flatMap (announced bus.parser w.arrived) := by
  induction bs generalizing w with
  | nil => simp [Extract.effects]
  | cons b bs ih =>
    obtain ⟨hreads, hnotices⟩ := extractPacket_watched h b w
    obtain ⟨ihreads, ihnotices⟩ := ih (bus.watched.extractPacket b w).2
    refine ⟨ihreads.trans hreads, ?_⟩
    rw [Extract.effects, List.foldl_cons, ← Extract.effects, ihnotices, hnotices,
      List.append_assoc, List.flatMap_cons, Watched.arrived_of_reads hreads]

theorem watched_extractors (bus : Bus ω) : bus.watched.extractors = bus.extractors := by
  calc (bus.parser.zipIdx.map fun p => p.1.watched p.2).map Parser.extractPacket
      = (bus.parser.zipIdx.map Prod.fst).map Parser.extractPacket := by
        rw [List.map_map, List.map_map]
        rfl
    _ = bus.parser.map Parser.extractPacket := by rw [List.zipIdx_map_fst]

variable {ps : List (Parser ω)} {notices : List Notice} {n : ℕ} {b b' : Bytes}

def Settles (ps : List (Parser ω)) (b : Bytes) : Prop :=
  (∃ p ∈ ps, p.Announces b) → ∀ p ∈ ps, p.extractPacket b ≠ 0

/-- Of `n` bytes, `b` are left, and every packet announced so far, once, starts in front of them. -/
structure Past (notices : List Notice) (n : ℕ) (b : Bytes) : Prop where
  once : (notices.map Notice.packet).Nodup
  before : ∀ x ∈ notices, x.offset + b.length < n
  fits : b.length ≤ n

theorem Past.mono (h : Past notices n b) (hle : b'.length ≤ b.length) : Past notices n b' := by
  refine ⟨h.once, fun x hx => ?_, hle.trans h.fits⟩
  exact lt_of_le_of_lt (Nat.add_le_add_left hle _) (h.before x hx)

theorem Past.arrive (h : Past notices n b) (c : Bytes) : Past notices (n + c.length) (b ++ c) := by
  have hfits := h.fits
  refine ⟨h.once, fun x hx => ?_, ?_⟩
  · have hx := h.before x hx
    rw [List.length_append]
    omega
  · rw [List.length_append]
    omega

theorem announced_nodup (ps : List (Parser ω)) (n : ℕ) (b : Bytes) :
    ((announced ps n b).map Notice.packet).Nodup := by
  have hsub : ((ps.zipIdx.filter fun p => p.1.Announces b).map Prod.snd).Nodup :=
    (List.nodup_zipIdx_map_snd ps).sublist (List.filter_sublist.map Prod.snd)
  rw [announced, List.map_map]
  have hinj : Function.Injective fun i : ℕ => (i, n - b.length) :=
    fun i j hij => (Prod.mk.inj hij).1
  simpa [Function.comp_def, Notice.packet] using hsub.map hinj

theorem Past.announce (h : Past notices n b) (hlt : b'.length < b.length) :
    Past (notices ++ announced ps n b) n b' := by
  have hfits := h.fits
  -- what is announced starts where the buffer does, behind all that was announced before
  have hoffset : ∀ x ∈ announced ps n b, x.offset = n - b.length := by
    intro x hx
    obtain ⟨p, _, rfl⟩ := List.mem_map.mp hx
    rfl
  refine ⟨?_, fun x hx => ?_, by omega⟩
  · rw [List.map_append]
    refine h.once.append (announced_nodup ps n b) ?_
    intro key hold hnew
    obtain ⟨x, hx, rfl⟩ := List.mem_map.mp hold
    obtain ⟨y, hy, hxy⟩ := List.mem_map.mp hnew
    have hx := h.before x hx
    have hy := hoffset y hy
    have hxy : y.offset = x.offset := congrArg Prod.snd hxy
    omega
  · rcases List.mem_append.mp hx with hx | hx
    · have hx := h.before x hx
      omega
    · have hx := hoffset x hx
      omega

theorem announced_of_waits (h : Settles ps b) (h0 : ∃ p ∈ ps, p.extractPacket b = 0) :
    announced ps n b = [] := by
  obtain ⟨q, hq, h0⟩ := h0
  rw [announced, List.map_eq_nil_iff, List.filter_eq_nil_iff]
  intro p hp hannounces
  exact h ⟨p.1, List.fst_mem_of_mem_zipIdx hp, of_decide_eq_true hannounces⟩ q hq h0

/-- An extractor that never skips scans on behind every packet in the last mode. -/
theorem leftOver_step {e : Bytes → ℤ} (hpos : ∀ b, 0 ≤ e b) (h : ¬ Settled e b)
    (extractLast : Bool) : leftOver e extractLast b =
      if extractLast then leftOver e extractLast (b.drop (e b).natAbs)
      else b.drop (e b).natAbs := by
  have hE : 0 < e b := lt_of_le_of_ne (hpos b) fun h0 => h (.inr h0.symm)
  cases extractLast with
  | false => simp [leftOver, cut, firstPacket.eq_def e b, h, hE]
  | true =>
    rw [if_pos rfl]
    simp only [leftOver, cut, if_true]
    rw [lastPacket.eq_def e b, dif_neg h]
    dsimp only
    by_cases hp : (lastPacket e (b.drop (e b).natAbs)).packet = []
    · -- nothing but a packet is ever removed
      have hset : Settled e (b.drop (e b).natAbs) := by
        by_contra hset
        have hE' : 0 < e (b.drop (e b).natAbs) :=
          lt_of_le_of_ne (hpos _) fun h0 => hset (.inr h0.symm)
        rw [lastPacket, dif_neg hset] at hp
        dsimp only at hp
        split_ifs at hp with hp'
        · exact hp' hp
        · exact take_ne_nil_of_not_settled hset hp
      rw [if_neg (not_not.mpr hp), if_pos hE, lastPacket_settled hset]
    · rw [if_pos hp]

theorem Past.scan {extractLast : Bool} (h : Past notices n b)
    (hsettles : ∀ b' ∈ asked (minSkip (ps.map Parser.extractPacket)) extractLast b, Settles ps b') :
    Past (notices ++ (asked (minSkip (ps.map Parser.extractPacket)) extractLast b).flatMap
      (announced ps n)) n (leftOver (minSkip (ps.map Parser.extractPacket)) extractLast b) := by
  set e := minSkip (ps.map Parser.extractPacket) with he
  induction b using scan_induction (E := e) generalizing notices with
  | hsettled b hset =>
    rw [leftOver, cut_settled hset]
    by_cases hnil : b = []
    · rw [asked, if_pos hnil]
      simpa using h
    · -- a parser waits for the rest of the front
      rw [asked, if_neg hnil, dif_pos (.inl hset)] at hsettles ⊢
      have hwaits : ∃ p ∈ ps, p.extractPacket b = 0 := by
        obtain ⟨e', he', h0⟩ := (minSkip_eq_zero hnil).mp (hset.resolve_left hnil)
        obtain ⟨p, hp, rfl⟩ := List.mem_map.mp he'
        exact ⟨p, hp, h0⟩
      have hnone := announced_of_waits (n := n) (hsettles b (List.mem_singleton_self b)) hwaits
      simpa [hnone] using h
  | hmove b hset ih =>
    have hne := ne_nil_of_not_settled hset
    have hpos : ∀ b, 0 ≤ e b := minSkip_nonneg _
    have hE : 0 < e b := lt_of_le_of_ne (hpos b) fun h0 => hset (.inr h0.symm)
    -- the front goes, for a packet or as noise
    have hfront : Past (notices ++ announced ps n b) n (b.drop (e b).natAbs) :=
      h.announce (drop_length_lt hset)
    rw [leftOver_step hpos hset]
    cases extractLast with
    | false =>
      rw [asked, if_neg hne, dif_pos (.inr ⟨hE, by simp⟩)]
      simpa using hfront
    | true =>
      rw [asked, if_neg hne, dif_neg (by simp [hset])] at hsettles ⊢
      rw [if_pos rfl, List.flatMap_cons, ← List.append_assoc]
      exact ih hfront fun b' hb' => hsettles b' (List.mem_cons_of_mem _ hb')

/-- The calls on a bus, none of them for a parser alone. -/
inductive BusOp
  | readPacket (bufferSize : ℕ) (packetTimeout firstByteTimeout : ℤ)
  | hasPacket
  deriving DecidableEq

/-- `Driver::hasPacket` of a bus. -/
def Bus.hasPacket (bus : Bus ω) (w : ω) : Option (Except Exn Bool × Bus ω × ω) :=
  match bus.driver.hasPacket bus.extractPacket w with
  | none => none
  | some (r, d, w) => some (r, { bus with driver := d }, w)

/-- One call; `none` when it does not come back within its fuel. -/
def Bus.perform (io : Ports ω) (fuel : ℕ) (s : Bus ω × ω) : BusOp → Option (Answer × Bus ω × ω)
  | .readPacket n packetTimeout firstByteTimeout =>
    match s.1.readPacket io fuel n packetTimeout firstByteTimeout none s.2 with
    | none => none
    | some (.ok p, t) => some (.packet p, t)
    | some (.error x, t) => some (.threw x, t)
  | .hasPacket =>
    match s.1.hasPacket s.2 with
    | none => none
    | some (.ok b, t) => some (.flag b, t)
    | some (.error x, t) => some (.threw x, t)

/-- A call that comes back, with its answer. -/
def Bus.Step (io : Ports ω) (s : Bus ω × ω) (call : BusOp × Answer) (t : Bus ω × ω) : Prop :=
  ∃ fuel, Bus.perform io fuel s call.1 = some (call.2, t)

/-- Nothing is announced that stays in the buffer: `hasPacket` is not called when a handler would
announce a packet, and `readPacket` does not show the bus a packet that a handler announces while
another parser waits. -/
def Bus.Keeps (s : Bus (Watched ω) × Watched ω) (op : BusOp) (t : Bus (Watched ω) × Watched ω) :
    Prop :=
  match op with
  | .readPacket n _ _ => s.1.driver.maxPacketSize ≤ n →
    ∀ b ∈ s.1.shown (t.2.reads.drop s.2.reads.length), Settles s.1.parser b
  | .hasPacket =>
    ∀ b ∈ asked (minSkip s.1.extractors) s.1.driver.extractLast s.1.driver.internalBuffer,
      ∀ p ∈ s.1.parser, ¬ p.Announces b

/-- The driver after a call of `readPacket` that has read `cs`, and then `last`. -/
def Listens (bus : Bus ω) (w : Watched ω) (last : List Bytes) (d : Driver) (w' : Watched ω) :
    Prop :=
  ∃ cs, Fed (minSkip bus.extractors) bus.driver cs d ∧ w'.reads = w.reads ++ (cs ++ last) ∧
    ((∀ b ∈ bus.shown cs, Settles bus.parser b) → Past w'.notices w'.arrived d.internalBuffer)

variable {bus : Bus ω} {io : Ports ω} {stream : IOStream ω} {d : Driver} {w w' : Watched ω}

theorem Listens.of_eq {last : List Bytes} {w'' : Watched ω} (h : Listens bus w last d w')
    (hreads : w''.reads = w'.reads) (hnotices : w''.notices = w'.notices) :
    Listens bus w last d w'' := by
  obtain ⟨cs, hfed, hcs, hpast⟩ := h
  refine ⟨cs, hfed, hreads.trans hcs, fun hsettles => ?_⟩
  rw [hnotices, Watched.arrived_of_reads hreads]
  exact hpast hsettles

theorem watched_read {n : ℕ} {c} (h : stream.watched.read n w = (.ok c, w')) :
    w'.reads = w.reads ++ [c.val] ∧ w'.notices = w.notices := by
  simp only [IOStream.watched] at h
  generalize stream.read n w.world = answer at h
  rcases answer with ⟨x | c', w₁⟩ <;> cases h
  exact ⟨rfl, rfl⟩

theorem watched_read_threw {n : ℕ} {x : Exn} (h : stream.watched.read n w = (.error x, w')) :
    w'.reads = w.reads ∧ w'.notices = w.notices := by
  simp only [IOStream.watched] at h
  generalize stream.read n w.world = answer at h
  rcases answer with ⟨y | c', w₁⟩ <;> cases h
  exact ⟨rfl, rfl⟩

theorem watched_notifyRead (io : Ports ω) (data : Bytes) (w : Watched ω) :
    (io.watched.notifyRead data w).reads = w.reads ∧
      (io.watched.notifyRead data w).notices = w.notices := by
  refine Ports.notifyRead_rule
    (P := fun w' : Watched ω => w'.reads = w.reads ∧ w'.notices = w.notices) ?_ ⟨rfl, rfl⟩
  intro l hl w' hw'
  obtain ⟨l', _, rfl⟩ := List.mem_map.mp hl
  exact hw'

theorem Listens.scan {cs : List Bytes} (hcaller : bus.caller = none) {c : Bytes}
    (hfed : Fed (minSkip bus.extractors) bus.driver cs d)
    (hc : c.length ≤ d.maxPacketSize - d.internalBuffer.length)
    (hreads : w'.reads = w.reads ++ (cs ++ [c]))
    (hpast : (∀ b ∈ bus.shown cs, Settles bus.parser b) →
      Past w'.notices w'.arrived (d.internalBuffer ++ c)) :
    Listens bus w [] ((d.append c hc).scanned (minSkip bus.extractors))
      (bus.watched.extractPacket.effects
        (asked (minSkip bus.extractors) d.extractLast (d.internalBuffer ++ c)) w') := by
  obtain ⟨hreads', hnotices⟩ := effects_watched hcaller
    (asked (minSkip bus.extractors) d.extractLast (d.internalBuffer ++ c)) w'
  refine ⟨cs ++ [c], hfed.chunk c hc, ?_, fun hsettles => ?_⟩
  · rw [hreads', hreads, List.append_nil]
  have hshown : bus.shown (cs ++ [c]) = bus.shown cs ++
      asked (minSkip bus.extractors) d.extractLast (d.internalBuffer ++ c) := by
    simp only [Bus.shown, shown, scans_append, List.flatMap_append, hfed.internalBuffer,
      hfed.extractLast]
    simp [scans]
  rw [hshown] at hsettles
  rw [hnotices, Watched.arrived_of_reads hreads', Driver.scanned_internalBuffer]
  refine Past.scan (hpast fun b hb => hsettles b (List.mem_append_left _ hb)) ?_
  intro b hb
  exact hsettles b (List.mem_append_right _ hb)

theorem Listens.start (hcaller : bus.caller = none) (hreads : w'.reads = w.reads)
    (hpast : Past w'.notices w'.arrived bus.driver.internalBuffer) :
    Listens bus w [] (bus.driver.scanned (minSkip bus.extractors))
      (bus.watched.extractPacket.effects
        (asked (minSkip bus.extractors) bus.driver.extractLast bus.driver.internalBuffer) w') := by
  obtain ⟨hreads', hnotices⟩ := effects_watched hcaller
    (asked (minSkip bus.extractors) bus.driver.extractLast bus.driver.internalBuffer) w'
  refine ⟨[], .start, ?_, fun hsettles => ?_⟩
  · rw [hreads', hreads, List.append_nil, List.append_nil]
  have hshown : bus.shown [] =
      asked (minSkip bus.extractors) bus.driver.extractLast bus.driver.internalBuffer := by
    simp [Bus.shown, shown, scans]
  rw [hnotices, Watched.arrived_of_reads hreads', Driver.scanned_internalBuffer]
  exact hpast.scan fun b hb => hsettles b (hshown ▸ hb)

theorem watched_arrived {c : Bytes} (h : w'.reads = w.reads ++ [c]) :
    w'.arrived = w.arrived + c.length := by
  rw [Watched.arrived, h, List.flatten_append, List.length_append]
  simp [Watched.arrived]

theorem listens_rule (hcaller : bus.caller = none)
    (hpast : Past w.notices w.arrived bus.driver.internalBuffer) :
    ReadRule bus.watched.extractPacket (minSkip bus.extractors) io.watched stream.watched
      (fun d' w' => (d' = bus.driver ∧ w'.reads = w.reads ∧ w'.notices = w.notices) ∨
        Listens bus w [[]] d' w')
      (Listens bus w []) (Listens bus w [[]]) where
  start := by
    rintro d w' (h | h)
    · exact .inl h
    · exact .inr (h.of_eq rfl rfl)
  scan := by
    rintro d w' (⟨rfl, hreads, hnotices⟩ | ⟨cs, hfed, hreads, hsettled⟩)
    · refine .start hcaller hreads ?_
      rw [hnotices, Watched.arrived_of_reads hreads]
      exact hpast
    · -- the buffer is scanned again as it is
      have happend : d.append [] (Nat.zero_le _) = d := by
        rcases d with ⟨b, M, last, rt, wt, stats, fits⟩
        simp [Driver.append]
      have hscan := Listens.scan hcaller hfed (Nat.zero_le _) hreads
        (by simpa only [List.append_nil] using hsettled)
      rwa [happend, List.append_nil] at hscan
  chunk := by
    rintro d w₁ c w₂ ⟨cs, hfed, hreads, hsettled⟩ hread hc
    obtain ⟨hreads₂, hnotices₂⟩ := watched_read hread
    obtain ⟨hreads₃, hnotices₃⟩ := watched_notifyRead io c.val w₂
    refine Listens.scan hcaller hfed c.property ?_ fun hsettles => ?_
    · rw [hreads₃, hreads₂, hreads, List.append_nil, List.append_assoc]
    · rw [hnotices₃, hnotices₂, Watched.arrived_of_reads hreads₃, watched_arrived hreads₂]
      exact (hsettled hsettles).arrive c.val
  threw := by
    intro d w₁ n x w₂ h hread
    obtain ⟨hreads₂, hnotices₂⟩ := watched_read_threw hread
    exact h.of_eq hreads₂ hnotices₂
  noData := by
    rintro d w₁ c w₂ ⟨cs, hfed, hreads, hsettled⟩ - hread hc
    obtain ⟨hreads₂, hnotices₂⟩ := watched_read hread
    refine ⟨cs, hfed, ?_, fun hsettles => ?_⟩
    · rw [hreads₂, hreads, List.append_nil, List.append_assoc, hc]
    · rw [hnotices₂, watched_arrived hreads₂, hc]
      exact hsettled hsettles
  now h := h.of_eq rfl rfl
  waitRead := by
    intro d w₁ t r w₂ h hwait
    cases hwait
    exact h.of_eq rfl rfl
  again h := .inr h

theorem Bus.perform_readPacket {io : Ports ω} {fuel n : ℕ} {packetTimeout firstByteTimeout : ℤ}
    {s t : Bus ω × ω} {a : Answer} (hcaller : s.1.caller = none)
    (h : Bus.perform io fuel s (.readPacket n packetTimeout firstByteTimeout) = some (a, t)) :
    t.1 = { s.1 with driver := t.1.driver } ∧ ∃ r,
      s.1.driver.readPacketMilliseconds s.1.extractPacket io fuel n packetTimeout firstByteTimeout
        s.2 = some (r, t.1.driver, t.2) := by
  obtain ⟨⟨driver, parser, caller⟩, w⟩ := s
  obtain rfl : caller = none := hcaller
  simp only [Bus.perform, Bus.readPacket] at h
  generalize Driver.readPacketMilliseconds _ _ _ _ _ _ _ w = result at h ⊢
  rcases result with _ | ⟨x | p, d, w₁⟩ <;> cases h
  · exact ⟨rfl, _, rfl⟩
  · exact ⟨rfl, _, rfl⟩

theorem Bus.perform_hasPacket {io : Ports ω} {fuel : ℕ} {s t : Bus ω × ω} {a : Answer}
    (h : Bus.perform io fuel s .hasPacket = some (a, t)) :
    t.1 = { s.1 with driver := t.1.driver } ∧
      ∃ r, s.1.driver.hasPacket s.1.extractPacket s.2 = some (r, t.1.driver, t.2) := by
  simp only [Bus.perform, Bus.hasPacket] at h
  generalize Driver.hasPacket s.1.extractPacket s.1.driver s.2 = result at h ⊢
  rcases result with _ | ⟨x | p, d, w₁⟩ <;> cases h
  · exact ⟨rfl, _, rfl⟩
  · exact ⟨rfl, _, rfl⟩

/-- The bus is that of the start, and what it has announced is gone from its buffer. -/
structure Announcing (bus : Bus ω) (s : Bus (Watched ω) × Watched ω) : Prop where
  bus : s.1 = { bus.watched with driver := s.1.driver }
  past : Past s.2.notices s.2.arrived s.1.driver.internalBuffer

theorem exists_parser_watched {q : Parser ω} (h : q ∈ bus.parser) : ∃ p ∈ bus.watched.parser,
    ∀ b, (p.Announces b ↔ q.Announces b) ∧ p.extractPacket b = q.extractPacket b := by
  obtain ⟨i, hi⟩ := List.mem_iff_getElem?.mp h
  refine ⟨q.watched i, List.mem_map.mpr ⟨(q, i), List.mk_mem_zipIdx_iff_getElem?.mpr hi, rfl⟩, ?_⟩
  intro b
  exact ⟨by simp [Parser.Announces, Parser.watched], rfl⟩

theorem settles_of_watched (h : Settles bus.watched.parser b) : Settles bus.parser b := by
  rintro ⟨q, hq, hannounces⟩ q' hq' h0
  obtain ⟨p, hp, hpq⟩ := exists_parser_watched hq
  obtain ⟨p', hp', hpq'⟩ := exists_parser_watched hq'
  exact h ⟨p, hp, (hpq b).1.mpr hannounces⟩ p' hp' ((hpq' b).2.trans h0)

theorem watched_answers (hcaller : bus.caller = none) :
    bus.watched.extractPacket.Answers (minSkip bus.extractors) := by
  intro b w
  rw [Bus.extractPacket_eq (by simp [Bus.watched, hcaller]), watched_extractors]

theorem Bus.shown_append {cs : List Bytes} {last : List Bytes} (hlast : last = [] ∨ last = [[]])
    (h : b ∈ bus.shown cs) : b ∈ bus.shown (cs ++ last) := by
  rcases hlast with rfl | rfl
  · rwa [List.append_nil]
  · obtain ⟨b', hb', hb⟩ := List.mem_flatMap.mp h
    exact List.mem_flatMap.mpr ⟨b', mem_scans_append [] hb', hb⟩

theorem Listens.past {last : List Bytes} (hlast : last = [] ∨ last = [[]])
    (h : Listens bus w last d w')
    (hsettles : ∀ b ∈ bus.watched.shown (w'.reads.drop w.reads.length),
      Settles bus.watched.parser b) :
    Past w'.notices w'.arrived d.internalBuffer := by
  obtain ⟨cs, _, hreads, hpast⟩ := h
  refine hpast fun b hb => settles_of_watched (hsettles b ?_)
  rw [hreads, List.drop_left]
  have hshown := Bus.shown_append hlast hb
  rwa [Bus.shown, ← watched_extractors] at hshown

theorem Past.asks_only (bus : Bus ω) {bs : List Bytes}
    (h : Past w.notices w.arrived bus.driver.internalBuffer) (hcaller : bus.caller = none)
    (hnone : ∀ b ∈ bs, ∀ p ∈ bus.watched.parser, ¬ p.Announces b) :
    Past (bus.watched.extractPacket.effects bs w).notices
      (bus.watched.extractPacket.effects bs w).arrived bus.driver.internalBuffer := by
  obtain ⟨hreads, hnotices⟩ := effects_watched hcaller bs w
  have hnil : bs.flatMap (announced bus.parser w.arrived) = [] := by
    rw [List.flatMap_eq_nil_iff]
    intro b hb
    rw [announced, List.map_eq_nil_iff, List.filter_eq_nil_iff]
    intro p hp hannounces
    obtain ⟨q, hq, hqp⟩ := exists_parser_watched (List.fst_mem_of_mem_zipIdx hp)
    exact hnone b hb q hq ((hqp b).1.mpr (of_decide_eq_true hannounces))
  rw [hnotices, hnil, List.append_nil, Watched.arrived_of_reads hreads]
  exact h

theorem Announcing.step (hcaller : bus.caller = none) (hio : io.stream = some stream)
    {s t : Bus (Watched ω) × Watched ω} {call : BusOp × Answer} (hs : Announcing bus s)
    (h : Bus.Step io.watched s call t) (hkeeps : Bus.Keeps s call.1 t) : Announcing bus t := by
  obtain ⟨hbus, hpast⟩ := hs
  obtain ⟨⟨driver, parser, caller⟩, w⟩ := s
  obtain ⟨-, rfl, rfl⟩ := Bus.mk.inj hbus
  obtain ⟨⟨op, a⟩, fuel, h⟩ := call, h
  -- the bus as it is, before it is watched
  let bus₁ : Bus ω := { bus with driver := driver }
  have hcaller₁ : bus₁.caller = none := hcaller
  have hnone : bus₁.watched.caller = none := by simp [Bus.watched, hcaller₁]
  cases op with
  | readPacket n packetTimeout firstByteTimeout =>
    obtain ⟨ht, r, hread⟩ := Bus.perform_readPacket hnone h
    refine ⟨ht, ?_⟩
    unfold Driver.readPacketMilliseconds at hread
    by_cases hsize : n < driver.maxPacketSize
    · -- nothing happens
      rw [Driver.readPacket, if_pos hsize] at hread
      obtain ⟨-, hdriver, hworld⟩ : _ ∧ driver = t.1.driver ∧ w = t.2 := by
        simpa only [Option.some.injEq, Prod.mk.injEq] using hread
      rw [← hdriver, ← hworld]
      exact hpast
    · have hrule : ReadRule bus₁.watched.extractPacket _ io.watched stream.watched _ _ _ :=
        listens_rule hcaller₁ hpast
      have hend := readPacket_rule (minSkip_inBounds _) (watched_answers hcaller₁) hrule
        (by simp [Ports.watched, hio]) (not_lt.mp hsize) (.inl ⟨rfl, rfl, rfl⟩) hread
      rcases hend with hend | hend
      · exact hend.past (.inl rfl) (hkeeps (not_lt.mp hsize))
      · exact hend.past (.inr rfl) (hkeeps (not_lt.mp hsize))
  | hasPacket =>
    obtain ⟨ht, r, hhas⟩ := Bus.perform_hasPacket h
    have heq := hasPacket_eq (minSkip_inBounds _) (watched_answers hcaller₁) driver w
    obtain ⟨-, hdriver, hworld⟩ : _ ∧ _ = t.1.driver ∧ _ = t.2 := by
      simpa only [Option.some.injEq, Prod.mk.injEq] using heq.symm.trans hhas
    refine ⟨ht, ?_⟩
    rw [← hdriver, ← hworld]
    have hasked : ∀ b ∈ asked (minSkip bus₁.watched.extractors) driver.extractLast
      driver.internalBuffer, ∀ p ∈ bus₁.watched.parser, ¬ p.Announces b := hkeeps
    rw [watched_extractors] at hasked
    exact Past.asks_only bus₁ hpast hcaller₁ hasked

/-- A call that announces nothing that stays in the buffer. -/
def Bus.KeepingStep (io : Ports (Watched ω)) (s : Bus (Watched ω) × Watched ω)
    (call : BusOp × Answer) (t : Bus (Watched ω) × Watched ω) : Prop :=
  Bus.Step io s call t ∧ Bus.Keeps s call.1 t

/-- A bus at the start of a run; what is in its buffer has arrived. -/
def Bus.start (bus : Bus ω) (w : ω) : Bus (Watched ω) × Watched ω :=
  (bus.watched, ⟨w, [bus.driver.internalBuffer], []⟩)

/-- **Announcements**: on a run whose calls announce nothing that stays in the buffer, no handler
is told twice of the packet at an offset. -/
theorem bus_announces_once (hcaller : bus.caller = none) (hio : io.stream = some stream) {w : ω}
    {calls : List (BusOp × Answer)} {t : Bus (Watched ω) × Watched ω}
    (h : Lts.Run (Bus.KeepingStep io.watched) (bus.start w) calls t) :
    (t.2.notices.map Notice.packet).Nodup := by
  have hstart : Announcing bus (bus.start w) := by
    refine ⟨rfl, ⟨List.nodup_nil, by simp [Bus.start], ?_⟩⟩
    simp [Bus.start, Bus.watched, Watched.arrived]
  have hend : Announcing bus t :=
    h.invariant (fun s call t hs hstep => hs.step hcaller hio hstep.1 hstep.2) hstart
  exact hend.past.once

/-- The handler of the tests, which does nothing when it is told of a packet. -/
def testHandler : Parser Script := ⟨driverTestExtractPacket, some fun _ _ w => w⟩

def fiveBytes (b : Bytes) : ℤ := if b.length < 5 then 0 else -5

theorem fiveBytes_inBounds : InBounds fiveBytes where
  lower _ _ := by
    unfold fiveBytes
    split_ifs <;> omega
  upper _ _ := by
    unfold fiveBytes
    split_ifs <;> omega

theorem fiveBytes_append (h : fiveBytes b ≠ 0) (s : Bytes) :
    fiveBytes (b ++ s) = fiveBytes b := by
  have hlen : ¬ b.length < 5 := fun hlt => h (if_pos hlt)
  rw [fiveBytes, fiveBytes, if_neg hlen, if_neg (by rw [List.length_append]; omega)]

theorem fiveBytes_stable : Stable fiveBytes where
  packet _ s _ h := fiveBytes_append h.ne' s
  skip _ s _ h := (fiveBytes_append h.ne s).le
  skip_rest _ s _ h hlt := absurd (fiveBytes_append h.ne s) hlt.ne

def testBus : Bus Script := (Bus.new 100 false).addParser testHandler

/-- The handler alone on the bus is told once. -/
theorem bus_announces_once_sample : ∃ (a : Answer) (t : Bus (Watched Script) × Watched Script),
    Bus.Step Script.ports.watched (testBus.start [[0, 1, 2, 0]]) (.readPacket 100 0 0, a) t ∧
    t.2.notices = [⟨0, 0, [0, 1, 2, 0]⟩] ∧ (t.2.notices.map Notice.packet).Nodup := by
  obtain ⟨⟨a, t⟩, hcall, hnotices⟩ := exists_of_any
    (x := Bus.perform Script.ports.watched 5 (testBus.start [[0, 1, 2, 0]]) (.readPacket 100 0 0))
    (fun r => r.2.2.notices = [⟨0, 0, [0, 1, 2, 0]⟩]) (by decide +kernel)
  suffices hkeeps : Bus.Keeps (testBus.start [[0, 1, 2, 0]]) (.readPacket 100 0 0) t by
    have hstep : Bus.KeepingStep Script.ports.watched (testBus.start [[0, 1, 2, 0]])
      (.readPacket 100 0 0, a) t := ⟨⟨5, hcall⟩, hkeeps⟩
    exact ⟨a, t, hstep.1, hnotices,
      bus_announces_once rfl (rfl : Script.ports.stream = some _) (.single hstep)⟩
  -- a single parser that announces does not wait
  rintro - b - ⟨p, hp, hannounces⟩ q hq
  obtain rfl := List.mem_singleton.mp hp
  obtain rfl := List.mem_singleton.mp hq
  exact hannounces.2.ne'

/-- With a parser that waits, every call tells the handler of the same packet. -/
theorem bus_announces_twice : ∃ bus : Bus Script,
    (∀ p ∈ bus.parser, InBounds p.extractPacket ∧ Stable p.extractPacket) ∧
    ∃ calls t, Lts.Run (Bus.Step Script.ports.watched) (bus.start [[0, 1, 2, 0]]) calls t ∧
      t.2.notices = [⟨0, 0, [0, 1, 2, 0]⟩, ⟨0, 0, [0, 1, 2, 0]⟩] ∧
      ¬ (t.2.notices.map Notice.packet).Nodup := by
  refine ⟨testBus.addParser ⟨fiveBytes, none⟩, ?_, ?_⟩
  · intro p hp
    rcases List.mem_cons.mp hp with rfl | hp
    · exact ⟨driverTest_inBounds, driverTest_stable⟩
    · obtain rfl := List.mem_singleton.mp hp
      exact ⟨fiveBytes_inBounds, fiveBytes_stable⟩
  · have hstep : ∀ s op a t, Bus.perform Script.ports.watched 5 s op = some (a, t) →
        Bus.Step Script.ports.watched s (op, a) t := fun _ _ _ _ hop => ⟨5, hop⟩
    obtain ⟨calls, t, hrun, -, hnotices⟩ := Lts.exists_run hstep
      ((testBus.addParser ⟨fiveBytes, none⟩).start [[0, 1, 2, 0]])
      [.readPacket 100 0 0, .readPacket 100 0 0]
      (fun _ t => t.2.notices = [⟨0, 0, [0, 1, 2, 0]⟩, ⟨0, 0, [0, 1, 2, 0]⟩]) (by decide +kernel)
    exact ⟨calls, t, hrun, hnotices, by rw [hnotices]; decide⟩

end IodriversBase
