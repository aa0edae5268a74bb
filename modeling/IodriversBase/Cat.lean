import Mathlib.Data.Bool.AllAny
import IodriversBase.RawReading
import IodriversBase.Calls
import IodriversBase.Samples
import IodriversBase.TestStream
import IodriversBase.Text
import IodriversBase.Library.Codes

namespace IodriversBase
namespace Cat

open Codes

def bufferSize : ℕ := 32768
def columnSize : ℕ := 8
def lineSize : ℕ := columnSize * 3

/-- `pos` and `line` in `main`, and what is on the standard output. -/
structure Display where
  pos : ℕ
  line : Vector Char lineSize
  out : Text

def Display.print (s : Display) (text : Text) : Display := { s with out := s.out ++ text }

def isPrint (b : UInt8) : Bool := 32 ≤ b.toNat && b.toNat ≤ 126

def hexField (n : ℕ) : Text := (Nat.toDigits 16 n).leftpad 2 '0'

def displayAscii (line : Vector Char lineSize) : Text :=
  line.toList.zipIdx.flatMap fun c =>
    (if c.2 ≠ 0 ∧ c.2 % columnSize = 0 then [' '] else []) ++ [c.1]

def Display.separate (s : Display) : Display :=
  if s.pos ≠ 0 then
    let s := s.print [' ']
    if s.pos % lineSize = 0 then
      { (s.print ("  ".toList ++ displayAscii s.line ++ ['\n'])) with pos := 0 }
    else if s.pos % columnSize = 0 then s.print "  ".toList
    else s
  else s

def shown (b : UInt8) : Char := if isPrint b then Char.ofNat b.toNat else '.'

def Display.put (s : Display) (b : UInt8) : Option Display :=
  let s := s.separate
  if h : s.pos < lineSize then
    some { pos := s.pos + 1, line := s.line.set s.pos (shown b), out := s.out ++ hexField b.toNat }
  else none

/-- A block of bytes. -/
def Display.show (s : Display) (data : Bytes) : Option Display := data.foldlM Display.put s

/-- The state of `main` after `openURI`. -/
structure State (ω : Type) where
  driver : Driver
  display : Display
  /-- What `write` has put out. -/
  written : Bytes
  world : ω

/-- The inner loop of `main`; the result of `write` is not looked at. -/
def iteration {ω : Type} (raw : Bool) (timeout : Time) (io : Ports ω)
    (write : (data : Bytes) → ω → Except ℕ {n : ℕ // n ≤ data.length} × ω) (fuel : ℕ)
    (s : State ω) : Option (Except Exn Unit × State ω) :=
  match s.driver.readRaw io fuel bufferSize timeout timeout 0 s.world with
  | none => none
  | some (.error x, driver, w) => some (.error x, { s with driver := driver, world := w })
  | some (.ok data, driver, w) =>
    if raw then
      let r := write data w
      let taken := match r.1 with
        | .ok n => data.take n
        | .error _ => []
      some (.ok (), ⟨driver, s.display, s.written ++ taken, r.2⟩)
    else (s.display.show data).map fun display => (.ok (), ⟨driver, display, s.written, w⟩)

def row {α : Type} (before : ℕ → Text) (field : α → Text) (k : ℕ) (as : List α) : Text :=
  (as.zipIdx k).flatMap fun a => before a.2 ++ field a.1

def hexGap (i : ℕ) : Text :=
  if i = 0 then [] else if i % columnSize = 0 then "   ".toList else [' ']

def asciiGap (i : ℕ) : Text := if i ≠ 0 ∧ i % columnSize = 0 then [' '] else []

def hexLine (bs : Bytes) : Text := row hexGap hexDigits 0 bs

def asciiLine (bs : Bytes) : Text := row asciiGap (fun b => [shown b]) 0 bs

def fullLine (bs : Bytes) : Text := hexLine bs ++ "   ".toList ++ asciiLine bs

/-- All lines but the last have their characters. -/
def dump (bs : Bytes) : Text :=
  if bs.length ≤ lineSize then hexLine bs
  else fullLine (bs.take lineSize) ++ '\n' :: dump (bs.drop lineSize)
termination_by bs.length
decreasing_by
  rw [List.length_drop]
  have hline : 0 < lineSize := by decide
  omega

def hexWidth : ℕ := 75

def undumpLine (line : Text) : Option Bytes :=
  hex.decode ((line.take hexWidth).filter (· ≠ ' '))

/-- A reader of the output. -/
def undump (out : Text) : Option Bytes :=
  ((out.splitOn '\n').mapM undumpLine).map List.flatten

section Row

variable {α : Type} {before : ℕ → Text} {field : α → Text} {k : ℕ} {as : List α} {a : α}

theorem row_nil : row before field k [] = [] := rfl

theorem row_cons : row before field k (a :: as) =
    before k ++ field a ++ row before field (k + 1) as := rfl

theorem row_concat (as : List α) (a : α) : row before field k (as ++ [a]) =
    row before field k as ++ before (k + as.length) ++ field a := by
  simp [row, List.zipIdx_append]

theorem length_row {width : ℕ} (hwidth : ∀ a, (field a).length = width) :
    (row before field k as).length =
      ((List.range' k as.length).map fun i => (before i).length + width).sum := by
  induction as generalizing k with
  | nil => rfl
  | cons a as ih =>
    rw [row_cons, List.length_append, List.length_append, hwidth, ih, List.length_cons,
      List.range'_succ, List.map_cons, List.sum_cons]

theorem mem_row {c : Char} (h : c ∈ row before field k as) :
    (∃ i, c ∈ before i) ∨ ∃ a ∈ as, c ∈ field a := by
  obtain ⟨⟨a, i⟩, ha, hc⟩ := List.mem_flatMap.mp h
  rcases List.mem_append.mp hc with hc | hc
  · exact .inl ⟨i, hc⟩
  · exact .inr ⟨a, (List.mem_zipIdx ha).2.2 ▸ List.getElem_mem _, hc⟩

theorem filter_row {p : Char → Bool} (hbefore : ∀ i, (before i).filter p = [])
    (hfield : ∀ a, (field a).filter p = field a) :
    (row before field k as).filter p = as.flatMap field := by
  induction as generalizing k with
  | nil => rfl
  | cons a as ih =>
    rw [row_cons, List.filter_append, List.filter_append, hbefore, hfield, ih]
    rfl

end Row

theorem hexField_eq : ∀ n < 256, hexField n = [(n / 16).digitChar, (n % 16).digitChar] := by
  decide +kernel

theorem hexField_toNat (b : UInt8) : hexField b.toNat = hexDigits b := hexField_eq _ b.toNat_lt

theorem displayAscii_eq {line : Vector Char lineSize} {bs : Bytes}
    (h : line.toList = bs.map shown) : displayAscii line = asciiLine bs := by
  show row asciiGap (fun c => [c]) 0 line.toList = _
  rw [h, row, List.zipIdx_map, List.flatMap_map]
  rfl

theorem hexGap_blank (i : ℕ) : ∀ c ∈ hexGap i, c = ' ' := by
  rw [hexGap]
  split_ifs <;> exact List.all_iff_forall_prop.mp (by decide)

theorem hexDigits_not_blank (b : UInt8) : ∀ c ∈ hexDigits b, c ≠ ' ' ∧ c ≠ '\n' := by
  have hdigits : ∀ c ∈ "0123456789abcdef".toList, c ≠ ' ' ∧ c ≠ '\n' :=
    List.all_iff_forall_prop.mp (by decide)
  exact fun c hc => hdigits c (mem_hexDigits hc)

theorem filter_hexLine (bs : Bytes) : (hexLine bs).filter (· ≠ ' ') = hex.encode bs := by
  refine filter_row (fun i => List.filter_eq_nil_iff.mpr fun c hc => ?_) fun b =>
    List.filter_eq_self.mpr fun c hc => ?_
  · simpa using hexGap_blank i c hc
  · simpa using (hexDigits_not_blank b c hc).1

theorem length_hexLine (bs : Bytes) : (hexLine bs).length =
    ((List.range' 0 bs.length).map fun i => (hexGap i).length + 2).sum :=
  length_row length_hexDigits

theorem length_hexLine_le {bs : Bytes} (h : bs.length ≤ lineSize) :
    (hexLine bs).length ≤ hexWidth := by
  have hwidth : ∀ n ≤ lineSize,
      ((List.range' 0 n).map fun i => (hexGap i).length + 2).sum ≤ hexWidth := by decide
  rw [length_hexLine]
  exact hwidth _ h

theorem length_hexLine_eq {bs : Bytes} (h : bs.length = lineSize) :
    (hexLine bs).length = hexWidth := by
  rw [length_hexLine, h]
  decide

theorem newline_notMem_hexLine (bs : Bytes) : '\n' ∉ hexLine bs := by
  intro h
  obtain ⟨i, hi⟩ | ⟨b, -, hb⟩ := mem_row h
  · exact absurd (hexGap_blank i _ hi) (by decide)
  · exact (hexDigits_not_blank b _ hb).2 rfl

theorem printable_ne : ∀ n ≤ 126, 32 ≤ n → Char.ofNat n ≠ '\n' := by decide

theorem shown_ne_newline (b : UInt8) : shown b ≠ '\n' := by
  rw [shown]
  split_ifs with h
  · obtain ⟨hlow, hhigh⟩ : 32 ≤ b.toNat ∧ b.toNat ≤ 126 := by simpa [isPrint] using h
    exact printable_ne _ hhigh hlow
  · decide

theorem newline_notMem_asciiLine (bs : Bytes) : '\n' ∉ asciiLine bs := by
  intro h
  obtain ⟨i, hi⟩ | ⟨b, -, hb⟩ := mem_row h
  · rw [asciiGap] at hi
    split_ifs at hi
    · exact absurd (List.mem_singleton.mp hi) (by decide)
    · exact absurd hi List.not_mem_nil
  · exact shown_ne_newline b (List.mem_singleton.mp hb).symm

theorem newline_notMem_fullLine (bs : Bytes) : '\n' ∉ fullLine bs := by
  rw [fullLine, List.mem_append, List.mem_append, not_or, not_or]
  exact ⟨⟨newline_notMem_hexLine bs, by decide⟩, newline_notMem_asciiLine bs⟩

theorem undumpLine_hexLine {bs : Bytes} (h : bs.length ≤ lineSize) :
    undumpLine (hexLine bs) = some bs := by
  rw [undumpLine, List.take_of_length_le (length_hexLine_le h), filter_hexLine,
    Code.decode_encode]

theorem undumpLine_fullLine {bs : Bytes} (h : bs.length = lineSize) :
    undumpLine (fullLine bs) = some bs := by
  have htake : (fullLine bs).take hexWidth = hexLine bs := by
    rw [fullLine, List.append_assoc, ← length_hexLine_eq h, List.take_left]
  rw [undumpLine, htake, filter_hexLine, Code.decode_encode]

theorem dump_of_le {bs : Bytes} (h : bs.length ≤ lineSize) : dump bs = hexLine bs := by
  rw [dump, if_pos h]

theorem dump_append {line bs : Bytes} (hline : line.length = lineSize) (hbs : bs ≠ []) :
    dump (line ++ bs) = fullLine line ++ '\n' :: dump bs := by
  have hpos := List.length_pos_of_ne_nil hbs
  have hlong : ¬ (line ++ bs).length ≤ lineSize := by
    rw [List.length_append]
    omega
  rw [dump, if_neg hlong, ← hline, List.take_left, List.drop_left]

theorem dump_lines {lines : List Bytes} {last : Bytes} (hlines : ∀ l ∈ lines, l.length = lineSize)
    (hlast : last.length ≤ lineSize) (hnil : last = [] → lines = []) :
    dump (lines.flatten ++ last) =
      lines.flatMap (fun l => fullLine l ++ ['\n']) ++ hexLine last := by
  induction lines with
  | nil => exact dump_of_le hlast
  | cons l lines ih =>
    have hne : lines.flatten ++ last ≠ [] := by
      intro h
      exact List.cons_ne_nil _ _ (hnil (List.append_eq_nil_iff.mp h).2)
    have ih := ih (fun l hl => hlines l (List.mem_cons_of_mem _ hl))
      fun h => absurd (hnil h) (List.cons_ne_nil _ _)
    rw [List.flatten_cons, List.append_assoc, dump_append (hlines l List.mem_cons_self) hne, ih]
    simp

theorem undump_dump (bs : Bytes) : undump (dump bs) = some bs := by
  induction bs using dump.induct with
  | case1 bs hle =>
    rw [dump_of_le hle, undump, List.splitOn_eq_singleton (newline_notMem_hexLine bs)]
    simp [undumpLine_hexLine hle]
  | case2 bs hle ih =>
    have hlength : (bs.take lineSize).length = lineSize := by
      rw [List.length_take]
      omega
    obtain ⟨bytes, hbytes, hflat⟩ := Option.map_eq_some_iff.mp ih
    rw [dump, if_neg hle, undump,
      List.splitOn_append_cons_self_of_not_mem (newline_notMem_fullLine _)]
    rw [List.mapM_cons, undumpLine_fullLine hlength, hbytes]
    show some (bs.take lineSize ++ bytes.flatten) = some bs
    rw [hflat, List.take_append_drop]

variable {s : Display} {lines : List Bytes} {last : Bytes}

/-- The full lines that are shown, and the bytes of the line that has not been ended. -/
structure Display.Shows (s : Display) (lines : List Bytes) (last : Bytes) : Prop where
  full : ∀ l ∈ lines, l.length = lineSize
  nil : last = [] → lines = []
  pos : last.length = s.pos
  room : s.pos ≤ lineSize
  line : s.line.toList.take s.pos = last.map shown
  out : s.out = lines.flatMap (fun l => fullLine l ++ ['\n']) ++ hexLine last

theorem Display.Shows.out_eq (h : s.Shows lines last) : s.out = dump (lines.flatten ++ last) :=
  h.out.trans (dump_lines h.full (h.pos.trans_le h.room) h.nil).symm

/-- The gap before the next byte is there, and so is the room for it. -/
structure Display.Awaits (s : Display) (lines : List Bytes) (last : Bytes) : Prop where
  full : ∀ l ∈ lines, l.length = lineSize
  pos : last.length = s.pos
  room : s.pos < lineSize
  line : s.line.toList.take s.pos = last.map shown
  out : s.out =
    lines.flatMap (fun l => fullLine l ++ ['\n']) ++ hexLine last ++ hexGap last.length

theorem Display.Shows.separate (h : s.Shows lines last) : ∃ lines' last',
    s.separate.Awaits lines' last' ∧ lines'.flatten ++ last' = lines.flatten ++ last := by
  have hroom := h.room
  by_cases hzero : s.pos = 0
  · -- at the start of a line nothing separates
    have hsame : s.separate = s := if_neg (not_not.mpr hzero)
    have hgap : hexGap last.length = [] := if_pos (h.pos.trans hzero)
    refine ⟨lines, last, ⟨h.full, ?_, ?_, ?_, ?_⟩, rfl⟩
    all_goals rw [hsame]
    · exact h.pos
    · rw [hzero]
      decide
    · exact h.line
    · rw [hgap, List.append_nil]
      exact h.out
  by_cases hfull : s.pos = lineSize
  · -- the line is complete, and its characters are shown
    have hseparate : s.separate = { s with
        pos := 0, out := s.out ++ [' '] ++ ("  ".toList ++ displayAscii s.line ++ ['\n']) } := by
      rw [Display.separate, if_pos hzero]
      exact if_pos (show s.pos % lineSize = 0 by rw [hfull, Nat.mod_self])
    have hline : s.line.toList = last.map shown := by
      rw [← h.line, List.take_of_length_le]
      rw [Vector.length_toList, hfull]
    refine ⟨lines ++ [last], [], ⟨fun l hl => ?_, ?_, ?_, ?_, ?_⟩, by simp⟩
    · rcases List.mem_append.mp hl with hl | hl
      · exact h.full l hl
      · rw [List.mem_singleton.mp hl, h.pos, hfull]
    all_goals rw [hseparate]
    · rfl
    · exact (by decide : 0 < lineSize)
    · rfl
    · dsimp only
      rw [displayAscii_eq hline, h.out]
      simp [hexLine, row_nil, hexGap, fullLine]
  · have hlt : s.pos < lineSize := by omega
    have hseparate : s.separate = s.print (hexGap s.pos) := by
      have hmod : ¬ s.pos % lineSize = 0 := by rwa [Nat.mod_eq_of_lt hlt]
      rw [Display.separate, if_pos hzero, hexGap, if_neg hzero]
      dsimp only [Display.print]
      rw [if_neg hmod]
      split_ifs <;> simp
    refine ⟨lines, last, ⟨h.full, ?_, ?_, ?_, ?_⟩, rfl⟩
    all_goals rw [hseparate]
    · exact h.pos
    · exact hlt
    · exact h.line
    · rw [h.pos, ← h.out]
      rfl

theorem take_set (line : Vector Char lineSize) {i : ℕ} (hi : i < lineSize) (c : Char) :
    (line.set i c).toList.take (i + 1) = line.toList.take i ++ [c] := by
  have hlength : i < line.toList.length := by rwa [Vector.length_toList]
  rw [Vector.toList_set, List.set_eq_take_append_cons_drop, if_pos hlength, List.take_append]
  simp [hi.le]

theorem Display.Shows.put (h : s.Shows lines last) (b : UInt8) : ∃ s' lines' last',
    s.put b = some s' ∧ s'.Shows lines' last' ∧
      lines'.flatten ++ last' = lines.flatten ++ last ++ [b] := by
  obtain ⟨lines', last', hawaits, hbytes⟩ := h.separate
  refine ⟨_, lines', last' ++ [b], dif_pos hawaits.room, ⟨hawaits.full, ?_, ?_, hawaits.room, ?_,
    ?_⟩, by rw [← hbytes, List.append_assoc]⟩
  · intro hnil
    exact absurd (List.append_eq_nil_iff.mp hnil).2 (List.cons_ne_nil _ _)
  · rw [List.length_append, hawaits.pos]
    rfl
  · rw [List.map_append, ← hawaits.line]
    exact take_set _ hawaits.room _
  · dsimp only
    have hconcat : hexLine (last' ++ [b]) =
        hexLine last' ++ hexGap last'.length ++ hexDigits b := by
      rw [hexLine, row_concat, Nat.zero_add, hexLine]
    rw [hawaits.out, hexField_toNat, hconcat]
    simp only [List.append_assoc]

theorem Display.Shows.show (h : s.Shows lines last) (data : Bytes) : ∃ s' lines' last',
    s.show data = some s' ∧ s'.Shows lines' last' ∧
      lines'.flatten ++ last' = lines.flatten ++ last ++ data := by
  induction data generalizing s lines last with
  | nil => exact ⟨s, lines, last, rfl, h, (List.append_nil _).symm⟩
  | cons b data ih =>
    obtain ⟨s₁, lines₁, last₁, hput, h₁, hbytes₁⟩ := h.put b
    obtain ⟨s₂, lines₂, last₂, hshow, h₂, hbytes₂⟩ := ih h₁
    refine ⟨s₂, lines₂, last₂, ?_, h₂, by rw [hbytes₂, hbytes₁, List.append_assoc]; rfl⟩
    rw [Display.show, List.foldlM_cons, hput]
    exact hshow

variable {ω : Type} {raw : Bool} {timeout : Time} {io : Ports ω} {k : ℕ} {w : ω}
  {write : (data : Bytes) → ω → Except ℕ {n : ℕ // n ≤ data.length} × ω}
  {line₀ : Vector Char lineSize}
  {x y : State (Recorded ω)}

def recordedWrite (write : (data : Bytes) → ω → Except ℕ {n : ℕ // n ≤ data.length} × ω) :
    (data : Bytes) → Recorded ω → Except ℕ {n : ℕ // n ≤ data.length} × Recorded ω :=
  fun data w => ((write data w.world).1, { w with world := (write data w.world).2 })

/-- Once round the loop. -/
def Round (raw : Bool) (timeout : Time) (io : Ports ω)
    (write : (data : Bytes) → ω → Except ℕ {n : ℕ // n ≤ data.length} × ω)
    (x y : State (Recorded ω)) : Prop :=
  ∃ fuel, iteration raw timeout (io.recorded 0) (recordedWrite write) fuel x = some (.ok (), y)

/-- The start of the program; `line` has not been written. -/
def start (line : Vector Char lineSize) (w : ω) : State (Recorded ω) :=
  ⟨.new bufferSize false, ⟨0, line, []⟩, [], ⟨w, []⟩⟩

/-- `write` takes everything. -/
def TakesAll (write : (data : Bytes) → ω → Except ℕ {n : ℕ // n ≤ data.length} × ω) : Prop :=
  ∀ data w, (write data w).1 = .ok (wroteAll data)

structure Shown (raw : Bool)
    (write : (data : Bytes) → ω → Except ℕ {n : ℕ // n ≤ data.length} × ω)
    (x : State (Recorded ω)) : Prop where
  buffer : x.driver.internalBuffer = []
  shows : raw = false → ∃ lines last, x.display.Shows lines last ∧
    lines.flatten ++ last = received 0 x.world.trace
  sublist : raw = true → x.written.Sublist (received 0 x.world.trace)
  all : raw = true → TakesAll write → x.written = received 0 x.world.trace

theorem shown_start (line : Vector Char lineSize) (w : ω) : Shown raw write (start line w) where
  buffer := rfl
  shows _ := ⟨[], [], ⟨fun _ hl => absurd hl List.not_mem_nil, fun _ => rfl, rfl, Nat.zero_le _,
    rfl, rfl⟩, rfl⟩
  sublist _ := List.Sublist.refl _
  all _ _ := rfl

theorem readRaw_returned {d d' : Driver} {w w' : Recorded ω} {fuel : ℕ} {data : Bytes}
    (hd : d.internalBuffer = []) (hstream : io.stream ≠ none)
    (h : d.readRaw (io.recorded k) fuel bufferSize timeout timeout 0 w = some (.ok data, d', w')) :
    d'.internalBuffer = [] ∧ received k w'.trace = received k w.trace ++ data := by
  obtain ⟨stream, hio⟩ := Option.ne_none_iff_exists'.mp hstream
  obtain ⟨cs, hend⟩ := readRaw_end hio h
  obtain hok | ⟨x, hx, -⟩ := hend.result
  · have hdata : data = cs.flatten := by
      rw [Except.ok.inj hok, hd, List.take_nil, List.nil_append]
    refine ⟨?_, by rw [received_of_adds hend.adds, hdata]⟩
    rw [hend.driver, Driver.dropFront_internalBuffer, hd, List.drop_nil]
  · cases hx

theorem Shown.round (h : Shown raw write x) (hstream : io.stream ≠ none)
    (hround : Round raw timeout io write x y) : Shown raw write y := by
  obtain ⟨fuel, hround⟩ := hround
  rw [iteration] at hround
  rcases hread : x.driver.readRaw (io.recorded 0) fuel bufferSize timeout timeout 0 x.world with
    _ | ⟨x' | data, d, w⟩
  · rw [hread] at hround
    cases hround
  · rw [hread] at hround
    cases hround
  rw [hread] at hround
  obtain ⟨hbuffer, hreceived⟩ := readRaw_returned h.buffer hstream hread
  dsimp only at hround
  cases raw with
  | true =>
    cases hround
    refine ⟨hbuffer, fun h0 => absurd h0.symm Bool.false_ne_true, fun _ => ?_, fun _ hall => ?_⟩
    · show (x.written ++ _).Sublist (received 0 w.trace)
      rw [hreceived]
      refine (h.sublist rfl).append ?_
      split
      · exact List.take_sublist _ _
      · exact List.nil_sublist _
    · show x.written ++ _ = received 0 w.trace
      rw [hreceived, h.all rfl hall, show (recordedWrite write data w).1 = _ from hall data w.world]
      exact congrArg _ List.take_length
  | false =>
    obtain ⟨lines, last, hshows, hbytes⟩ := h.shows rfl
    obtain ⟨s', lines', last', hshow, hshows', hbytes'⟩ := hshows.show data
    rw [if_neg Bool.false_ne_true, hshow] at hround
    cases hround
    refine ⟨hbuffer, fun _ => ⟨lines', last', hshows', ?_⟩, fun h0 => absurd h0 Bool.false_ne_true,
      fun h0 => absurd h0 Bool.false_ne_true⟩
    rw [hbytes', hbytes]
    exact hreceived.symm

theorem shown_run (hstream : io.stream ≠ none)
    (h : Relation.ReflTransGen (Round raw timeout io write) (start line₀ w) x) :
    Shown raw write x := by
  induction h with
  | refl => exact shown_start line₀ w
  | tail _ hround ih => exact ih.round hstream hround

/-- **What is displayed is what has been read**, however the stream cuts it into chunks and
whatever is in `line` at the start: the text has the layout of one dump, every byte can be read
again from it, and there is room in `line` for whatever comes next.  With `--raw` nothing is put
out that has not been read, and all of it if `write` takes everything. -/
theorem displayed (hstream : io.stream ≠ none)
    (h : Relation.ReflTransGen (Round raw timeout io write) (start line₀ w) x) :
    (raw = false → x.display.out = dump (received 0 x.world.trace) ∧
      undump x.display.out = some (received 0 x.world.trace) ∧
      ∀ data, (x.display.show data).isSome = true) ∧
    (raw = true → x.written.Sublist (received 0 x.world.trace) ∧
      (TakesAll write → x.written = received 0 x.world.trace)) := by
  have hshown := shown_run hstream h
  refine ⟨fun hraw => ?_, fun hraw => ⟨hshown.sublist hraw, hshown.all hraw⟩⟩
  obtain ⟨lines, last, hshows, hbytes⟩ := hshown.shows hraw
  have hout : x.display.out = dump (received 0 x.world.trace) := by rw [hshows.out_eq, hbytes]
  refine ⟨hout, by rw [hout, undump_dump], fun data => ?_⟩
  obtain ⟨s', _, _, hshow, -⟩ := hshows.show data
  rw [hshow]
  rfl

/-- The ports of a test stream, and an output that is closed. -/
def testPorts : Ports (TestStream × Unit) := ⟨fun w => (0, w), some TestStream.stream, []⟩

def writeClosed (data : Bytes) (w : TestStream × Unit) :
    Except ℕ {n : ℕ // n ≤ data.length} × TestStream × Unit := (.error 9, w)

/-- A line of text from a test stream. -/
theorem displayed_sample : ∃ x : State (Recorded (TestStream × Unit)),
    Relation.ReflTransGen (Round false 0 testPorts writeClosed)
      (start (Vector.replicate lineSize 'x') (TestStream.new.pushDataToDriver [72, 105, 10], ()))
      x ∧
    x.display.out = "48 69 0a".toList ∧ undump x.display.out = some [72, 105, 10] := by
  obtain ⟨⟨r, x⟩, hr, hok, hreceived⟩ := exists_of_any
    (x := iteration false 0 (testPorts.recorded 0) (recordedWrite writeClosed) 5
      (start (Vector.replicate lineSize 'x') (TestStream.new.pushDataToDriver [72, 105, 10], ())))
    (fun r => r.1.toOption = some () ∧ received 0 r.2.world.trace = [72, 105, 10])
    (by decide +kernel)
  cases r with
  | error => cases hok
  | ok =>
    have hround : Round false 0 testPorts writeClosed _ x := ⟨5, hr⟩
    obtain ⟨hout, hread, -⟩ := (displayed (by simp [testPorts]) (.single hround)).1 rfl
    rw [hreceived] at hout hread
    rw [dump_of_le (by decide)] at hout
    exact ⟨x, .single hround, hout.trans (by decide), hread⟩

end Cat
end IodriversBase
