import IodriversBase.Descriptors
import IodriversBase.Termination

namespace IodriversBase

open Framing

/-- `DriverTest::extractPacket`: packets of four bytes whose first and last byte are 0. -/
def driverTestExtractPacket (b : Bytes) : ℤ :=
  if b.getD 0 0 ≠ 0 then -1
  else if b.length < 4 then 0
  else if b.getD 3 0 = 0 then 4
  else -4

theorem driverTest_inBounds : InBounds driverTestExtractPacket where
  lower b hb := by
    have := List.length_pos_iff.mpr hb
    unfold driverTestExtractPacket
    split_ifs <;> omega
  upper b hb := by
    unfold driverTestExtractPacket
    split_ifs <;> omega

theorem getD_append_left {b : Bytes} {i : ℕ} (hi : i < b.length) (s : Bytes) :
    (b ++ s).getD i 0 = b.getD i 0 := by
  rw [List.getD_eq_getElem?_getD, List.getElem?_append_left hi, List.getD_eq_getElem?_getD]

theorem driverTest_append {b : Bytes} (hb : b ≠ []) (s : Bytes)
    (h : driverTestExtractPacket b ≠ 0) :
    driverTestExtractPacket (b ++ s) = driverTestExtractPacket b := by
  have hpos := List.length_pos_iff.mpr hb
  have hfirst : (b ++ s).getD 0 0 = b.getD 0 0 := getD_append_left hpos s
  unfold driverTestExtractPacket at h ⊢
  rw [hfirst]
  by_cases h0 : b.getD 0 0 ≠ 0
  · rw [if_pos h0, if_pos h0]
  rw [if_neg h0] at h ⊢
  by_cases hlen : b.length < 4
  · exact absurd (if_pos hlen) h
  have hfourth : (b ++ s).getD 3 0 = b.getD 3 0 := getD_append_left (by omega) s
  rw [if_neg hlen] at h ⊢
  rw [if_neg (by rw [List.length_append]; omega), hfourth, if_neg h0]

theorem driverTest_stable : Stable driverTestExtractPacket where
  packet _ s hb h := driverTest_append hb s h.ne'
  skip _ s hb h := (driverTest_append hb s h.ne).le
  skip_rest _ s hb h hlt := absurd (driverTest_append hb s h.ne) hlt.ne

theorem driverTest_decides {b : Bytes} (hlen : 4 ≤ b.length) : driverTestExtractPacket b ≠ 0 := by
  unfold driverTestExtractPacket
  split_ifs <;> omega

theorem driverTest_parse : parse driverTestExtractPacket [0, 1, 2, 0] = [[0, 1, 2, 0]] := by
  have hfour : driverTestExtractPacket [0, 1, 2, 0] = 4 := by decide
  rw [parse_packet (List.cons_ne_nil _ _) (by omega), hfour]
  exact congrArg _ (parse_settled settled_nil)

theorem exists_of_any {α : Type} {x : Option α} (P : α → Prop) [DecidablePred P]
    (h : x.any (fun a => decide (P a)) = true) : ∃ a, x = some a ∧ P a := by
  obtain ⟨a, hx, ha⟩ := (Option.any_eq_true _ x).mp h
  exact ⟨a, hx, of_decide_eq_true ha⟩

/-- The chunks still to be handed out; an empty one is a read without data. -/
abbrev Script := List Bytes

/-- Reads hand out the chunks, piecewise where they do not fit; waits see no data. -/
def Script.stream : IOStream Script where
  waitRead _ w := (.ok false, w)
  waitWrite _ w := (.ok true, w)
  read n
    | [] => (.ok ⟨[], Nat.zero_le _⟩, [])
    | c :: cs => (.ok ⟨c.take n, List.length_take_le n c⟩,
      if c.drop n = [] then cs else c.drop n :: cs)
  write data w := (.ok (wroteAll data), w)
  clear w := w
  eof _ := false
  getFileDescriptor _ := -1
  delete w := w

/-- The scripted stream, no listener, and a clock that stands still. -/
def Script.ports : Ports Script where
  now w := (0, w)
  stream := some Script.stream
  listeners := []

/-- What a read of at most `n` bytes finds: a chunk, an empty one at the end of a file, or
nothing. -/
def Script.take (n : ℕ) : Script → Except ℕ {data : Bytes // data.length ≤ n} × Script
  | [] => (if n = 0 then .ok ⟨[], Nat.zero_le _⟩ else .error EAGAIN, [])
  | c :: cs => (.ok ⟨c.take n, List.length_take_le n c⟩,
    if c.drop n = [] then cs else c.drop n :: cs)

/-- A system that hands out the chunks whatever the descriptor. -/
def Script.os : Os Script where
  read _ n := Script.take n
  recv _ _ n := Script.take n
  write _ data w := (.ok (wroteAll data), w)
  send _ _ data w := (.ok (wroteAll data), w)
  select reads writes _ w := (.ok (reads, writes), w)
  accept _ w := (.error EAGAIN, w)
  close _ w := w
  getFlags _ w := (O_NONBLOCK, w)
  setFlags _ _ w := (.ok (), w)
  now w := (0, w)

/-- `Script.os`, with descriptors that fail when the chunks are used up. -/
def Script.broken : Os Script :=
  { Script.os with read := fun _ n w => match w with
      | [] => (.error 5, [])
      | c :: cs => Script.take n (c :: cs) }

/-- A driver with `data` in its buffer. -/
def Script.driver (extractLast : Bool) (data : Bytes) : Driver :=
  (Driver.new 100 extractLast).append (data.take 100) (List.length_take_le 100 data)

end IodriversBase
