import IodriversBase.Library.Framing

namespace Framing

variable {α : Type*} {E : List α → ℤ} {b : List α}

/-- A buffer cut in three.  An empty `packet` means that there is none. -/
structure Cut (α : Type*) where
  skipped : List α
  packet : List α
  rest : List α

/-- Cut at the first packet, or where the extractor has to wait. -/
def firstPacket (E : List α → ℤ) (b : List α) : Cut α :=
  if _h : Settled E b then ⟨[], [], b⟩
  else if 0 < E b then ⟨[], b.take (E b).natAbs, b.drop (E b).natAbs⟩
  else
    let c := firstPacket E (b.drop (E b).natAbs)
    ⟨b.take (E b).natAbs ++ c.skipped, c.packet, c.rest⟩
termination_by b.length
decreasing_by exact drop_length_lt _h

/-- Cut at the last packet.  What follows it stays, skipped or not; without a packet only the
first skip goes. -/
def lastPacket (E : List α → ℤ) (b : List α) : Cut α :=
  if _h : Settled E b then ⟨[], [], b⟩
  else
    let c := lastPacket E (b.drop (E b).natAbs)
    if c.packet ≠ [] then ⟨b.take (E b).natAbs ++ c.skipped, c.packet, c.rest⟩
    else if 0 < E b then ⟨[], b.take (E b).natAbs, b.drop (E b).natAbs⟩
    else ⟨b.take (E b).natAbs, [], b.drop (E b).natAbs⟩
termination_by b.length
decreasing_by exact drop_length_lt _h

/-- How many symbols a scan to the end of the buffer skips, and how many it finds in packets. -/
def tally (E : List α → ℤ) (b : List α) : ℕ × ℕ :=
  if _h : Settled E b then (0, 0)
  else
    let t := tally E (b.drop (E b).natAbs)
    if 0 < E b then (t.1, (E b).natAbs + t.2) else ((E b).natAbs + t.1, t.2)
termination_by b.length
decreasing_by exact drop_length_lt _h

/-- Induction along a scan: the buffer is settled, or one move leads to a shorter one. -/
theorem scan_induction {P : List α → Prop} (hsettled : ∀ b, Settled E b → P b)
    (hmove : ∀ b, ¬ Settled E b → P (b.drop (E b).natAbs) → P b) (b : List α) : P b := by
  by_cases h : Settled E b
  · exact hsettled b h
  · exact hmove b h (scan_induction hsettled hmove _)
termination_by b.length
decreasing_by exact drop_length_lt h

theorem firstPacket_settled (h : Settled E b) : firstPacket E b = ⟨[], [], b⟩ := by
  rw [firstPacket, dif_pos h]

theorem lastPacket_settled (h : Settled E b) : lastPacket E b = ⟨[], [], b⟩ := by
  rw [lastPacket, dif_pos h]

theorem tally_settled (h : Settled E b) : tally E b = (0, 0) := by
  rw [tally, dif_pos h]

theorem natAbs_pos_of_not_settled (h : ¬ Settled E b) : 0 < (E b).natAbs :=
  Int.natAbs_pos.mpr fun h0 => h (.inr h0)

theorem natAbs_le_length (hb : InBounds E) (hne : b ≠ []) : (E b).natAbs ≤ b.length := by
  have := hb.lower b hne
  have := hb.upper b hne
  omega

theorem take_ne_nil_of_not_settled (h : ¬ Settled E b) : b.take (E b).natAbs ≠ [] := by
  have := natAbs_pos_of_not_settled h
  have := ne_nil_of_not_settled h
  simp only [ne_eq, List.take_eq_nil_iff, not_or]
  exact ⟨by omega, this⟩

theorem step_of_not_settled (hb : InBounds E) (h : ¬ Settled E b) :
    Step E b (if 0 < E b then .emit (b.take (E b).natAbs) else .skip (b.take (E b).natAbs))
      (b.drop (E b).natAbs) := by
  have hpos := natAbs_pos_of_not_settled h
  have hle := natAbs_le_length hb (ne_nil_of_not_settled h)
  have hlen : (b.take (E b).natAbs).length = (E b).natAbs := by simpa using hle
  have hjoin : b.take (E b).natAbs ++ b.drop (E b).natAbs = b := List.take_append_drop _ _
  split_ifs with hE
  · have := Step.emit (E := E) (b.take (E b).natAbs) (b.drop (E b).natAbs)
      (take_ne_nil_of_not_settled h) (by rw [hjoin, hlen]; omega)
    rwa [hjoin] at this
  · have := Step.skip (E := E) (b.take (E b).natAbs) (b.drop (E b).natAbs)
      (take_ne_nil_of_not_settled h) (by rw [hjoin, hlen]; omega)
    rwa [hjoin] at this

theorem firstPacket_join (b : List α) :
    (firstPacket E b).skipped ++ ((firstPacket E b).packet ++ (firstPacket E b).rest) = b := by
  induction b using scan_induction (E := E) with
  | hsettled b h => simp [firstPacket_settled h]
  | hmove b h ih =>
    rw [firstPacket, dif_neg h]
    split_ifs
    · simp
    · simp [List.append_assoc, ih]

def asList (p : List α) : List (List α) := if p = [] then [] else [p]

/-- Cutting at the first packet skips, and emits the packet if there is one. -/
theorem firstPacket_moves (hb : InBounds E) (b : List α) :
    ∃ ms, Lts.Run (Step E) b ms (firstPacket E b).rest ∧ (∀ m ∈ ms, m.Scanning) ∧
      removed ms = (firstPacket E b).skipped ++ (firstPacket E b).packet ∧
      emitted ms = asList (firstPacket E b).packet := by
  induction b using scan_induction (E := E) with
  | hsettled b h => exact ⟨[], by simpa [firstPacket_settled h, asList] using .nil b⟩
  | hmove b h ih =>
    have hstep := step_of_not_settled hb h
    rw [firstPacket, dif_neg h]
    split_ifs at hstep ⊢ with hE
    · exact ⟨_, .single hstep, by simp [Move.Scanning], by simp,
        by simp [asList, take_ne_nil_of_not_settled h]⟩
    · obtain ⟨ms, hrun, hscan, hrem, hemit⟩ := ih
      exact ⟨_, .cons hstep hrun, by simpa [Move.Scanning] using hscan,
        by simp [hrem, List.append_assoc], by simpa using hemit⟩

theorem firstPacket_rest_settled (b : List α) (h : (firstPacket E b).packet = []) :
    Settled E (firstPacket E b).rest := by
  induction b using scan_induction (E := E) with
  | hsettled b hs => simpa [firstPacket_settled hs] using hs
  | hmove b hs ih =>
    rw [firstPacket, dif_neg hs] at h ⊢
    split_ifs at h ⊢
    · exact absurd h (take_ne_nil_of_not_settled hs)
    · exact ih h

theorem firstPacket_rest_le (b : List α) : (firstPacket E b).rest.length ≤ b.length := by
  have h := congrArg List.length (firstPacket_join (E := E) b)
  simp only [List.length_append] at h
  omega

theorem firstPacket_rest_lt (h : ¬ Settled E b) : (firstPacket E b).rest.length < b.length := by
  have hlt := drop_length_lt h
  rw [firstPacket, dif_neg h]
  split_ifs
  · exact hlt
  · exact (firstPacket_rest_le _).trans_lt hlt

theorem lastPacket_join (b : List α) :
    (lastPacket E b).skipped ++ ((lastPacket E b).packet ++ (lastPacket E b).rest) = b := by
  induction b using scan_induction (E := E) with
  | hsettled b h => simp [lastPacket_settled h]
  | hmove b h ih =>
    rw [lastPacket, dif_neg h]
    dsimp only
    split_ifs
    · simp [List.append_assoc, ih]
    · simp
    · simp

theorem lastPacket_rest_le (b : List α) : (lastPacket E b).rest.length ≤ b.length := by
  have h := congrArg List.length (lastPacket_join (E := E) b)
  simp only [List.length_append] at h
  omega

theorem lastPacket_rest_lt (h : ¬ Settled E b) : (lastPacket E b).rest.length < b.length := by
  have hlt := drop_length_lt h
  rw [lastPacket, dif_neg h]
  dsimp only
  split_ifs
  · exact (lastPacket_rest_le _).trans_lt hlt
  · exact hlt
  · exact hlt

/-- Behind the last packet, or without one, the parse finds nothing. -/
theorem parse_lastPacket_rest (b : List α) : parse E (lastPacket E b).rest = [] ∧
    ((lastPacket E b).packet = [] → parse E b = []) := by
  induction b using scan_induction (E := E) with
  | hsettled b h => simp [lastPacket_settled h, parse_settled h]
  | hmove b h ih =>
    rw [lastPacket, dif_neg h]
    dsimp only
    split_ifs with hp hE
    · exact ⟨ih.1, fun h0 => absurd h0 hp⟩
    · exact ⟨ih.2 (not_not.mp hp), fun h0 => absurd h0 (take_ne_nil_of_not_settled h)⟩
    · have hE0 : E b ≠ 0 := fun h0 => h (.inr h0)
      have hnil := ih.2 (not_not.mp hp)
      exact ⟨hnil, fun _ => by rw [parse_skip (ne_nil_of_not_settled h) (by omega), hnil]⟩

/-- Cutting at the last packet makes the moves up to it, or the first skip. -/
theorem lastPacket_moves (hb : InBounds E) (b : List α) :
    ∃ ms, Lts.Run (Step E) b ms (lastPacket E b).rest ∧ (∀ m ∈ ms, m.Scanning) ∧
      removed ms = (lastPacket E b).skipped ++ (lastPacket E b).packet ∧
      (emitted ms).getLast?.getD [] = (lastPacket E b).packet := by
  induction b using scan_induction (E := E) with
  | hsettled b h => exact ⟨[], by simpa [lastPacket_settled h] using .nil b⟩
  | hmove b h ih =>
    have hstep := step_of_not_settled hb h
    rw [lastPacket, dif_neg h]
    dsimp only
    split_ifs with hp hE
    · obtain ⟨ms, hrun, hscan, hrem, hemit⟩ := ih
      have hne : emitted ms ≠ [] := by
        intro h0
        exact hp (by simpa [h0] using hemit.symm)
      refine ⟨_, .cons hstep hrun, ?_, ?_, ?_⟩
      · rintro m hm
        rcases List.mem_cons.mp hm with rfl | hm
        · split_ifs <;> trivial
        · exact hscan m hm
      · split_ifs <;> simp [hrem, List.append_assoc]
      · rw [emitted_cons, List.getLast?_append_of_ne_nil _ hne]
        exact hemit
    · rw [if_pos hE] at hstep
      exact ⟨_, .single hstep, by simp [Move.Scanning], by simp, by simp⟩
    · rw [if_neg hE] at hstep
      exact ⟨_, .single hstep, by simp [Move.Scanning], by simp, by simp⟩

/-- When nothing can be done behind the last packet, the scan has counted just the symbols
that the cut removes. -/
theorem tally_of_settled_rest (hb : InBounds E) (b : List α)
    (h : Settled E (lastPacket E b).rest) :
    (tally E b).1 + (tally E b).2 =
      (lastPacket E b).skipped.length + (lastPacket E b).packet.length := by
  induction b using scan_induction (E := E) with
  | hsettled b hs => simp [lastPacket_settled hs, tally_settled hs]
  | hmove b hs ih =>
    have hle := natAbs_le_length hb (ne_nil_of_not_settled hs)
    rw [tally, dif_neg hs]
    rw [lastPacket, dif_neg hs] at h ⊢
    dsimp only at h ⊢
    by_cases hp : (lastPacket E (b.drop (E b).natAbs)).packet ≠ []
    · rw [if_pos hp] at h ⊢
      have := ih h
      split_ifs <;> simp <;> omega
    · rw [if_neg hp] at h ⊢
      have hrest : Settled E (b.drop (E b).natAbs) := by split_ifs at h <;> exact h
      rw [tally_settled hrest]
      split_ifs <;> simp <;> omega

/-- The first `n` symbols are skipped, one skip after the other. -/
inductive Skips (E : List α → ℤ) : List α → ℕ → Prop
  | nil (b : List α) : Skips E b 0
  | cons {b : List α} {n : ℕ} : b ≠ [] → E b < 0 → Skips E (b.drop (E b).natAbs) n →
      Skips E b ((E b).natAbs + n)

theorem Skips.le_length (hb : InBounds E) {n : ℕ} (h : Skips E b n) : n ≤ b.length := by
  induction h with
  | nil b => exact Nat.zero_le _
  | @cons b n hne _ _ ih =>
    have hle := natAbs_le_length hb hne
    rw [List.length_drop] at ih
    omega

theorem firstPacket_skips (hb : InBounds E) (b : List α) :
    Skips E b (firstPacket E b).skipped.length := by
  induction b using scan_induction (E := E) with
  | hsettled b h =>
    rw [firstPacket_settled h]
    exact .nil b
  | hmove b h ih =>
    have hne := ne_nil_of_not_settled h
    have hE0 : E b ≠ 0 := fun h0 => h (.inr h0)
    rw [firstPacket, dif_neg h]
    split_ifs with hE
    · exact .nil b
    · rw [List.length_append, List.length_take, min_eq_left (natAbs_le_length hb hne)]
      exact .cons hne (by omega) ih

/-- A cut is made in front of a packet, where the extractor answers with its length. -/
theorem firstPacket_answer (hb : InBounds E) (b : List α) (h : (firstPacket E b).packet ≠ []) :
    E ((firstPacket E b).packet ++ (firstPacket E b).rest) = (firstPacket E b).packet.length := by
  induction b using scan_induction (E := E) with
  | hsettled b hs => exact absurd (by rw [firstPacket_settled hs]) h
  | hmove b hs ih =>
    have hle := natAbs_le_length hb (ne_nil_of_not_settled hs)
    rw [firstPacket, dif_neg hs] at h ⊢
    split_ifs at h ⊢ with hE
    · rw [List.take_append_drop, List.length_take, min_eq_left hle]
      omega
    · exact ih h

theorem lastPacket_answer (hb : InBounds E) (b : List α) (h : (lastPacket E b).packet ≠ []) :
    E ((lastPacket E b).packet ++ (lastPacket E b).rest) = (lastPacket E b).packet.length := by
  induction b using scan_induction (E := E) with
  | hsettled b hs => exact absurd (by rw [lastPacket_settled hs]) h
  | hmove b hs ih =>
    have hle := natAbs_le_length hb (ne_nil_of_not_settled hs)
    rw [lastPacket, dif_neg hs] at h ⊢
    dsimp only at h ⊢
    split_ifs at h ⊢ with hp hE
    · exact ih hp
    · rw [List.take_append_drop, List.length_take, min_eq_left hle]
      omega
    · exact absurd rfl h

theorem lastPacket_packet_eq_nil_iff (hb : InBounds E) (b : List α) :
    (lastPacket E b).packet = [] ↔ parse E b = [] := by
  refine ⟨(parse_lastPacket_rest b).2, fun hparse => ?_⟩
  obtain ⟨ms, hrun, hscan, -, hlast⟩ := lastPacket_moves hb b
  have hnone := (List.append_eq_nil_iff.mp ((parse_scanning hrun hscan).symm.trans hparse)).1
  rw [← hlast, hnone]
  rfl

/-- Without a packet, the cut is made behind the first skip. -/
theorem lastPacket_of_parse_nil (hb : InBounds E) (h : ¬ Settled E b) (hparse : parse E b = []) :
    lastPacket E b = ⟨b.take (E b).natAbs, [], b.drop (E b).natAbs⟩ := by
  have hpacket := (lastPacket_packet_eq_nil_iff hb b).mpr hparse
  rw [lastPacket, dif_neg h] at hpacket ⊢
  dsimp only at hpacket ⊢
  split_ifs at hpacket ⊢ with hp hE
  · exact absurd hpacket hp
  · exact absurd hpacket (take_ne_nil_of_not_settled h)
  · rfl

/-- What a buffer becomes when it is cut down by `rest`, then after each arrival again. -/
def absorb (rest : List α → List α) : List α → List (List α) → List α
  | b, [] => rest b
  | b, c :: cs => absorb rest (rest b ++ c) cs

def scans (rest : List α → List α) : List α → List (List α) → List (List α)
  | b, [] => [b]
  | b, c :: cs => b :: scans rest (rest b ++ c) cs

theorem absorb_append (rest : List α → List α) (b : List α) (cs : List (List α)) (c : List α)
    (cs' : List (List α)) :
    absorb rest b (cs ++ c :: cs') = absorb rest (absorb rest b cs ++ c) cs' := by
  induction cs generalizing b with
  | nil => rfl
  | cons d cs ih => exact ih _

theorem scans_append (rest : List α → List α) (b : List α) (cs : List (List α)) (c : List α)
    (cs' : List (List α)) :
    scans rest b (cs ++ c :: cs') = scans rest b cs ++ scans rest (absorb rest b cs ++ c) cs' := by
  induction cs generalizing b with
  | nil => rfl
  | cons d cs ih => simpa [scans, absorb] using ih _

theorem mem_scans_append {rest : List α → List α} {b b' : List α} {cs : List (List α)} (c : List α)
    (h : b' ∈ scans rest b cs) : b' ∈ scans rest b (cs ++ [c]) := by
  rw [scans_append]
  exact List.mem_append_left _ h

end Framing
