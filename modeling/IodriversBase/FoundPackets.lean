import IodriversBase.Samples

namespace IodriversBase

open Framing

variable {ω : Type} {e : Bytes → ℤ}

/-- What the start and the size that `findPacket` returns are documented to be. -/
structure Points (e : Bytes → ℤ) (extractLast : Bool) (b : Bytes) (start size : ℕ) : Prop where
  skipped : size = 0 → Skips e b start
  partialPacket : size = 0 → start = b.length ∨ e (b.drop start) = 0
  packet : 0 < size → e (b.drop start) = size
  isLast : 0 < size → extractLast = true → parse e (b.drop (start + size)) = []

/-- The last packet is looked for and there is none, and more than one skip has to be made. -/
def SkipsAgain (e : Bytes → ℤ) (extractLast : Bool) (b : Bytes) : Prop :=
  extractLast = true ∧ parse e b = [] ∧ e b < 0 ∧
    b.drop (e b).natAbs ≠ [] ∧ e (b.drop (e b).natAbs) < 0

theorem Points.of_none {extractLast : Bool} {b : Bytes} {start : ℕ} (hskips : Skips e b start)
    (hplace : start = b.length ∨ e (b.drop start) = 0) : Points e extractLast b start 0 where
  skipped _ := hskips
  partialPacket _ := hplace
  packet h := absurd h (Nat.lt_irrefl 0)
  isLast h := absurd h (Nat.lt_irrefl 0)

theorem drop_cut_packet (e : Bytes → ℤ) (extractLast : Bool) (b : Bytes) :
    b.drop ((cut e extractLast b).skipped.length + (cut e extractLast b).packet.length) =
      (cut e extractLast b).rest := by
  rw [← List.drop_drop, drop_cut, List.drop_left]

theorem settled_drop {b : Bytes} {n : ℕ} (h : Settled e (b.drop n)) (hn : n ≤ b.length) :
    n = b.length ∨ e (b.drop n) = 0 := by
  refine h.imp_left fun hnil => ?_
  have := List.drop_eq_nil_iff.mp hnil
  omega

theorem firstPacket_points (hb : InBounds e) (b : Bytes) :
    Points e false b (cut e false b).skipped.length (cut e false b).packet.length := by
  have hskips : Skips e b (cut e false b).skipped.length := firstPacket_skips hb b
  refine ⟨fun _ => hskips, fun hsize => ?_, fun hsize => ?_, fun _ h => by cases h⟩
  · have hnil := List.length_eq_zero_iff.mp hsize
    apply settled_drop _ (hskips.le_length hb)
    rw [drop_cut, hnil, List.nil_append]
    exact firstPacket_rest_settled b hnil
  · rw [drop_cut]
    exact firstPacket_answer hb b (List.length_pos_iff.mp hsize)

theorem lastPacket_points (hb : InBounds e) {b : Bytes} (h : (cut e true b).packet ≠ []) :
    Points e true b (cut e true b).skipped.length (cut e true b).packet.length := by
  have hpos := List.length_pos_iff.mpr h
  refine ⟨fun hsize => by omega, fun hsize => by omega, fun _ => ?_, fun _ _ => ?_⟩
  · rw [drop_cut]
    exact lastPacket_answer hb b h
  · rw [drop_cut_packet]
    exact (parse_lastPacket_rest b).1

theorem lastPacket_points_iff (hb : InBounds e) {b : Bytes} (h : ¬ Settled e b)
    (hparse : parse e b = []) :
    Points e true b (cut e true b).skipped.length (cut e true b).packet.length ↔
      ¬ SkipsAgain e true b := by
  have hne := ne_nil_of_not_settled h
  have hle := natAbs_le_length hb hne
  have hneg : e b < 0 := by
    by_contra hpos
    have h0 : e b ≠ 0 := fun h0 => h (.inr h0)
    rw [parse_packet hne (by omega)] at hparse
    cases hparse
  have hcut : cut e true b = ⟨b.take (e b).natAbs, [], b.drop (e b).natAbs⟩ :=
    lastPacket_of_parse_nil hb h hparse
  rw [hcut, List.length_take, min_eq_left hle]
  rw [parse_skip hne hneg] at hparse
  constructor
  · rintro hpoints ⟨-, -, -, hrest, hagain⟩
    rcases hpoints.partialPacket rfl with hend | hstop
    · exact hrest (by rw [hend, List.drop_length])
    · omega
  · intro hnot
    refine .of_none (.cons hne hneg (.nil _)) (settled_drop ?_ hle)
    by_contra hgo
    have hrest := ne_nil_of_not_settled hgo
    have h0 : e (b.drop (e b).natAbs) ≠ 0 := fun h0 => hgo (.inr h0)
    rcases lt_or_gt_of_ne h0 with hagain | hfound
    · refine hnot ⟨rfl, ?_, hneg, hrest, hagain⟩
      rw [parse_skip hne hneg, hparse]
    · rw [parse_packet hrest hfound] at hparse
      cases hparse

theorem cut_points_iff (hb : InBounds e) {b : Bytes} (hne : b ≠ []) (extractLast : Bool) :
    Points e extractLast b (cut e extractLast b).skipped.length
        (cut e extractLast b).packet.length ↔ ¬ SkipsAgain e extractLast b := by
  cases extractLast with
  | false => exact iff_of_true (firstPacket_points hb b) fun h => by cases h.1
  | true =>
    by_cases hpacket : (cut e true b).packet = []
    swap
    · refine iff_of_true (lastPacket_points hb hpacket) fun h => hpacket ?_
      exact (lastPacket_packet_eq_nil_iff hb b).mpr h.2.1
    by_cases hset : Settled e b
    swap
    · exact lastPacket_points_iff hb hset ((lastPacket_packet_eq_nil_iff hb b).mp hpacket)
    -- nothing to skip
    have h0 : e b = 0 := hset.resolve_left hne
    rw [cut_settled hset]
    exact iff_of_true (.of_none (.nil b) (.inr h0)) fun h => h.2.2.1.ne h0

/-- `findPacket` points at the documented place, unless it looks for the last packet, finds none
and has to skip more than once. -/
theorem findPacket_points_iff (hb : InBounds e) {E : Extract ω} (hE : E.Answers e) {buffer : Bytes}
    (hne : buffer ≠ []) (extractLast : Bool) {fuel : ℕ} (hfuel : buffer.length ≤ fuel)
    (stats : Status) (w : ω) :
    ∃ (start size : ℕ) (stats' : Status) (w' : ω),
      findPacket (E.at buffer) extractLast fuel 0 buffer.length stats w =
        some (.ok (start, size), stats', w') ∧
      (Points e extractLast buffer start size ↔ ¬ SkipsAgain e extractLast buffer) := by
  have hscan := findPacket_eq hb hE (List.drop_zero (l := buffer)) hne extractLast hfuel stats w
  rw [Nat.cast_zero, Nat.zero_add] at hscan
  exact ⟨_, _, _, _, hscan, cut_points_iff hb hne extractLast⟩

theorem findPacket_points_iff_sample : ∃ (start size : ℕ) (stats : Status) (w : Unit),
    findPacket ((Extract.pure driverTestExtractPacket).at [1, 0, 1, 2, 0, 0, 1]) true 7 0 7 .zero
      () = some (.ok (start, size), stats, w) ∧
    (Points driverTestExtractPacket true [1, 0, 1, 2, 0, 0, 1] start size ↔
      ¬ SkipsAgain driverTestExtractPacket true [1, 0, 1, 2, 0, 0, 1]) :=
  findPacket_points_iff driverTest_inBounds (Extract.answers_pure _) (by decide) true le_rfl
    .zero ()

/-- Two bytes of garbage: the start is between them. -/
theorem findPacket_between_skips :
    ∃ (stats : Status) (w : Unit),
      findPacket ((Extract.pure driverTestExtractPacket).at [1, 1]) true 2 0 2 .zero () =
        some (.ok (1, 0), stats, w) ∧
      ¬ Points driverTestExtractPacket true [1, 1] 1 0 := by
  refine ⟨_, _, rfl, fun h => ?_⟩
  have hplace := h.partialPacket rfl
  revert hplace
  decide

end IodriversBase
