import Mathlib.Tactic
import IodriversBase.Library.Lts

namespace Framing

variable {α : Type*} {E : List α → ℤ}

/-- An extractor answers `n > 0` when the symbols it is shown start with a packet of `n` symbols,
`-k < 0` when the first `k` of them belong to no packet, and `0` when it has to see more.  Its
answers stay within the symbols shown. -/
structure InBounds (E : List α → ℤ) : Prop where
  lower : ∀ b, b ≠ [] → -(b.length : ℤ) ≤ E b
  upper : ∀ b, b ≠ [] → E b ≤ b.length

/-- Symbols that arrive later change neither a packet nor a skip; they may only lengthen
the skip, by symbols that would be skipped next anyway. -/
structure Stable (E : List α → ℤ) : Prop where
  packet : ∀ b s, b ≠ [] → 0 < E b → E (b ++ s) = E b
  skip : ∀ b s, b ≠ [] → E b < 0 → E (b ++ s) ≤ E b
  skip_rest : ∀ b s, b ≠ [] → E b < 0 → E (b ++ s) < E b →
    E ((b ++ s).drop (E b).natAbs) = E (b ++ s) - E b

/-- Nothing can be done before more symbols arrive. -/
def Settled (E : List α → ℤ) (b : List α) : Prop := b = [] ∨ E b = 0

instance (E : List α → ℤ) (b : List α) : Decidable (Settled E b) :=
  inferInstanceAs (Decidable (b = [] ∨ E b = 0))

@[simp] theorem settled_nil : Settled E ([] : List α) := .inl rfl

theorem ne_nil_of_not_settled {b : List α} (h : ¬ Settled E b) : b ≠ [] :=
  fun hb => h (.inl hb)

/-- An unsettled buffer gets shorter at the next move. -/
theorem drop_length_lt {b : List α} (h : ¬ Settled E b) :
    (b.drop (E b).natAbs).length < b.length := by
  have hb := List.length_pos_iff.mpr (ne_nil_of_not_settled h)
  have hE : E b ≠ 0 := fun h0 => h (.inr h0)
  rw [List.length_drop]
  omega

/-- The packets of a stream, front to back, in one pass. -/
def parse (E : List α → ℤ) (b : List α) : List (List α) :=
  if _h : Settled E b then []
  else if 0 < E b then b.take (E b).natAbs :: parse E (b.drop (E b).natAbs)
  else parse E (b.drop (E b).natAbs)
termination_by b.length
decreasing_by all_goals exact drop_length_lt _h

theorem parse_settled {b : List α} (h : Settled E b) : parse E b = [] := by
  rw [parse, dif_pos h]

theorem parse_packet {b : List α} (hb : b ≠ []) (h : 0 < E b) :
    parse E b = b.take (E b).natAbs :: parse E (b.drop (E b).natAbs) := by
  rw [parse, dif_neg (by rintro (h' | h') <;> [exact hb h'; omega]), if_pos h]

theorem parse_skip {b : List α} (hb : b ≠ []) (h : E b < 0) :
    parse E b = parse E (b.drop (E b).natAbs) := by
  rw [parse, dif_neg (by rintro (h' | h') <;> [exact hb h'; omega]), if_neg (by omega)]

/-- What can happen to a buffer. -/
inductive Move (α : Type*)
  | arrive (s : List α)
  | skip (g : List α)
  | emit (p : List α)
  | take (r : List α)

/-- Symbols arrive at the back.  They leave at the front: skipped or emitted as a packet when
the extractor says so, or taken without asking it. -/
inductive Step (E : List α → ℤ) : List α → Move α → List α → Prop
  | arrive (b s : List α) : Step E b (.arrive s) (b ++ s)
  | skip (g r : List α) : g ≠ [] → E (g ++ r) = -g.length → Step E (g ++ r) (.skip g) r
  | emit (p r : List α) : p ≠ [] → E (p ++ r) = p.length → Step E (p ++ r) (.emit p) r
  | take (p r : List α) : Step E (p ++ r) (.take p) r

def Move.arrived : Move α → List α
  | .arrive s => s
  | _ => []

def Move.removed : Move α → List α
  | .arrive _ => []
  | .skip g => g
  | .emit p => p
  | .take r => r

def Move.emitted : Move α → List (List α)
  | .emit p => [p]
  | _ => []

def arrived (ms : List (Move α)) : List α := ms.flatMap Move.arrived

/-- Everything that left during the moves, in the order it left. -/
def removed (ms : List (Move α)) : List α := ms.flatMap Move.removed

def emitted (ms : List (Move α)) : List (List α) := ms.flatMap Move.emitted

@[simp] theorem arrived_nil : arrived ([] : List (Move α)) = [] := rfl
@[simp] theorem removed_nil : removed ([] : List (Move α)) = [] := rfl
@[simp] theorem emitted_nil : emitted ([] : List (Move α)) = [] := rfl

@[simp] theorem arrived_cons (m : Move α) (ms : List (Move α)) :
    arrived (m :: ms) = m.arrived ++ arrived ms := rfl

@[simp] theorem removed_cons (m : Move α) (ms : List (Move α)) :
    removed (m :: ms) = m.removed ++ removed ms := rfl

@[simp] theorem emitted_cons (m : Move α) (ms : List (Move α)) :
    emitted (m :: ms) = m.emitted ++ emitted ms := rfl

@[simp] theorem arrived_append (ms ms' : List (Move α)) :
    arrived (ms ++ ms') = arrived ms ++ arrived ms' := List.flatMap_append

@[simp] theorem removed_append (ms ms' : List (Move α)) :
    removed (ms ++ ms') = removed ms ++ removed ms' := List.flatMap_append

@[simp] theorem emitted_append (ms ms' : List (Move α)) :
    emitted (ms ++ ms') = emitted ms ++ emitted ms' := List.flatMap_append

@[simp] theorem Move.arrived_arrive (s : List α) : (Move.arrive s).arrived = s := rfl
@[simp] theorem Move.removed_arrive (s : List α) : (Move.arrive s).removed = [] := rfl
@[simp] theorem Move.emitted_arrive (s : List α) : (Move.arrive s).emitted = [] := rfl
@[simp] theorem Move.arrived_take (s : List α) : (Move.take s).arrived = [] := rfl
@[simp] theorem Move.removed_take (s : List α) : (Move.take s).removed = s := rfl
@[simp] theorem Move.emitted_take (s : List α) : (Move.take s).emitted = [] := rfl
@[simp] theorem Move.arrived_skip (s : List α) : (Move.skip s).arrived = [] := rfl
@[simp] theorem Move.removed_skip (s : List α) : (Move.skip s).removed = s := rfl
@[simp] theorem Move.emitted_skip (s : List α) : (Move.skip s).emitted = [] := rfl
@[simp] theorem Move.arrived_emit (s : List α) : (Move.emit s).arrived = [] := rfl
@[simp] theorem Move.removed_emit (s : List α) : (Move.emit s).removed = s := rfl
@[simp] theorem Move.emitted_emit (s : List α) : (Move.emit s).emitted = [s] := rfl

/-- No symbol is lost, duplicated or reordered: what was there, followed by what arrived, is
what left, followed by what is still there. -/
theorem conservation {b b' : List α} {ms : List (Move α)} (h : Lts.Run (Step E) b ms b') :
    b ++ arrived ms = removed ms ++ b' := by
  induction h with
  | nil => simp
  | cons hs _ ih => cases hs <;> simp_all [List.append_assoc]

theorem emitted_ne_nil {b b' : List α} {ms : List (Move α)} (h : Lts.Run (Step E) b ms b') :
    ∀ p ∈ emitted ms, p ≠ [] := by
  induction h with
  | nil => simp
  | cons hs _ ih => cases hs <;> simp_all

theorem infix_removed_of_mem_emitted {ms : List (Move α)} {p : List α} (h : p ∈ emitted ms) :
    p <:+: removed ms := by
  induction ms with
  | nil => cases h
  | cons m ms ih =>
    rw [emitted_cons, List.mem_append] at h
    obtain h | h := h
    · cases m with
      | emit q =>
        obtain rfl := List.mem_singleton.mp h
        exact (List.prefix_append p _).isInfix
      | arrive | skip | take => cases h
    · exact (ih h).trans (List.suffix_append _ _).isInfix

theorem parse_append_skip (hb : InBounds E) (hs : Stable E) {g r : List α} (hg : g ≠ [])
    (h : E (g ++ r) = -g.length) (t : List α) :
    parse E (g ++ r ++ t) = parse E (r ++ t) := by
  have hgpos := List.length_pos_iff.mpr hg
  have hne : g ++ r ≠ [] := by simp [hg]
  have hneg : E (g ++ r) < 0 := by omega
  have hle := hs.skip (g ++ r) t hne hneg
  have hlow := hb.lower (g ++ r ++ t) (by simp [hg])
  have hdrop : (g ++ r ++ t).drop (E (g ++ r)).natAbs = r ++ t := by
    rw [show (E (g ++ r)).natAbs = g.length by omega, List.append_assoc, List.drop_left]
  rw [parse_skip (by simp [hg]) (by omega)]
  rcases hle.lt_or_eq with hlt | heq
  · -- the skip grew: the symbols beyond `g` are the next skip of `r ++ t`
    have hrest := hs.skip_rest (g ++ r) t hne hneg hlt
    rw [hdrop] at hrest
    have hrt : r ++ t ≠ [] := by
      intro h0
      have := congrArg List.length h0
      simp only [List.length_append, List.length_nil] at this hlow
      omega
    rw [parse_skip hrt (by omega), hrest, ← hdrop, List.drop_drop]
    congr 2
    omega
  · rw [heq, hdrop]

theorem parse_append_emit (hs : Stable E) {p r : List α} (hp : p ≠ [])
    (h : E (p ++ r) = p.length) (t : List α) :
    parse E (p ++ r ++ t) = p :: parse E (r ++ t) := by
  have hppos := List.length_pos_iff.mpr hp
  have hE := hs.packet (p ++ r) t (by simp [hp]) (by omega)
  have hn : (E (p ++ r ++ t)).natAbs = p.length := by omega
  rw [parse_packet (by simp [hp]) (by omega), hn, List.append_assoc, List.take_left,
    List.drop_left]

/-- The moves on which the extractor decides, and the arrivals. -/
def Move.Asked : Move α → Prop
  | .take _ => False
  | _ => True

def Move.Scanning : Move α → Prop
  | .skip _ | .emit _ => True
  | _ => False

theorem Move.Scanning.asked {m : Move α} (h : m.Scanning) : m.Asked := by
  cases m <;> trivial

theorem arrived_of_scanning {ms : List (Move α)} (h : ∀ m ∈ ms, m.Scanning) :
    arrived ms = [] := by
  induction ms with
  | nil => rfl
  | cons m ms ih =>
    have hm := h m (List.mem_cons_self ..)
    rw [arrived_cons, ih fun m hm => h m (List.mem_cons_of_mem _ hm), List.append_nil]
    cases m <;> trivial

/-- Whatever arrives afterwards, the moves emit the next packets of the reference parse. -/
theorem parse_moves (hb : InBounds E) (hs : Stable E) {b b' : List α} {ms : List (Move α)}
    (h : Lts.Run (Step E) b ms b') (hask : ∀ m ∈ ms, m.Asked) (t : List α) :
    parse E (b ++ arrived ms ++ t) = emitted ms ++ parse E (b' ++ t) := by
  induction h with
  | nil => simp
  | @cons b c d m ms hm _ ih =>
    have ih' := ih (fun m hm => hask m (List.mem_cons_of_mem _ hm))
    cases hm with
    | arrive s => simpa [List.append_assoc] using ih'
    | skip g _ hg hE =>
      have := parse_append_skip hb hs hg hE (arrived ms ++ t)
      simp_all [List.append_assoc]
    | emit p _ hp hE =>
      have := parse_append_emit hs hp hE (arrived ms ++ t)
      simp_all [List.append_assoc]
    | take => exact absurd (hask _ (List.mem_cons_self ..)) id

/-- On the symbols at hand the parse needs no stability. -/
theorem parse_scanning {b b' : List α} {ms : List (Move α)}
    (h : Lts.Run (Step E) b ms b') (hscan : ∀ m ∈ ms, m.Scanning) :
    parse E b = emitted ms ++ parse E b' := by
  induction h with
  | nil => simp
  | @cons b c d m ms hm _ ih =>
    have ih' := ih (fun m hm => hscan m (List.mem_cons_of_mem _ hm))
    cases hm with
    | arrive s => exact absurd (hscan _ (List.mem_cons_self ..)) id
    | skip g _ hg hE =>
      have hpos := List.length_pos_iff.mpr hg
      rw [parse_skip (by simp [hg]) (by omega), show (E (g ++ c)).natAbs = g.length by omega,
        List.drop_left]
      simpa using ih'
    | emit p _ hp hE =>
      have hpos := List.length_pos_iff.mpr hp
      rw [parse_packet (by simp [hp]) (by omega), show (E (p ++ c)).natAbs = p.length by omega,
        List.drop_left, List.take_left]
      simpa using ih'
    | take => exact absurd (hscan _ (List.mem_cons_self ..)) id

end Framing
