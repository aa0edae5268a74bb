import IodriversBase.Library.Framing

namespace Framing

variable {α : Type*} {E : List α → ℤ}

/-- What the extractor takes for one packet. -/
structure IsPacket (E : List α → ℤ) (p : List α) : Prop where
  ne_nil : p ≠ []
  whole : E p = p.length

instance [DecidableEq α] (E : List α → ℤ) (p : List α) : Decidable (IsPacket E p) :=
  decidable_of_iff (p ≠ [] ∧ E p = p.length) ⟨fun h => ⟨h.1, h.2⟩, fun h => ⟨h.ne_nil, h.whole⟩⟩

/-- The beginning of a packet, possibly empty, but not all of it. -/
def Unfinished (E : List α → ℤ) (q : List α) : Prop :=
  q = [] ∨ ∃ r, r ≠ [] ∧ IsPacket E (q ++ r)

theorem unfinished_nil : Unfinished E ([] : List α) := .inl rfl

/-- Nothing can be done with the beginning of a packet. -/
theorem Unfinished.settled (hb : InBounds E) (hs : Stable E) {q : List α} (h : Unfinished E q) :
    Settled E q := by
  obtain hnil | ⟨r, hr, hp⟩ := h
  · exact .inl hnil
  by_cases hq : q = []
  · exact .inl hq
  have hlen := List.length_pos_iff.mpr hr
  have hwhole := hp.whole
  have hupper := hb.upper q hq
  rw [List.length_append] at hwhole
  -- a packet or a skip at the front of `q` would be one at the front of `q ++ r`
  rcases lt_trichotomy (E q) 0 with hneg | hzero | hpos
  · have hskip := hs.skip q r hq hneg
    omega
  · exact .inr hzero
  · have hpacket := hs.packet q r hq hpos
    omega

/-- The packets of a sender, and then those of what it sends next. -/
theorem parse_flatten_append (hs : Stable E) {ps : List (List α)} (h : ∀ p ∈ ps, IsPacket E p)
    (t : List α) : parse E (ps.flatten ++ t) = ps ++ parse E t := by
  induction ps with
  | nil => rfl
  | cons p ps ih =>
    have hp := h p List.mem_cons_self
    have hemit := parse_append_emit hs (r := []) hp.ne_nil (by simpa using hp.whole)
      (ps.flatten ++ t)
    rw [List.append_nil, List.nil_append] at hemit
    rw [List.flatten_cons, List.append_assoc, hemit, List.cons_append,
      ih fun q hq => h q (List.mem_cons_of_mem _ hq)]

theorem parse_sent (hb : InBounds E) (hs : Stable E) {ps : List (List α)}
    (h : ∀ p ∈ ps, IsPacket E p) {q : List α} (hq : Unfinished E q) :
    parse E (ps.flatten ++ q) = ps := by
  rw [parse_flatten_append hs h, parse_settled (hq.settled hb hs), List.append_nil]

theorem parse_append_prefix (hb : InBounds E) (hs : Stable E) (b t : List α) :
    parse E b <+: parse E (b ++ t) := by
  induction hlen : b.length using Nat.strong_induction_on generalizing b with
  | _ n ih =>
    subst hlen
    by_cases hset : Settled E b
    · rw [parse_settled hset]
      exact List.nil_prefix
    have hne := ne_nil_of_not_settled hset
    have hlow := hb.lower b hne
    have hupper := hb.upper b hne
    have hcut := List.take_append_drop (E b).natAbs b
    have htake : (b.take (E b).natAbs).length = (E b).natAbs := by
      rw [List.length_take]
      omega
    have hzero : E b ≠ 0 := fun h0 => hset (.inr h0)
    have hnil : b.take (E b).natAbs ≠ [] := by
      rw [← List.length_pos_iff]
      omega
    have hih := ih _ (drop_length_lt hset) _ rfl
    by_cases hpos : 0 < E b
    · have hemit := parse_append_emit hs (r := b.drop (E b).natAbs) hnil
        (by rw [hcut, htake]; omega) t
      rw [hcut] at hemit
      rw [parse_packet hne hpos, hemit]
      exact (List.prefix_cons_inj _).mpr hih
    · have hskip := parse_append_skip hb hs (r := b.drop (E b).natAbs) hnil
        (by rw [hcut, htake]; omega) t
      rw [hcut] at hskip
      rw [parse_skip hne (by omega), hskip]
      exact hih

theorem parse_mono (hb : InBounds E) (hs : Stable E) {b c : List α} (h : b <+: c) :
    parse E b <+: parse E c := by
  obtain ⟨t, rfl⟩ := h
  exact parse_append_prefix hb hs b t

end Framing
