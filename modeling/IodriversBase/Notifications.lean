import IodriversBase.Announcements

namespace IodriversBase

open Framing

variable {ω : Type}

/-- A call of `packedReady`: the handler, and what it is given. -/
structure Ready where
  handler : ℕ
  buffer : Bytes
  size : ℤ
  deriving DecidableEq

/-- Distinct parsers, under their addresses, in the order in which they were added. -/
structure Registry (ω : Type) where
  parsers : List (ℕ × Parser ω)
  distinct : (parsers.map Prod.fst).Nodup

def Parser.notifying (i : ℕ) (p : Parser ω) : Parser (ω × List Ready) where
  extractPacket := p.extractPacket
  packedReady := p.packedReady.map fun packedReady buffer size w =>
    (packedReady buffer size w.1, w.2 ++ [⟨i, buffer, size⟩])

/-- A bus with these parsers that nobody has called. -/
def Registry.bus (r : Registry ω) (driver : Driver) : Bus (ω × List Ready) where
  driver := driver
  parser := r.parsers.map fun p => p.2.notifying p.1
  caller := none

/-- The handlers that are told something by a call of `extractPacket`, and what. -/
def Registry.told (r : Registry ω) (driver : Driver) (b : Bytes) (w : ω) : List Ready :=
  ((r.bus driver).extractPacket b (w, [])).2.2

def Registry.answer (r : Registry ω) (driver : Driver) (b : Bytes) (w : ω) : ℤ :=
  ((r.bus driver).extractPacket b (w, [])).1

/-- Every handler that accepts is told once, with the size of its packet, and nobody else is; the
order of the parsers does not matter. -/
structure Registry.Notifies (r : Registry ω) (driver : Driver) (b : Bytes) (w : ω) : Prop where
  own : ∀ p ∈ r.parsers, p.2.Announces b →
    (r.told driver b w).filter (·.handler = p.1) = [⟨p.1, b, p.2.extractPacket b⟩]
  others : ∀ x ∈ r.told driver b w, ∃ p ∈ r.parsers, p.1 = x.handler ∧ p.2.Announces b
  order : ∀ r' : Registry ω, r'.parsers.Perm r.parsers →
    (∀ x, x ∈ r'.told driver b w ↔ x ∈ r.told driver b w) ∧
      r'.answer driver b w = r.answer driver b w

def tells (b : Bytes) : ℤ → List (ℕ × Parser ω) → List Ready
  | _, [] => []
  | m, p :: ps => (if p.2.Announces b then [⟨p.1, b, m⟩] else []) ++
    tells b (min |p.2.extractPacket b| m) ps

def accepting (b : Bytes) (ps : List (ℕ × Parser ω)) : List Ready :=
  ps.filterMap fun p => if p.2.Announces b then some ⟨p.1, b, p.2.extractPacket b⟩ else none

variable {b : Bytes} {ps ps' : List (ℕ × Parser ω)} {r : Registry ω} {driver : Driver} {w : ω}

theorem consult_notifying (p : ℕ × Parser ω) (b : Bytes) (m : ℤ) (w : ω × List Ready) :
    (Bus.consult b (m, w) (p.2.notifying p.1)).1 = min |p.2.extractPacket b| m ∧
      (Bus.consult b (m, w) (p.2.notifying p.1)).2.2 =
        w.2 ++ if p.2.Announces b then [⟨p.1, b, m⟩] else [] := by
  refine ⟨?_, ?_⟩
  · simp only [Bus.consult, Parser.notifying, min_def]
    split_ifs <;> omega
  · rcases hready : p.2.packedReady with _ | f
    · simp [Bus.consult, Parser.notifying, Parser.Announces, hready]
    · by_cases hpos : 0 < p.2.extractPacket b <;>
        simp [Bus.consult, Parser.notifying, Parser.Announces, hready, hpos]

theorem told_eq (r : Registry ω) (driver : Driver) (b : Bytes) (w : ω) :
    r.told driver b w = tells b b.length r.parsers := by
  have key : ∀ (ps : List (ℕ × Parser ω)) (m : ℤ) (w : ω × List Ready),
      ((ps.map fun p => p.2.notifying p.1).foldl (Bus.consult b) (m, w)).2.2 =
        w.2 ++ tells b m ps := by
    intro ps
    induction ps with
    | nil => simp [tells]
    | cons p ps ih =>
      intro m w
      obtain ⟨hmin, htold⟩ := consult_notifying p b m w
      rw [List.map_cons, List.foldl_cons, ← Prod.mk.eta (p := Bus.consult b (m, w) _), ih, hmin,
        htold, tells, List.append_assoc]
  exact key r.parsers _ _

theorem answer_eq (r : Registry ω) (driver : Driver) (b : Bytes) (w : ω) :
    r.answer driver b w = minSkip (r.parsers.map fun p => p.2.extractPacket) b := by
  have h := Bus.extractPacket_eq (show (r.bus driver).caller = none from rfl) b (w, [])
  rw [Registry.answer, h]
  simp only [Bus.extractors, Registry.bus, List.map_map]
  rfl

theorem minSkip_perm {es es' : List (Bytes → ℤ)} (h : es.Perm es') (b : Bytes) :
    minSkip es b = minSkip es' b := by
  refine h.foldl_eq' ?_ _
  intro e _ e' _ m
  exact min_left_comm _ _ _

/-- When nobody answers less than the whole buffer, everybody who is told is told that. -/
theorem tells_of_all_large (h : ∀ p ∈ ps, (b.length : ℤ) ≤ |p.2.extractPacket b|) :
    tells b b.length ps =
      ps.filterMap fun p => if p.2.Announces b then some ⟨p.1, b, b.length⟩ else none := by
  induction ps with
  | nil => rfl
  | cons p ps ih =>
    rw [tells, min_eq_right (h p List.mem_cons_self),
      ih fun q hq => h q (List.mem_cons_of_mem _ hq), List.filterMap_cons]
    by_cases hp : p.2.Announces b <;> simp [hp]

theorem tells_of_nobody (h : ∀ p ∈ ps, ¬ p.2.Announces b) (m : ℤ) : tells b m ps = [] := by
  induction ps generalizing m with
  | nil => rfl
  | cons p ps ih =>
    rw [tells, if_neg (h p List.mem_cons_self), List.nil_append]
    exact ih (fun q hq => h q (List.mem_cons_of_mem _ hq)) _

/-- A handler that accepts takes the whole buffer, and every parser answers at least that, one way
or the other. -/
def WholeBuffer (b : Bytes) (ps : List (ℕ × Parser ω)) : Prop :=
  ∀ p ∈ ps, p.2.Announces b → p.2.extractPacket b = b.length ∧
    ∀ q ∈ ps, (b.length : ℤ) ≤ |q.2.extractPacket b|

theorem tells_of_wholeBuffer (h : WholeBuffer b ps) : tells b b.length ps = accepting b ps := by
  by_cases hsome : ∃ p ∈ ps, p.2.Announces b
  · obtain ⟨p, hp, haccepts⟩ := hsome
    rw [tells_of_all_large (h p hp haccepts).2, accepting]
    refine List.filterMap_congr fun q hq => ?_
    split_ifs with hq'
    · rw [(h q hq hq').1]
    · rfl
  · have hnobody : ∀ p ∈ ps, ¬ p.2.Announces b := fun p hp hp' => hsome ⟨p, hp, hp'⟩
    rw [tells_of_nobody hnobody, accepting, List.filterMap_eq_nil_iff.mpr]
    exact fun p hp => if_neg (hnobody p hp)

theorem mem_accepting {x : Ready} :
    x ∈ accepting b ps ↔ ∃ p ∈ ps, p.2.Announces b ∧ x = ⟨p.1, b, p.2.extractPacket b⟩ := by
  simp only [accepting, List.mem_filterMap, Option.ite_none_right_eq_some, Option.some.injEq]
  exact exists_congr fun p => and_congr_right fun _ => and_congr_right fun _ => eq_comm

theorem accepting_append (ps ps' : List (ℕ × Parser ω)) :
    accepting b (ps ++ ps') = accepting b ps ++ accepting b ps' := List.filterMap_append

theorem filter_accepting_of_not_mem {i : ℕ} (h : i ∉ ps.map Prod.fst) :
    (accepting b ps).filter (·.handler = i) = [] := by
  refine List.filter_eq_nil_iff.mpr fun x hx hi => h ?_
  obtain ⟨p, hp, -, rfl⟩ := mem_accepting.mp hx
  exact List.mem_map.mpr ⟨p, hp, of_decide_eq_true hi⟩

theorem filter_accepting (hps : (ps.map Prod.fst).Nodup) {p : ℕ × Parser ω} (hp : p ∈ ps)
    (haccepts : p.2.Announces b) :
    (accepting b ps).filter (·.handler = p.1) = [⟨p.1, b, p.2.extractPacket b⟩] := by
  obtain ⟨pre, post, rfl⟩ := List.append_of_mem hp
  rw [List.map_append, List.map_cons, List.nodup_middle, List.nodup_cons, List.mem_append,
    not_or] at hps
  obtain ⟨⟨hpre, hpost⟩, -⟩ := hps
  have hself : accepting b [p] = [⟨p.1, b, p.2.extractPacket b⟩] := by
    simp only [accepting, List.filterMap_cons, haccepts, if_true, List.filterMap_nil]
  rw [← List.singleton_append, accepting_append, accepting_append, List.filter_append,
    List.filter_append, filter_accepting_of_not_mem hpre, filter_accepting_of_not_mem hpost, hself]
  simp

theorem WholeBuffer.perm (h : WholeBuffer b ps) (hperm : ps'.Perm ps) : WholeBuffer b ps' := by
  intro p hp haccepts
  obtain ⟨hwhole, hlarge⟩ := h p (hperm.mem_iff.mp hp) haccepts
  exact ⟨hwhole, fun q hq => hlarge q (hperm.mem_iff.mp hq)⟩

def Registry.reordered (r : Registry ω) (ps : List (ℕ × Parser ω)) (h : ps.Perm r.parsers) :
    Registry ω where
  parsers := ps
  distinct := (h.map Prod.fst).nodup_iff.mpr r.distinct

theorem mem_told_of_notifies (h : r.Notifies driver b w) (hperm : ps.Perm r.parsers) {x : Ready}
    (hx : x ∈ tells b b.length ps) : x ∈ r.told driver b w := by
  refine ((h.order (r.reordered ps hperm) hperm).1 x).mp ?_
  rw [told_eq]
  exact hx

theorem size_of_notifies (h : r.Notifies driver b w) {p : ℕ × Parser ω} (hp : p ∈ r.parsers)
    (haccepts : p.2.Announces b) {m : ℤ} (hm : ⟨p.1, b, m⟩ ∈ r.told driver b w) :
    p.2.extractPacket b = m := by
  have hmem : (⟨p.1, b, m⟩ : Ready) ∈ (r.told driver b w).filter (·.handler = p.1) :=
    List.mem_filter.mpr ⟨hm, decide_eq_true rfl⟩
  rw [h.own p hp haccepts, List.mem_singleton] at hmem
  exact (congrArg Ready.size hmem).symm

theorem extractPacket_eq_of_notifies (h : r.Notifies driver b w) {p : ℕ × Parser ω}
    (hp : p ∈ r.parsers) (haccepts : p.2.Announces b) : p.2.extractPacket b = b.length := by
  obtain ⟨pre, post, hps⟩ := List.append_of_mem hp
  have hperm : (p :: (pre ++ post)).Perm r.parsers := by
    rw [hps]
    exact List.perm_middle.symm
  refine size_of_notifies h hp haccepts (mem_told_of_notifies h hperm ?_)
  rw [tells, if_pos haccepts]
  exact List.mem_append_left _ (List.mem_singleton.mpr rfl)

/-- Second in the list, it is told the answer of the first parser when that is less. -/
theorem le_abs_of_notifies (h : r.Notifies driver b w) {p q : ℕ × Parser ω}
    (hp : p ∈ r.parsers) (haccepts : p.2.Announces b) (hq : q ∈ r.parsers) (hne : p ≠ q) :
    (b.length : ℤ) ≤ |q.2.extractPacket b| := by
  obtain ⟨pre, post, hps⟩ := List.append_of_mem hq
  have hp' : p ∈ pre ++ post := by
    rw [hps, List.mem_append, List.mem_cons] at hp
    exact List.mem_append.mpr (hp.imp_right fun h => h.resolve_left hne)
  obtain ⟨pre', post', hps'⟩ := List.append_of_mem hp'
  have hperm : (q :: p :: (pre' ++ post')).Perm r.parsers := by
    calc (q :: p :: (pre' ++ post')).Perm (q :: (pre' ++ p :: post')) :=
          List.perm_middle.symm.cons q
      _ = q :: (pre ++ post) := by rw [hps']
      _ |>.Perm (pre ++ q :: post) := List.perm_middle.symm
      _ = r.parsers := hps.symm
  have htold := size_of_notifies h hp haccepts
    (mem_told_of_notifies h hperm (x := ⟨p.1, b, min |q.2.extractPacket b| b.length⟩) ?_)
  · rw [extractPacket_eq_of_notifies h hp haccepts] at htold
    exact htold.le.trans (min_le_left _ _)
  · rw [tells, tells, if_pos haccepts]
    simp

/-- Everybody is told its own size, in any order, exactly when that is the size of the buffer. -/
theorem bus_notifies_iff (r : Registry ω) (driver : Driver) (b : Bytes) (w : ω) :
    r.Notifies driver b w ↔ WholeBuffer b r.parsers := by
  constructor
  · intro h p hp haccepts
    have hwhole := extractPacket_eq_of_notifies h hp haccepts
    refine ⟨hwhole, fun q hq => ?_⟩
    by_cases hne : p = q
    · rw [← hne, hwhole]
      exact le_abs_self _
    · exact le_abs_of_notifies h hp haccepts hq hne
  · intro h
    have htold : r.told driver b w = accepting b r.parsers := by
      rw [told_eq, tells_of_wholeBuffer h]
    refine ⟨fun p hp haccepts => ?_, fun x hx => ?_, fun r' hperm => ⟨fun x => ?_, ?_⟩⟩
    · rw [htold, filter_accepting r.distinct hp haccepts]
    · rw [htold] at hx
      obtain ⟨p, hp, haccepts, rfl⟩ := mem_accepting.mp hx
      exact ⟨p, hp, rfl, haccepts⟩
    · rw [told_eq, tells_of_wholeBuffer (h.perm hperm), htold]
      exact (hperm.filterMap _).mem_iff
    · rw [answer_eq, answer_eq]
      exact minSkip_perm (hperm.map _) b

def testRegistry : Registry Script := ⟨[(0, testHandler)], List.nodup_singleton 0⟩

/-- A packet of four bytes is in front, and the handler is told five. -/
theorem bus_notifies_wrong_size : ¬ testRegistry.Notifies (.new 100 false) [0, 1, 2, 0, 7] [] := by
  intro h
  have hown := h.own (0, testHandler) List.mem_cons_self ⟨rfl, by decide⟩
  rw [told_eq] at hown
  revert hown
  decide

example : testRegistry.told (.new 100 false) [0, 1, 2, 0, 7] [] =
    [⟨0, [0, 1, 2, 0, 7], 5⟩] := by rw [told_eq]; decide

end IodriversBase
