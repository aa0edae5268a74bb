import IodriversBase.Library.Scanning
import IodriversBase.Driver

namespace IodriversBase

open Framing Loop

variable {ω : Type} {e : Bytes → ℤ}

@[simp] theorem Status.count_zero (s : Status) : s.count 0 0 = s := by
  have h : UInt32.ofInt 0 = 0 := rfl
  simp [Status.count, h]

theorem Status.count_count (s : Status) (a b c d : ℤ) :
    (s.count a b).count c d = s.count (a + c) (b + d) := by
  simp [Status.count, UInt32.add_assoc]

/-- The answers depend on the bytes only. -/
def Extract.Answers (E : Extract ω) (e : Bytes → ℤ) : Prop := ∀ b w, (E b w).1 = e b

theorem Extract.answers_pure (e : Bytes → ℤ) : (Extract.pure e : Extract ω).Answers e :=
  fun _ _ => rfl

def asked (e : Bytes → ℤ) (extractLast : Bool) (b : Bytes) : List Bytes :=
  if b = [] then []
  else if _h : Settled e b ∨ (0 < e b ∧ ¬ extractLast) then [b]
  else b :: asked e extractLast (b.drop (e b).natAbs)
termination_by b.length
decreasing_by exact drop_length_lt fun h => _h (.inl h)

def Extract.effects (E : Extract ω) (bs : List Bytes) (w : ω) : ω :=
  bs.foldl (fun w b => (E b w).2) w

@[simp] theorem Extract.effects_pure (bs : List Bytes) (w : ω) :
    (Extract.pure e).effects bs w = w := by
  induction bs with
  | nil => rfl
  | cons b bs ih => exact ih

def cut (e : Bytes → ℤ) (extractLast : Bool) (b : Bytes) : Cut UInt8 :=
  if extractLast then lastPacket e b else firstPacket e b

def counted (e : Bytes → ℤ) (extractLast : Bool) (b : Bytes) (stats : Status) : Status :=
  if extractLast then stats.count (tally e b).1 (tally e b).2 else stats

theorem Extract.at_suffix (E : Extract ω) {buffer b : Bytes} {k : ℕ} (hk : buffer.drop k = b)
    (w : ω) : E.at buffer k b.length w = E b w := by
  simp [Extract.at, hk]

def ownWindow (e : Bytes → ℤ) (b : Bytes) (k : ℕ) : ℤ × ℤ :=
  if e b < 0 then ((k + (e b).natAbs : ℕ), 0) else (k, ((e b).natAbs : ℕ))

def ownCount (e : Bytes → ℤ) (extractLast : Bool) (b : Bytes) (stats : Status) : Status :=
  if extractLast then
    if e b < 0 then stats.count (e b).natAbs 0 else stats.count 0 (e b).natAbs
  else stats

theorem findPacket_succ (hb : InBounds e) {E : Extract ω} (hE : E.Answers e) {buffer b : Bytes}
    {k : ℕ} (hk : buffer.drop k = b) (hne : b ≠ []) (extractLast : Bool) (fuel : ℕ)
    (stats : Status) (w : ω) :
    findPacket (E.at buffer) extractLast (fuel + 1) k b.length stats w =
      if e b = 0 then some (.ok (k, 0), stats, (E b w).2)
      else if b.drop (e b).natAbs = [] ∨ (0 < e b ∧ ¬ extractLast) then
        some (.ok (ownWindow e b k), ownCount e extractLast b stats, (E b w).2)
      else
        match findPacket (E.at buffer) extractLast fuel (k + (e b).natAbs : ℕ)
            (b.drop (e b).natAbs).length (ownCount e extractLast b stats) (E b w).2 with
        | some (.ok next, stats, w) =>
          some (.ok (if extractLast ∧ next.2 = 0 then ownWindow e b k else next), stats, w)
        | r => r := by
  have hle := natAbs_le_length hb hne
  have hup := hb.upper b hne
  rw [findPacket]
  simp only [Extract.at_suffix E hk, hE _ _]
  rw [if_neg (by omega)]
  by_cases h0 : e b = 0
  · rw [if_pos h0, if_pos h0]
  rw [if_neg h0, if_neg h0]
  -- what the source computes from the sign of the answer, by its absolute value
  have hown : ownWindow e b k =
      ((k : ℤ) + (if e b < 0 then -e b else 0), if e b < 0 then 0 else e b) := by
    unfold ownWindow
    split_ifs <;> simp
    all_goals omega
  have hcount : (if extractLast then
      stats.count (if e b < 0 then -e b else 0) (if e b < 0 then 0 else e b) else stats) =
      ownCount e extractLast b stats := by
    unfold ownCount
    split_ifs <;> congr 1 <;> omega
  have hnext : (k : ℤ) + (if e b < 0 then -e b else 0) + (if e b < 0 then 0 else e b) =
      (k + (e b).natAbs : ℕ) := by
    split_ifs <;> omega
  have hrem : (b.length : ℤ) - ((if e b < 0 then -e b else 0) + (if e b < 0 then 0 else e b)) =
      (b.drop (e b).natAbs).length := by
    rw [List.length_drop]
    split_ifs <;> omega
  have hsize : ((if e b < 0 then 0 else e b) = 0 ∨
      ((if e b < 0 then 0 else e b) > 0 ∧ extractLast = true)) ↔ ¬ (0 < e b ∧ ¬ extractLast) := by
    cases extractLast <;> split_ifs <;> simp <;> omega
  rw [hcount, hnext, hrem, ← hown]
  simp only [hsize, Int.natCast_eq_zero, List.length_eq_zero_iff]
  by_cases hd : b.drop (e b).natAbs = []
  · rw [if_pos hd, if_pos (.inl hd)]
  rw [if_neg hd]
  by_cases hs : 0 < e b ∧ ¬ extractLast
  · rw [if_neg (not_not.mpr hs), if_pos (.inr hs)]
  rw [if_pos hs, if_neg (by tauto)]
  rcases findPacket (E.at buffer) extractLast fuel _ _ _ _ with _ | ⟨_ | next, stats, w⟩
  · rfl
  · rfl
  · cases extractLast
    · rfl
    · by_cases hz : next.2 = 0 <;> simp [hz]

theorem findPacket_threw {extractPacket : ℤ → ℤ → ω → ℤ × ω} {last : Bool} {fuel : ℕ}
    {pointer size : ℤ} {stats stats' : Status} {w w' : ω} {x : Exn}
    (h : findPacket extractPacket last fuel pointer size stats w = some (.error x, stats', w')) :
    ∃ what, x = .lengthError what := by
  induction fuel generalizing pointer size stats w with
  | zero => cases h
  | succ fuel ih =>
    rw [findPacket] at h
    dsimp only at h
    by_cases hlarge : (extractPacket pointer size w).1 > size
    · rw [if_pos hlarge] at h
      cases h
      exact ⟨_, rfl⟩
    rw [if_neg hlarge] at h
    generalize (extractPacket pointer size w).2 = w₁ at h
    generalize hnext : findPacket extractPacket last fuel _ _ _ w₁ = next at h
    rcases next with _ | ⟨y | nextPacket, stats₁, w₂⟩
    · split_ifs at h <;> cases h
    · -- the exception of the activation inside goes through
      split_ifs at h <;> cases h <;> exact ih hnext
    · dsimp only at h
      split_ifs at h <;> cases h

theorem doPacketExtraction_threw {extractPacket : ℤ → ℤ → ω → ℤ × ω} {d d' : Driver} {w w' : ω}
    {x : Exn} (h : d.doPacketExtraction extractPacket w = some (.error x, d', w')) :
    ∃ what, x = .lengthError what := by
  unfold Driver.doPacketExtraction at h
  generalize hfind : findPacket _ _ _ _ _ _ w = found at h
  rcases found with _ | ⟨y | packet, stats, w₁⟩
  · cases h
  · cases h
    exact findPacket_threw hfind
  · dsimp only at h
    split at h <;> cases h

theorem readPacket_threw_closed {E : Extract ω} {io : Ports ω} (hio : io.stream = none) {fuel : ℕ}
    {d d' : Driver} {bufferSize : ℕ} {packetTimeout firstByteTimeout : Time} {w w' : ω} {x : Exn}
    (h : d.readPacket E io fuel bufferSize packetTimeout firstByteTimeout w =
      some (.error x, d', w')) : x.IsTimeout ∨ ∃ what, x = .lengthError what := by
  unfold Driver.readPacket at h
  split_ifs at h
  · cases h
    exact .inr ⟨_, rfl⟩
  simp only [hio] at h
  have hdrain {b} (hb : d.extractPacketFromInternalBuffer E w = some b) :
      ∀ y, b.1 = .error y → ∃ what, y = .lengthError what := by
    refine run_rule (I := fun _ => True)
      (Q := fun b : Except Exn (Bytes × Bool) × Driver × ω =>
        ∀ y, b.1 = .error y → ∃ what, y = .lengthError what) ?_ trivial hb
    intro s _
    unfold drainIteration
    split_ifs
    swap
    · simp
    generalize hextract : Driver.doPacketExtraction _ _ _ = extracted
    rcases extracted with _ | ⟨z | packet, d₁, w₁⟩
    · trivial
    · rintro _ ⟨⟩
      exact doPacketExtraction_threw hextract
    dsimp only
    split_ifs <;> simp
  rcases hextract : d.extractPacketFromInternalBuffer E w with _ | ⟨y | ⟨packet, something⟩, d₁, w₁⟩
  · rw [hextract] at h
    cases h
  · rw [hextract] at h
    cases h
    exact .inr (hdrain hextract _ rfl)
  · rw [hextract] at h
    dsimp only at h
    split_ifs at h
    · cases h
    · cases h
      exact .inl trivial

def ownCut (e : Bytes → ℤ) (b : Bytes) : Cut UInt8 :=
  if e b < 0 then ⟨b.take (e b).natAbs, [], b.drop (e b).natAbs⟩
  else ⟨[], b.take (e b).natAbs, b.drop (e b).natAbs⟩

theorem ownWindow_eq (hb : InBounds e) {b : Bytes} (hne : b ≠ []) (k : ℕ) :
    ownWindow e b k =
      (((k + (ownCut e b).skipped.length : ℕ) : ℤ), ((ownCut e b).packet.length : ℤ)) := by
  have hle := natAbs_le_length hb hne
  unfold ownWindow ownCut
  split_ifs <;> simp [List.length_take, hle]

theorem cut_settled {b : Bytes} (h : Settled e b) (extractLast : Bool) :
    cut e extractLast b = ⟨[], [], b⟩ := by
  cases extractLast
  · exact firstPacket_settled h
  · exact lastPacket_settled h

theorem cut_stop {b : Bytes} {extractLast : Bool} (h : ¬ Settled e b)
    (hstop : b.drop (e b).natAbs = [] ∨ (0 < e b ∧ ¬ extractLast)) :
    cut e extractLast b = ownCut e b := by
  have h0 : e b ≠ 0 := fun h0 => h (.inr h0)
  cases extractLast
  · simp only [cut, Bool.false_eq_true, if_false]
    rw [firstPacket, dif_neg h, ownCut]
    by_cases hE : 0 < e b
    · rw [if_pos hE, if_neg (by omega)]
    · have hd := hstop.resolve_right (fun h => hE h.1)
      rw [if_neg hE, if_pos (by omega), hd, firstPacket_settled settled_nil]
      simp
  · have hd := hstop.resolve_right (fun h => h.2 rfl)
    simp only [cut, if_true]
    rw [lastPacket, dif_neg h, ownCut, hd, lastPacket_settled settled_nil]
    by_cases hE : 0 < e b
    · simp [hE, show ¬ e b < 0 by omega]
    · simp [hE, show e b < 0 by omega]

theorem cut_go {b : Bytes} {extractLast : Bool} (h : ¬ Settled e b)
    (hgo : ¬ (b.drop (e b).natAbs = [] ∨ (0 < e b ∧ ¬ extractLast))) :
    cut e extractLast b =
      if extractLast ∧ (cut e extractLast (b.drop (e b).natAbs)).packet = [] then ownCut e b
      else ⟨b.take (e b).natAbs ++ (cut e extractLast (b.drop (e b).natAbs)).skipped,
        (cut e extractLast (b.drop (e b).natAbs)).packet,
        (cut e extractLast (b.drop (e b).natAbs)).rest⟩ := by
  have h0 : e b ≠ 0 := fun h0 => h (.inr h0)
  cases extractLast
  · simp only [cut, Bool.false_eq_true, if_false, false_and]
    rw [firstPacket, dif_neg h, if_neg (fun hE => hgo (.inr ⟨hE, by simp⟩))]
  · simp only [cut, if_true, true_and]
    rw [lastPacket, dif_neg h, ownCut]
    dsimp only
    by_cases hp : (lastPacket e (b.drop (e b).natAbs)).packet = []
    · rw [if_neg (not_not.mpr hp), if_pos hp]
      split_ifs <;> first | rfl | omega
    · rw [if_pos hp, if_neg hp]

theorem counted_settled {b : Bytes} (h : Settled e b) (extractLast : Bool) (stats : Status) :
    counted e extractLast b stats = stats := by
  cases extractLast <;> simp [counted, tally_settled h]

theorem counted_not_settled {b : Bytes} (h : ¬ Settled e b) (extractLast : Bool)
    (stats : Status) : counted e extractLast b stats =
      counted e extractLast (b.drop (e b).natAbs) (ownCount e extractLast b stats) := by
  have h0 : e b ≠ 0 := fun h0 => h (.inr h0)
  cases extractLast
  · rfl
  · simp only [counted, ownCount, if_true]
    rw [tally, dif_neg h]
    by_cases hE : 0 < e b
    · simp [hE, show ¬ e b < 0 by omega, Status.count_count]
    · simp [hE, show e b < 0 by omega, Status.count_count]

theorem findPacket_eq (hb : InBounds e) {E : Extract ω} (hE : E.Answers e) {buffer b : Bytes}
    {k : ℕ} (hk : buffer.drop k = b) (hne : b ≠ []) (extractLast : Bool) {fuel : ℕ}
    (hfuel : b.length ≤ fuel) (stats : Status) (w : ω) :
    findPacket (E.at buffer) extractLast fuel k b.length stats w =
      some (.ok (((k + (cut e extractLast b).skipped.length : ℕ) : ℤ),
          ((cut e extractLast b).packet.length : ℤ)),
        counted e extractLast b stats, E.effects (asked e extractLast b) w) := by
  induction fuel generalizing b k stats w with
  | zero => exact absurd (List.length_eq_zero_iff.mp (Nat.le_zero.mp hfuel)) hne
  | succ fuel ih =>
    rw [findPacket_succ hb hE hk hne, asked, if_neg hne]
    by_cases h0 : e b = 0
    · rw [if_pos h0, cut_settled (.inr h0), counted_settled (.inr h0), dif_pos (.inl (.inr h0))]
      rfl
    have hset : ¬ Settled e b := by rintro (h | h) <;> contradiction
    rw [if_neg h0, counted_not_settled hset]
    by_cases hstop : b.drop (e b).natAbs = [] ∨ (0 < e b ∧ ¬ extractLast)
    · -- nothing is left to scan, or the first packet is enough
      rw [if_pos hstop, cut_stop hset hstop, ownWindow_eq hb hne]
      have hcount : counted e extractLast (b.drop (e b).natAbs) (ownCount e extractLast b stats) =
          ownCount e extractLast b stats := by
        rcases hstop with hd | hp
        · exact counted_settled (.inl hd) _ _
        · simp [counted, hp.2]
      have hasked : E.effects (if h : Settled e b ∨ (0 < e b ∧ ¬ extractLast) then [b]
          else b :: asked e extractLast (b.drop (e b).natAbs)) w = (E b w).2 := by
        split_ifs with hs
        · rfl
        · rw [hstop.resolve_right fun hp => hs (.inr hp), asked, if_pos rfl]
          rfl
      rw [hcount, hasked]
    · have hdrop : b.drop (e b).natAbs ≠ [] := fun hd => hstop (.inl hd)
      have hlt := drop_length_lt hset
      rw [if_neg hstop, ih (by rw [← List.drop_drop, hk]) hdrop (by omega),
        dif_neg (by tauto), cut_go hset hstop, ownWindow_eq hb hne]
      have hlen : (b.take (e b).natAbs).length = (e b).natAbs := by
        simpa using natAbs_le_length hb hne
      simp only [Int.natCast_eq_zero, List.length_eq_zero_iff]
      by_cases hp : extractLast = true ∧ (cut e extractLast (b.drop (e b).natAbs)).packet = []
      · rw [if_pos hp, if_pos hp]
        rfl
      · rw [if_neg hp, if_neg hp]
        simp only [List.length_append, hlen, Nat.add_assoc]
        rfl

theorem cut_join (e : Bytes → ℤ) (extractLast : Bool) (b : Bytes) :
    (cut e extractLast b).skipped ++ ((cut e extractLast b).packet ++ (cut e extractLast b).rest) =
      b := by
  cases extractLast
  · exact firstPacket_join b
  · exact lastPacket_join b

@[simp] theorem cut_nil (e : Bytes → ℤ) (extractLast : Bool) :
    cut e extractLast [] = ⟨[], [], []⟩ := cut_settled settled_nil extractLast

theorem drop_cut (e : Bytes → ℤ) (extractLast : Bool) (b : Bytes) :
    b.drop (cut e extractLast b).skipped.length =
      (cut e extractLast b).packet ++ (cut e extractLast b).rest := by
  have h := congrArg (List.drop (cut e extractLast b).skipped.length) (cut_join e extractLast b)
  rw [← h, List.drop_left]

def leftOver (e : Bytes → ℤ) (extractLast : Bool) (b : Bytes) : Bytes := (cut e extractLast b).rest

def Status.scanned (e : Bytes → ℤ) (extractLast : Bool) (b : Bytes) (stats : Status) : Status :=
  if extractLast then counted e extractLast b stats
  else stats.count (cut e extractLast b).skipped.length (cut e extractLast b).packet.length

def Driver.scanned (e : Bytes → ℤ) (d : Driver) : Driver :=
  (d.withStats (d.stats.scanned e d.extractLast d.internalBuffer)).dropFront
    ((cut e d.extractLast d.internalBuffer).skipped.length +
      (cut e d.extractLast d.internalBuffer).packet.length)

@[simp] theorem Driver.scanned_internalBuffer (e : Bytes → ℤ) (d : Driver) :
    (d.scanned e).internalBuffer = leftOver e d.extractLast d.internalBuffer := by
  change d.internalBuffer.drop _ = _
  rw [← List.drop_drop, drop_cut, List.drop_left, leftOver]

@[simp] theorem Driver.scanned_extractLast (e : Bytes → ℤ) (d : Driver) :
    (d.scanned e).extractLast = d.extractLast := rfl

@[simp] theorem Driver.scanned_maxPacketSize (e : Bytes → ℤ) (d : Driver) :
    (d.scanned e).maxPacketSize = d.maxPacketSize := rfl

@[simp] theorem Driver.scanned_stats (e : Bytes → ℤ) (d : Driver) :
    (d.scanned e).stats = d.stats.scanned e d.extractLast d.internalBuffer := rfl

theorem Driver.scanned_of_nil (e : Bytes → ℤ) {d : Driver} (h : d.internalBuffer = []) :
    d.scanned e = d := by
  rcases d with ⟨b, M, last, rt, wt, stats, fits⟩
  obtain rfl : b = [] := h
  simp [Driver.scanned, Driver.withStats, Driver.dropFront, Status.scanned,
    counted_settled settled_nil]

theorem doPacketExtraction_eq (hb : InBounds e) {E : Extract ω} (hE : E.Answers e) {d : Driver}
    (hne : d.internalBuffer ≠ []) (w : ω) :
    d.doPacketExtraction (E.at d.internalBuffer) w =
      some (.ok (cut e d.extractLast d.internalBuffer).packet, d.scanned e,
        E.effects (asked e d.extractLast d.internalBuffer) w) := by
  have hscan := findPacket_eq hb hE (List.drop_zero (l := d.internalBuffer)) hne d.extractLast
    (Nat.le_succ _) d.stats w
  have hjoin := congrArg List.length (cut_join e d.extractLast d.internalBuffer)
  simp only [List.length_append] at hjoin
  rw [Nat.cast_zero, Nat.zero_add] at hscan
  rw [Driver.doPacketExtraction, hscan]
  dsimp only
  rw [Driver.pullBytesFromInternal, if_pos ⟨by omega, by omega, by
    simp only [Driver.newInternalSize, Driver.withStats]; omega⟩]
  have hstats : (if d.extractLast = true then counted e d.extractLast d.internalBuffer d.stats
      else (counted e d.extractLast d.internalBuffer d.stats).count
        (cut e d.extractLast d.internalBuffer).skipped.length
        (cut e d.extractLast d.internalBuffer).packet.length) =
      d.stats.scanned e d.extractLast d.internalBuffer := by
    unfold Status.scanned counted
    split_ifs <;> rfl
  rw [hstats]
  simp only [Int.toNat_natCast, ← Nat.cast_add]
  simp only [Driver.withStats, drop_cut, List.take_left]
  rfl

theorem hasPacket_eq (hb : InBounds e) {E : Extract ω} (hE : E.Answers e) (d : Driver) (w : ω) :
    d.hasPacket E w =
      some (.ok (decide ((cut e d.extractLast d.internalBuffer).packet ≠ [])),
        d.withStats (counted e d.extractLast d.internalBuffer d.stats),
        E.effects (asked e d.extractLast d.internalBuffer) w) := by
  unfold Driver.hasPacket
  by_cases hne : d.internalBuffer = []
  · rw [if_pos (by simp [hne]), hne, counted_settled settled_nil, asked, if_pos rfl]
    simp [Extract.effects, Driver.withStats]
  · have hscan := findPacket_eq hb hE (List.drop_zero (l := d.internalBuffer)) hne d.extractLast
      (Nat.le_succ _) d.stats w
    rw [Nat.cast_zero, Nat.zero_add] at hscan
    rw [if_neg (by simp [hne]), hscan]
    simp [List.length_pos_iff]

end IodriversBase
