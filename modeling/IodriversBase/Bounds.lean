import IodriversBase.Driver

namespace IodriversBase

/-- An `extractPacket` that answers `e` and keeps a list of what it was asked: pointers, as
offsets into the internal buffer, and sizes. -/
abbrev logged (e : ℤ → ℤ → ℤ) : ℤ → ℤ → List (ℤ × ℤ) → ℤ × List (ℤ × ℤ) :=
  fun buffer bufferSize asks => (e buffer bufferSize, asks ++ [(buffer, bufferSize)])

/-- Asked about `n` bytes at `p`, the scan looks further: behind the bytes it skips, or in the
last-packet mode behind a packet too. -/
def GoesOn (e : ℤ → ℤ → ℤ) (extractLast : Bool) (p n : ℤ) : Prop :=
  e p n ≠ 0 ∧ e p n ≤ n ∧ |e p n| ≠ n ∧ (e p n < 0 ∨ extractLast = true)

/-- From the `n` bytes at `p`, the scan comes to ask about the `m` bytes at `q` without having
left them. -/
inductive Consulted (e : ℤ → ℤ → ℤ) (extractLast : Bool) : ℤ → ℤ → ℤ → ℤ → Prop
  | here (p n : ℤ) : Consulted e extractLast p n p n
  | further {p n q m : ℤ} : GoesOn e extractLast p n → |e p n| < n →
      Consulted e extractLast (p + |e p n|) (n - |e p n|) q m → Consulted e extractLast p n q m

def Inside (p n : ℤ) : Except Exn (ℤ × ℤ) → Prop
  | .error x => ∃ what, x = .lengthError what
  | .ok window => p ≤ window.1 ∧ 0 ≤ window.2 ∧ window.1 + window.2 ≤ p + n

/-- Every call is made with a size that is positive and smaller than that of its caller. -/
structure Descends (caller : ℤ × ℤ) (calls : List (ℤ × ℤ)) : Prop where
  positive : ∀ call ∈ calls, 0 < call.2
  smaller : (caller :: calls).IsChain fun a b => b.2 < a.2

theorem Descends.nil (caller : ℤ × ℤ) : Descends caller [] := ⟨by simp, by simp⟩

theorem Descends.cons {caller call : ℤ × ℤ} {calls : List (ℤ × ℤ)} (h : Descends call calls)
    (hpos : 0 < call.2) (hlt : call.2 < caller.2) : Descends caller (call :: calls) where
  positive := List.forall_mem_cons.mpr ⟨hpos, h.positive⟩
  smaller := List.isChain_cons_cons.mpr ⟨hlt, h.smaller⟩

/-- The extraction from `d` stays within its bounds. -/
structure BoundsSafe (e : ℤ → ℤ → ℤ) (d : Driver) : Prop where
  finds : ∃ fuel r stats calls,
    findPacket (logged e) d.extractLast fuel 0 d.internalBuffer.length d.stats [] =
      some (r, stats, (0, (d.internalBuffer.length : ℤ)) :: calls) ∧
    Inside 0 d.internalBuffer.length r ∧ Descends (0, (d.internalBuffer.length : ℤ)) calls
  extracts : ∃ r d' asks, d.doPacketExtraction (logged e) [] = some (r, d', asks) ∧
    d'.internalBuffer.length ≤ d.maxPacketSize ∧
    ∀ packet, r = .ok packet → packet.length ≤ d.maxPacketSize

variable {e : ℤ → ℤ → ℤ} {extractLast : Bool} {p n : ℤ}

def packetStart (e : ℤ → ℤ → ℤ) (p n : ℤ) : ℤ := if e p n < 0 then -e p n else 0

def packetSize (e : ℤ → ℤ → ℤ) (p n : ℤ) : ℤ := if e p n < 0 then 0 else e p n

theorem packetStart_nonneg : 0 ≤ packetStart e p n := by
  unfold packetStart
  split_ifs <;> omega

theorem packetSize_nonneg : 0 ≤ packetSize e p n := by
  unfold packetSize
  split_ifs <;> omega

theorem packetStart_add_packetSize : packetStart e p n + packetSize e p n = |e p n| := by
  unfold packetStart packetSize
  split_ifs <;> grind

theorem packetSize_eq_zero : packetSize e p n = 0 ↔ e p n ≤ 0 := by
  unfold packetSize
  split_ifs <;> omega

theorem packetSize_pos : packetSize e p n > 0 ↔ 0 < e p n := by
  unfold packetSize
  split_ifs <;> omega

theorem findPacket_stops (h : ¬ GoesOn e extractLast p n) (fuel : ℕ) (stats : Status)
    (asks : List (ℤ × ℤ)) : ∃ r stats',
      findPacket (logged e) extractLast (fuel + 1) p n stats asks =
        some (r, stats', asks ++ [(p, n)]) ∧ (0 ≤ n → -n ≤ e p n → Inside p n r) := by
  rw [findPacket]
  dsimp only
  by_cases hlarge : e p n > n
  · rw [if_pos hlarge]
    exact ⟨_, _, rfl, fun _ _ => ⟨_, rfl⟩⟩
  rw [if_neg hlarge]
  by_cases h0 : e p n = 0
  · rw [if_pos h0]
    exact ⟨_, _, rfl, fun hn _ => ⟨le_rfl, le_rfl, by dsimp only; omega⟩⟩
  rw [if_neg h0, ← packetStart, ← packetSize, packetStart_add_packetSize]
  have hwindow : 0 ≤ n → -n ≤ e p n →
      Inside p n (.ok (p + packetStart e p n, packetSize e p n)) := by
    intro hn hlow
    have hle : |e p n| ≤ n := abs_le.mpr ⟨hlow, by omega⟩
    have hsum := packetStart_add_packetSize (e := e) (p := p) (n := n)
    exact ⟨by have := packetStart_nonneg (e := e) (p := p) (n := n); omega, packetSize_nonneg,
      by dsimp only; omega⟩
  by_cases hall : |e p n| = n
  · rw [if_pos (by omega)]
    exact ⟨_, _, rfl, hwindow⟩
  -- what is left is a packet in the first-packet mode
  have hpacket : ¬ (e p n < 0 ∨ extractLast = true) := fun hgo => h ⟨h0, by omega, hall, hgo⟩
  rw [if_neg (by omega), if_neg (by rw [packetSize_eq_zero]; rintro (h' | h') <;> grind)]
  exact ⟨_, _, rfl, hwindow⟩

theorem findPacket_goes (h : GoesOn e extractLast p n) (fuel : ℕ) (stats : Status)
    (asks : List (ℤ × ℤ)) : ∃ stats',
      findPacket (logged e) extractLast (fuel + 1) p n stats asks =
        match findPacket (logged e) extractLast fuel (p + |e p n|) (n - |e p n|) stats'
            (asks ++ [(p, n)]) with
        | some (.ok next, stats, asks) =>
          some (.ok (if extractLast = true ∧ next.2 = 0 then
            (p + packetStart e p n, packetSize e p n) else next), stats, asks)
        | r => r := by
  obtain ⟨h0, hlarge, hall, hgo⟩ := h
  refine ⟨if extractLast then stats.count (packetStart e p n) (packetSize e p n) else stats, ?_⟩
  rw [findPacket]
  dsimp only
  rw [if_neg (by omega), if_neg h0, ← packetStart, ← packetSize, packetStart_add_packetSize,
    add_assoc, packetStart_add_packetSize, if_neg (by omega), if_pos]
  · rcases findPacket (logged e) extractLast fuel _ _ _ _ with _ | ⟨_ | next, stats, asks⟩
    · rfl
    · rfl
    · cases extractLast
      · rfl
      · by_cases hz : next.2 = 0 <;> simp [hz]
  · rw [packetSize_eq_zero]
    rcases hgo with hneg | hlast
    · exact .inl hneg.le
    · rcases le_or_gt (e p n) 0 with hle | hpos
      · exact .inl hle
      · exact .inr ⟨packetSize_pos.mpr hpos, hlast⟩

theorem GoesOn.next (h : GoesOn e extractLast p n) {fuel : ℕ} {stats stats' : Status}
    {asks asks' : List (ℤ × ℤ)} {r}
    (hr : findPacket (logged e) extractLast (fuel + 1) p n stats asks = some (r, stats', asks')) :
    ∃ stats₁ r', findPacket (logged e) extractLast fuel (p + |e p n|) (n - |e p n|) stats₁
      (asks ++ [(p, n)]) = some (r', stats', asks') := by
  obtain ⟨stats₁, heq⟩ := findPacket_goes h fuel stats asks
  refine ⟨stats₁, ?_⟩
  rw [heq] at hr
  rcases hnext : findPacket (logged e) extractLast fuel (p + |e p n|) (n - |e p n|) stats₁
    (asks ++ [(p, n)]) with _ | ⟨_ | next, stats₂, asks₂⟩ <;> rw [hnext] at hr <;> cases hr
  · exact ⟨_, rfl⟩
  · exact ⟨_, rfl⟩

theorem findPacket_calls {fuel : ℕ} {stats stats' : Status} {asks asks' : List (ℤ × ℤ)} {r}
    (h : findPacket (logged e) extractLast fuel p n stats asks = some (r, stats', asks')) :
    ∃ calls, asks' = asks ++ (p, n) :: calls := by
  induction fuel generalizing p n stats stats' asks asks' r with
  | zero => cases h
  | succ fuel ih =>
    by_cases hgo : GoesOn e extractLast p n
    · obtain ⟨_, _, hnext⟩ := hgo.next h
      obtain ⟨calls, rfl⟩ := ih hnext
      exact ⟨_, List.append_assoc ..⟩
    · obtain ⟨_, _, heq, _⟩ := findPacket_stops hgo fuel stats asks
      rw [heq] at h
      cases h
      exact ⟨[], rfl⟩

/-- Where no answer skips more than there is, the scan stays within its bounds. -/
theorem findPacket_safe (h : ∀ q m, Consulted e extractLast p n q m → -m ≤ e q m) (hn : 0 ≤ n)
    (fuel : ℕ) (hfuel : n < fuel)
    (stats : Status) (asks : List (ℤ × ℤ)) : ∃ r stats' calls,
      findPacket (logged e) extractLast fuel p n stats asks =
        some (r, stats', asks ++ (p, n) :: calls) ∧ Inside p n r ∧ Descends (p, n) calls := by
  induction fuel generalizing p n stats asks with
  | zero => omega
  | succ fuel ih =>
    have hlow := h p n (.here p n)
    by_cases hgo : GoesOn e extractLast p n
    · have hlt : |e p n| < n := lt_of_le_of_ne (abs_le.mpr ⟨hlow, hgo.2.1⟩) hgo.2.2.1
      have hpos : 0 < |e p n| := abs_pos.mpr hgo.1
      obtain ⟨stats₁, heq⟩ := findPacket_goes hgo fuel stats asks
      -- the activation inside is given what lies behind the front
      obtain ⟨r, stats₂, calls, hnext, hin, hdesc⟩ :=
        ih (fun q m hq => h q m (.further hgo hlt hq)) (by omega) (by push_cast at hfuel; omega)
          stats₁ (asks ++ [(p, n)])
      have hcalls : Descends (p, n) ((p + |e p n|, n - |e p n|) :: calls) :=
        hdesc.cons (by dsimp only; omega) (by dsimp only; omega)
      rw [heq, hnext, List.append_assoc]
      cases r with
      | error x => exact ⟨_, _, _, rfl, hin, hcalls⟩
      | ok window =>
        refine ⟨_, _, _, rfl, ?_, hcalls⟩
        obtain ⟨hstart, hsize, hend⟩ := hin
        have hsum := packetStart_add_packetSize (e := e) (p := p) (n := n)
        have hskip := packetStart_nonneg (e := e) (p := p) (n := n)
        split_ifs
        · exact ⟨by dsimp only; omega, packetSize_nonneg, by dsimp only; omega⟩
        · exact ⟨by omega, hsize, by omega⟩
    · obtain ⟨r, stats', heq, hin⟩ := findPacket_stops hgo fuel stats asks
      exact ⟨r, stats', [], heq, hin hn hlow, .nil _⟩

/-- An answer that skips more than there is makes the scan ask about a negative size. -/
theorem findPacket_unsafe {q m : ℤ} (h : Consulted e extractLast p n q m) (hn : 0 ≤ n)
    (hbad : e q m < -m) {fuel : ℕ} {stats stats' : Status} {asks asks' : List (ℤ × ℤ)} {r}
    (hr : findPacket (logged e) extractLast fuel p n stats asks = some (r, stats', asks')) :
    ∃ calls, asks' = asks ++ (p, n) :: calls ∧ ∃ call ∈ calls, call.2 < 0 := by
  induction h generalizing fuel stats asks r with
  | here p n =>
    cases fuel with
    | zero => cases hr
    | succ fuel =>
      have habs : |e p n| = -e p n := abs_of_neg (by omega)
      have hgo : GoesOn e extractLast p n := ⟨by omega, by omega, by omega, .inl (by omega)⟩
      obtain ⟨_, _, hnext⟩ := hgo.next hr
      obtain ⟨calls, rfl⟩ := findPacket_calls hnext
      exact ⟨_, List.append_assoc .., _, List.mem_cons_self, by dsimp only; omega⟩
  | further hgo hlt _ ih =>
    cases fuel with
    | zero => cases hr
    | succ fuel =>
      obtain ⟨_, _, hnext⟩ := hgo.next hr
      obtain ⟨calls, rfl, call, hcall, hneg⟩ := ih (by omega) hbad hnext
      exact ⟨_, List.append_assoc .., call, List.mem_cons_of_mem _ hcall, hneg⟩

/-- No answer that the scan of the internal buffer comes to skips more than there is. -/
def NeverBeyond (e : ℤ → ℤ → ℤ) (d : Driver) : Prop :=
  ∀ p n, Consulted e d.extractLast 0 d.internalBuffer.length p n → -n ≤ e p n

variable {d : Driver}

theorem BoundsSafe.neverBeyond (h : BoundsSafe e d) : NeverBeyond e d := by
  intro p n hc
  by_contra hbad
  obtain ⟨fuel, r, stats, calls, hr, _, hdesc⟩ := h.finds
  obtain ⟨calls', heq, call, hcall, hneg⟩ := findPacket_unsafe hc (by omega) (by omega) hr
  obtain rfl : calls = calls' := by simpa using heq
  have := hdesc.positive call hcall
  omega

theorem doPacketExtraction_safe (h : NeverBeyond e d) : ∃ r d' asks,
    d.doPacketExtraction (logged e) [] = some (r, d', asks) ∧
      d'.internalBuffer.length ≤ d.maxPacketSize ∧
      ∀ packet, r = .ok packet → packet.length ≤ d.maxPacketSize := by
  obtain ⟨r, stats, calls, hr, hin, _⟩ := findPacket_safe h (by omega)
    (d.internalBuffer.length + 1) (by push_cast; omega) d.stats []
  have hfits := d.fits
  rw [Driver.doPacketExtraction, hr]
  cases r with
  | error x => exact ⟨_, _, _, rfl, hfits, by simp⟩
  | ok window =>
    obtain ⟨hstart, hsize, hend⟩ := hin
    dsimp only
    rw [Driver.pullBytesFromInternal, if_pos ⟨hstart, hsize, by
      simp only [Driver.newInternalSize, Driver.withStats_internalBuffer]; omega⟩]
    refine ⟨_, _, _, rfl, ?_, ?_⟩
    · simp only [Driver.dropFront_internalBuffer, Driver.withStats_internalBuffer,
        List.length_drop]
      omega
    · intro packet hpacket
      obtain rfl := Except.ok.inj hpacket
      rw [List.length_take]
      omega

/-- An extraction stays within its bounds exactly when no answer that the scan comes to skips
more bytes than it was shown. -/
theorem boundsSafe_iff (e : ℤ → ℤ → ℤ) (d : Driver) : BoundsSafe e d ↔
    ∀ p n, Consulted e d.extractLast 0 d.internalBuffer.length p n → -n ≤ e p n := by
  refine ⟨BoundsSafe.neverBeyond, fun h => ⟨?_, doPacketExtraction_safe h⟩⟩
  obtain ⟨r, stats, calls, hr, hin, hdesc⟩ := findPacket_safe h (by omega)
    (d.internalBuffer.length + 1) (by push_cast; omega) d.stats []
  exact ⟨_, r, stats, calls, hr, hin, hdesc⟩

/-- Three bytes in the buffer, and an extractor that always skips five. -/
theorem not_boundsSafe_skipFive :
    ¬ ∀ (e : ℤ → ℤ → ℤ) (d : Driver), BoundsSafe e d := by
  intro h
  have hbeyond := (h (fun _ _ => -5)
    { Driver.new 8 false with internalBuffer := [1, 2, 3], fits := by decide }).neverBeyond 0 3
    (.here 0 3)
  omega

end IodriversBase
