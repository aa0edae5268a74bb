import IodriversBase.Library.Signed
import IodriversBase.Descriptors
import IodriversBase.Samples

namespace IodriversBase

open Signed

inductive TcRate
  | b1200 | b2400 | b4800 | b9600 | b19200 | b38400 | b57600 | b115200 | b230400 | b460800
  | b576000 | b921600 | b1000000
  deriving DecidableEq

/-- The cases of the switch; `none` for a custom rate. -/
def tcRate : ℤ → Option TcRate
  | 1200 => some .b1200
  | 2400 => some .b2400
  | 4800 => some .b4800
  | 9600 => some .b9600
  | 19200 => some .b19200
  | 38400 => some .b38400
  | 57600 => some .b57600
  | 115200 => some .b115200
  | 230400 => some .b230400
  | 460800 => some .b460800
  | 576000 => some .b576000
  | 921600 => some .b921600
  | 1000000 => some .b1000000
  | _ => none

structure Termios where
  iflag : BitVec 32
  cflag : BitVec 32
  ispeed : Option TcRate
  ospeed : Option TcRate
  deriving DecidableEq

structure SerialStruct where
  flags : BitVec 32
  customDivisor : ℤ
  baudBase : ℤ
  deriving DecidableEq

def IGNBRK : BitVec 32 := 0o1
def CS8 : BitVec 32 := 0o60
def CREAD : BitVec 32 := 0o200
def ASYNC_SPD_CUST : BitVec 32 := 0x0030
def ASYNC_SPD_MASK : BitVec 32 := 0x1030

/-- The system calls on serial ports, with what they leave in their argument. -/
structure SerialOs (Ω : Type) extends Os Ω where
  errno : Ω → ℕ
  openDevice : (path : String) → Ω → Option ℤ × Ω
  tiocgserial : (fd : ℤ) → Ω → SerialStruct × Ω
  tiocsserial : (fd : ℤ) → SerialStruct → Ω → Ω
  tcgetattr : (fd : ℤ) → Ω → Option Termios × Ω
  tcsetattr : (fd : ℤ) → Termios → Ω → Bool × Ω
  cfsetispeed : Termios → TcRate → Option Termios
  cfsetospeed : Termios → TcRate → Option Termios

/-- `custom_divisor`. -/
def customDivisor (baudBase brate : ℤ) : Except Fault ℤ := do
  let half ← div 32 brate 2
  let sum ← add 32 baudBase half
  div 32 sum brate

/-- Whether the closest speed misses the rate.  `||` leaves the second bound alone where the first
is missed. -/
def misses (closestSpeed brate : ℤ) : Except Fault Bool := do
  let scaled ← mul 32 brate 98
  let low ← div 32 scaled 100
  if closestSpeed < low then return true
  else
    let scaled ← mul 32 brate 102
    let high ← div 32 scaled 100
    return closestSpeed > high

/-- The block for a custom rate: the divisor to set, none if there is no divisor. -/
def customRate (baudBase brate : ℤ) : Except Fault (Option ℤ) := do
  let divisor ← customDivisor baudBase brate
  if divisor = 0 then return none
  else
    let closestSpeed ← div 32 baudBase divisor
    -- a speed that misses the rate is written to `cerr`, and nothing else
    let _ ← misses closestSpeed brate
    return some divisor

variable {Ω : Type}

def setTerminalSpeed (os : SerialOs Ω) (fd : ℤ) (rate : TcRate) (w : Ω) : Bool × Ω :=
  match os.tcgetattr fd w with
  | (none, w) => (false, w)
  | (some termios, w) =>
    match os.cfsetispeed termios rate with
    | none => (false, w)
    | some termios =>
      match os.cfsetospeed termios rate with
      | none => (false, w)
      | some termios => os.tcsetattr fd termios w

def setSerialBaudrate (os : SerialOs Ω) (fd brate : ℤ) (w : Ω) : Except Fault (Bool × Ω) :=
  let ss := (os.tiocgserial fd w).1
  let w := (os.tiocgserial fd w).2
  match tcRate brate with
  | some rate =>
    let ss := { ss with flags := ss.flags &&& ~~~ASYNC_SPD_MASK }
    .ok (setTerminalSpeed os fd rate (os.tiocsserial fd ss w))
  | none =>
    match customRate ss.baudBase brate with
    | .error x => .error x
    | .ok none => .ok (false, w)
    | .ok (some divisor) =>
      let flags := (ss.flags &&& ~~~ASYNC_SPD_MASK) ||| ASYNC_SPD_CUST
      let ss := { ss with flags := flags, customDivisor := divisor }
      .ok (setTerminalSpeed os fd .b38400 (os.tiocsserial fd ss w))

def openTerminal (os : SerialOs Ω) (port : String) (w : Ω) : Except Exn ℤ × Ω :=
  match os.openDevice port w with
  | (none, w) => (.error (.unixError ("cannot open device " ++ port) (os.errno w)), w)
  | (some fd, w) =>
    match os.tcsetattr fd ⟨IGNBRK, CS8 ||| CREAD, none, none⟩ w with
    | (false, w) =>
      (.error (.unixError "Driver::openSerial cannot set serial options" (os.errno w)),
        os.close fd w)
    | (true, w) => (.ok fd, w)

def openSerialIO (os : SerialOs Ω) (port : String) (baudRate : ℤ) (w : Ω) :
    Except Fault (Except Exn ℤ × Ω) :=
  match openTerminal os port w with
  | (.error x, w) => .ok (.error x, w)
  | (.ok fd, w) =>
    match setSerialBaudrate os fd baudRate w with
    | .error x => .error x
    | .ok (true, w) => .ok (.ok fd, w)
    | .ok (false, w) =>
      .ok (.error (.unixError "Driver::openSerial cannot set baudrate" (os.errno w)), os.close fd w)

def Tolerated (brate speed : ℤ) : Prop :=
  (brate * 98).tdiv 100 ≤ speed ∧ speed ≤ (brate * 102).tdiv 100

def Obtained (baudBase brate : ℤ) : Prop :=
  ∃ divisor, customDivisor baudBase brate = .ok divisor ∧ Tolerated brate (baudBase.tdiv divisor)

/-- On every device with this base clock, the rate is set without a fault, and only a rate that is
obtained counts as set. -/
structure Honest (baudBase brate : ℤ) : Prop where
  safe : ∀ (Ω : Type) (os : SerialOs Ω) (fd : ℤ) (w : Ω),
    (os.tiocgserial fd w).1.baudBase = baudBase → ∃ r, setSerialBaudrate os fd brate w = .ok r
  told : ∀ (Ω : Type) (os : SerialOs Ω) (fd : ℤ) (w w' : Ω),
    (os.tiocgserial fd w).1.baudBase = baudBase →
    setSerialBaudrate os fd brate w = .ok (true, w') → Obtained baudBase brate
  opened : ∀ (Ω : Type) (os : SerialOs Ω) (port : String) (fd fd' : ℤ) (w w₁ w' : Ω),
    openTerminal os port w = (.ok fd, w₁) → (os.tiocgserial fd w₁).1.baudBase = baudBase →
    openSerialIO os port brate w = .ok (.ok fd', w') → Obtained baudBase brate

/-- The clock is too slow for the rate: the nearest divisor is 0. -/
def TooSlow (baudBase brate : ℤ) : Prop := brate ≠ 0 ∧ |baudBase + brate.tdiv 2| < |brate|

/-- Nothing gets too large for an `int`, and the nearest divisor `n` gives a tolerated speed. -/
structure Attainable (baudBase brate : ℤ) : Prop where
  pos : 0 < brate
  sum : baudBase + brate / 2 < 2 ^ 31
  bound : brate * 102 < 2 ^ 31
  divisor : ∃ n, 1 ≤ n ∧ n * brate ≤ baudBase + brate / 2 ∧ baudBase + brate / 2 < (n + 1) * brate ∧
    n * (brate * 98 / 100) ≤ baudBase ∧ baudBase < n * (brate * 102 / 100 + 1)

variable {baudBase brate divisor speed : ℤ}

theorem le_tdiv_two (hrate : InRange 32 brate) : -2 ^ 30 ≤ brate.tdiv 2 := by
  obtain ⟨hlo, -⟩ := hrate
  norm_num at hlo ⊢
  rcases le_or_gt 0 brate with hpos | hneg
  · rw [Int.tdiv_eq_ediv_of_nonneg hpos]
    omega
  · rw [tdiv_of_nonpos hneg.le]
    omega

theorem customDivisor_eq_ok (hrate : InRange 32 brate) (hbase : 0 ≤ baudBase) :
    customDivisor baudBase brate = .ok divisor ↔ brate ≠ 0 ∧ baudBase + brate.tdiv 2 < 2 ^ 31 ∧
      divisor = (baudBase + brate.tdiv 2).tdiv brate := by
  have hhalf := le_tdiv_two hrate
  have hsum : InRange 32 (baudBase + brate.tdiv 2) ↔ baudBase + brate.tdiv 2 < 2 ^ 31 := by
    refine and_iff_right ?_
    norm_num at hhalf ⊢
    linarith
  have hdiv (h : InRange 32 (baudBase + brate.tdiv 2)) :
      div 32 (baudBase + brate.tdiv 2) brate = .ok divisor ↔
        brate ≠ 0 ∧ divisor = (baudBase + brate.tdiv 2).tdiv brate := by
    refine div_eq_ok h fun _ => ?_
    norm_num at hhalf ⊢
    intro hmin
    linarith
  simp only [customDivisor, bind_eq_ok, div_eq_ok_of_pos hrate two_pos, add_eq_ok]
  constructor
  · rintro ⟨_, rfl, _, ⟨hrange, rfl⟩, hd⟩
    obtain ⟨hne, hd⟩ := (hdiv hrange).mp hd
    exact ⟨hne, hsum.mp hrange, hd⟩
  · rintro ⟨hne, hlt, hd⟩
    exact ⟨_, rfl, _, ⟨hsum.mpr hlt, rfl⟩, (hdiv (hsum.mpr hlt)).mpr ⟨hne, hd⟩⟩

/-- The test is passed by the speeds that are tolerated, if both bounds can be computed. -/
theorem misses_eq_false : misses speed brate = .ok false ↔
    InRange 32 (brate * 98) ∧ InRange 32 (brate * 102) ∧ Tolerated brate speed := by
  have hif : ∀ (p : Prop) [Decidable p] (x : Except Fault Bool),
      (if p then pure true else x) = .ok false ↔ ¬ p ∧ x = .ok false := by
    intro p _ x
    by_cases hp : p <;> simp [hp, pure, Except.pure]
  simp only [misses, bind_eq_ok, mul_eq_ok, hif]
  constructor
  · rintro ⟨_, ⟨hlow, rfl⟩, _, hl, hge, _, ⟨hhigh, rfl⟩, _, hh, hle⟩
    rw [div_eq_ok_of_pos hlow (by decide)] at hl
    rw [div_eq_ok_of_pos hhigh (by decide)] at hh
    subst hl hh
    refine ⟨hlow, hhigh, not_lt.mp hge, ?_⟩
    simpa [pure, Except.pure] using hle
  · rintro ⟨hlow, hhigh, hge, hle⟩
    refine ⟨_, ⟨hlow, rfl⟩, _, (div_eq_ok_of_pos hlow (by decide)).mpr rfl, not_lt.mpr hge,
      _, ⟨hhigh, rfl⟩, _, (div_eq_ok_of_pos hhigh (by decide)).mpr rfl, ?_⟩
    simpa [pure, Except.pure] using hle

theorem eq_false_of_tolerated {b : Bool} (h : misses speed brate = .ok b)
    (ht : Tolerated brate speed) : b = false := by
  simp only [misses, bind_eq_ok, mul_eq_ok] at h
  obtain ⟨_, ⟨hlow, rfl⟩, _, hl, h⟩ := h
  rw [div_eq_ok_of_pos hlow (by decide)] at hl
  subst hl
  rw [if_neg (not_lt.mpr ht.1)] at h
  simp only [bind_eq_ok, mul_eq_ok] at h
  obtain ⟨_, ⟨hhigh, rfl⟩, _, hh, h⟩ := h
  rw [div_eq_ok_of_pos hhigh (by decide)] at hh
  subst hh
  rw [← Except.ok.inj h]
  exact decide_eq_false (not_lt.mpr ht.2)

/-- The nearest divisor is 0 exactly when the rate exceeds the clock and half of itself. -/
theorem customDivisor_eq_zero (hrate : InRange 32 brate) (hbase : 0 ≤ baudBase) :
    customDivisor baudBase brate = .ok 0 ↔ TooSlow baudBase brate := by
  rw [customDivisor_eq_ok hrate hbase, TooSlow]
  refine and_congr_right fun hne => ?_
  have hzero : (baudBase + brate.tdiv 2).tdiv brate = 0 ↔
      |baudBase + brate.tdiv 2| < |brate| := by
    rw [← Int.natAbs_eq_zero, Int.natAbs_tdiv, Int.abs_eq_natAbs, Int.abs_eq_natAbs, Nat.cast_lt]
    exact Nat.div_eq_zero_iff_lt (Int.natAbs_pos.mpr hne)
  rw [eq_comm, hzero]
  refine and_iff_right_of_imp fun hlt => ?_
  have habs : |brate| ≤ 2 ^ 31 := abs_le.mpr ⟨hrate.1, hrate.2.le⟩
  exact (le_abs_self _).trans_lt (hlt.trans_le habs)

theorem Tolerated.nonneg (h : Tolerated brate speed) : 0 ≤ brate := by
  by_contra hneg
  have hle := h.1.trans h.2
  rw [tdiv_of_nonpos (by omega), tdiv_of_nonpos (by omega)] at hle
  have hlow : -(brate * 98) / 100 < -brate := by omega
  have hhigh : -brate ≤ -(brate * 102) / 100 := by omega
  omega

theorem tolerated_tdiv {n : ℤ} (hbase : 0 ≤ baudBase) (hpos : 0 < brate) (hn : 0 < n) :
    Tolerated brate (baudBase.tdiv n) ↔
      n * (brate * 98 / 100) ≤ baudBase ∧ baudBase < n * (brate * 102 / 100 + 1) := by
  rw [Tolerated, Int.tdiv_eq_ediv_of_nonneg hbase, Int.tdiv_eq_ediv_of_nonneg (by omega),
    Int.tdiv_eq_ediv_of_nonneg (by omega)]
  refine and_congr ?_ ?_
  · rw [Int.le_ediv_iff_mul_le hn, mul_comm]
  · rw [← Int.lt_add_one_iff, Int.ediv_lt_iff_lt_mul hn, mul_comm]

theorem attainable_iff (hrate : InRange 32 brate) (hbase : 0 ≤ baudBase) :
    Attainable baudBase brate ↔ ∃ d, customDivisor baudBase brate = .ok d ∧ d ≠ 0 ∧
      InRange 32 (brate * 98) ∧ InRange 32 (brate * 102) ∧ Tolerated brate (baudBase.tdiv d) := by
  constructor
  · rintro ⟨hpos, hsum, hbound, n, hn, hle, hlt, htol⟩
    have hdiv : n = (baudBase + brate.tdiv 2).tdiv brate := by
      rw [Int.tdiv_eq_ediv_of_nonneg hpos.le]
      exact ((tdiv_eq_iff (by omega) hpos).mpr ⟨hle, hlt⟩).symm
    have hrange {k : ℤ} (hk : 0 < k) (hk' : k ≤ 102) : InRange 32 (brate * k) := by
      have hmul : brate * k ≤ brate * 102 := mul_le_mul_of_nonneg_left hk' hpos.le
      have := mul_pos hpos hk
      exact ⟨by norm_num; omega, hmul.trans_lt hbound⟩
    rw [← Int.tdiv_eq_ediv_of_nonneg hpos.le] at hsum
    exact ⟨n, (customDivisor_eq_ok hrate hbase).mpr ⟨hpos.ne', hsum, hdiv⟩, by omega,
      hrange (by decide) (by decide), hrange (by decide) le_rfl,
      (tolerated_tdiv hbase hpos hn).mpr htol⟩
  · rintro ⟨d, hd, hne, -, hbound, htol⟩
    obtain ⟨hb0, hsum, hdiv⟩ := (customDivisor_eq_ok hrate hbase).mp hd
    have hpos : 0 < brate := lt_of_le_of_ne htol.nonneg (Ne.symm hb0)
    rw [Int.tdiv_eq_ediv_of_nonneg hpos.le] at hsum hdiv
    obtain ⟨hle, hlt⟩ := (tdiv_eq_iff (by omega) hpos).mp hdiv.symm
    have hd1 : 1 ≤ d := by
      have : 0 ≤ d := hdiv ▸ Int.tdiv_nonneg (by omega) hpos.le
      omega
    exact ⟨hpos, hsum, hbound.2, d, hd1, hle, hlt, (tolerated_tdiv hbase hpos hd1).mp htol⟩

theorem customRate_eq_none : customRate baudBase brate = .ok none ↔
    customDivisor baudBase brate = .ok 0 := by
  rw [customRate, bind_eq_ok]
  constructor
  · rintro ⟨d, hd, h⟩
    by_cases h0 : d = 0
    · rw [hd, h0]
    · rw [if_neg h0, bind_eq_ok] at h
      obtain ⟨_, -, h⟩ := h
      obtain ⟨_, -, h⟩ := bind_eq_ok.mp h
      cases h
  · intro hd
    exact ⟨0, hd, if_pos rfl⟩

theorem customRate_eq_some : customRate baudBase brate = .ok (some divisor) ↔
    customDivisor baudBase brate = .ok divisor ∧ divisor ≠ 0 ∧
      ∃ c, div 32 baudBase divisor = .ok c ∧ ∃ b, misses c brate = .ok b := by
  rw [customRate, bind_eq_ok]
  constructor
  · rintro ⟨d, hd, h⟩
    by_cases h0 : d = 0
    · rw [if_pos h0] at h
      cases h
    · rw [if_neg h0, bind_eq_ok] at h
      obtain ⟨c, hc, h⟩ := h
      obtain ⟨b, hb, h⟩ := bind_eq_ok.mp h
      cases h
      exact ⟨hd, h0, c, hc, b, hb⟩
  · rintro ⟨hd, h0, c, hc, b, hb⟩
    refine ⟨divisor, hd, ?_⟩
    rw [if_neg h0, bind_eq_ok]
    exact ⟨c, hc, bind_eq_ok.mpr ⟨b, hb, rfl⟩⟩

/-- The custom rate is computed, and if there is a divisor the speed is tolerated. -/
theorem customRate_obtained_iff (hrate : InRange 32 brate) (hbase : 0 ≤ baudBase)
    (hrange : InRange 32 baudBase) :
    (∃ r, customRate baudBase brate = .ok r ∧ (r.isSome → Obtained baudBase brate)) ↔
      TooSlow baudBase brate ∨ Attainable baudBase brate := by
  have hclosest {d c : ℤ} : div 32 baudBase d = .ok c ↔ d ≠ 0 ∧ c = baudBase.tdiv d := by
    refine div_eq_ok hrange fun _ => ?_
    norm_num
    omega
  rw [← customDivisor_eq_zero hrate hbase, attainable_iff hrate hbase]
  constructor
  · rintro ⟨_ | d, hr, hobtained⟩
    · exact .inl (customRate_eq_none.mp hr)
    · obtain ⟨hd, hne, c, hc, b, hb⟩ := customRate_eq_some.mp hr
      obtain ⟨d', hd', htol⟩ := hobtained rfl
      obtain rfl : d = d' := Except.ok.inj (hd.symm.trans hd')
      obtain rfl : c = baudBase.tdiv d := (hclosest.mp hc).2
      rw [eq_false_of_tolerated hb htol, misses_eq_false] at hb
      exact .inr ⟨d, hd, hne, hb.1, hb.2.1, htol⟩
  · rintro (hd | ⟨d, hd, hne, hlow, hhigh, htol⟩)
    · exact ⟨none, customRate_eq_none.mpr hd, fun h => by cases h⟩
    · exact ⟨some d, customRate_eq_some.mpr ⟨hd, hne, _, hclosest.mpr ⟨hne, rfl⟩, false,
        misses_eq_false.mpr ⟨hlow, hhigh, htol⟩⟩, fun _ => ⟨d, hd, htol⟩⟩

theorem setSerialBaudrate_custom {Ω : Type} {os : SerialOs Ω} {fd : ℤ} {w : Ω} {r : Option ℤ}
    (hcustom : tcRate brate = none) (hbase : (os.tiocgserial fd w).1.baudBase = baudBase)
    (hr : customRate baudBase brate = .ok r) : ∃ a w', setSerialBaudrate os fd brate w =
      .ok (a, w') ∧ (a = true → r.isSome) := by
  rw [setSerialBaudrate]
  simp only [hcustom, hbase, hr]
  rcases r with _ | d
  · exact ⟨_, _, rfl, fun h => by cases h⟩
  · exact ⟨_, _, rfl, fun _ => rfl⟩

def SerialOs.agreeable (baudBase : ℤ) : SerialOs Script where
  toOs := Script.os
  errno _ := 0
  openDevice _ w := (some 3, w)
  tiocgserial _ w := (⟨0, 0, baudBase⟩, w)
  tiocsserial _ _ w := w
  tcgetattr _ w := (some ⟨0, 0, none, none⟩, w)
  tcsetattr _ _ w := (true, w)
  cfsetispeed termios rate := some { termios with ispeed := some rate }
  cfsetospeed termios rate := some { termios with ospeed := some rate }

/-- A custom rate is set honestly exactly if the clock is too slow for it, or can attain it. -/
theorem setSerialBaudrate_honest_iff {baudBase brate : ℤ} (hrate : InRange 32 brate)
    (hcustom : tcRate brate = none) (hbase : 0 ≤ baudBase) (hrange : InRange 32 baudBase) :
    Honest baudBase brate ↔ TooSlow baudBase brate ∨ Attainable baudBase brate := by
  rw [← customRate_obtained_iff hrate hbase hrange]
  constructor
  · intro h
    obtain ⟨a, ha⟩ := h.safe Script (.agreeable baudBase) 3 [] rfl
    cases hr : customRate baudBase brate with
    | error x =>
      rw [setSerialBaudrate] at ha
      simp only [hcustom, SerialOs.agreeable, hr] at ha
      cases ha
    | ok r =>
      refine ⟨r, rfl, fun hsome => h.told Script (.agreeable baudBase) 3 [] [] rfl ?_⟩
      obtain ⟨d, rfl⟩ := Option.isSome_iff_exists.mp hsome
      rw [setSerialBaudrate]
      simp only [hcustom, SerialOs.agreeable, hr]
      rfl
  · rintro ⟨r, hr, hobtained⟩
    refine ⟨fun Ω os fd w hb => ?_, fun Ω os fd w w' hb ht => ?_,
      fun Ω os port fd fd' w w₁ w' hterm hb ht => ?_⟩
    · obtain ⟨a, w', h, -⟩ := setSerialBaudrate_custom hcustom hb hr
      exact ⟨_, h⟩
    · obtain ⟨a, w₂, h, htrue⟩ := setSerialBaudrate_custom hcustom hb hr
      rw [h] at ht
      cases ht
      exact hobtained (htrue rfl)
    · obtain ⟨a, w₂, h, htrue⟩ := setSerialBaudrate_custom hcustom hb hr
      unfold openSerialIO at ht
      rw [hterm] at ht
      simp only [h] at ht
      cases a with
      | false => cases ht
      | true => exact hobtained (htrue rfl)

theorem setSerialBaudrate_honest_sample :
    tcRate 31250 = none ∧ Honest 1500000 31250 := by
  have hattainable : Attainable 1500000 31250 :=
    ⟨by decide, by decide, by decide, 48, by decide, by decide, by decide, by decide, by decide⟩
  exact ⟨rfl, (setSerialBaudrate_honest_iff (by decide) rfl (by decide) (by decide)).mpr
    (.inr hattainable)⟩

/-- A rate of 100000 on the clock of a standard port: 115200 counts as set. -/
theorem setSerialBaudrate_not_honest : tcRate 100000 = none ∧ ¬ Honest 115200 100000 := by
  refine ⟨rfl, fun h => ?_⟩
  obtain ⟨d, hd, htol⟩ := h.told Script (.agreeable 115200) 3 [] [] rfl rfl
  obtain rfl : 1 = d := Except.ok.inj (hd.symm.trans rfl).symm
  revert htol
  unfold Tolerated
  decide

end IodriversBase
