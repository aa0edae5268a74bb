import IodriversBase.Library.Fields
import IodriversBase.Library.Programs
import IodriversBase.OpenURI
import IodriversBase.SerialBaudrate

namespace IodriversBase

open Fields Programs

variable {Ω : Type}

/-- The value that the call gives; if it gives none, its error is thrown. -/
def demand {α : Type} (errno : Ω → ℕ) (call : Ω → Option α × Ω) (what : Text) :
    Act Ω UnixError α := ExceptT.mk fun w =>
  match call w with
  | (some a, w) => (.ok a, w)
  | (none, w) => (.error ⟨what, errno w⟩, w)

def check (errno : Ω → ℕ) (call : Ω → Bool × Ω) (what : Text) : Act Ω UnixError Unit :=
  ExceptT.mk fun w =>
    match call w with
    | (true, w) => (.ok (), w)
    | (false, w) => (.error ⟨what, errno w⟩, w)

def CS5 : BitVec 32 := 0
def CS6 : BitVec 32 := 0o20
def CS7 : BitVec 32 := 0o40
def CSIZE : BitVec 32 := 0o60
def CSTOPB : BitVec 32 := 0o100
def PARENB : BitVec 32 := 0o400
def PARODD : BitVec 32 := 0o1000
def CBAUD : BitVec 32 := 0o10017

def ByteSize.flags : ByteSize → BitVec 32
  | .bits5 => CS5
  | .bits6 => CS6
  | .bits7 => CS7
  | .bits8 => CS8

def Termios.configured (tio : Termios) (c : SerialConfiguration) : Termios :=
  let cflag :=
    if c.parity = .parityNone then tio.cflag &&& ~~~PARENB
    else if c.parity = .parityEven then (tio.cflag ||| PARENB) &&& ~~~PARODD
    else (tio.cflag ||| PARENB) ||| PARODD
  let cflag := (cflag &&& ~~~CSIZE) ||| c.byteSize.flags
  { tio with cflag := if c.stopBits = .one then cflag &&& ~~~CSTOPB else cflag ||| CSTOPB }

/-- `Driver::setSerialConfiguration` on the descriptor `fd`. -/
def setSerialConfiguration (os : SerialOs Ω) (fd : ℤ) (c : SerialConfiguration) :
    Act Ω UnixError Unit := do
  let tio ← demand os.errno (os.tcgetattr fd)
    "Driver::setSerialConfiguration: Failed to get terminal info\n".toList
  check os.errno (os.tcsetattr fd (tio.configured c))
    "Driver::setSerialConfiguration: Failed to set terminal info\n".toList

/-- What it throws with. -/
def configurationWhats : List Text :=
  ["Driver::setSerialConfiguration: Failed to get terminal info\n".toList,
    "Driver::setSerialConfiguration: Failed to set terminal info\n".toList]

/-- The configuration that the control flags stand for. -/
def Termios.configuration (tio : Termios) : SerialConfiguration where
  byteSize :=
    if tio.cflag &&& CSIZE = CS5 then .bits5
    else if tio.cflag &&& CSIZE = CS6 then .bits6
    else if tio.cflag &&& CSIZE = CS7 then .bits7
    else .bits8
  parity :=
    if tio.cflag &&& PARENB = 0 then .parityNone
    else if tio.cflag &&& PARODD = 0 then .parityEven
    else .parityOdd
  stopBits := if tio.cflag &&& CSTOPB = 0 then .one else .two

structure Beside (m : BitVec 32) : Prop where
  size : Apart CSIZE m
  stop : Apart CSTOPB m
  parity : Apart PARENB m
  odd : Apart PARODD m

variable {tio tio' : Termios} {c : SerialConfiguration} {m : BitVec 32}

def ParityChecking.put (cflag : BitVec 32) : ParityChecking → BitVec 32
  | .parityNone => Fields.put PARENB 0 cflag
  | .parityEven => Fields.put PARODD 0 (Fields.put PARENB PARENB cflag)
  | .parityOdd => Fields.put PARODD PARODD (Fields.put PARENB PARENB cflag)

def StopBits.flags : StopBits → BitVec 32
  | .one => 0
  | .two => CSTOPB

theorem Termios.configured_cflag (tio : Termios) (c : SerialConfiguration) :
    (tio.configured c).cflag =
      put CSTOPB c.stopBits.flags (put CSIZE c.byteSize.flags (c.parity.put tio.cflag)) := by
  obtain ⟨byteSize, parity, stopBits⟩ := c
  have hparity : (if parity = .parityNone then tio.cflag &&& ~~~PARENB
      else if parity = .parityEven then (tio.cflag ||| PARENB) &&& ~~~PARODD
      else (tio.cflag ||| PARENB) ||| PARODD) = parity.put tio.cflag := by
    cases parity with
    | parityNone => exact put_none.symm
    | parityEven => rw [ParityChecking.put, put_none, put_all]; rfl
    | parityOdd => rw [ParityChecking.put, put_all, put_all]; rfl
  simp only [Termios.configured, hparity]
  cases stopBits with
  | one => exact put_none.symm
  | two => exact put_all.symm

theorem ByteSize.fits (size : ByteSize) : Fits CSIZE size.flags := by
  cases size <;> decide

theorem StopBits.fits (stop : StopBits) : Fits CSTOPB stop.flags := by
  cases stop <;> decide

theorem ParityChecking.put_and (parity : ParityChecking) (cflag : BitVec 32)
    (hparity : Apart PARENB m) (hodd : Apart PARODD m) :
    parity.put cflag &&& m = cflag &&& m := by
  have hnone {x : BitVec 32} : Fields.put PARENB 0 x &&& m = x &&& m :=
    put_and_of_apart (by decide) hparity x
  have henable {x : BitVec 32} : Fields.put PARENB PARENB x &&& m = x &&& m :=
    put_and_of_apart (by decide) hparity x
  cases parity with
  | parityNone => exact hnone
  | parityEven => exact (put_and_of_apart (by decide) hodd _).trans henable
  | parityOdd => exact (put_and_of_apart (by decide) hodd _).trans henable

theorem Termios.configured_and (h : Beside m) (tio : Termios) (c : SerialConfiguration) :
    (tio.configured c).cflag &&& m = tio.cflag &&& m := by
  rw [configured_cflag, put_and_of_apart c.stopBits.fits h.stop,
    put_and_of_apart c.byteSize.fits h.size, c.parity.put_and _ h.parity h.odd]

theorem Termios.configured_byteSize (tio : Termios) (c : SerialConfiguration) :
    (tio.configured c).cflag &&& CSIZE = c.byteSize.flags := by
  rw [configured_cflag, put_and_of_apart c.stopBits.fits (by decide),
    Fields.put_and c.byteSize.fits]

theorem Termios.configured_stopBits (tio : Termios) (c : SerialConfiguration) :
    (tio.configured c).cflag &&& CSTOPB = c.stopBits.flags := by
  rw [configured_cflag, Fields.put_and c.stopBits.fits]

theorem Termios.configured_parity (tio : Termios) (c : SerialConfiguration)
    (hsize : Apart CSIZE m) (hstop : Apart CSTOPB m) :
    (tio.configured c).cflag &&& m = c.parity.put tio.cflag &&& m := by
  rw [configured_cflag, put_and_of_apart c.stopBits.fits hstop,
    put_and_of_apart c.byteSize.fits hsize]

@[simp] theorem Termios.configuration_configured (tio : Termios) (c : SerialConfiguration) :
    (tio.configured c).configuration = c := by
  have hsize := tio.configured_byteSize c
  have hstop := tio.configured_stopBits c
  have henabled := tio.configured_parity c (m := PARENB) (by decide) (by decide)
  have hodd := tio.configured_parity c (m := PARODD) (by decide) (by decide)
  obtain ⟨byteSize, parity, stopBits⟩ := c
  simp only [configuration, hsize, hstop, henabled, hodd, SerialConfiguration.mk.injEq]
  refine ⟨?_, ?_, ?_⟩
  · cases byteSize <;> decide
  · have heven (v : BitVec 32) (hv : Fits PARODD v) :
        Fields.put PARODD v (Fields.put PARENB PARENB tio.cflag) &&& PARENB = PARENB :=
      (put_and_of_apart hv (by decide) _).trans (Fields.put_and (by decide) _)
    cases parity with
    | parityNone =>
      rw [ParityChecking.put, if_pos (Fields.put_and (by decide) _)]
    | parityEven =>
      rw [ParityChecking.put, heven 0 (by decide), if_neg (by decide),
        if_pos (Fields.put_and (by decide) _)]
    | parityOdd =>
      rw [ParityChecking.put, heven PARODD (by decide), if_neg (by decide),
        Fields.put_and (by decide), if_neg (by decide)]
  · cases stopBits <;> decide

theorem Termios.configuration_congr (hsize : tio'.cflag &&& CSIZE = tio.cflag &&& CSIZE)
    (hstop : tio'.cflag &&& CSTOPB = tio.cflag &&& CSTOPB)
    (hparity : tio'.cflag &&& PARENB = tio.cflag &&& PARENB)
    (hodd : tio'.cflag &&& PARODD = tio.cflag &&& PARODD) :
    tio'.configuration = tio.configuration := by
  simp only [configuration, hsize, hstop, hparity, hodd]

/-- A terminal that takes all the settings it is given, and keeps them.  The calls on the
`serial_struct` do not touch them, and those on the speed touch nothing else. -/
structure SerialOs.Terminal (os : SerialOs Ω) (fd : ℤ) (settings : Ω → Termios) : Prop where
  get : ∀ w, settings (os.tcgetattr fd w).2 = settings w ∧
    ∀ t ∈ (os.tcgetattr fd w).1, t = settings w
  set : ∀ t w, settings (os.tcsetattr fd t w).2 =
    if (os.tcsetattr fd t w).1 then t else settings w
  tiocgserial : ∀ w, settings (os.tiocgserial fd w).2 = settings w
  tiocsserial : ∀ ss w, settings (os.tiocsserial fd ss w) = settings w
  ispeed : ∀ t rate, ∀ t' ∈ os.cfsetispeed t rate, t'.iflag = t.iflag ∧ t'.ispeed = some rate ∧
    t'.ospeed = t.ospeed ∧ ∀ m, Apart CBAUD m → t'.cflag &&& m = t.cflag &&& m
  ospeed : ∀ t rate, ∀ t' ∈ os.cfsetospeed t rate, t'.iflag = t.iflag ∧ t'.ispeed = t.ispeed ∧
    t'.ospeed = some rate ∧ ∀ m, Apart CBAUD m → t'.cflag &&& m = t.cflag &&& m

structure Paced (rate : TcRate) (t t' : Termios) : Prop where
  iflag : t'.iflag = t.iflag
  ispeed : t'.ispeed = some rate
  ospeed : t'.ospeed = some rate
  others : ∀ m, Apart CBAUD m → t'.cflag &&& m = t.cflag &&& m

theorem Paced.configuration {rate : TcRate} {t t' : Termios} (h : Paced rate t t') :
    t'.configuration = t.configuration :=
  Termios.configuration_congr (h.others _ (by decide)) (h.others _ (by decide))
    (h.others _ (by decide)) (h.others _ (by decide))

def paceOf (brate : ℤ) : TcRate := (tcRate brate).getD .b38400

section Terminal

variable {os : SerialOs Ω} {fd : ℤ} {settings : Ω → Termios} {w w' : Ω}

theorem SerialOs.Terminal.configured (h : os.Terminal fd settings)
    {r : Except UnixError Unit} (hr : (setSerialConfiguration os fd c).run w = (r, w')) :
    settings w' = if r.isOk then (settings w).configured c else settings w := by
  obtain ⟨hsame, hget⟩ := h.get w
  rw [setSerialConfiguration, run_bind, demand, ExceptT.run_mk] at hr
  rcases hattr : os.tcgetattr fd w with ⟨_ | t, w₁⟩
  · rw [hattr] at hr hsame
    cases hr
    exact hsame
  rw [hattr] at hr hsame hget
  obtain rfl := hget t rfl
  have hset := h.set ((settings w).configured c) w₁
  dsimp only [check, ExceptT.run_mk] at hr
  rcases hb : os.tcsetattr fd ((settings w).configured c) w₁ with ⟨_ | _, w₂⟩
  · rw [hb] at hr hset
    cases hr
    exact hset.trans hsame
  · rw [hb] at hr hset
    cases hr
    exact hset

theorem SerialOs.Terminal.terminalSpeed (h : os.Terminal fd settings) {rate : TcRate} {b : Bool}
    (hr : setTerminalSpeed os fd rate w = (b, w')) :
    if b then Paced rate (settings w) (settings w') else settings w' = settings w := by
  obtain ⟨hsame, hget⟩ := h.get w
  rw [setTerminalSpeed] at hr
  rcases hattr : os.tcgetattr fd w with ⟨_ | t, w₁⟩
  · rw [hattr] at hr hsame
    cases hr
    exact hsame
  rw [hattr] at hr hsame hget
  obtain rfl := hget t rfl
  dsimp only at hr
  rcases hin : os.cfsetispeed (settings w) rate with _ | t₁
  · rw [hin] at hr
    cases hr
    exact hsame
  rw [hin] at hr
  dsimp only at hr
  rcases hout : os.cfsetospeed t₁ rate with _ | t₂
  · rw [hout] at hr
    cases hr
    exact hsame
  rw [hout] at hr
  dsimp only at hr
  have hset := h.set t₂ w₁
  rw [hr] at hset
  obtain ⟨hiflag₁, hispeed₁, -, hothers₁⟩ := h.ispeed _ _ _ hin
  obtain ⟨hiflag₂, hispeed₂, hospeed₂, hothers₂⟩ := h.ospeed _ _ _ hout
  cases b with
  | false => exact hset.trans hsame
  | true =>
    have ht₂ : settings w' = t₂ := hset
    rw [if_pos rfl, ht₂]
    exact ⟨hiflag₂.trans hiflag₁, hispeed₂.trans hispeed₁, hospeed₂,
      fun m hm => (hothers₂ m hm).trans (hothers₁ m hm)⟩

/-- A rate that counts as set has changed the speed, and nothing else; one that does not has
changed nothing. -/
theorem SerialOs.Terminal.baudrate (h : os.Terminal fd settings) {brate : ℤ} {b : Bool}
    (hr : setSerialBaudrate os fd brate w = .ok (b, w')) :
    if b then Paced (paceOf brate) (settings w) (settings w') else settings w' = settings w := by
  have hstart : ∀ ss, settings (os.tiocsserial fd ss (os.tiocgserial fd w).2) = settings w :=
    fun ss => (h.tiocsserial ss _).trans (h.tiocgserial w)
  rw [setSerialBaudrate] at hr
  rcases hrate : tcRate brate with _ | rate
  · rw [hrate] at hr
    dsimp only at hr
    split at hr
    · cases hr
    · cases hr
      exact h.tiocgserial w
    · have hspeed := h.terminalSpeed (Except.ok.inj hr)
      rw [hstart] at hspeed
      rw [paceOf, hrate]
      exact hspeed
  · rw [hrate] at hr
    have hspeed := h.terminalSpeed (Except.ok.inj hr)
    rw [hstart] at hspeed
    rw [paceOf, hrate]
    exact hspeed

end Terminal

inductive SerialCall
  | setSerialConfiguration (c : SerialConfiguration)
  | setSerialBaudrate (brate : ℤ)
  deriving DecidableEq

/-- A call that comes back, with whether it succeeds. -/
def SerialCall.Step (os : SerialOs Ω) (fd : ℤ) (w : Ω) (call : SerialCall × Bool) (w' : Ω) :
    Prop :=
  match call.1 with
  | .setSerialConfiguration c =>
    ∃ r, (IodriversBase.setSerialConfiguration os fd c).run w = (r, w') ∧ r.isOk = call.2
  | .setSerialBaudrate brate => IodriversBase.setSerialBaudrate os fd brate w = .ok (call.2, w')

/-- What a call that succeeds sets. -/
def SerialCall.configuration : SerialCall × Bool → Option SerialConfiguration
  | (.setSerialConfiguration c, true) => some c
  | _ => none

def SerialCall.speed : SerialCall × Bool → Option TcRate
  | (.setSerialBaudrate brate, true) => some (paceOf brate)
  | _ => none

/-- The configuration after the calls, of which those that fail do not count. -/
def lastConfiguration (c : SerialConfiguration) (calls : List (SerialCall × Bool)) :
    SerialConfiguration :=
  calls.foldl (fun c call => (SerialCall.configuration call).getD c) c

def lastSpeed (rate : Option TcRate) (calls : List (SerialCall × Bool)) : Option TcRate :=
  calls.foldl (fun rate call => (SerialCall.speed call).or rate) rate

@[simp] theorem lastConfiguration_append (c : SerialConfiguration)
    (calls : List (SerialCall × Bool)) (call : SerialCall × Bool) :
    lastConfiguration c (calls ++ [call]) =
      (SerialCall.configuration call).getD (lastConfiguration c calls) := by
  simp [lastConfiguration]

@[simp] theorem lastSpeed_append (rate : Option TcRate) (calls : List (SerialCall × Bool))
    (call : SerialCall × Bool) :
    lastSpeed rate (calls ++ [call]) = (SerialCall.speed call).or (lastSpeed rate calls) := by
  simp [lastSpeed]

/-- The settings are those at the start, but for the last configuration and the last speed. -/
structure SettledBy (start : Termios) (calls : List (SerialCall × Bool)) (t : Termios) : Prop where
  iflag : t.iflag = start.iflag
  configuration : t.configuration = lastConfiguration start.configuration calls
  ispeed : t.ispeed = lastSpeed start.ispeed calls
  ospeed : t.ospeed = lastSpeed start.ospeed calls
  others : ∀ m, Beside m → Apart CBAUD m → t.cflag &&& m = start.cflag &&& m

section Runs

variable {os : SerialOs Ω} {fd : ℤ} {settings : Ω → Termios} {start t : Termios}
  {calls : List (SerialCall × Bool)} {call : SerialCall × Bool} {w w' : Ω}

theorem SettledBy.idle (h : SettledBy start calls t)
    (hconfiguration : SerialCall.configuration call = none)
    (hspeed : SerialCall.speed call = none) : SettledBy start (calls ++ [call]) t where
  iflag := h.iflag
  configuration := by rw [lastConfiguration_append, hconfiguration]; exact h.configuration
  ispeed := by rw [lastSpeed_append, hspeed]; exact h.ispeed
  ospeed := by rw [lastSpeed_append, hspeed]; exact h.ospeed
  others := h.others

theorem SettledBy.configured (h : SettledBy start calls t) (c : SerialConfiguration) :
    SettledBy start (calls ++ [(.setSerialConfiguration c, true)]) (t.configured c) where
  iflag := h.iflag
  configuration := by
    rw [Termios.configuration_configured, lastConfiguration_append]
    rfl
  ispeed := by rw [lastSpeed_append]; exact h.ispeed
  ospeed := by rw [lastSpeed_append]; exact h.ospeed
  others m hm hspeed := (Termios.configured_and hm t c).trans (h.others m hm hspeed)

theorem SettledBy.paced (h : SettledBy start calls t) {brate : ℤ} {t' : Termios}
    (hpaced : Paced (paceOf brate) t t') :
    SettledBy start (calls ++ [(.setSerialBaudrate brate, true)]) t' where
  iflag := hpaced.iflag.trans h.iflag
  configuration := by
    rw [lastConfiguration_append]
    exact hpaced.configuration.trans h.configuration
  ispeed := by rw [lastSpeed_append]; exact hpaced.ispeed
  ospeed := by rw [lastSpeed_append]; exact hpaced.ospeed
  others m hm hspeed := (hpaced.others m hspeed).trans (h.others m hm hspeed)

theorem SettledBy.step (hT : os.Terminal fd settings) (h : SettledBy start calls (settings w))
    (hstep : SerialCall.Step os fd w call w') :
    SettledBy start (calls ++ [call]) (settings w') := by
  obtain ⟨call, b⟩ := call
  cases call with
  | setSerialConfiguration c =>
    obtain ⟨r, hr, hb⟩ := hstep
    have hset := hT.configured hr
    dsimp only at hb
    rw [hb] at hset
    cases b with
    | false => exact hset ▸ h.idle rfl rfl
    | true => exact hset ▸ h.configured c
  | setSerialBaudrate brate =>
    have hset := hT.baudrate hstep
    dsimp only at hset
    cases b with
    | false => exact hset ▸ h.idle rfl rfl
    | true => exact h.paced hset

/-- **The settings of a port**: after any calls that configure it or set its speed, in any order,
it has the last configuration and the last speed that could be set, and its other flags are those
it had. -/
theorem serial_port_settled (hT : os.Terminal fd settings)
    (h : Lts.Run (SerialCall.Step os fd) w calls w') :
    SettledBy (settings w) calls (settings w') := by
  have hstart : SettledBy (settings w) [] (settings w) := ⟨rfl, rfl, rfl, rfl, fun _ _ _ => rfl⟩
  exact h.history (I := fun calls w' => SettledBy (settings w) calls (settings w'))
    (fun _ _ _ _ hs hstep => hs.step hT hstep) [] hstart

end Runs

/-- The settings of the only terminal of a system, on which every call succeeds. -/
def SerialOs.ofSettings : SerialOs Termios where
  read _ _ w := (.error EAGAIN, w)
  recv _ _ _ w := (.error EAGAIN, w)
  write _ _ w := (.error EAGAIN, w)
  send _ _ _ w := (.error EAGAIN, w)
  select _ _ _ w := (.ok ([], []), w)
  accept _ w := (.error EAGAIN, w)
  close _ w := w
  getFlags _ w := (0, w)
  setFlags _ _ w := (.ok (), w)
  now w := (0, w)
  errno _ := 0
  openDevice _ w := (some 3, w)
  tiocgserial _ w := (⟨0, 0, 115200⟩, w)
  tiocsserial _ _ w := w
  tcgetattr _ w := (some w, w)
  tcsetattr _ t _ := (true, t)
  cfsetispeed t rate := some { t with ispeed := some rate }
  cfsetospeed t rate := some { t with ospeed := some rate }

theorem SerialOs.ofSettings_terminal (fd : ℤ) : SerialOs.ofSettings.Terminal fd id where
  get _ := ⟨rfl, fun _ h => (Option.some.inj h).symm⟩
  set _ _ := rfl
  tiocgserial _ := rfl
  tiocsserial _ _ := rfl
  ispeed _ _ _ h := by cases h; exact ⟨rfl, rfl, rfl, fun _ _ => rfl⟩
  ospeed _ _ _ h := by cases h; exact ⟨rfl, rfl, rfl, fun _ _ => rfl⟩

/-- A port that is set to seven bits, odd parity and 19200 baud, and then to even parity. -/
theorem serial_port_settled_sample : ∃ w',
    Lts.Run (SerialCall.Step .ofSettings 3) ⟨IGNBRK, CS8 ||| CREAD, none, none⟩
      [(.setSerialConfiguration ⟨.bits7, .parityOdd, .two⟩, true), (.setSerialBaudrate 19200, true),
        (.setSerialConfiguration ⟨.bits7, .parityEven, .one⟩, true)] w' ∧
    SettledBy ⟨IGNBRK, CS8 ||| CREAD, none, none⟩
      [(.setSerialConfiguration ⟨.bits7, .parityOdd, .two⟩, true), (.setSerialBaudrate 19200, true),
        (.setSerialConfiguration ⟨.bits7, .parityEven, .one⟩, true)] w' ∧
      w'.configuration = ⟨.bits7, .parityEven, .one⟩ ∧ w'.ospeed = some .b19200 := by
  have hrun : Lts.Run (SerialCall.Step .ofSettings 3) ⟨IGNBRK, CS8 ||| CREAD, none, none⟩
      [(.setSerialConfiguration ⟨.bits7, .parityOdd, .two⟩, true), (.setSerialBaudrate 19200, true),
        (.setSerialConfiguration ⟨.bits7, .parityEven, .one⟩, true)] _ :=
    .cons ⟨_, rfl, rfl⟩ (.cons rfl (.cons ⟨_, rfl, rfl⟩ (.nil _)))
  have hsettled := serial_port_settled (SerialOs.ofSettings_terminal 3) hrun
  exact ⟨_, hrun, hsettled, hsettled.configuration, hsettled.ospeed⟩

end IodriversBase
