import IodriversBase.DescriptorRuns

namespace IodriversBase

open Programs Fields

/-- A serial port: its settings as a terminal, and its clock. -/
structure SerialPort where
  settings : Termios
  serial : SerialStruct
  deriving DecidableEq

def SerialPort.configured (p : SerialPort) (c : SerialConfiguration) : SerialPort :=
  { p with settings := p.settings.configured c }

/-- A port takes the divisor that it is given, and keeps it. -/
structure SerialOs.Clock {Ω : Type} (os : SerialOs Ω) (fd : ℤ) (serial : Ω → SerialStruct) :
    Prop where
  get : ∀ w, (os.tiocgserial fd w).1 = serial w ∧ serial (os.tiocgserial fd w).2 = serial w
  set : ∀ ss w, serial (os.tiocsserial fd ss w) = ss
  tcgetattr : ∀ w, serial (os.tcgetattr fd w).2 = serial w
  tcsetattr : ∀ t w, serial (os.tcsetattr fd t w).2 = serial w

/-- The clock runs at this rate: by a constant of the terminal, or by the divisor that comes
nearest to it. -/
structure Timed (brate : ℤ) (ss : SerialStruct) : Prop where
  standard : tcRate brate ≠ none → ss.flags &&& ASYNC_SPD_MASK = 0
  custom : tcRate brate = none → ss.flags &&& ASYNC_SPD_MASK = ASYNC_SPD_CUST
  divisor : tcRate brate = none → ss.customDivisor ≠ 0 ∧
    ss.customDivisor = (ss.baudBase + brate.tdiv 2).tdiv brate
  nearest : tcRate brate = none → 0 ≤ ss.baudBase → 0 < brate →
    2 * |ss.baudBase - ss.customDivisor * brate| ≤ brate

theorem nearest_divisor {baudBase n : ℤ} (hbase : 0 ≤ baudBase) (hrate : 0 < brate)
    (hn : n = (baudBase + brate.tdiv 2).tdiv brate) : 2 * |baudBase - n * brate| ≤ brate := by
  rw [Int.tdiv_eq_ediv_of_nonneg hrate.le] at hn
  obtain ⟨hle, hlt⟩ := (Signed.tdiv_eq_iff (by omega) hrate).mp hn.symm
  rw [add_mul, one_mul] at hlt
  have habs : |baudBase - n * brate| ≤ brate / 2 := abs_le.mpr ⟨by omega, by omega⟩
  omega

theorem customRate_divisor {baudBase divisor : ℤ}
    (h : customRate baudBase brate = .ok (some divisor)) :
    divisor ≠ 0 ∧ divisor = (baudBase + brate.tdiv 2).tdiv brate := by
  obtain ⟨hdivisor, hne, -⟩ := customRate_eq_some.mp h
  obtain ⟨half, hhalf, hrest⟩ := Signed.bind_eq_ok.mp hdivisor
  obtain ⟨sum, hsum, hdiv⟩ := Signed.bind_eq_ok.mp hrest
  obtain rfl := Signed.eq_tdiv_of_div hhalf
  obtain rfl := (Signed.add_eq_ok.mp hsum).2
  exact ⟨hne, Signed.eq_tdiv_of_div hdiv⟩

section Clock

variable {Ω : Type} {os : SerialOs Ω} {fd : ℤ} {serial : Ω → SerialStruct} {w w' : Ω}

theorem SerialOs.Clock.terminalSpeed (h : os.Clock fd serial) {rate : TcRate} {b : Bool}
    (hr : setTerminalSpeed os fd rate w = (b, w')) : serial w' = serial w := by
  have hget := h.tcgetattr w
  rw [setTerminalSpeed] at hr
  rcases hattr : os.tcgetattr fd w with ⟨_ | t, w₁⟩
  · rw [hattr] at hr hget
    cases hr
    exact hget
  rw [hattr] at hr hget
  dsimp only at hr
  rcases hin : os.cfsetispeed t rate with _ | t₁
  · rw [hin] at hr
    cases hr
    exact hget
  rw [hin] at hr
  dsimp only at hr
  rcases hout : os.cfsetospeed t₁ rate with _ | t₂
  · rw [hout] at hr
    cases hr
    exact hget
  · rw [hout] at hr
    dsimp only at hr
    have hset := h.tcsetattr t₂ w₁
    rw [hr] at hset
    exact hset.trans hget

theorem SerialOs.Clock.baudrate (h : os.Clock fd serial) {brate : ℤ}
    (hr : setSerialBaudrate os fd brate w = .ok (true, w')) : Timed brate (serial w') := by
  rw [setSerialBaudrate] at hr
  rcases hrate : tcRate brate with _ | rate
  · rw [hrate] at hr
    dsimp only at hr
    split at hr
    · cases hr
    · cases hr
    · next divisor hcustom =>
      have hserial := h.terminalSpeed (Except.ok.inj hr)
      rw [h.set] at hserial
      obtain ⟨hne, hdivisor⟩ := customRate_divisor hcustom
      rw [hserial]
      exact ⟨fun h0 => absurd hrate h0, fun _ => put_and (by decide) _, fun _ => ⟨hne, hdivisor⟩,
        fun _ hbase hpos => nearest_divisor hbase hpos hdivisor⟩
  · rw [hrate] at hr
    have hserial := h.terminalSpeed (Except.ok.inj hr)
    rw [h.set] at hserial
    rw [hserial]
    have hcustom : tcRate brate ≠ none := by simp [hrate]
    exact ⟨fun _ => put_none ▸ put_and (by decide) _, fun h0 => absurd h0 hcustom,
      fun h0 => absurd h0 hcustom, fun h0 => absurd h0 hcustom⟩

theorem SerialOs.Clock.configured (h : os.Clock fd serial) {c : SerialConfiguration}
    {r : Except UnixError Unit} (hr : (setSerialConfiguration os fd c).run w = (r, w')) :
    serial w' = serial w := by
  have hget := h.tcgetattr w
  rw [setSerialConfiguration, run_bind, demand, ExceptT.run_mk] at hr
  rcases hattr : os.tcgetattr fd w with ⟨_ | t, w₁⟩
  · rw [hattr] at hr hget
    cases hr
    exact hget
  rw [hattr] at hr hget
  dsimp only [check, ExceptT.run_mk] at hr
  have hset := h.tcsetattr (t.configured c) w₁
  rcases hb : os.tcsetattr fd (t.configured c) w₁ with ⟨_ | _, w₂⟩ <;> rw [hb] at hr hset <;>
    cases hr <;> exact hset.trans hget

end Clock

variable {Ω : Type} {os : OpenOs Ω} {port : ℤ → Ω → SerialPort} {fd : ℤ} {brate : ℤ}
  {c : SerialConfiguration} {s t : Owner (Ω × List FdEvent)} {start : SerialPort}

/-- Every descriptor is that of a serial port, which stays as it is when other descriptors are
closed, and when flags are read or set. -/
structure OpenOs.Terminals (os : OpenOs Ω) (port : ℤ → Ω → SerialPort) : Prop where
  terminal : ∀ fd, os.toSerialOs.Terminal fd fun w => (port fd w).settings
  clock : ∀ fd, os.toSerialOs.Clock fd fun w => (port fd w).serial
  close : ∀ fd fd' w, fd' ≠ fd → port fd (os.close fd' w) = port fd w
  getFlags : ∀ fd fd' w, port fd (os.getFlags fd' w).2 = port fd w
  setFlags : ∀ fd fd' flags w, port fd (os.setFlags fd' flags w).2 = port fd w

theorem OpenOs.Terminals.audited (h : os.Terminals port) :
    os.audited.Terminals fun fd w => port fd w.1 where
  terminal fd :=
    { get := fun w => (h.terminal fd).get w.1
      set := fun t w => (h.terminal fd).set t w.1
      tiocgserial := fun w => (h.terminal fd).tiocgserial w.1
      tiocsserial := fun ss w => (h.terminal fd).tiocsserial ss w.1
      ispeed := (h.terminal fd).ispeed
      ospeed := (h.terminal fd).ospeed }
  clock fd :=
    { get := fun w => (h.clock fd).get w.1
      set := fun ss w => (h.clock fd).set ss w.1
      tcgetattr := fun w => (h.clock fd).tcgetattr w.1
      tcsetattr := fun t w => (h.clock fd).tcsetattr t w.1 }
  close fd fd' w hfd := h.close fd fd' w.1 hfd
  getFlags fd fd' w := h.getFlags fd fd' w.1
  setFlags fd fd' flags w := h.setFlags fd fd' flags w.1

def openedWith : Termios := ⟨IGNBRK, CS8 ||| CREAD, none, none⟩

theorem openTerminal_settings {sos : SerialOs Ω} {device : String} {w w' : Ω}
    (h : ∀ fd, sos.Terminal fd fun w => (port fd w).settings)
    (hopen : openTerminal sos device w = (.ok fd, w')) :
    (sos.openDevice device w).1 = some fd ∧ (port fd w').settings = openedWith := by
  rw [openTerminal] at hopen
  rcases hdevice : sos.openDevice device w with ⟨_ | fd', w₁⟩
  · rw [hdevice] at hopen
    cases hopen
  rw [hdevice] at hopen
  dsimp only at hopen
  have hset := (h fd').set openedWith w₁
  rw [openedWith] at hset
  rcases hattr : sos.tcsetattr fd' ⟨IGNBRK, CS8 ||| CREAD, none, none⟩ w₁ with ⟨_ | _, w₂⟩
  · rw [hattr] at hopen
    cases hopen
  · rw [hattr] at hopen hset
    cases hopen
    exact ⟨rfl, hset⟩

structure Opened (sos : SerialOs Ω) (device : String) (brate : ℤ) (w : Ω) (fd : ℤ)
    (start : SerialPort) : Prop where
  device : (sos.openDevice device w).1 = some fd
  paced : Paced (paceOf brate) openedWith start.settings
  timed : Timed brate start.serial

theorem openSerialIO_settings {sos : SerialOs Ω} {device : String} {w w' : Ω}
    (h : ∀ fd, sos.Terminal fd fun w => (port fd w).settings)
    (hclock : ∀ fd, sos.Clock fd fun w => (port fd w).serial)
    (hopen : openSerialIO sos device brate w = .ok (.ok fd, w')) :
    Opened sos device brate w fd (port fd w') := by
  unfold openSerialIO at hopen
  rcases hterminal : openTerminal sos device w with ⟨x | fd', w₁⟩
  · rw [hterminal] at hopen
    cases hopen
  rw [hterminal] at hopen
  dsimp only at hopen
  rcases hrate : setSerialBaudrate sos fd' brate w₁ with fault | ⟨_ | _, w₂⟩
  · rw [hrate] at hopen
    cases hopen
  · rw [hrate] at hopen
    cases hopen
  · rw [hrate] at hopen
    cases hopen
    obtain ⟨hdevice, hsettings⟩ := openTerminal_settings h hterminal
    have hpaced := (h fd).baudrate hrate
    rw [if_pos rfl, hsettings] at hpaced
    exact ⟨hdevice, hpaced, (hclock fd).baudrate hrate⟩

section Members

variable {os : OpenOs Ω} {s t : Owner Ω}

/-- The port `fd` is in this state, and the main stream is not going to close it. -/
structure Holding (port : ℤ → Ω → SerialPort) (fd : ℤ) (start : SerialPort) (s : Owner Ω) :
    Prop where
  port : port fd s.os = start
  apart : (fd, true) ∉ s.fds

theorem setNonBlockingFlag_port (h : os.Terminals port) (fd fd' : ℤ) (start : SerialPort) :
    Ensures (fun w => port fd w = start) (throwing (setNonBlockingFlag os.toOs fd'))
      (fun _ w => port fd w = start) fun _ w => port fd w = start := by
  intro w hw
  have hafter : port fd (setNonBlockingFlag os.toOs fd' w).2 = start :=
    setNonBlockingFlag_keeps (P := fun w => port fd w = start)
      (fun w hw => (h.getFlags fd fd' w).trans hw)
      (fun flags w hw => (h.setFlags fd fd' flags w).trans hw) hw
  rw [throwing, ExceptT.run_mk]
  rcases (setNonBlockingFlag os.toOs fd' w).1 with x | b
  · exact hafter
  · exact hafter

theorem Holding.setMainStream (h : os.Terminals port) (hs : Holding port fd start s)
    (main : MainStream Ω) (peer : Peer) :
    port fd (s.setMainStream os.toDatagramOs main peer).os = start := by
  set s' := s.withHeap (s.world.world.create (s.number + 1) peer)
  have hfds : s'.fds = s.fds := s.fds_create peer
  show port fd (s'.delete os.toDatagramOs).os = start
  rw [Owner.delete_os]
  apply closeAll_rule (P := fun w => port fd w = start)
  · intro fd' w hfd' hw
    rw [hfds] at hfd'
    refine (h.close fd fd' w ?_).trans hw
    rintro rfl
    exact hs.apart hfd'
  · exact hs.port

theorem openSerialOn_settles (h : os.Terminals port) (fd : ℤ) (c : SerialConfiguration)
    (start : SerialPort) :
    Ensures (Holding port fd start) (openSerialOn os fd c)
      (fun _ t => t.main = some (.backed (.fdStream fd true false)) ∧
        port fd t.os = start.configured c) fun _ _ => True := by
  have hflag : Ensures (Holding port fd start) (onOs (throwing (setNonBlockingFlag os.toOs fd)))
      (fun _ => Holding port fd start) fun _ _ => True :=
    Ensures.within fun s hs => (setNonBlockingFlag_port h fd fd start s.os hs.port).mono
      (fun _ _ hw => ⟨hw, hs.apart⟩) fun _ _ _ => trivial
  refine Ensures.bind (Q := fun _ s => s.main = some (.backed (.fdStream fd true false)) ∧
    port fd s.os = start) (hflag.bind fun _ => Ensures.act fun s hs =>
      ⟨rfl, hs.setMainStream h _ _⟩) fun _ => ?_
  refine Ensures.bind (Q := fun fd' s => fd' = fd ∧
    s.main = some (.backed (.fdStream fd true false)) ∧ port fd s.os = start)
    (Ensures.act fun s hs => ⟨?_, hs⟩) fun fd' => ?_
  · rw [Owner.getFileDescriptor, hs.1]
    rfl
  · refine Ensures.within fun s h' => ?_
    obtain ⟨rfl, hmain, hs⟩ := h'
    rcases hr : (setSerialConfiguration os.toSerialOs fd' c).run s.os with ⟨x | _, w⟩
    · trivial
    · have hsettings : (port fd' w).settings = (port fd' s.os).settings.configured c :=
        (h.terminal fd').configured hr
      have hserial : (port fd' w).serial = (port fd' s.os).serial := (h.clock fd').configured hr
      rw [hs] at hsettings hserial
      refine ⟨hmain, ?_⟩
      calc port fd' w = ⟨(port fd' w).settings, (port fd' w).serial⟩ := rfl
        _ = start.configured c := by rw [hsettings, hserial]; rfl

theorem openSerial_settles {device : Text} (h : os.Terminals port)
    (hapart : ∀ fd w, openSerialIO os.toSerialOs (.ofList device) brate s.os = .ok (.ok fd, w) →
      (fd, true) ∉ s.fds)
    (hopen : openSerial os device brate c s = .ok (.ok (), t)) :
    ∃ fd start, t.main = some (.backed (.fdStream fd true false)) ∧
      Opened os.toSerialOs (.ofList device) brate s.os fd start ∧
      port fd t.os = start.configured c := by
  rw [openSerial] at hopen
  rcases hio : openSerialIO os.toSerialOs (.ofList device) brate s.os with fault | ⟨x | fd, w⟩
  · rw [hio] at hopen
    cases hopen
  · rw [hio] at hopen
    cases hopen
  · have hholding : Holding port fd (port fd w) (s.withOs w) := ⟨rfl, hapart fd w hio⟩
    have hends := openSerialOn_settles h fd c (port fd w) (s.withOs w) hholding
    rw [hio] at hopen
    rw [Except.ok.inj hopen] at hends
    exact ⟨fd, port fd w, hends.1, openSerialIO_settings h.terminal h.clock hio, hends.2⟩

end Members

/-- The stream that is asked for. -/
def Deed.asks : Deed Ω → Option Opening
  | .opening o => some o
  | .openURI uriString => askedFor uriString
  | _ => none

variable {E : Extract Ω} {fuel : Time → Socket (Ω × List FdEvent) → ℕ} {p p' : Process Ω}
  {calls : List (Deed Ω × Option UnixError)} {ls : List (ℕ × IOListener Ω)} {driver : Driver}
  {o : Ω} {deed : Deed Ω}

/-- A port that is opened with this rate and this configuration. -/
structure SetUp (brate : ℤ) (c : SerialConfiguration) (p : SerialPort) : Prop where
  iflag : p.settings.iflag = IGNBRK
  configuration : p.settings.configuration = c
  ispeed : p.settings.ispeed = some (paceOf brate)
  ospeed : p.settings.ospeed = some (paceOf brate)
  timed : Timed brate p.serial
  others : ∀ m, Beside m → Apart CBAUD m → p.settings.cflag &&& m = openedWith.cflag &&& m

theorem Opened.setUp {sos : SerialOs Ω} {device : String} {w : Ω}
    (h : Opened sos device brate w fd start) (c : SerialConfiguration) :
    SetUp brate c (start.configured c) where
  iflag := h.paced.iflag
  configuration := start.settings.configuration_configured c
  ispeed := h.paced.ispeed
  ospeed := h.paced.ospeed
  timed := h.timed
  others m hm hspeed :=
    (Termios.configured_and hm start.settings c).trans (h.paced.others m hspeed)

/-- The driver's stream is the port `device`, with this rate and this configuration. -/
def HasPort (os : OpenOs Ω) (port : ℤ → Ω → SerialPort) (device : Text) (brate : ℤ)
    (c : SerialConfiguration) (s t : Owner (Ω × List FdEvent)) : Prop :=
  ∃ fd, (os.openDevice (.ofList device) s.os.1).1 = some fd ∧
    t.main = some (.backed (.fdStream fd true false)) ∧ SetUp brate c (port fd t.os.1)

theorem Process.Accounts.opensSerial {strays : List ℤ} {rest : Set ℤ}
    {s t : Owner (Ω × List FdEvent)} {device : Text}
    (haccounts : Process.Accounts ls strays ⟨s, rest⟩) (hset : os.Terminals port)
    (h : (Opening.openSerial device brate c).perform os.audited fuel s = .ok (.ok (), t)) :
    HasPort os port device brate c s t := by
  have hapart : ∀ fd w, openSerialIO os.audited.toSerialOs (.ofList device) brate s.os =
      .ok (.ok fd, w) → (fd, true) ∉ s.fds := by
    intro fd w hio hfd
    obtain ⟨hnot, -⟩ : fd ∉ _ ∧ Has (insert fd _) w :=
      openSerialIO_holds haccounts.has.owns.holds hio
    exact hnot (.inl hfd)
  obtain ⟨fd, start, hmain, hopened, hport⟩ := openSerial_settles hset.audited hapart h
  refine ⟨fd, of_handsOut hopened.device, hmain, ?_⟩
  have hstart : port fd t.os.1 = start.configured c := hport
  rw [hstart]
  exact hopened.setUp c

/-- **A serial URI is what the port is set to**: whenever, in any run of a program, a call for a
serial port returns, the driver's stream is this port, and its settings are those of the URI. -/
theorem serial_uri_settles (hset : os.Terminals port)
    (h : Lts.Run (Process.Step os E fuel) (.start ls driver o) calls p)
    (hstep : p.Step os E fuel (deed, none) p') {device : Text}
    (hasks : deed.asks = some (.openSerial device brate c)) :
    HasPort os port device brate c p.owner p'.owner := by
  obtain ⟨strays, -, haccounts⟩ := Process.accounts_run h
  generalize hcall : (deed, (none : Option UnixError)) = call at hstep
  cases hstep with
  | op => cases hcall; cases hasks
  | @opening s t rest o r hlent hperform =>
    obtain ⟨rfl, hnone⟩ := Prod.mk.inj hcall
    obtain rfl := Option.some.inj hasks
    cases r with
    | error x => cases hnone
    | ok => exact haccounts.opensSerial hset hperform
  | openUDP => cases (Prod.mk.inj hcall).1; cases hasks
  | @openURI s t rest uriString r hlent hopen =>
    obtain ⟨rfl, hnone⟩ := Prod.mk.inj hcall
    have hasked : askedFor uriString = some (.openSerial device brate c) := hasks
    obtain ⟨-, -, htest⟩ | ⟨o, r', ho, hperform, rfl⟩ := openURI_performs hopen
    · cases htest _ hasked
    · rw [hasked] at ho
      obtain rfl := Option.some.inj ho
      cases r' with
      | error x => cases hnone
      | ok => exact haccounts.opensSerial hset hperform
  | openElsewhere => cases (Prod.mk.inj hcall).1; cases hasks
  | closeElsewhere => cases (Prod.mk.inj hcall).1; cases hasks

/-- A system with a single port, on which every call succeeds. -/
def OpenOs.ofPort : OpenOs SerialPort where
  read _ _ w := (.error EAGAIN, w)
  recv _ _ _ w := (.error EAGAIN, w)
  write _ _ w := (.error EAGAIN, w)
  send _ _ _ w := (.error EAGAIN, w)
  select _ _ _ w := (.ok ([], []), w)
  accept _ w := (.error EAGAIN, w)
  close _ w := w
  getFlags _ w := (0, w)
  setFlags _ _ w := (.ok (), w)
  now w := (0, w)
  errno _ := 0
  openDevice _ w := (some 3, w)
  tiocgserial _ w := (w.serial, w)
  tiocsserial _ ss w := { w with serial := ss }
  tcgetattr _ w := (some w.settings, w)
  tcsetattr _ t w := (true, { w with settings := t })
  cfsetispeed t rate := some { t with ispeed := some rate }
  cfsetospeed t rate := some { t with ospeed := some rate }
  recvfrom _ _ _ w := (.error EAGAIN, w)
  sendto _ _ _ _ w := (.error EAGAIN, w)
  getaddrinfo _ _ _ w := (none, w)
  socket _ _ _ w := (none, w)
  bind _ _ w := (true, w)
  connect _ _ w := (true, w)
  listen _ _ w := (true, w)
  setNodelay _ w := (true, w)
  unlink _ w := w
  openPath _ w := (none, w)

theorem OpenOs.ofPort_terminals : OpenOs.ofPort.Terminals fun _ w => w where
  terminal _ :=
    { get := fun _ => ⟨rfl, fun _ h => (Option.some.inj h).symm⟩
      set := fun _ _ => rfl
      tiocgserial := fun _ => rfl
      tiocsserial := fun _ _ => rfl
      ispeed := fun _ _ _ h => by cases h; exact ⟨rfl, rfl, rfl, fun _ _ => rfl⟩
      ospeed := fun _ _ _ h => by cases h; exact ⟨rfl, rfl, rfl, fun _ _ => rfl⟩ }
  clock _ := ⟨fun _ => ⟨rfl, rfl⟩, fun _ _ => rfl, fun _ => rfl, fun _ _ => rfl⟩
  close _ _ _ _ := rfl
  getFlags _ _ _ := rfl
  setFlags _ _ _ _ := rfl

/-- A port at 31250 baud, by a divisor of 48, with the configuration that goes without saying. -/
theorem serial_uri_settles_sample : ∃ p' : Process SerialPort,
    Process.Step OpenOs.ofPort (.pure driverTestExtractPacket) (fun _ _ => 0)
      (.start [] (.new 100 false) ⟨⟨0, 0, none, none⟩, ⟨0, 0, 1500000⟩⟩)
      (.openURI "serial://a:31250".toList, none) p' ∧
    p'.owner.main = some (.backed (.fdStream 3 true false)) ∧
    SetUp 31250 ⟨.bits8, .parityNone, .one⟩ p'.owner.os.1 ∧
    p'.owner.os.1.serial.customDivisor = 48 := by
  have hasked : askedFor "serial://a:31250".toList =
      some (.openSerial "a".toList 31250 ⟨.bits8, .parityNone, .one⟩) := by decide
  have hlent : ∀ o ∈ askedFor "serial://a:31250".toList,
      ∀ fd ∈ o.lent, fd ∈ (∅ : Set ℤ) := by
    rw [hasked]
    simp [Opening.lent]
  obtain ⟨t, ht, hdivisor⟩ : ∃ t, openURI (opener OpenOs.ofPort.audited fun _ _ => 0)
      "serial://a:31250".toList (.ok (Process.start [] (.new 100 false)
        (⟨⟨0, 0, none, none⟩, ⟨0, 0, 1500000⟩⟩ : SerialPort)).owner) = (.ok (), .ok t) ∧
          t.os.1.serial.customDivisor = 48 := ⟨_, rfl, rfl⟩
  have hstep : Process.Step OpenOs.ofPort (.pure driverTestExtractPacket) (fun _ _ => 0)
      (.start [] (.new 100 false) ⟨⟨0, 0, none, none⟩, ⟨0, 0, 1500000⟩⟩)
      (.openURI "serial://a:31250".toList, none) ⟨t, ∅⟩ := .openURI hlent ht
  have hasks : (Deed.openURI "serial://a:31250".toList : Deed SerialPort).asks =
      some (.openSerial "a".toList 31250 ⟨.bits8, .parityNone, .one⟩) := hasked
  obtain ⟨fd, hdevice, hmain, hsettled⟩ :=
    serial_uri_settles OpenOs.ofPort_terminals (.nil _) hstep hasks
  obtain rfl := Option.some.inj hdevice
  exact ⟨⟨t, ∅⟩, hstep, hmain, hsettled, hdivisor⟩

end IodriversBase
