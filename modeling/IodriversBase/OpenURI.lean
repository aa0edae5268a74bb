import IodriversBase.LegacyUDP
import IodriversBase.UDPOptions

namespace IodriversBase

inductive ByteSize
  | bits5 | bits6 | bits7 | bits8
  deriving DecidableEq

inductive ParityChecking
  | parityNone | parityEven | parityOdd
  deriving DecidableEq

inductive StopBits
  | one | two
  deriving DecidableEq

def ByteSize.toInt : ByteSize → ℤ
  | .bits5 => 5
  | .bits6 => 6
  | .bits7 => 7
  | .bits8 => 8

def ByteSize.ofInt (n : ℤ) : ByteSize :=
  if n = 5 then .bits5 else if n = 6 then .bits6 else if n = 7 then .bits7 else .bits8

structure SerialConfiguration where
  byteSize : ByteSize
  parity : ParityChecking
  stopBits : StopBits
  deriving DecidableEq

namespace URI

def byteSize (uri : URI) : Text := uri.getOption "byte_size".toList []
def parity (uri : URI) : Text := uri.getOption "parity".toList []
def stopBits (uri : URI) : Text := uri.getOption "stop_bits".toList []

end URI

namespace SerialConfiguration

def readByteSize (byteSizeS : Text) : Except ArgError ByteSize :=
  if byteSizeS = [] then .ok .bits8
  else
    match stoi byteSizeS with
    | .error x => .error x
    | .ok (byteSize, _) =>
      if byteSize < 5 ∨ byteSize > 8 then .error (.invalidArgument
        ("invalid byte_size parameter ".toList ++ byteSizeS ++
          "in URI, expected a value between 5 and 8 (inclusive)".toList))
      else .ok (.ofInt byteSize)

def readParity (parity : Text) : Except ArgError ParityChecking :=
  if parity = "none".toList then .ok .parityNone
  else if parity = "even".toList then .ok .parityEven
  else if parity = "odd".toList then .ok .parityOdd
  else if parity ≠ [] then .error (.invalidArgument ("invalid parity parameter ".toList ++ parity ++
    "in URI, expected one of none, even or odd".toList))
  else .ok .parityNone

def readStopBits (stop : Text) : Except ArgError StopBits :=
  if stop = ['1'] then .ok .one
  else if stop = ['2'] then .ok .two
  else if stop ≠ [] then .error (.invalidArgument ("invalid stop parameter ".toList ++ stop ++
    " in URI, expected 1 or 2".toList))
  else .ok .one

def fromURI (uri : URI) : Except ArgError SerialConfiguration :=
  match readByteSize uri.byteSize with
  | .error x => .error x
  | .ok byteSize =>
    match readParity uri.parity with
    | .error x => .error x
    | .ok parity =>
      match readStopBits uri.stopBits with
      | .error x => .error x
      | .ok stopBits => .ok ⟨byteSize, parity, stopBits⟩

end SerialConfiguration

/-- The members of `Driver` that open a stream, with their arguments. -/
inductive Opening
  | openSerial (device : Text) (baudrate : ℤ) (configuration : SerialConfiguration)
  | openTCP (hostname : Text) (port : ℤ)
  | openUDPBidirectional (call : UDPBidirectional)
  | openUDPServer (port : ℤ)
  | openFile (path : Text)
  | openUnixStreamServer (path : Text)
  | openUnixStreamClient (path : Text)
  | openUnixDatagramServer (path : Text)
  | openUnixDatagramClient (path : Text)
  | openTestMode
  | setFileDescriptor (fd : ℤ) (autoClose hasEof : Bool)
  deriving DecidableEq

structure UnixError where
  what : Text
  error : ℕ
  deriving DecidableEq

/-- What `openURI` throws. -/
inductive OpenError
  | argument (x : ArgError)
  | runtimeError (what : Text)
  | unixError (x : UnixError)
  deriving DecidableEq

/-- A driver and its world, as far as `openURI` acts on them. -/
structure Opener (ω : Type) where
  perform : Opening → ω → Except UnixError Unit × ω
  /-- The main stream is a `TestStream`. -/
  isTestStream : ω → Bool

variable {ω : Type}

def Opener.call (D : Opener ω) (o : Opening) (w : ω) : Except OpenError Unit × ω :=
  ((D.perform o w).1.mapError .unixError, (D.perform o w).2)

def knownSchemes : List Text :=
  ["serial".toList, "tcp".toList, "udp".toList, "udpserver".toList, "file".toList, "test".toList,
    "fd".toList, "unixstreamserver".toList, "unixstream".toList, "unixdgramserver".toList,
    "unixdgram".toList]

/-- How `openURI` reads its argument. -/
def readURI (uriString : Text) : Except ArgError URI :=
  if substr uriString 0 (some 6) = udpPrefix then backwardParseBidirectionalUDP uriString
  else URI.parse uriString

def URI.opening (uri : URI) : Except ArgError Opening :=
  if uri.scheme = "serial".toList then
    if uri.port = 0 then
      .error (.invalidArgument "missing baud rate specification in serial URI".toList)
    else (SerialConfiguration.fromURI uri).map fun c => .openSerial uri.host uri.port c
  else if uri.scheme = "tcp".toList then
    if uri.port = 0 then
      .error (.invalidArgument "missing port specification in tcp URI".toList)
    else .ok (.openTCP uri.host uri.port)
  else if uri.scheme = "udp".toList then (openURI_UDP uri).map .openUDPBidirectional
  else if uri.scheme = "udpserver".toList then (stoi uri.host).map fun n => .openUDPServer n.1
  else if uri.scheme = "file".toList then .ok (.openFile uri.host)
  else if uri.scheme = "unixstreamserver".toList then .ok (.openUnixStreamServer uri.host)
  else if uri.scheme = "unixstream".toList then .ok (.openUnixStreamClient uri.host)
  else if uri.scheme = "unixdgramserver".toList then .ok (.openUnixDatagramServer uri.host)
  else if uri.scheme = "unixdgram".toList then .ok (.openUnixDatagramClient uri.host)
  else if uri.scheme = "test".toList then .ok .openTestMode
  else (stoi uri.host).map fun n => .setFileDescriptor n.1
    (uri.getOption "auto_close".toList ['1'] = ['1']) (uri.getOption "has_eof".toList ['0'] = ['1'])

def openURI (D : Opener ω) (uriString : Text) (w : ω) : Except OpenError Unit × ω :=
  match readURI uriString with
  | .error x => (.error (.argument x), w)
  | .ok uri =>
    if uri.scheme ∉ knownSchemes then
      (.error (.runtimeError ("unknown scheme ".toList ++ uri.scheme)), w)
    else
      match uri.opening with
      | .error x => (.error (.argument x), w)
      | .ok .openTestMode => if D.isTestStream w then (.ok (), w) else D.call .openTestMode w
      | .ok o => D.call o w

/-- The member that a URI asks for. -/
def askedFor (uriString : Text) : Option Opening :=
  match readURI uriString with
  | .error _ => none
  | .ok uri => if uri.scheme ∉ knownSchemes then none else uri.opening.toOption

theorem openURI_calls (D : Opener ω) (u : Text) (w : ω) :
    (∃ o, askedFor u = some o ∧ openURI D u w = D.call o w) ∨
      (∀ o ∈ askedFor u, o = .openTestMode) ∧ (openURI D u w).2 = w ∧
        ∀ x, (openURI D u w).1 ≠ .error (.unixError x) := by
  rw [askedFor, openURI]
  rcases readURI u with x | uri
  · exact .inr ⟨by simp, rfl, by simp⟩
  dsimp only
  by_cases hknown : uri.scheme ∉ knownSchemes
  · rw [if_pos hknown, if_pos hknown]
    exact .inr ⟨by simp, rfl, by simp⟩
  rw [if_neg hknown, if_neg hknown]
  rcases uri.opening with x | o
  · exact .inr ⟨by simp [Except.toOption], rfl, by simp⟩
  cases o
  case openTestMode =>
    dsimp only
    split_ifs with htest
    · exact .inr ⟨by simp [Except.toOption], rfl, by simp⟩
    · exact .inl ⟨_, rfl, rfl⟩
  all_goals exact .inl ⟨_, rfl, rfl⟩

/-- An option counts as given when it is not empty. -/
def given (value : Text) : Option Text := if value = [] then none else some value

/-- The field that is converted to a number. -/
def URI.numericField (uri : URI) : Option Text :=
  if uri.scheme = "serial".toList then given uri.byteSize
  else if uri.scheme = "udp".toList then given uri.localPort
  else if uri.scheme = "udpserver".toList ∨ uri.scheme = "fd".toList then some uri.host
  else none

def Opening.number : Opening → Option ℤ
  | .openSerial _ _ configuration => some configuration.byteSize.toInt
  | .openUDPBidirectional call => some call.localPort
  | .openUDPServer port => some port
  | .setFileDescriptor fd _ _ => some fd
  | _ => none

structure IsNumeral (f : Text) (n : ℤ) : Prop where
  ne_nil : f ≠ []
  digits : ∀ c ∈ f, c.isDigit
  value : n = numeral f

/-- The same driver, with the calls that are made of it. -/
def Opener.recorded (D : Opener ω) : Opener (ω × List Opening) where
  perform o w := ((D.perform o w.1).1, (D.perform o w.1).2, w.2 ++ [o])
  isTestStream w := D.isTestStream w.1

/-- A number is passed on only if the whole field is its numeral; otherwise the URI is an invalid
argument, and the driver is left alone. -/
structure ConsumesWhole (D : Opener ω) (u : Text) (w : ω) : Prop where
  used : ∀ uri f, readURI u = .ok uri → uri.numericField = some f →
    ∀ o ∈ (openURI D.recorded u (w, [])).2.2, ∀ n, o.number = some n → IsNumeral f n
  refused : ∀ uri f, readURI u = .ok uri → uri.numericField = some f →
    (¬ ∃ o ∈ (openURI D.recorded u (w, [])).2.2, ∃ n, o.number = some n ∧ IsNumeral f n) →
    ∃ what, openURI D.recorded u (w, []) = (.error (.argument (.invalidArgument what)), w, [])

def URI.Reached (uri : URI) : Prop :=
  if uri.scheme = "serial".toList then uri.port ≠ 0
  else if uri.scheme = "udp".toList then uri.port ≠ 0 ∧
    (uri.ignoreConnrefusedOrDefault = ['0'] → uri.connectedOrDefault = ['1'])
  else True

def SerialAccepts (uri : URI) (byteSize : ℤ) : Prop :=
  (5 ≤ byteSize ∧ byteSize ≤ 8) ∧
    uri.parity ∈ [[], "none".toList, "even".toList, "odd".toList] ∧
    uri.stopBits ∈ [[], ['1'], ['2']]

def URI.Keeps (uri : URI) (n : ℤ) : Prop :=
  uri.scheme = "serial".toList → SerialAccepts uri n

variable {uri : URI} {f : Text}

theorem given_eq_some {value : Text} : given value = some f ↔ value = f ∧ f ≠ [] := by
  rw [given]
  by_cases h : value = []
  · rw [if_pos h, h]
    simp [eq_comm]
  · rw [if_neg h, Option.some.injEq]
    exact (and_iff_left_of_imp fun heq => heq ▸ h).symm

/-- How the call for a URI with a numeric field depends on the number. -/
structure Converts (uri : URI) (f : Text) : Prop where
  unreached : ¬ uri.Reached → ∃ what, uri.opening = .error (.invalidArgument what)
  thrown : uri.Reached → ∀ x, stoi f = .error x → uri.opening = .error x
  kept : uri.Reached → ∀ n, stoi f = .ok n → uri.Keeps n.1 →
    ∃ o, uri.opening = .ok o ∧ o.number = some n.1
  unkept : uri.Reached → ∀ n, stoi f = .ok n → ¬ uri.Keeps n.1 →
    ∃ what, uri.opening = .error (.invalidArgument what)

theorem ByteSize.toInt_ofInt {n : ℤ} (h : 5 ≤ n ∧ n ≤ 8) : (ByteSize.ofInt n).toInt = n := by
  obtain rfl | rfl | rfl | rfl : n = 5 ∨ n = 6 ∨ n = 7 ∨ n = 8 := by omega
  all_goals rfl

theorem readParity_cases (parity : Text) :
    (parity ∈ [[], "none".toList, "even".toList, "odd".toList] ∧
      ∃ p, SerialConfiguration.readParity parity = .ok p) ∨
    (parity ∉ [[], "none".toList, "even".toList, "odd".toList] ∧
      ∃ what, SerialConfiguration.readParity parity = .error (.invalidArgument what)) := by
  simp only [SerialConfiguration.readParity, List.mem_cons, List.not_mem_nil, or_false]
  split_ifs <;> simp_all

theorem readStopBits_cases (stop : Text) :
    (stop ∈ [[], ['1'], ['2']] ∧ ∃ s, SerialConfiguration.readStopBits stop = .ok s) ∨
    (stop ∉ [[], ['1'], ['2']] ∧
      ∃ what, SerialConfiguration.readStopBits stop = .error (.invalidArgument what)) := by
  simp only [SerialConfiguration.readStopBits, List.mem_cons, List.not_mem_nil, or_false]
  split_ifs <;> simp_all

theorem numericField_cases (h : uri.numericField = some f) :
    (uri.scheme = "serial".toList ∧ uri.byteSize = f ∧ f ≠ []) ∨
      (uri.scheme = "udp".toList ∧ uri.localPort = f ∧ f ≠ []) ∨
      (uri.scheme = "udpserver".toList ∧ uri.host = f) ∨
      (uri.scheme = "fd".toList ∧ uri.host = f) := by
  rw [URI.numericField] at h
  split_ifs at h with hserial hudp hhost
  · exact .inl ⟨hserial, given_eq_some.mp h⟩
  · exact .inr (.inl ⟨hudp, given_eq_some.mp h⟩)
  · exact .inr (.inr (hhost.imp (⟨·, Option.some.inj h⟩) (⟨·, Option.some.inj h⟩)))

theorem numericField_known (h : uri.numericField = some f) : uri.scheme ∈ knownSchemes := by
  rcases numericField_cases h with ⟨hs, -⟩ | ⟨hs, -⟩ | ⟨hs, -⟩ | ⟨hs, -⟩ <;> rw [hs] <;> decide

theorem readByteSize_given (hf : f ≠ []) : SerialConfiguration.readByteSize f =
    match stoi f with
    | .error x => .error x
    | .ok (byteSize, _) =>
      if byteSize < 5 ∨ byteSize > 8 then .error (.invalidArgument
        ("invalid byte_size parameter ".toList ++ f ++
          "in URI, expected a value between 5 and 8 (inclusive)".toList))
      else .ok (.ofInt byteSize) := if_neg hf

theorem fromURI_cases (hbyteSize : uri.byteSize = f) (hf : f ≠ []) {n : ℤ × ℕ}
    (hn : stoi f = .ok n) :
    (SerialAccepts uri n.1 ∧ ∃ c, SerialConfiguration.fromURI uri = .ok c ∧
        c.byteSize.toInt = n.1) ∨
      (¬ SerialAccepts uri n.1 ∧
        ∃ what, SerialConfiguration.fromURI uri = .error (.invalidArgument what)) := by
  have hread : SerialConfiguration.readByteSize uri.byteSize =
      if n.1 < 5 ∨ n.1 > 8 then .error (.invalidArgument
        ("invalid byte_size parameter ".toList ++ f ++
          "in URI, expected a value between 5 and 8 (inclusive)".toList))
      else .ok (.ofInt n.1) := by rw [hbyteSize, readByteSize_given hf, hn]
  rw [SerialConfiguration.fromURI, hread]
  by_cases hrange : 5 ≤ n.1 ∧ n.1 ≤ 8
  swap
  · rw [if_pos (by omega)]
    exact .inr ⟨fun h => hrange h.1, _, rfl⟩
  rw [if_neg (by omega)]
  rcases readParity_cases uri.parity with ⟨hparity, p, hp⟩ | ⟨hparity, what, hwhat⟩
  swap
  · exact .inr ⟨fun h => hparity h.2.1, what, by rw [hwhat]⟩
  rcases readStopBits_cases uri.stopBits with ⟨hstop, b, hb⟩ | ⟨hstop, what, hwhat⟩
  swap
  · exact .inr ⟨fun h => hstop h.2.2, what, by rw [hp, hwhat]⟩
  rw [hp, hb]
  exact .inl ⟨⟨hrange, hparity, hstop⟩, _, rfl, ByteSize.toInt_ofInt hrange⟩

theorem converts_serial (hscheme : uri.scheme = "serial".toList) (hbyteSize : uri.byteSize = f)
    (hf : f ≠ []) : Converts uri f := by
  have hopening : uri.opening = if uri.port = 0 then
      .error (.invalidArgument "missing baud rate specification in serial URI".toList)
    else (SerialConfiguration.fromURI uri).map fun c => .openSerial uri.host uri.port c :=
    if_pos hscheme
  have hreached : uri.Reached ↔ uri.port ≠ 0 := by rw [URI.Reached, if_pos hscheme]
  have hkeeps (n : ℤ) : uri.Keeps n ↔ SerialAccepts uri n := imp_iff_right hscheme
  constructor
  · intro h
    rw [hopening, if_pos (not_not.mp (mt hreached.mpr h))]
    exact ⟨_, rfl⟩
  · intro h x hx
    rw [hopening, if_neg (hreached.mp h), SerialConfiguration.fromURI, hbyteSize,
      readByteSize_given hf, hx]
    rfl
  · intro h n hn hkept
    obtain ⟨-, c, hc, hsize⟩ :=
      (fromURI_cases hbyteSize hf hn).resolve_right fun h => h.1 ((hkeeps n.1).mp hkept)
    rw [hopening, if_neg (hreached.mp h), hc]
    exact ⟨_, rfl, congrArg some hsize⟩
  · intro h n hn hkept
    obtain ⟨-, what, hwhat⟩ :=
      (fromURI_cases hbyteSize hf hn).resolve_left fun h => hkept ((hkeeps n.1).mpr h.1)
    rw [hopening, if_neg (hreached.mp h), hwhat]
    exact ⟨what, rfl⟩

theorem URI.keeps_of_ne_serial (hscheme : uri.scheme ≠ "serial".toList) (n : ℤ) : uri.Keeps n :=
  fun h => absurd h hscheme

theorem converts_udp (hscheme : uri.scheme = "udp".toList) (hport : uri.localPort = f)
    (hf : f ≠ []) : Converts uri f := by
  have hne : uri.scheme ≠ "serial".toList := by rw [hscheme]; decide
  have hopening : uri.opening = (openURI_UDP uri).map .openUDPBidirectional := by
    rw [URI.opening, if_neg hne, if_neg (by rw [hscheme]; decide), if_pos hscheme]
  have hreached : uri.Reached ↔ uri.port ≠ 0 ∧
      (uri.ignoreConnrefusedOrDefault = ['0'] → uri.connectedOrDefault = ['1']) := by
    rw [URI.Reached, if_neg hne, if_pos hscheme]
  have hgiven : orDefault uri.localPort ['0'] = f := by rw [hport, orDefault_given hf]
  have hread : uri.Reached → openURI_UDP uri = (stoi f).map fun port =>
      ⟨uri.host, uri.port, port.1, uri.ignoreConnrefusedOrDefault = ['1'],
        uri.connectedOrDefault = ['1'], orDefault uri.ignoreHostunreach ['0'] = ['1'],
        orDefault uri.ignoreNetunreach ['0'] = ['1']⟩ := by
    intro h
    obtain ⟨hport, hthrow⟩ := hreached.mp h
    rw [openURI_UDP_eq, if_neg hport, if_neg (fun hc => hc.2 (hthrow hc.1)), hgiven]
  constructor
  · intro h
    rw [hopening, openURI_UDP_eq]
    by_cases hport : uri.port = 0
    · rw [if_pos hport]
      exact ⟨_, rfl⟩
    · rw [if_neg hport, if_pos (Classical.not_imp.mp fun hc => h (hreached.mpr ⟨hport, hc⟩))]
      exact ⟨_, rfl⟩
  · intro h x hx
    rw [hopening, hread h, hx]
    rfl
  · intro h n hn _
    rw [hopening, hread h, hn]
    exact ⟨_, rfl, rfl⟩
  · exact fun _ n _ h => absurd (URI.keeps_of_ne_serial hne n.1) h

theorem converts_host {o : ℤ → Opening} (hserial : uri.scheme ≠ "serial".toList)
    (hudp : uri.scheme ≠ "udp".toList) (ho : ∀ n, (o n).number = some n)
    (hopening : uri.opening = (stoi uri.host).map fun n => o n.1) : Converts uri uri.host := by
  have hreached : uri.Reached := by
    rw [URI.Reached, if_neg hserial, if_neg hudp]
    trivial
  constructor
  · exact fun h => absurd hreached h
  · intro _ x hx
    rw [hopening, hx]
    rfl
  · intro _ n hn _
    rw [hopening, hn]
    exact ⟨_, rfl, ho n.1⟩
  · exact fun _ n _ h => absurd (URI.keeps_of_ne_serial hserial n.1) h

theorem converts_of_numericField (h : uri.numericField = some f) : Converts uri f := by
  rcases numericField_cases h with ⟨hs, hf, hne⟩ | ⟨hs, hf, hne⟩ | ⟨hs, rfl⟩ | ⟨hs, rfl⟩
  · exact converts_serial hs hf hne
  · exact converts_udp hs hf hne
  · refine converts_host (o := .openUDPServer) ?_ ?_ (fun _ => rfl) ?_
    · rw [hs]; decide
    · rw [hs]; decide
    · rw [URI.opening]
      simp only [hs]
      rfl
  · refine converts_host (o := fun n => .setFileDescriptor n
      (uri.getOption "auto_close".toList ['1'] = ['1'])
      (uri.getOption "has_eof".toList ['0'] = ['1'])) ?_ ?_ (fun _ => rfl) ?_
    · rw [hs]; decide
    · rw [hs]; decide
    · rw [URI.opening]
      simp only [hs]
      rfl

variable {blanks sign digits rest : Text}

theorem IntText.isNumeral (h : IntText f blanks sign digits rest)
    (hplain : blanks ++ sign ++ rest = []) : IsNumeral f (signed sign (numeral digits)) := by
  obtain ⟨hfront, rfl⟩ := List.append_eq_nil_iff.mp hplain
  obtain ⟨rfl, rfl⟩ := List.append_eq_nil_iff.mp hfront
  obtain rfl : f = digits := by simpa using h.text
  exact ⟨h.digits_ne_nil, h.digits, rfl⟩

theorem IsNumeral.plain {n : ℤ} (hf : IsNumeral f n) (h : IntText f blanks sign digits rest) :
    blanks ++ sign ++ rest = [] := by
  have hfront : blanks ++ sign = [] := by
    by_contra hne
    obtain ⟨c, hc, hdigit⟩ := h.not_isDigit_head hne
    exact hdigit (hf.digits c (List.mem_of_mem_head? hc))
  have hrest : rest = [] := by
    by_contra hne
    obtain ⟨c, r, rfl⟩ := List.exists_cons_of_ne_nil hne
    exact h.rest c rfl (hf.digits c (by rw [h.text]; simp))
  rw [hfront, hrest]
  rfl

/-- The conversion reads a number in front of the field, and either the number is no `int`, or the
field is not its numeral and the number is kept. -/
def Misconverted (uri : URI) (f : Text) : Prop :=
  uri.Reached ∧ ∃ blanks sign digits rest, IntText f blanks sign digits rest ∧
    (¬ InInt (signed sign (numeral digits)) ∨
      blanks ++ sign ++ rest ≠ [] ∧ uri.Keeps (signed sign (numeral digits)))

variable {D : Opener ω} {u : Text} {w : ω}

theorem openURI_of_error (hu : readURI u = .ok uri) (hf : uri.numericField = some f)
    {x : ArgError} (hx : uri.opening = .error x) : openURI D u w = (.error (.argument x), w) := by
  rw [openURI, hu]
  dsimp only
  rw [if_neg (not_not.mpr (numericField_known hf)), hx]

theorem openURI_of_ok (hu : readURI u = .ok uri) (hf : uri.numericField = some f)
    {o : Opening} {n : ℤ} (ho : uri.opening = .ok o) (hn : o.number = some n) :
    openURI D u w = D.call o w := by
  rw [openURI, hu]
  dsimp only
  rw [if_neg (not_not.mpr (numericField_known hf)), ho]
  cases o <;> first | rfl | cases hn

theorem recorded_call (D : Opener ω) (o : Opening) (w : ω) :
    (D.recorded.call o (w, [])).2.2 = [o] := rfl

/-- The URI is an invalid argument, or the number that is passed on has the field for a numeral. -/
theorem openURI_cases (hu : readURI u = .ok uri) (hf : uri.numericField = some f)
    (hgood : ¬ Misconverted uri f) :
    (∃ what, openURI D u w = (.error (.argument (.invalidArgument what)), w)) ∨
      ∃ o n, openURI D u w = D.call o w ∧ o.number = some n ∧ IsNumeral f n := by
  have hconv := converts_of_numericField hf
  by_cases hreached : uri.Reached
  swap
  · obtain ⟨what, hwhat⟩ := hconv.unreached hreached
    exact .inl ⟨what, openURI_of_error hu hf hwhat⟩
  rcases stoi_cases f with ⟨blanks, sign, digits, rest, hint⟩ | herr
  swap
  · exact .inl ⟨_, openURI_of_error hu hf (hconv.thrown hreached _ herr)⟩
  obtain ⟨hrange, hplain⟩ :=
    not_or.mp fun hbad => hgood ⟨hreached, blanks, sign, digits, rest, hint, hbad⟩
  have hstoi := hint.stoi_eq
  rw [if_pos (not_not.mp hrange)] at hstoi
  by_cases hkeeps : uri.Keeps (signed sign (numeral digits))
  · obtain ⟨o, ho, hn⟩ := hconv.kept hreached _ hstoi hkeeps
    have hnum := hint.isNumeral (not_not.mp fun hne => hplain ⟨hne, hkeeps⟩)
    exact .inr ⟨o, _, openURI_of_ok hu hf ho hn, hn, hnum⟩
  · obtain ⟨what, hwhat⟩ := hconv.unkept hreached _ hstoi hkeeps
    exact .inl ⟨what, openURI_of_error hu hf hwhat⟩

theorem Misconverted.not_consumes (h : Misconverted uri f) (hu : readURI u = .ok uri)
    (hf : uri.numericField = some f) : ¬ ConsumesWhole D u w := by
  intro hwhole
  obtain ⟨hreached, blanks, sign, digits, rest, hint, hbad⟩ := h
  have hconv := converts_of_numericField hf
  have hstoi := hint.stoi_eq
  by_cases hrange : InInt (signed sign (numeral digits))
  · obtain ⟨hplain, hkeeps⟩ := hbad.resolve_left (not_not.mpr hrange)
    rw [if_pos hrange] at hstoi
    obtain ⟨o, ho, hn⟩ := hconv.kept hreached _ hstoi hkeeps
    have hcall := openURI_of_ok (D := D.recorded) (w := (w, [])) hu hf ho hn
    have hmem : o ∈ (openURI D.recorded u (w, [])).2.2 := by
      rw [hcall, recorded_call]
      exact List.mem_singleton_self o
    exact hplain ((hwhole.used uri f hu hf o hmem _ hn).plain hint)
  · rw [if_neg hrange] at hstoi
    have hthrow := openURI_of_error (D := D.recorded) (w := (w, [])) hu hf
      (hconv.thrown hreached _ hstoi)
    obtain ⟨what, hwhat⟩ := hwhole.refused uri f hu hf (by rw [hthrow]; simp)
    rw [hthrow] at hwhat
    cases hwhat

/-- Numeric fields are consumed whole except where `std::stoi` finds another number in them. -/
theorem openURI_consumes_whole_iff (D : Opener ω) (u : Text) (w : ω) : ConsumesWhole D u w ↔
    ∀ uri f, readURI u = .ok uri → uri.numericField = some f → ¬ Misconverted uri f := by
  constructor
  · exact fun h uri f hu hf hbad => hbad.not_consumes hu hf h
  intro h
  constructor
  · intro uri f hu hf o ho n hn
    rcases openURI_cases (D := D.recorded) (w := (w, [])) hu hf (h uri f hu hf) with
      ⟨what, hwhat⟩ | ⟨o', n', hcall, hn', hnum⟩
    · rw [hwhat] at ho
      cases ho
    · rw [hcall, recorded_call, List.mem_singleton] at ho
      rw [ho, hn', Option.some.injEq] at hn
      exact hn ▸ hnum
  · intro uri f hu hf hnone
    rcases openURI_cases (D := D.recorded) (w := (w, [])) hu hf (h uri f hu hf) with
      hwhat | ⟨o, n, hcall, hn, hnum⟩
    · exact hwhat
    · refine absurd ⟨o, ?_, n, hn, hnum⟩ hnone
      rw [hcall, recorded_call]
      exact List.mem_singleton_self o

/-- A driver whose streams are all opened. -/
def Opener.willing : Opener Unit := ⟨fun _ _ => (.ok (), ()), fun _ => false⟩

/-- The descriptor 3 is taken out of a text. -/
theorem openURI_reads_prefix : ¬ ConsumesWhole Opener.willing "fd://3x".toList () := by
  intro h
  have hread : readURI "fd://3x".toList = .ok ⟨"fd".toList, "3x".toList, 0, ∅⟩ := by decide
  have hnum := h.used _ "3x".toList hread rfl (.setFileDescriptor 3 true false) (by decide) 3 rfl
  exact absurd (hnum.digits 'x' (by decide)) (by decide)

end IodriversBase
