import IodriversBase.Opening

namespace IodriversBase

variable {scheme host : Text} {port : Option ℤ} {pairs : List (Text × Text)}

def signOf (n : ℤ) : Text := if n < 0 then ['-'] else []

theorem numeral_toDigits (n : ℕ) : numeral (Nat.toDigits 10 n) = n := by
  have hvalue := Nat.ofDigitChars_toDigits (b := 10) (n := n) (by decide) (by decide)
  rwa [Nat.ofDigitChars_eq_foldl] at hvalue

theorem lexicalCast_eq (n : ℤ) : lexicalCast n = signOf n ++ Nat.toDigits 10 n.natAbs := by
  cases n with
  | ofNat n => exact Nat.toList_repr
  | negSucc n =>
    have htext : lexicalCast (Int.negSucc n) = ("-" ++ (n + 1).repr).toList := rfl
    rw [htext, String.toList_append, Nat.toList_repr, signOf, if_pos (Int.negSucc_lt_zero n)]
    rfl

theorem signed_signOf (n : ℤ) : signed (signOf n) n.natAbs = n := by
  rw [signed, signOf]
  by_cases hn : n < 0
  · rw [if_pos hn, if_pos rfl]
    omega
  · rw [if_neg hn, if_neg (by decide)]
    omega

theorem intText_lexicalCast (n : ℤ) (rest : Text) (hrest : ∀ c ∈ rest.head?, ¬ c.isDigit) :
    IntText (lexicalCast n ++ rest) [] (signOf n) (Nat.toDigits 10 n.natAbs) rest where
  text := by rw [lexicalCast_eq, List.nil_append]
  blanks _ hc := absurd hc List.not_mem_nil
  sign := by
    rw [signOf]
    split_ifs
    · exact .inr (.inr rfl)
    · exact .inl rfl
  digits_ne_nil := Nat.toDigits_ne_nil
  digits _ hc := Nat.isDigit_of_mem_toDigits (by decide) (by decide) hc
  rest := hrest

theorem signed_lexicalCast (n : ℤ) :
    signed (signOf n) (numeral (Nat.toDigits 10 n.natAbs)) = n := by
  rw [numeral_toDigits, signed_signOf]

theorem stoi_lexicalCast {n : ℤ} (hn : InInt n) :
    stoi (lexicalCast n) = .ok (n, (lexicalCast n).length) := by
  have hint := intText_lexicalCast n [] (by simp)
  rw [List.append_nil] at hint
  rw [hint.stoi_eq, signed_lexicalCast, if_pos hn, List.nil_append, ← lexicalCast_eq]

theorem notMem_lexicalCast {c : Char} (hdigit : c.isDigit = false) (hc : c ≠ '-') (n : ℤ) :
    c ∉ lexicalCast n := by
  rw [lexicalCast_eq, List.mem_append, signOf]
  rintro (h | h)
  · split_ifs at h
    · exact hc (List.mem_singleton.mp h)
    · exact absurd h List.not_mem_nil
  · rw [Nat.isDigit_of_mem_toDigits (by decide) (by decide) h] at hdigit
    cases hdigit

theorem lexicalCast_ne_nil (n : ℤ) : lexicalCast n ≠ [] := by
  rw [lexicalCast_eq]
  exact fun h => Nat.toDigits_ne_nil (List.append_eq_nil_iff.mp h).2

def HostText (host : Text) : Prop := ∀ c ∈ host, c ∉ ['?', ':']

def uriText (scheme host : Text) (port : Option ℤ) (pairs : List (Text × Text)) : Text :=
  scheme ++ [':', '/', '/'] ++ host ++ (portText (port.map lexicalCast) ++ optionsText pairs)

theorem parse_uriText (hscheme : ':' ∉ scheme) (hhost : HostText host)
    (hport : ∀ n ∈ port, InInt n) (hpairs : ∀ kv ∈ pairs, Separable kv) :
    URI.parse (uriText scheme host port pairs) =
      .ok ⟨scheme, host, port.getD 0, insertAll ∅ pairs⟩ := by
  have hparts : Parts (uriText scheme host port pairs) scheme host
      (portText (port.map lexicalCast) ++ optionsText pairs) := ⟨rfl, hscheme, hhost⟩
  cases port with
  | none => exact hparts.parse_options hpairs
  | some n =>
    have hint := intText_lexicalCast n (optionsText pairs) optionsText_head?_not_isDigit
    have hread := hparts.parse_port_options hint hpairs
    rw [signed_lexicalCast] at hread
    exact hread (hport n rfl)

theorem takeWhile_scheme (hscheme : ':' ∉ scheme) (t : Text) :
    (scheme ++ ':' :: t).takeWhile (· ≠ ':') = scheme := by
  refine (takeWhile_append (fun c hc => ?_) (by simp)).1
  rw [decide_eq_true_eq]
  rintro rfl
  exact hscheme hc

theorem readURI_uriText (hscheme : ':' ∉ scheme) (hne : scheme ≠ "udp".toList) :
    readURI (uriText scheme host port pairs) = URI.parse (uriText scheme host port pairs) := by
  refine if_neg fun h => hne ?_
  have htext : uriText scheme host port pairs = scheme ++ ':' :: ('/' :: '/' :: (host ++
      (portText (port.map lexicalCast) ++ optionsText pairs))) := by simp [uriText]
  have hudp : uriText scheme host port pairs =
      "udp".toList ++ ':' :: ('/' :: '/' :: (uriText scheme host port pairs).drop 6) := by
    conv_lhs => rw [← List.take_append_drop 6 (uriText scheme host port pairs)]
    rw [show (uriText scheme host port pairs).take 6 = udpPrefix from h]
    rfl
  have hfirst := takeWhile_scheme hscheme ('/' :: '/' :: (host ++
    (portText (port.map lexicalCast) ++ optionsText pairs)))
  rw [← htext, hudp, takeWhile_scheme (by decide)] at hfirst
  exact hfirst.symm

theorem readURI_udp (hpairs : pairs ≠ []) :
    readURI (uriText "udp".toList host port pairs) =
      URI.parse (uriText "udp".toList host port pairs) := by
  have htext : uriText "udp".toList host port pairs =
      udpPrefix ++ (host ++ (portText (port.map lexicalCast) ++ optionsText pairs)) := by
    rw [uriText, List.append_assoc]
    rfl
  rw [readURI, if_pos (by rw [htext]; rfl), htext]
  apply backwardParse_newStyle
  refine ⟨'?', ?_, by decide⟩
  have hmem : '?' ∈ optionsText pairs := List.mem_of_mem_head? (optionsText_head? hpairs)
  simp [hmem]

theorem getOption_insertAll {scheme host : Text} {port : ℤ} (hnodup : (pairs.map Prod.fst).Nodup)
    {key value : Text} (h : (key, value) ∈ pairs) (defaultValue : Text) :
    URI.getOption ⟨scheme, host, port, insertAll ∅ pairs⟩ key defaultValue = value := by
  rw [URI.getOption, (lookup_insertAll hnodup ∅ key value).mpr (.inl h)]
  rfl

def ParityChecking.toText : ParityChecking → Text
  | .parityNone => "none".toList
  | .parityEven => "even".toList
  | .parityOdd => "odd".toList

def StopBits.toText : StopBits → Text
  | .one => ['1']
  | .two => ['2']

def flagText (flag : Bool) : Text := if flag then ['1'] else ['0']

def SerialConfiguration.asOptions (c : SerialConfiguration) : List (Text × Text) :=
  [("byte_size".toList, lexicalCast c.byteSize.toInt), ("parity".toList, c.parity.toText),
    ("stop_bits".toList, c.stopBits.toText)]

/-- With `ignore_connrefused=0` an unconnected stream is refused; any other text that is not `1`
leaves the option off as well. -/
def connrefusedText (connected ignoreConnrefused : Bool) : Text :=
  if ignoreConnrefused then ['1'] else if connected then ['0'] else "no".toList

def UDPBidirectional.asOptions (call : UDPBidirectional) : List (Text × Text) :=
  [("local_port".toList, lexicalCast call.localPort),
    ("ignore_connrefused".toList, connrefusedText call.connected call.ignoreConnrefused),
    ("connected".toList, flagText call.connected),
    ("ignore_hostunreach".toList, flagText call.ignoreHostunreach),
    ("ignore_netunreach".toList, flagText call.ignoreNetunreach)]

def fdOptions (autoClose hasEof : Bool) : List (Text × Text) :=
  [("auto_close".toList, flagText autoClose), ("has_eof".toList, flagText hasEof)]

/-- A URI that asks for the stream. -/
def Opening.address : Opening → Text
  | .openSerial device baudrate c => uriText "serial".toList device (some baudrate) c.asOptions
  | .openTCP hostname port => uriText "tcp".toList hostname (some port) []
  | .openUDPBidirectional call =>
    uriText "udp".toList call.hostname (some call.remotePort) call.asOptions
  | .openUDPServer port => uriText "udpserver".toList (lexicalCast port) none []
  | .openFile path => uriText "file".toList path none []
  | .openUnixStreamServer path => uriText "unixstreamserver".toList path none []
  | .openUnixStreamClient path => uriText "unixstream".toList path none []
  | .openUnixDatagramServer path => uriText "unixdgramserver".toList path none []
  | .openUnixDatagramClient path => uriText "unixdgram".toList path none []
  | .openTestMode => uriText "test".toList [] none []
  | .setFileDescriptor fd autoClose hasEof =>
    uriText "fd".toList (lexicalCast fd) none (fdOptions autoClose hasEof)

/-- What a URI can ask for. -/
def Opening.Expressible : Opening → Prop
  | .openSerial device baudrate _ => HostText device ∧ InInt baudrate ∧ baudrate ≠ 0
  | .openTCP hostname port => HostText hostname ∧ InInt port ∧ port ≠ 0
  | .openUDPBidirectional call =>
    HostText call.hostname ∧ InInt call.remotePort ∧ call.remotePort ≠ 0 ∧ InInt call.localPort
  | .openUDPServer port => InInt port
  | .openFile path | .openUnixStreamServer path | .openUnixStreamClient path
  | .openUnixDatagramServer path | .openUnixDatagramClient path => HostText path
  | .openTestMode => True
  | .setFileDescriptor fd _ _ => InInt fd

theorem hostText_lexicalCast (n : ℤ) : HostText (lexicalCast n) := by
  intro c hc h
  simp only [List.mem_cons, List.not_mem_nil, or_false] at h
  obtain rfl | rfl := h
  · exact notMem_lexicalCast (by decide) (by decide) n hc
  · exact notMem_lexicalCast (by decide) (by decide) n hc

theorem separable_lexicalCast {key : Text} (hkey : '=' ∉ key ∧ '&' ∉ key) (n : ℤ) :
    Separable (key, lexicalCast n) :=
  ⟨hkey.1, hkey.2, notMem_lexicalCast (by decide) (by decide) n⟩

theorem separable_flagText {key : Text} (hkey : '=' ∉ key ∧ '&' ∉ key) (flag : Bool) :
    Separable (key, flagText flag) := by
  have hvalue : ∀ flag, '&' ∉ flagText flag := by decide
  exact ⟨hkey.1, hkey.2, hvalue flag⟩

theorem InInt.byteSize (b : ByteSize) : InInt b.toInt := by cases b <;> decide

theorem ByteSize.ofInt_toInt (b : ByteSize) : ByteSize.ofInt b.toInt = b := by cases b <;> rfl

theorem readByteSize_lexicalCast (b : ByteSize) :
    SerialConfiguration.readByteSize (lexicalCast b.toInt) = .ok b := by
  have hrange : ¬ (b.toInt < 5 ∨ b.toInt > 8) := by cases b <;> decide
  rw [readByteSize_given (lexicalCast_ne_nil _), stoi_lexicalCast (InInt.byteSize b)]
  dsimp only
  rw [if_neg hrange, ByteSize.ofInt_toInt]

theorem readParity_toText (p : ParityChecking) :
    SerialConfiguration.readParity p.toText = .ok p := by cases p <;> decide

theorem readStopBits_toText (s : StopBits) :
    SerialConfiguration.readStopBits s.toText = .ok s := by cases s <;> decide

theorem separable_serial (c : SerialConfiguration) : ∀ kv ∈ c.asOptions, Separable kv := by
  simp only [SerialConfiguration.asOptions, List.forall_mem_cons, List.not_mem_nil, false_imp_iff,
    implies_true, and_true]
  refine ⟨separable_lexicalCast (by decide) _, ?_, ?_⟩
  · cases c.parity <;> exact ⟨by decide, by decide, by decide⟩
  · cases c.stopBits <;> exact ⟨by decide, by decide, by decide⟩

theorem fromURI_asOptions (scheme host : Text) (port : ℤ) (c : SerialConfiguration) :
    SerialConfiguration.fromURI ⟨scheme, host, port, insertAll ∅ c.asOptions⟩ = .ok c := by
  have hnodup : (c.asOptions.map Prod.fst).Nodup := by
    show ["byte_size".toList, "parity".toList, "stop_bits".toList].Nodup
    decide
  have hbyteSize : URI.byteSize ⟨scheme, host, port, insertAll ∅ c.asOptions⟩ =
      lexicalCast c.byteSize.toInt :=
    getOption_insertAll hnodup (.head _) _
  have hparity : URI.parity ⟨scheme, host, port, insertAll ∅ c.asOptions⟩ = c.parity.toText :=
    getOption_insertAll hnodup (.tail _ (.head _)) _
  have hstopBits : URI.stopBits ⟨scheme, host, port, insertAll ∅ c.asOptions⟩ = c.stopBits.toText :=
    getOption_insertAll hnodup (.tail _ (.tail _ (.head _))) _
  rw [SerialConfiguration.fromURI, hbyteSize, readByteSize_lexicalCast, hparity, hstopBits,
    readParity_toText, readStopBits_toText]

theorem separable_udp (call : UDPBidirectional) : ∀ kv ∈ call.asOptions, Separable kv := by
  have hvalue : ∀ connected ignore, '&' ∉ connrefusedText connected ignore := by decide
  simp only [UDPBidirectional.asOptions, List.forall_mem_cons, List.not_mem_nil, false_imp_iff,
    implies_true, and_true]
  have hkey : '=' ∉ "ignore_connrefused".toList ∧ '&' ∉ "ignore_connrefused".toList := by decide
  exact ⟨separable_lexicalCast (by decide) _, ⟨hkey.1, hkey.2, hvalue _ _⟩,
    separable_flagText (by decide) _, separable_flagText (by decide) _,
    separable_flagText (by decide) _⟩

theorem flagText_ne_nil (flag : Bool) : flagText flag ≠ [] := by cases flag <;> decide

theorem flagText_eq_one (flag : Bool) : decide (flagText flag = ['1']) = flag := by
  cases flag <;> decide

theorem openURI_UDP_asOptions (scheme : Text) (call : UDPBidirectional)
    (hremote : call.remotePort ≠ 0) (hlocal : InInt call.localPort) :
    openURI_UDP ⟨scheme, call.hostname, call.remotePort, insertAll ∅ call.asOptions⟩ =
      .ok call := by
  set uri : URI := ⟨scheme, call.hostname, call.remotePort, insertAll ∅ call.asOptions⟩ with huri
  have hoption {key value : Text} (hmem : (key, value) ∈ call.asOptions) :
      uri.getOption key [] = value := by
    refine getOption_insertAll ?_ hmem _
    show ["local_port".toList, "ignore_connrefused".toList, "connected".toList,
      "ignore_hostunreach".toList, "ignore_netunreach".toList].Nodup
    decide
  have hport : uri.localPort = lexicalCast call.localPort :=
    hoption (.head _)
  have hconnected : uri.connectedOrDefault = flagText call.connected := by
    have hvalue : uri.connected = flagText call.connected :=
      hoption (.tail _ (.tail _ (.head _)))
    rw [URI.connectedOrDefault, hvalue, orDefault_given (flagText_ne_nil _)]
  have hconnrefused : uri.ignoreConnrefusedOrDefault =
      connrefusedText call.connected call.ignoreConnrefused := by
    have hvalue : uri.ignoreConnrefused = connrefusedText call.connected call.ignoreConnrefused :=
      hoption (.tail _ (.head _))
    have hne : ∀ connected ignore, connrefusedText connected ignore ≠ [] := by decide
    rw [URI.ignoreConnrefusedOrDefault, hvalue, orDefault_given (hne _ _)]
  have hhostunreach : uri.ignoreHostunreach = flagText call.ignoreHostunreach :=
    hoption (.tail _ (.tail _ (.tail _ (.head _))))
  have hnetunreach : uri.ignoreNetunreach = flagText call.ignoreNetunreach :=
    hoption (.tail _ (.tail _ (.tail _ (.tail _ (.head _)))))
  have hpasses : ∀ connected ignore, ¬ (connrefusedText connected ignore = ['0'] ∧
      flagText connected ≠ ['1']) := by decide
  have hignore : ∀ connected ignore,
      decide (connrefusedText connected ignore = ['1']) = ignore := by decide
  rw [openURI_UDP_eq, if_neg (show uri.port ≠ 0 from hremote), hconnrefused, hconnected,
    if_neg (hpasses _ _), hport, orDefault_given (lexicalCast_ne_nil _),
    stoi_lexicalCast hlocal, hhostunreach, hnetunreach, orDefault_given (flagText_ne_nil _),
    orDefault_given (flagText_ne_nil _)]
  simp only [Except.map, hignore, flagText_eq_one]
  rfl

theorem asks_uriText {o : Opening}
    (hscheme : ':' ∉ scheme ∧ scheme ≠ "udp".toList ∧ scheme ∈ knownSchemes)
    (hhost : HostText host) (hport : ∀ n ∈ port, InInt n) (hpairs : ∀ kv ∈ pairs, Separable kv)
    (ho : URI.opening ⟨scheme, host, port.getD 0, insertAll ∅ pairs⟩ = .ok o) :
    ∃ uri, readURI (uriText scheme host port pairs) = .ok uri ∧ uri.scheme ∈ knownSchemes ∧
      uri.opening = .ok o :=
  ⟨_, (readURI_uriText hscheme.1 hscheme.2.1).trans (parse_uriText hscheme.1 hhost hport hpairs),
    hscheme.2.2, ho⟩

theorem Opening.Expressible.asks {o : Opening} (h : o.Expressible) :
    ∃ uri, readURI o.address = .ok uri ∧ uri.scheme ∈ knownSchemes ∧ uri.opening = .ok o := by
  have hnone : ∀ n ∈ (none : Option ℤ), InInt n := by simp
  have hsome {n : ℤ} (hn : InInt n) : ∀ m ∈ some n, InInt m := by simp [hn]
  have hnil : ∀ kv ∈ ([] : List (Text × Text)), Separable kv := by simp
  cases o with
  | openSerial device baudrate c =>
    obtain ⟨hdevice, hbaudrate, hzero⟩ := h
    refine asks_uriText (by decide) hdevice (hsome hbaudrate) (separable_serial c) ?_
    set uri : URI := ⟨"serial".toList, device, baudrate, insertAll ∅ c.asOptions⟩
    have hopening : uri.opening =
        (SerialConfiguration.fromURI uri).map fun c => .openSerial device baudrate c :=
      if_neg hzero
    -- a baud rate of 0 is refused before the configuration is read
    show uri.opening = _
    rw [hopening, fromURI_asOptions]
    rfl
  | openTCP hostname port =>
    obtain ⟨hhostname, hport, hzero⟩ := h
    refine asks_uriText (by decide) hhostname (hsome hport) hnil ?_
    exact if_neg hzero
  | openUDPBidirectional call =>
    obtain ⟨hhostname, hremote, hzero, hlocal⟩ := h
    refine ⟨_, (readURI_udp (List.cons_ne_nil _ _)).trans (parse_uriText (by decide) hhostname
      (hsome hremote) (separable_udp call)), ?_, ?_⟩
    · show "udp".toList ∈ knownSchemes
      decide
    · exact congrArg (Except.map Opening.openUDPBidirectional)
        (openURI_UDP_asOptions "udp".toList call hzero hlocal)
  | openUDPServer port =>
    refine asks_uriText (by decide) (hostText_lexicalCast port) hnone hnil ?_
    show (stoi (lexicalCast port)).map _ = _
    rw [stoi_lexicalCast h]
    rfl
  | openFile path => exact asks_uriText (by decide) h hnone hnil rfl
  | openUnixStreamServer path => exact asks_uriText (by decide) h hnone hnil rfl
  | openUnixStreamClient path => exact asks_uriText (by decide) h hnone hnil rfl
  | openUnixDatagramServer path => exact asks_uriText (by decide) h hnone hnil rfl
  | openUnixDatagramClient path => exact asks_uriText (by decide) h hnone hnil rfl
  | openTestMode => exact asks_uriText (by decide) (by simp [HostText]) hnone hnil rfl
  | setFileDescriptor fd autoClose hasEof =>
    have hnodup : ((fdOptions autoClose hasEof).map Prod.fst).Nodup := by
      show ["auto_close".toList, "has_eof".toList].Nodup
      decide
    have hpairs : ∀ kv ∈ fdOptions autoClose hasEof, Separable kv := by
      simp only [fdOptions, List.forall_mem_cons, List.not_mem_nil, false_imp_iff, implies_true,
        and_true]
      exact ⟨separable_flagText (by decide) _, separable_flagText (by decide) _⟩
    refine asks_uriText (by decide) (hostText_lexicalCast fd) hnone hpairs ?_
    set uri : URI := ⟨"fd".toList, lexicalCast fd, 0, insertAll ∅ (fdOptions autoClose hasEof)⟩
    have hopening : uri.opening = (stoi (lexicalCast fd)).map fun n => .setFileDescriptor n.1
      (uri.getOption "auto_close".toList ['1'] = ['1'])
      (uri.getOption "has_eof".toList ['0'] = ['1']) := rfl
    have hautoClose : uri.getOption "auto_close".toList ['1'] = flagText autoClose :=
      getOption_insertAll hnodup (.head _) _
    have hhasEof : uri.getOption "has_eof".toList ['0'] = flagText hasEof :=
      getOption_insertAll hnodup (.tail _ (.head _)) _
    show uri.opening = _
    rw [hopening, stoi_lexicalCast h, hautoClose, hhasEof, flagText_eq_one, flagText_eq_one]
    rfl

variable {ω : Type} {u : Text} {r : URI} {o : Opening}

theorem InInt.zero : InInt 0 := by decide

theorem parse_fields (h : URI.parse u = .ok r) : HostText r.host ∧ InInt r.port := by
  have hmap {x : Except ArgError Options} {f : Options → URI} (hx : x.map f = .ok r) :
      ∃ options, r = f options := by
    cases x with
    | error => cases hx
    | ok options => exact ⟨options, (Except.ok.inj hx).symm⟩
  obtain ⟨scheme, host, rest, hparts, hrest⟩ | ⟨what, herror⟩ := parts_cases u
  swap
  · rw [herror] at h
    cases h
  obtain rfl | ⟨c, q, rfl, hc⟩ := hrest
  · rw [hparts.parse_eq_none] at h
    cases h
    exact ⟨hparts.host, InInt.zero⟩
  obtain rfl | rfl : c = '?' ∨ c = ':' := by simpa using hc
  · rw [hparts.parse_query] at h
    obtain ⟨options, rfl⟩ := hmap h
    exact ⟨hparts.host, InInt.zero⟩
  obtain ⟨blanks, sign, digits, rest, hint⟩ | hnot := stoi_cases q
  swap
  · rw [hparts.parse_no_port hnot] at h
    cases h
  rw [hparts.parse_port hint] at h
  split_ifs at h with hrange hrest hquery
  · cases h
    exact ⟨hparts.host, hrange⟩
  · obtain ⟨options, rfl⟩ := hmap h
    exact ⟨hparts.host, hrange⟩

theorem readURI_fields (h : readURI u = .ok r) : HostText r.host ∧ InInt r.port := by
  rw [readURI] at h
  split_ifs at h
  · rw [backwardParseBidirectionalUDP] at h
    split at h
    · exact parse_fields h
    · dsimp only at h
      split at h
      · exact parse_fields h
      · split_ifs at h
        · exact parse_fields h
        · exact parse_fields h
  · exact parse_fields h

theorem stoi_inInt {s : Text} {n : ℤ × ℕ} (h : stoi s = .ok n) : InInt n.1 := by
  rw [stoi] at h
  split_ifs at h with hnil hrange
  cases h
  exact hrange

theorem map_eq_ok {α β : Type} {x : Except ArgError α} {f : α → β} {b : β} (h : x.map f = .ok b) :
    ∃ a, x = .ok a ∧ f a = b := by
  cases x with
  | error => cases h
  | ok a => exact ⟨a, rfl, Except.ok.inj h⟩

theorem URI.opening_expressible (hfields : HostText r.host ∧ InInt r.port)
    (h : r.opening = .ok o) : o.Expressible := by
  obtain ⟨hhost, hport⟩ := hfields
  rw [URI.opening] at h
  by_cases hserial : r.scheme = "serial".toList
  · rw [if_pos hserial] at h
    by_cases hzero : r.port = 0
    · rw [if_pos hzero] at h
      cases h
    · rw [if_neg hzero] at h
      obtain ⟨c, -, rfl⟩ := map_eq_ok h
      exact ⟨hhost, hport, hzero⟩
  rw [if_neg hserial] at h
  by_cases htcp : r.scheme = "tcp".toList
  · rw [if_pos htcp] at h
    by_cases hzero : r.port = 0
    · rw [if_pos hzero] at h
      cases h
    · rw [if_neg hzero] at h
      cases h
      exact ⟨hhost, hport, hzero⟩
  rw [if_neg htcp] at h
  by_cases hudp : r.scheme = "udp".toList
  · rw [if_pos hudp] at h
    obtain ⟨call, hcall, rfl⟩ := map_eq_ok h
    rw [openURI_UDP_eq] at hcall
    split_ifs at hcall with hremote hconnrefused
    obtain ⟨n, hn, rfl⟩ := map_eq_ok hcall
    exact ⟨hhost, hport, hremote, stoi_inInt hn⟩
  rw [if_neg hudp] at h
  by_cases hudpserver : r.scheme = "udpserver".toList
  · rw [if_pos hudpserver] at h
    obtain ⟨n, hn, rfl⟩ := map_eq_ok h
    exact stoi_inInt hn
  rw [if_neg hudpserver] at h
  -- the host is a path
  iterate 5
    split at h
    · cases h
      exact hhost
  split at h
  · cases h
    trivial
  · obtain ⟨n, hn, rfl⟩ := map_eq_ok h
    exact stoi_inInt hn

theorem askedFor_expressible (h : askedFor u = some o) : o.Expressible := by
  rw [askedFor] at h
  rcases hread : readURI u with x | uri
  · rw [hread] at h
    cases h
  rw [hread] at h
  dsimp only at h
  split_ifs at h with hknown
  rcases hopening : uri.opening with x | o'
  · rw [hopening] at h
    cases h
  rw [hopening] at h
  obtain rfl : o' = o := Option.some.inj h
  exact URI.opening_expressible (readURI_fields hread) hopening

/-- **The streams that URIs can ask for**: each of them has a URI on which `openURI` makes this call
and no other, with these arguments, whatever the driver; and no other call is ever made. -/
theorem openURI_address (D : Opener ω) (w : ω) (o : Opening) :
    (o.Expressible → openURI D o.address w =
      if o = .openTestMode ∧ D.isTestStream w = true then (.ok (), w) else D.call o w) ∧
    ∀ u, o ∈ (openURI D.recorded u (w, [])).2.2 → o.Expressible := by
  refine ⟨fun h => ?_, fun u hmem => ?_⟩
  · obtain ⟨uri, hread, hknown, hopening⟩ := h.asks
    rw [openURI, hread]
    dsimp only
    rw [if_neg (not_not.mpr hknown), hopening]
    cases o <;> simp
  · obtain ⟨o', hasked, hcall⟩ | ⟨-, hsame, -⟩ := openURI_calls D.recorded u (w, [])
    · rw [hcall] at hmem
      rw [List.mem_singleton.mp hmem]
      exact askedFor_expressible hasked
    · rw [hsame] at hmem
      cases hmem

end IodriversBase
