import IodriversBase.Grammar

namespace IodriversBase

structure UDPBidirectional where
  hostname : Text
  remotePort : ℤ
  localPort : ℤ
  ignoreConnrefused : Bool
  connected : Bool
  ignoreHostunreach : Bool
  ignoreNetunreach : Bool
  deriving DecidableEq

def orDefault (value defaultValue : Text) : Text := if value = [] then defaultValue else value

namespace URI

def localPort (uri : URI) : Text := uri.getOption "local_port".toList []
def ignoreConnrefused (uri : URI) : Text := uri.getOption "ignore_connrefused".toList []
def ignoreHostunreach (uri : URI) : Text := uri.getOption "ignore_hostunreach".toList []
def ignoreNetunreach (uri : URI) : Text := uri.getOption "ignore_netunreach".toList []
def connected (uri : URI) : Text := uri.getOption "connected".toList []

end URI

def missingPort : ArgError :=
  .invalidArgument "missing port specification in udp URI".toList

def connrefusedUnconnected : ArgError :=
  .invalidArgument "cannot set ignore_connrefused=0 on an unconnected UDP stream".toList

def openURI_UDP (uri : URI) : Except ArgError UDPBidirectional :=
  if uri.port = 0 then .error missingPort
  else
    let connected := orDefault uri.connected (if uri.localPort = [] then ['1'] else ['0'])
    let isConnected : Bool := connected = ['1']
    let ignoreConnrefused := orDefault uri.ignoreConnrefused
      (if isConnected then (if uri.localPort = [] then ['0'] else ['1']) else ['1'])
    let ignoreHostunreach := orDefault uri.ignoreHostunreach ['0']
    let ignoreNetunreach := orDefault uri.ignoreNetunreach ['0']
    let localPort := orDefault uri.localPort ['0']
    if ignoreConnrefused = ['0'] ∧ ¬ isConnected then .error connrefusedUnconnected
    else
      (stoi localPort).map fun port => ⟨uri.host, uri.port, port.1, ignoreConnrefused = ['1'],
        connected = ['1'], ignoreHostunreach = ['1'], ignoreNetunreach = ['1']⟩

def Passed (value : Text) (flag : Bool) : Prop :=
  (value = ['0'] → flag = false) ∧ (value = ['1'] → flag = true)

/-- What the documentation says about the arguments. -/
structure Documented (uri : URI) (call : UDPBidirectional) : Prop where
  remote : call.hostname = uri.host ∧ call.remotePort = uri.port
  localPort : ∃ size, stoi (orDefault uri.localPort ['0']) = .ok (call.localPort, size)
  connrefused : call.connected = false → call.ignoreConnrefused = true
  connected : Passed uri.connected call.connected
  ignoreConnrefused : Passed uri.ignoreConnrefused call.ignoreConnrefused
  ignoreHostunreach : Passed uri.ignoreHostunreach call.ignoreHostunreach
  ignoreNetunreach : Passed uri.ignoreNetunreach call.ignoreNetunreach
  connected_default : uri.connected = [] → (call.connected = true ↔ uri.localPort = [])
  ignoreConnrefused_default : uri.ignoreConnrefused = [] →
    (call.ignoreConnrefused = false ↔ call.connected = true ∧ uri.localPort = [])
  ignoreHostunreach_default : uri.ignoreHostunreach = [] → call.ignoreHostunreach = false
  ignoreNetunreach_default : uri.ignoreNetunreach = [] → call.ignoreNetunreach = false

def URI.Unconnected (uri : URI) : Prop :=
  uri.connected ≠ ['1'] ∧ (uri.connected = [] → uri.localPort ≠ [])

def URI.Bindable (uri : URI) : Prop :=
  uri.localPort = [] ∨ ∃ port, stoi uri.localPort = .ok port

/-- An `ignore_connrefused` that is neither `0` nor `1`, on an unconnected stream. -/
structure Unruled (uri : URI) : Prop where
  port : uri.port ≠ 0
  unconnected : uri.Unconnected
  ignoreConnrefused : uri.ignoreConnrefused ∉ [[], ['0'], ['1']]
  bindable : uri.Bindable

variable {uri : URI} {value defaultValue : Text} {call : UDPBidirectional}

theorem passed_orDefault (value defaultValue : Text) :
    Passed value (orDefault value defaultValue = ['1']) := by
  constructor
  · rintro rfl
    rfl
  · rintro rfl
    rfl

theorem orDefault_absent (h : value = []) : orDefault value defaultValue = defaultValue := if_pos h

theorem orDefault_given (h : value ≠ []) : orDefault value defaultValue = value := if_neg h

def URI.connectedOrDefault (uri : URI) : Text :=
  orDefault uri.connected (if uri.localPort = [] then ['1'] else ['0'])

def URI.ignoreConnrefusedOrDefault (uri : URI) : Text :=
  orDefault uri.ignoreConnrefused
    (if uri.connectedOrDefault = ['1'] then (if uri.localPort = [] then ['0'] else ['1'])
      else ['1'])

theorem unconnected_iff : uri.Unconnected ↔ uri.connectedOrDefault ≠ ['1'] := by
  rw [URI.Unconnected, URI.connectedOrDefault]
  by_cases h : uri.connected = []
  · by_cases hport : uri.localPort = []
    · simp [h, hport, orDefault_absent]
    · simp [h, hport, orDefault_absent]
  · simp [h, orDefault_given h]

theorem bindable_iff : uri.Bindable ↔ ∃ port, stoi (orDefault uri.localPort ['0']) = .ok port := by
  rw [URI.Bindable]
  by_cases h : uri.localPort = []
  · have hzero : stoi ['0'] = .ok (0, 1) := by decide
    simp [h, orDefault_absent, hzero]
  · simp [h, orDefault_given h]

theorem openURI_UDP_eq (uri : URI) : openURI_UDP uri =
    if uri.port = 0 then .error missingPort
    else if uri.ignoreConnrefusedOrDefault = ['0'] ∧ uri.connectedOrDefault ≠ ['1'] then
      .error connrefusedUnconnected
    else (stoi (orDefault uri.localPort ['0'])).map fun port =>
      ⟨uri.host, uri.port, port.1, uri.ignoreConnrefusedOrDefault = ['1'],
        uri.connectedOrDefault = ['1'], orDefault uri.ignoreHostunreach ['0'] = ['1'],
        orDefault uri.ignoreNetunreach ['0'] = ['1']⟩ := by
  simp only [openURI_UDP, URI.ignoreConnrefusedOrDefault, URI.connectedOrDefault,
    decide_eq_true_eq]
  congr!

theorem openURI_UDP_eq_ok : openURI_UDP uri = .ok call ↔ uri.port ≠ 0 ∧
    (uri.ignoreConnrefusedOrDefault = ['0'] → uri.connectedOrDefault = ['1']) ∧
    ∃ port, stoi (orDefault uri.localPort ['0']) = .ok port ∧
      call = ⟨uri.host, uri.port, port.1, uri.ignoreConnrefusedOrDefault = ['1'],
        uri.connectedOrDefault = ['1'], orDefault uri.ignoreHostunreach ['0'] = ['1'],
        orDefault uri.ignoreNetunreach ['0'] = ['1']⟩ := by
  rw [openURI_UDP_eq]
  by_cases hport : uri.port = 0
  · simp [hport]
  by_cases hthrow : uri.ignoreConnrefusedOrDefault = ['0'] ∧ uri.connectedOrDefault ≠ ['1']
  · simp [hport, hthrow]
  rw [if_neg hport, if_neg hthrow]
  have hgiven : uri.ignoreConnrefusedOrDefault = ['0'] → uri.connectedOrDefault = ['1'] :=
    fun h => not_not.mp fun hne => hthrow ⟨h, hne⟩
  cases hstoi : stoi (orDefault uri.localPort ['0']) with
  | error x => simp [Except.map]
  | ok port =>
    simp only [Except.map, Except.ok.injEq, exists_eq_left', ne_eq, hport, not_false_eq_true,
      true_and]
    exact eq_comm.trans (and_iff_right hgiven).symm

theorem documented_of_connrefused (h : openURI_UDP uri = .ok call)
    (hrule : call.connected = false → call.ignoreConnrefused = true) : Documented uri call := by
  obtain ⟨hport, hthrow, port, hstoi, rfl⟩ := openURI_UDP_eq_ok.mp h
  refine ⟨⟨rfl, rfl⟩, ⟨port.2, hstoi⟩, hrule, passed_orDefault _ _, passed_orDefault _ _,
    passed_orDefault _ _, passed_orDefault _ _, ?_, ?_, ?_, ?_⟩
  · intro habsent
    rw [URI.connectedOrDefault, orDefault_absent habsent]
    by_cases hlocal : uri.localPort = [] <;> simp [hlocal]
  · intro habsent
    rw [URI.ignoreConnrefusedOrDefault, orDefault_absent habsent]
    by_cases hlocal : uri.localPort = [] <;> by_cases hconn : uri.connectedOrDefault = ['1'] <;>
      simp [hlocal, hconn]
  · intro habsent
    rw [orDefault_absent habsent]
    rfl
  · intro habsent
    rw [orDefault_absent habsent]
    rfl

/-- The call follows the documentation unless a value of `ignore_connrefused` is misunderstood. -/
theorem openURI_UDP_documented_iff (uri : URI) :
    (∀ call, openURI_UDP uri = .ok call → Documented uri call) ↔ ¬ Unruled uri := by
  constructor
  · intro h hunruled
    obtain ⟨hport, hunconn, hvalue, hbind⟩ := hunruled
    obtain ⟨port, hstoi⟩ := bindable_iff.mp hbind
    simp only [List.mem_cons, List.not_mem_nil, or_false, not_or] at hvalue
    obtain ⟨hgiven, hzero, hone⟩ := hvalue
    have hpassed : uri.ignoreConnrefusedOrDefault = uri.ignoreConnrefused := orDefault_given hgiven
    have hcall := h _ (openURI_UDP_eq_ok.mpr
      ⟨hport, fun h => absurd (hpassed ▸ h) hzero, port, hstoi, rfl⟩)
    have hrefused := hcall.connrefused (decide_eq_false (unconnected_iff.mp hunconn))
    exact hone (hpassed ▸ of_decide_eq_true hrefused)
  · intro h call hcall
    refine documented_of_connrefused hcall ?_
    obtain ⟨hport, hthrow, port, hstoi, rfl⟩ := openURI_UDP_eq_ok.mp hcall
    intro hconn
    have hunconn : uri.connectedOrDefault ≠ ['1'] := of_decide_eq_false hconn
    by_contra hrefused
    refine h ⟨hport, unconnected_iff.mpr hunconn, ?_, bindable_iff.mpr ⟨port, hstoi⟩⟩
    simp only [decide_eq_true_eq] at hrefused
    simp only [List.mem_cons, List.not_mem_nil, or_false, not_or]
    -- any of the three would have thrown, or have been passed as true
    refine ⟨fun habsent => ?_, fun hzero => ?_, fun hone => ?_⟩
    · refine hrefused ?_
      rw [URI.ignoreConnrefusedOrDefault, orDefault_absent habsent, if_neg hunconn]
    · refine hunconn (hthrow ?_)
      rw [URI.ignoreConnrefusedOrDefault, orDefault_given (by simp [hzero]), hzero]
    · refine hrefused ?_
      rw [URI.ignoreConnrefusedOrDefault, orDefault_given (by simp [hone]), hone]

/-- An unconnected stream that reports refused connections. -/
theorem openURI_UDP_not_documented : ∃ uri call, uri.port ≠ 0 ∧
    URI.parse "udp://h:1?connected=0&ignore_connrefused=2".toList = .ok uri ∧
    openURI_UDP uri = .ok call ∧ call.connected = false ∧ call.ignoreConnrefused = false ∧
    ¬ Documented uri call := by
  have hderives : Derives "udp://h:1?connected=0&ignore_connrefused=2".toList
      ⟨"udp".toList, "h".toList, 1, insertAll ∅ [("connected".toList, ['0']),
        ("ignore_connrefused".toList, ['2'])]⟩ (some ['1'])
      [("connected".toList, ['0']), ("ignore_connrefused".toList, ['2'])] :=
    ⟨by decide, by decide, by simp, by simp, by decide, rfl, by simp [Separable]⟩
  refine ⟨_, ⟨"h".toList, 1, 0, false, false, false, false⟩, by decide,
    hderives.parse_eq (by decide), by decide, rfl, rfl, ?_⟩
  intro h
  exact absurd (h.connrefused rfl) (by decide)

end IodriversBase
