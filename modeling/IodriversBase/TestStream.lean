import IodriversBase.Driver

namespace IodriversBase

/-- A `TestStream`.  Expectations and replies are queued together. -/
structure TestStream where
  toDriver : Bytes
  fromDriver : Bytes
  expectations : List Bytes
  replies : List Bytes
  mockMode : Bool
  eof : Bool
  paired : expectations.length = replies.length
  deriving DecidableEq

def hexText (data : Bytes) : String :=
  String.ofList (data.flatMap fun b => [' ', (b.toNat / 16).digitChar, (b.toNat % 16).digitChar])

namespace TestStream

/-- The constructor. -/
def new : TestStream := ⟨[], [], [], [], false, false, rfl⟩

def pushDataToDriver (s : TestStream) (data : Bytes) : TestStream :=
  { s with toDriver := s.toDriver ++ data }

def readDataFromDriver (s : TestStream) : Bytes × TestStream :=
  (s.fromDriver, { s with fromDriver := [] })

/-- `TestStream::EXPECT_REPLY`. -/
def expectReply (s : TestStream) (expectation reply : Bytes) : Except Exn Unit × TestStream :=
  if ¬ s.mockMode then (.error .mockContextException, s)
  else
    (.ok (), { s with
      expectations := s.expectations ++ [expectation]
      replies := s.replies ++ [reply]
      paired := by simp [s.paired] })

def read (s : TestStream) (bufferSize : ℕ) : Bytes × TestStream :=
  (s.toDriver.take bufferSize, { s with toDriver := s.toDriver.drop bufferSize })

def clearExpectations (s : TestStream) : TestStream :=
  { s with expectations := [], replies := [], paired := rfl }

/-- The front of both queues leaves, and the reply is there to be read. -/
def reply (s : TestStream) : TestStream :=
  { s with
    toDriver := s.toDriver ++ s.replies.headD []
    fromDriver := []
    expectations := s.expectations.tail
    replies := s.replies.tail
    paired := by simp [s.paired] }

def write (s : TestStream) (buffer : Bytes) :
    Except Exn {n : ℕ // n ≤ buffer.length} × TestStream :=
  let s := { s with fromDriver := s.fromDriver ++ buffer }
  if s.mockMode then
    match s.expectations with
    | [] => (.error (.runtimeError ("Message received, but there are no expectations left:\n" ++
        hexText s.fromDriver)), s)
    | expected :: _ =>
      if s.fromDriver = expected then (.ok (wroteAll buffer), s.reply)
      else (.error (.invalidArgument ("IODRIVERS_BASE_MOCK failure" ++ "\nExpected" ++
        hexText expected ++ "\nBut got " ++ hexText s.fromDriver)), s.clearExpectations)
  else (.ok (wroteAll buffer), s)

def clear (s : TestStream) : TestStream := { s with toDriver := [] }

def expectationsAreEmpty (s : TestStream) : Bool := s.expectations.isEmpty

def setMockMode (s : TestStream) (mode : Bool) : TestStream :=
  { s with mockMode := mode, fromDriver := [] }

def setEOF (s : TestStream) (flag : Bool) : TestStream := { s with eof := flag }

/-- As a stream, beside the rest `ω` of the world; the descriptor is `INVALID_FD`. -/
def stream {ω : Type} : IOStream (TestStream × ω) where
  waitRead _ w := (.ok (¬ w.1.toDriver.isEmpty), w)
  waitWrite _ w := (.ok true, w)
  read n w := (.ok ⟨(w.1.read n).1, List.length_take_le n w.1.toDriver⟩, (w.1.read n).2, w.2)
  write data w := ((w.1.write data).1, (w.1.write data).2, w.2)
  clear w := (w.1.clear, w.2)
  eof w := w.1.eof
  getFileDescriptor _ := -1
  delete w := w

/-- What a driver and a test do with the stream. -/
inductive Op
  | expectReply (expectation reply : Bytes)
  | write (buffer : Bytes)
  | read (bufferSize : ℕ)
  | pushDataToDriver (data : Bytes)
  | readDataFromDriver
  | clear
  | clearExpectations
  | setMockMode (mode : Bool)
  | setEOF (flag : Bool)

/-- The stream after an operation, whether it returns or throws. -/
def after (s : TestStream) : Op → TestStream
  | .expectReply expectation reply => (s.expectReply expectation reply).2
  | .write buffer => (s.write buffer).2
  | .read n => (s.read n).2
  | .pushDataToDriver data => s.pushDataToDriver data
  | .readDataFromDriver => s.readDataFromDriver.2
  | .clear => s.clear
  | .clearExpectations => s.clearExpectations
  | .setMockMode mode => s.setMockMode mode
  | .setEOF flag => s.setEOF flag

/-- The stream after the operations `ops` on a new one. -/
def run (ops : List Op) : TestStream := ops.foldl after new

variable {s : TestStream} {w : Bytes}

theorem write_unexpected (hmock : s.mockMode = true) (hnone : s.expectations = []) :
    s.write w = (.error (.runtimeError ("Message received, but there are no expectations left:\n" ++
      hexText (s.fromDriver ++ w))), { s with fromDriver := s.fromDriver ++ w }) := by
  simp [write, hmock, hnone]

theorem write_matched {expected : Bytes} {es : List Bytes} (hmock : s.mockMode = true)
    (hfront : s.expectations = expected :: es) (h : s.fromDriver ++ w = expected) :
    s.write w = (.ok (wroteAll w), s.reply) := by
  simp [write, hmock, hfront, h, reply]

theorem write_mismatched {expected : Bytes} {es : List Bytes} (hmock : s.mockMode = true)
    (hfront : s.expectations = expected :: es) (h : s.fromDriver ++ w ≠ expected) :
    s.write w = (.error (.invalidArgument ("IODRIVERS_BASE_MOCK failure" ++ "\nExpected" ++
      hexText expected ++ "\nBut got " ++ hexText (s.fromDriver ++ w))),
        { s.clearExpectations with fromDriver := s.fromDriver ++ w }) := by
  simp [write, hmock, hfront, h, clearExpectations]

theorem write_ok {n : {n : ℕ // n ≤ w.length}} (h : (s.write w).1 = .ok n) : n = wroteAll w := by
  unfold write at h
  dsimp only at h
  split at h
  · split at h
    · cases h
    · split at h
      · exact (Except.ok.inj h).symm
      · cases h
  · exact (Except.ok.inj h).symm

theorem write_mockMode : (s.write w).2.mockMode = s.mockMode := by
  unfold write
  dsimp only
  split
  · split
    · rfl
    · split <;> rfl
  · rfl

theorem after_mockMode {op : Op} (hop : ∀ mode, op ≠ .setMockMode mode) :
    (s.after op).mockMode = s.mockMode := by
  cases op with
  | expectReply expectation reply =>
    simp only [after, expectReply]
    split <;> rfl
  | write buffer => exact write_mockMode
  | setMockMode mode => exact absurd rfl (hop mode)
  | _ => rfl

theorem foldl_mockMode {ops : List Op} (hops : ∀ mode, .setMockMode mode ∉ ops) :
    (ops.foldl after s).mockMode = s.mockMode := by
  induction ops generalizing s with
  | nil => rfl
  | cons op ops ih =>
    have hop : ∀ mode, op ≠ .setMockMode mode := by
      rintro mode rfl
      exact hops mode List.mem_cons_self
    exact (ih fun mode hm => hops mode (List.mem_cons_of_mem _ hm)).trans (after_mockMode hop)

/-- A write is judged on its own bytes: it succeeds when they are the next expectation, and then
this expectation and its reply leave, the reply behind what is there to be read. -/
structure JudgedAlone (s : TestStream) (w : Bytes) : Prop where
  accepted : (s.write w).1.isOk = true ↔ s.expectations.head? = some w
  answered : (s.write w).1.isOk = true → (s.write w).1 = .ok (wroteAll w) ∧
    ∃ es reply rs, s.expectations = w :: es ∧ s.replies = reply :: rs ∧
      (s.write w).2.expectations = es ∧ (s.write w).2.replies = rs ∧
      (s.write w).2.toDriver = s.toDriver ++ reply
  paired : (s.write w).2.expectations.length = (s.write w).2.replies.length

/-- No bytes of an earlier write are left, or neither `w` nor `w` behind them comes next. -/
def Unspoilt (s : TestStream) (w : Bytes) : Prop :=
  s.fromDriver = [] ∨
    s.expectations.head? ≠ some w ∧ s.expectations.head? ≠ some (s.fromDriver ++ w)

def verdicts : TestStream → List Op → List Bool
  | _, [] => []
  | s, .write w :: ops => (s.write w).1.isOk :: (s.write w).2.verdicts ops
  | s, op :: ops => (s.after op).verdicts ops

/-- Which writes should: each is compared with the next expectation of the queue `q`, and one
that fails leaves the queue empty. -/
def judge : List Bytes → List Op → List Bool
  | _, [] => []
  | q, .expectReply expectation _ :: ops => judge (q ++ [expectation]) ops
  | q, .write w :: ops =>
    decide (q.head? = some w) :: judge (if q.head? = some w then q.tail else []) ops
  | _, .clearExpectations :: ops => judge [] ops
  | q, _ :: ops => judge q ops

theorem write_isOk (hmock : s.mockMode = true) :
    (s.write w).1.isOk = decide (s.expectations.head? = some (s.fromDriver ++ w)) := by
  cases hfront : s.expectations with
  | nil => rw [write_unexpected hmock hfront]; rfl
  | cons expected es =>
    by_cases h : s.fromDriver ++ w = expected
    · rw [write_matched hmock hfront h]
      simp [h, Except.isOk, Except.toBool]
    · rw [write_mismatched hmock hfront h]
      simp [Ne.symm h, Except.isOk, Except.toBool]

theorem write_failed (hmock : s.mockMode = true) (h : (s.write w).1.isOk = false) :
    (s.write w).2.expectations = [] := by
  rw [write_isOk hmock, decide_eq_false_iff_not] at h
  cases hfront : s.expectations with
  | nil => rw [write_unexpected hmock hfront]; exact hfront
  | cons expected es =>
    have hne : s.fromDriver ++ w ≠ expected := by
      intro heq
      simp [hfront, heq] at h
    rw [write_mismatched hmock hfront hne]
    rfl

theorem judgedAlone_iff (hmock : s.mockMode = true) : s.JudgedAlone w ↔ s.Unspoilt w := by
  constructor
  · intro h
    by_contra hspoilt
    simp only [Unspoilt, not_or, not_and_or, ne_eq, not_not] at hspoilt
    have haccepted := h.accepted
    rw [write_isOk hmock, decide_eq_true_iff] at haccepted
    have hboth : s.expectations.head? = some w ∧
        s.expectations.head? = some (s.fromDriver ++ w) :=
      hspoilt.2.elim (fun hw => ⟨hw, haccepted.mpr hw⟩) (fun hw => ⟨haccepted.mp hw, hw⟩)
    have heq : w = s.fromDriver ++ w := Option.some.inj (hboth.1.symm.trans hboth.2)
    exact hspoilt.1 (by simpa using heq.symm)
  · intro h
    have haccepted : (s.write w).1.isOk = true ↔ s.expectations.head? = some w := by
      rw [write_isOk hmock, decide_eq_true_iff]
      apply h.elim
      · intro hnone
        rw [hnone, List.nil_append]
      · intro hne
        exact iff_of_false hne.2 hne.1
    refine ⟨haccepted, ?_, (s.write w).2.paired⟩
    intro hok
    have hw := haccepted.mp hok
    rw [write_isOk hmock, decide_eq_true_iff, hw] at hok
    cases hfront : s.expectations with
    | nil => simp [hfront] at hw
    | cons expected es =>
      cases hreplies : s.replies with
      | nil =>
        have hpaired := s.paired
        simp [hfront, hreplies] at hpaired
      | cons reply rs =>
        obtain rfl : expected = w := by simpa [hfront] using hw
        rw [write_matched hmock hfront (Option.some.inj hok).symm]
        refine ⟨rfl, es, reply, rs, rfl, rfl, ?_⟩
        simp [TestStream.reply, hfront, hreplies]

theorem verdicts_eq_judge {ops : List Op} (hmock : s.mockMode = true)
    (hops : ∀ mode, .setMockMode mode ∉ ops)
    (h : ∀ before w rest, ops = before ++ .write w :: rest →
      (before.foldl after s).Unspoilt w) :
    s.verdicts ops = judge s.expectations ops := by
  induction ops generalizing s with
  | nil => simp [verdicts, judge]
  | cons op ops ih =>
    have hop : ∀ mode, op ≠ .setMockMode mode := by
      rintro mode rfl
      exact hops mode List.mem_cons_self
    have hrest := ih ((after_mockMode hop).trans hmock)
      (fun mode hm => hops mode (List.mem_cons_of_mem _ hm))
      (fun before w rest heq => h (op :: before) w rest (by rw [heq]; rfl))
    cases op with
    | expectReply expectation reply =>
      simp only [verdicts, judge, hrest]
      simp [after, expectReply, hmock]
    | write w =>
      have halone := (judgedAlone_iff hmock).mpr (h [] w ops rfl)
      have hok : (s.write w).1.isOk = decide (s.expectations.head? = some w) := by
        rw [Bool.eq_iff_iff, halone.accepted, decide_eq_true_iff]
      have hqueue : (s.write w).2.expectations =
          if s.expectations.head? = some w then s.expectations.tail else [] := by
        by_cases hw : s.expectations.head? = some w
        · obtain ⟨-, es, reply, rs, hes, -, hes', -⟩ := halone.answered (by simp [hok, hw])
          rw [if_pos hw, hes', hes, List.tail_cons]
        · rw [if_neg hw, write_failed hmock (by simp [hok, hw])]
      simp only [verdicts, judge, hok, ← hqueue]
      exact congrArg _ hrest
    | setMockMode mode => exact absurd rfl (hop mode)
    | _ => exact hrest

/-- In the run `ops` from `s`, every write is judged on its own bytes, and one that fails leaves
no trace in the judgement of those after it. -/
def JudgesAlone (s : TestStream) (ops : List Op) : Prop :=
  ∀ before w rest, ops = before ++ .write w :: rest →
    (before.foldl after s).JudgedAlone w ∧
    (((before.foldl after s).write w).1.isOk = false →
      ((before.foldl after s).write w).2.verdicts rest = judge [] rest)

/-- The writes of a run in mock mode are judged on their own bytes exactly when none finds the
bytes of a failed one before its own, where this makes a difference. -/
theorem mock_judges_alone_iff (earlier ops : List Op) (hmock : (run earlier).mockMode = true)
    (hops : ∀ mode, .setMockMode mode ∉ ops) :
    (run earlier).JudgesAlone ops ↔ ∀ before w rest, ops = before ++ .write w :: rest →
      (before.foldl after (run earlier)).Unspoilt w := by
  have hmode : ∀ before w rest, ops = before ++ .write w :: rest →
      (before.foldl after (run earlier)).mockMode = true := by
    intro before w rest heq
    rw [foldl_mockMode, hmock]
    intro mode hm
    exact hops mode (by simp [heq, hm])
  constructor
  · intro h before w rest heq
    exact (judgedAlone_iff (hmode before w rest heq)).mp (h before w rest heq).1
  · intro h before w rest heq
    have hm := hmode before w rest heq
    refine ⟨(judgedAlone_iff hm).mpr (h before w rest heq), fun hfail => ?_⟩
    rw [← write_failed hm hfail]
    apply verdicts_eq_judge
    · rw [← hm]
      exact write_mockMode
    · intro mode hmem
      exact hops mode (by simp [heq, hmem])
    · intro before' w' rest' heq'
      have := h (before ++ .write w :: before') w' rest' (by simp [heq, heq'])
      rwa [List.foldl_append] at this

theorem mock_judges_alone_iff_sample :
    (run [.setMockMode true, .expectReply [1] [2]]).JudgesAlone [.write [1]] ↔
      ∀ before w rest, [.write [1]] = before ++ .write w :: rest →
        (before.foldl after (run [.setMockMode true, .expectReply [1] [2]])).Unspoilt w :=
  mock_judges_alone_iff [.setMockMode true, .expectReply [1] [2]] [.write [1]] rfl (by simp)

/-- After a write that nothing was expected for, the write of the next expectation fails. -/
theorem mock_judges_failed_bytes :
    (run [.setMockMode true]).mockMode = true ∧
      ((run [.setMockMode true]).write [9]).1.isOk = false ∧
      (run [.setMockMode true, .write [9], .expectReply [1] [2]]).expectations = [[1]] ∧
      ((run [.setMockMode true, .write [9], .expectReply [1] [2]]).write [1]).1.isOk = false ∧
      ¬ (run [.setMockMode true]).JudgesAlone [.write [9], .expectReply [1] [2], .write [1]] := by
  refine ⟨rfl, rfl, rfl, rfl, fun h => ?_⟩
  have hjudged := (h [.write [9], .expectReply [1] [2]] [1] [] rfl).1.accepted
  exact absurd (hjudged.mpr rfl) (by decide)

end TestStream

end IodriversBase
