import IodriversBase.TestStream
import IodriversBase.Worlds

namespace IodriversBase

open Loop

variable {ω : Type}

/-- A `Fixture` whose driver is in test mode, and the rest of the world. -/
structure Fixture (ω : Type) where
  driver : Driver
  stream : TestStream
  rest : ω

/-- The ports of a fixture's driver, with a clock and listeners of the rest of the world. -/
def testPorts (now : ω → Time × ω) (listeners : List (ℕ × IOListener ω)) :
    Ports (TestStream × ω) := portsBeside TestStream.stream now listeners

inductive ExpectationsLeft
  | testEndsWithExpectationsLeft

namespace Fixture

def expectReply (f : Fixture ω) (expectation reply : Bytes) : Except Exn Unit × Fixture ω :=
  ((f.stream.expectReply expectation reply).1,
    { f with stream := (f.stream.expectReply expectation reply).2 })

/-- `Fixture::writePacket`.  The test stream takes all it is given or throws, so that one
iteration is enough. -/
def writePacket (now : ω → Time × ω) (listeners : List (ℕ × IOListener ω)) (f : Fixture ω)
    (data : Bytes) : Option (Except Exn Bool × Fixture ω) :=
  match f.driver.writePacket (testPorts now listeners) 1 data f.driver.writeTimeout
      (f.stream, f.rest) with
  | none => none
  | some (r, driver, stream, rest) => some (r, ⟨driver, stream, rest⟩)

def pushDataToDriver (f : Fixture ω) (data : Bytes) : Fixture ω :=
  { f with stream := f.stream.pushDataToDriver data }

def readDataFromDriver (f : Fixture ω) : Bytes × Fixture ω :=
  (f.stream.readDataFromDriver.1, { f with stream := f.stream.readDataFromDriver.2 })

def validateExpectationsAreEmpty (f : Fixture ω) : Except ExpectationsLeft Unit :=
  if ¬ f.stream.expectationsAreEmpty then .error .testEndsWithExpectationsLeft else .ok ()

def setMockMode (f : Fixture ω) (mode : Bool) : Fixture ω :=
  { f with stream := f.stream.setMockMode mode }

def clearExpectations (f : Fixture ω) : Fixture ω :=
  { f with stream := f.stream.clearExpectations }

def tearDown (f : Fixture ω) : Option String :=
  match f.validateExpectationsAreEmpty with
  | .ok () => none
  | .error .testEndsWithExpectationsLeft =>
    some "IODRIVERS_BASE_MOCK Error: Test reached its end without satisfying all expecations."

end Fixture

/-- `GTestMockContext` and `BoostMockContext`. -/
inductive MockContext
  | gTest
  | boost
  deriving DecidableEq

/-- The constructors. -/
def MockContext.enter (_ : MockContext) (f : Fixture ω) : Fixture ω := f.setMockMode true

/-- The destructors, with the failure they record. -/
def MockContext.leave (context : MockContext) (f : Fixture ω) : Option String × Fixture ω :=
  match context with
  | .gTest =>
    let f := f.setMockMode false
    let f := f.clearExpectations
    (f.tearDown, f)
  | .boost =>
    let failure := f.tearDown
    (failure, f.setMockMode false)

/-- What a test does in a scope. -/
inductive ScopeOp
  | expectReply (expectation reply : Bytes)
  | writePacket (data : Bytes)
  | pushDataToDriver (data : Bytes)
  | readDataFromDriver

/-- A scope: the fixture, and for each expectation that was neither matched nor dropped, oldest
first, whether it was registered in this scope. -/
structure Scope (ω : Type) where
  fixture : Fixture ω
  marks : List Bool

/-- Where a scope starts. -/
def Scope.start (context : MockContext) (f : Fixture ω) : Scope ω :=
  ⟨context.enter f, f.stream.expectations.map fun _ => false⟩

/-- A write that returns has matched the oldest expectation; a mismatch is reported by
`std::invalid_argument`, and drops all of them. -/
def Scope.after (now : ω → Time × ω) (listeners : List (ℕ × IOListener ω)) (s : Scope ω) :
    ScopeOp → Option (Scope ω)
  | .expectReply expectation reply =>
    match s.fixture.expectReply expectation reply with
    | (.ok (), f) => some ⟨f, s.marks ++ [true]⟩
    | (.error _, f) => some ⟨f, s.marks⟩
  | .writePacket data =>
    match s.fixture.writePacket now listeners data with
    | none => none
    | some (.ok _, f) => some ⟨f, s.marks.tail⟩
    | some (.error (.invalidArgument _), f) => some ⟨f, []⟩
    | some (.error _, f) => some ⟨f, s.marks⟩
  | .pushDataToDriver data => some { s with fixture := s.fixture.pushDataToDriver data }
  | .readDataFromDriver => some { s with fixture := s.fixture.readDataFromDriver.2 }

/-- The whole scope. -/
def Scope.run (now : ω → Time × ω) (listeners : List (ℕ × IOListener ω)) (s : Scope ω) :
    List ScopeOp → Option (Scope ω)
  | [] => some s
  | op :: ops =>
    match s.after now listeners op with
    | none => none
    | some s => s.run now listeners ops

variable (now : ω → Time × ω) (listeners : List (ℕ × IOListener ω))

theorem writeIteration_wroteAll {io : Ports ω} {stream : IOStream ω} {buffer : Bytes}
    {timeOut : Timeout} {w : ω} (w' : ω) (h : stream.write buffer w = (.ok (wroteAll buffer), w')) :
    writeIteration io stream buffer timeOut ⟨w, 0⟩ =
      .done (.ok true, io.notifyWrite buffer w') := by
  have h' : stream.write (buffer.drop 0) w = (.ok (wroteAll buffer), w') := h
  unfold writeIteration
  dsimp only
  rw [h']
  simp

theorem writeIteration_threw {io : Ports ω} {stream : IOStream ω} {buffer : Bytes}
    {timeOut : Timeout} {w : ω} {x : Exn} (w' : ω) (h : stream.write buffer w = (.error x, w')) :
    writeIteration io stream buffer timeOut ⟨w, 0⟩ = .done (.error x, w') := by
  have h' : stream.write (buffer.drop 0) w = (.error x, w') := h
  unfold writeIteration
  dsimp only
  rw [h']

theorem Fixture.writePacket_eq (f : Fixture ω) (data : Bytes) : ∃ driver rest,
    f.writePacket now listeners data = some ((f.stream.write data).1.map fun _ => true,
      ⟨driver, (f.stream.write data).2, rest⟩) := by
  have hio : (testPorts now listeners).stream = some TestStream.stream := rfl
  unfold Fixture.writePacket Driver.writePacket Driver.writePacketMilliseconds
  simp only [hio, Loop.run]
  cases hr : (f.stream.write data).1 with
  | error x =>
    rw [writeIteration_threw (x := x) ((f.stream.write data).2, (now f.rest).2)
      (Prod.ext hr rfl)]
    exact ⟨f.driver, (now f.rest).2, rfl⟩
  | ok n =>
    rw [TestStream.write_ok hr] at hr
    rw [writeIteration_wroteAll ((f.stream.write data).2, (now f.rest).2) (Prod.ext hr rfl)]
    have hkept := notifyWrite_beside TestStream.stream now listeners data
      ((f.stream.write data).2, (now f.rest).2)
    change ((testPorts now listeners).notifyWrite data _).1 = _ at hkept
    generalize (testPorts now listeners).notifyWrite data
      ((f.stream.write data).2, (now f.rest).2) = w at hkept
    obtain ⟨stream, rest⟩ := w
    obtain rfl : stream = (f.stream.write data).2 := hkept
    exact ⟨_, rest, rfl⟩

/-- The fixture is in mock mode, and each expectation of the queue has its mark. -/
structure Scope.Tracked (s : Scope ω) : Prop where
  mock : s.fixture.stream.mockMode = true
  marks : s.marks.length = s.fixture.stream.expectations.length

theorem Scope.tracked_start (context : MockContext) (f : Fixture ω) :
    (Scope.start context f).Tracked := by
  constructor
  · rfl
  · apply List.length_map

theorem Scope.tracked_writePacket {s : Scope ω} (h : s.Tracked) (data : Bytes) :
    ∃ s', s.after now listeners (.writePacket data) = some s' ∧ s'.Tracked := by
  obtain ⟨driver, rest, heq⟩ := s.fixture.writePacket_eq now listeners data
  have hmock : (s.fixture.stream.write data).2.mockMode = true :=
    TestStream.write_mockMode.trans h.mock
  simp only [Scope.after, heq]
  cases hfront : s.fixture.stream.expectations with
  | nil =>
    rw [TestStream.write_unexpected h.mock hfront] at hmock ⊢
    exact ⟨_, rfl, hmock, h.marks⟩
  | cons expected es =>
    by_cases hdata : s.fixture.stream.fromDriver ++ data = expected
    · rw [TestStream.write_matched h.mock hfront hdata] at hmock ⊢
      refine ⟨_, rfl, hmock, ?_⟩
      simp [TestStream.reply, h.marks]
    · rw [TestStream.write_mismatched h.mock hfront hdata] at hmock ⊢
      exact ⟨_, rfl, hmock, rfl⟩

theorem Scope.tracked_after {s : Scope ω} (h : s.Tracked) (op : ScopeOp) :
    ∃ s', s.after now listeners op = some s' ∧ s'.Tracked := by
  cases op with
  | expectReply expectation reply =>
    simp only [Scope.after, Fixture.expectReply, TestStream.expectReply, h.mock, not_true_eq_false,
      if_false]
    refine ⟨_, rfl, rfl, ?_⟩
    simp [h.marks]
  | writePacket data => exact Scope.tracked_writePacket now listeners h data
  | pushDataToDriver data => exact ⟨_, rfl, h.mock, h.marks⟩
  | readDataFromDriver => exact ⟨_, rfl, h.mock, h.marks⟩

theorem Scope.tracked_run {s : Scope ω} (h : s.Tracked) (ops : List ScopeOp) :
    ∃ s', s.run now listeners ops = some s' ∧ s'.Tracked := by
  induction ops generalizing s with
  | nil => exact ⟨s, rfl, h⟩
  | cons op ops ih =>
    obtain ⟨s', hs', h'⟩ := Scope.tracked_after now listeners h op
    obtain ⟨s'', hs'', h''⟩ := ih h'
    exact ⟨s'', by rw [Scope.run, hs']; exact hs'', h''⟩

/-- A scope ends as it should: a failure is recorded exactly when an expectation registered in it
was neither matched nor dropped, and nothing is left for the next scope. -/
structure MockContext.EndsRight (context : MockContext) (s : Scope ω) : Prop where
  failure : (context.leave s.fixture).1.isSome = true ↔ true ∈ s.marks
  modeOff : (context.leave s.fixture).2.stream.mockMode = false
  expectations : (context.leave s.fixture).2.stream.expectations = []
  replies : (context.leave s.fixture).2.stream.replies = []

/-- With GTest no expectation of the scope is left, with Boost none at all. -/
def MockContext.Met (context : MockContext) (s : Scope ω) : Prop :=
  match context with
  | .gTest => true ∉ s.marks
  | .boost => s.marks = []

theorem Fixture.tearDown_isSome (f : Fixture ω) :
    f.tearDown.isSome = true ↔ f.stream.expectations ≠ [] := by
  unfold Fixture.tearDown Fixture.validateExpectationsAreEmpty TestStream.expectationsAreEmpty
  by_cases h : f.stream.expectations = []
  · simp [h]
  · simp [h]

theorem MockContext.gTest_endsRight_iff {s : Scope ω} :
    MockContext.gTest.EndsRight s ↔ true ∉ s.marks := by
  have hnone : (MockContext.gTest.leave s.fixture).1.isSome = true ↔ False := by
    simp [MockContext.leave, Fixture.tearDown_isSome, Fixture.clearExpectations,
      TestStream.clearExpectations]
  constructor
  · intro h hmem
    exact hnone.mp (h.failure.mpr hmem)
  · intro h
    exact ⟨hnone.trans (iff_of_false id h), rfl, rfl, rfl⟩

theorem MockContext.boost_endsRight_iff {s : Scope ω} (hs : s.Tracked) :
    MockContext.boost.EndsRight s ↔ s.marks = [] := by
  have hqueue : s.marks = [] ↔ s.fixture.stream.expectations = [] := by
    rw [← List.length_eq_zero_iff, hs.marks, List.length_eq_zero_iff]
  constructor
  · intro h
    exact hqueue.mpr h.expectations
  · intro h
    have hempty := hqueue.mp h
    refine ⟨?_, rfl, hempty, ?_⟩
    · simp [MockContext.leave, Fixture.tearDown_isSome, hempty, h]
    · have hpaired := s.fixture.stream.paired
      rw [hempty] at hpaired
      exact List.length_eq_zero_iff.mp hpaired.symm

/-- A scope ends as it should exactly when its expectations are met. -/
theorem mock_context_ends_right_iff (context : MockContext) (f : Fixture ω)
    (ops : List ScopeOp) :
    ∃ s, (Scope.start context f).run now listeners ops = some s ∧
      (context.EndsRight s ↔ context.Met s) := by
  obtain ⟨s, hs, htracked⟩ := Scope.tracked_run now listeners (Scope.tracked_start context f) ops
  refine ⟨s, hs, ?_⟩
  cases context with
  | gTest => exact MockContext.gTest_endsRight_iff
  | boost => exact MockContext.boost_endsRight_iff htracked

/-- One expectation that nothing is written for: the scope of GTest ends without a failure, the
one of Boost leaves the expectation in the queue. -/
theorem mock_contexts_end_wrong :
    (∃ s : Scope Unit, (Scope.start .gTest ⟨.new 10 false, .new, ()⟩).run (fun w => (0, w)) []
        [.expectReply [1] [2]] = some s ∧ s.marks = [true] ∧
        (MockContext.gTest.leave s.fixture).1 = none ∧ ¬ MockContext.gTest.EndsRight s) ∧
      ∃ s : Scope Unit, (Scope.start .boost ⟨.new 10 false, .new, ()⟩).run (fun w => (0, w)) []
        [.expectReply [1] [2]] = some s ∧ s.marks = [true] ∧
        (MockContext.boost.leave s.fixture).2.stream.expectations = [[1]] ∧
        ¬ MockContext.boost.EndsRight s := by
  refine ⟨⟨_, rfl, rfl, rfl, ?_⟩, ⟨_, rfl, rfl, rfl, ?_⟩⟩
  · intro h
    exact absurd (h.failure.mpr (List.mem_singleton.mpr rfl)) (by decide)
  · intro h
    exact absurd h.expectations (by decide)

end IodriversBase
