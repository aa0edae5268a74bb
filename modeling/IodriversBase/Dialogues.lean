import IodriversBase.BusyDevice
import IodriversBase.MockContexts
import IodriversBase.Reassembly

namespace IodriversBase

open Framing Loop

variable {ω : Type}

/-- `Fixture::readPacket`: the packet buffer has the size of the driver's.  Every read but the
last one takes a byte from the test stream, so that this fuel is enough. -/
def Fixture.readPacket (E : Extract ω) (now : ω → Time × ω) (listeners : List (ℕ × IOListener ω))
    (f : Fixture ω) : Option (Except Exn Bytes × Fixture ω) :=
  match f.driver.readPacket E.beside (testPorts now listeners) (f.stream.toDriver.length + 1)
      f.driver.maxPacketSize f.driver.readTimeout f.driver.readTimeout (f.stream, f.rest) with
  | none => none
  | some (r, driver, stream, rest) => some (r, ⟨driver, stream, rest⟩)

/-- What a test does. -/
inductive TestOp
  | pushDataToDriver (data : Bytes)
  | readDataFromDriver
  | readPacket
  | writePacket (data : Bytes)
  | expectReply (expectation reply : Bytes)
  | setMockMode (mode : Bool)
  | clearExpectations
  | validateExpectationsAreEmpty
  | setReadTimeout (timeout : Time)
  | setExtractLastPacket (flag : Bool)

/-- What a test sees: of exceptions, whether it was a timeout. -/
inductive TestReply
  | packet (p : Bytes)
  | data (bytes : Bytes)
  | done
  | timedOut
  | threw
  deriving DecidableEq

/-- What a call comes to. -/
def TestReply.of {α : Type} (reply : α → TestReply) : Except Exn α → TestReply
  | .ok a => reply a
  | .error (.timeoutError _ _) => .timedOut
  | .error _ => .threw

/-- A step of a test. -/
def Fixture.perform (E : Extract ω) (now : ω → Time × ω) (listeners : List (ℕ × IOListener ω))
    (f : Fixture ω) : TestOp → Option (TestReply × Fixture ω)
  | .pushDataToDriver data => some (.done, f.pushDataToDriver data)
  | .readDataFromDriver => some (.data f.readDataFromDriver.1, f.readDataFromDriver.2)
  | .readPacket => (f.readPacket E now listeners).map fun r => (.of .packet r.1, r.2)
  | .writePacket data =>
    (f.writePacket now listeners data).map fun r => (.of (fun _ => .done) r.1, r.2)
  | .expectReply expectation reply =>
    some (.of (fun _ => .done) (f.expectReply expectation reply).1,
      (f.expectReply expectation reply).2)
  | .setMockMode mode => some (.done, f.setMockMode mode)
  | .clearExpectations => some (.done, f.clearExpectations)
  | .validateExpectationsAreEmpty =>
    some (match f.validateExpectationsAreEmpty with
      | .ok () => .done
      | .error _ => .threw, f)
  | .setReadTimeout timeout => some (.done, { f with driver.readTimeout := timeout })
  | .setExtractLastPacket flag =>
    some (.done, { f with driver := f.driver.setExtractLastPacket flag })

/-- A dialogue of a driver and its device: what the device has said, how many packets of it were
taken, what it has been told since, and what it has yet to be told, with what it will say then. -/
structure Dialogue where
  said : Bytes
  taken : ℕ
  told : Bytes
  exchanges : List (Bytes × Bytes)
  mock : Bool
  last : Bool

namespace Dialogue

def new (last : Bool) : Dialogue := ⟨[], 0, [], [], false, last⟩

def ahead (e : Bytes → ℤ) (d : Dialogue) : List Bytes := (parse e d.said).drop d.taken

/-- The first packet to come is taken, or the last one and all before it. -/
def readPacket (e : Bytes → ℤ) (d : Dialogue) : TestReply × Dialogue :=
  ((if d.last then (d.ahead e).getLast? else (d.ahead e).head?).elim .timedOut .packet,
    { d with taken := if d.last then (parse e d.said).length
        else d.taken + ((d.ahead e).take 1).length })

/-- In mock mode the device answers what it expects, and nothing else. -/
def writePacket (d : Dialogue) (data : Bytes) : TestReply × Dialogue :=
  let told := d.told ++ data
  if d.mock then
    match d.exchanges with
    | [] => (.threw, { d with told := told })
    | (expectation, reply) :: exchanges =>
      if told = expectation then
        (.done, { d with said := d.said ++ reply, told := [], exchanges := exchanges })
      else (.threw, { d with told := told, exchanges := [] })
  else (.done, { d with told := told })

def perform (e : Bytes → ℤ) (d : Dialogue) : TestOp → Option (TestReply × Dialogue)
  | .pushDataToDriver data => some (.done, { d with said := d.said ++ data })
  | .readDataFromDriver => some (.data d.told, { d with told := [] })
  | .readPacket => some (d.readPacket e)
  | .writePacket data => some (d.writePacket data)
  | .expectReply expectation reply =>
    some (if d.mock then
      (.done, { d with exchanges := d.exchanges ++ [(expectation, reply)] }) else (.threw, d))
  | .setMockMode mode => some (.done, { d with mock := mode, told := [] })
  | .clearExpectations => some (.done, { d with exchanges := [] })
  | .validateExpectationsAreEmpty => some (if d.exchanges = [] then .done else .threw, d)
  | .setReadTimeout _ => some (.done, d)
  | .setExtractLastPacket flag => some (.done, { d with last := flag })

end Dialogue

section Reading

variable {e : Bytes → ℤ} {E : Extract ω} {d : Driver} {now : ω → Time × ω}
  {listeners : List (ℕ × IOListener ω)}

def TestStream.withToDriver (s : TestStream) (rest : Bytes) : TestStream :=
  { s with toDriver := rest }

@[simp] theorem TestStream.withToDriver_toDriver (s : TestStream) (rest : Bytes) :
    (s.withToDriver rest).toDriver = rest := rfl

/-- The driver was fed with a part of what the device has said; behind a packet there may be more
to be read. -/
structure FedFrom (e : Bytes → ℤ) (d : Driver) (s : TestStream) (cs : List Bytes) (rest : Bytes)
    (d' : Driver) : Prop where
  fed : Fed e d cs d'
  said : s.toDriver = cs.flatten ++ rest
  first : d.extractLast = false → d.finds e cs = (d.finds e cs).getLast?.toList
  all : d.extractLast = true ∨ d.finds e cs = [] → rest = []

structure FeedingFrom (e : Bytes → ℤ) (d : Driver) (s : TestStream) (cs : List Bytes)
    (rest : Bytes) (r : ReadState (TestStream × ω)) : Prop where
  fed : Fed e d cs r.driver
  said : s.toDriver = cs.flatten ++ rest
  stream : r.world.1 = s.withToDriver rest
  packet : r.packet = (d.finds e cs).getLast?.getD []
  first : d.extractLast = false → d.finds e cs = []
  room : r.driver.internalBuffer.length < r.driver.maxPacketSize

theorem Fed.hasRoom {cs : List Bytes} {d' : Driver} (hdec : Decides e d.maxPacketSize)
    (hM : 1 ≤ d.maxPacketSize) (h : Fed e d cs d') :
    d'.internalBuffer.length < d'.maxPacketSize := by
  rw [h.maxPacketSize]
  by_cases hne : d'.internalBuffer = []
  · rw [hne]
    exact hM
  · exact h.length_lt hdec hne

theorem TestStream.stream_read {n : ℕ} {w w' : TestStream × ω} {c}
    (h : TestStream.stream.read n w = (.ok c, w')) : c.val = w.1.toDriver.take n ∧
      w' = (w.1.withToDriver (w.1.toDriver.drop n), w.2) := by
  cases h
  exact ⟨rfl, rfl⟩

theorem notifyRead_test (now : ω → Time × ω) (listeners : List (ℕ × IOListener ω)) (data : Bytes)
    (w : TestStream × ω) : ((testPorts now listeners).notifyRead data w).1 = w.1 :=
  notifyRead_beside TestStream.stream now listeners data w

theorem effects_test (E : Extract ω) (bs : List Bytes) {w : TestStream × ω} {s : TestStream}
    (hw : w.1 = s) : ∃ w', E.beside.effects bs w = (s, w') :=
  ⟨(E.beside.effects bs w).2, Prod.ext ((effects_beside E bs w).trans hw) rfl⟩

/-- A read takes what there is room for; it takes nothing only when nothing is left. -/
theorem FeedingFrom.chunk {s : TestStream} {cs : List Bytes} {rest : Bytes}
    {r : ReadState (TestStream × ω)} (h : FeedingFrom e d s cs rest r) {n : ℕ} (hn : 0 < n) {c}
    {w' : TestStream × ω} (hread : TestStream.stream.read n r.world = (.ok c, w')) :
    ∃ rest', rest = c.val ++ rest' ∧ (c.val = [] → rest = []) ∧
      w' = (s.withToDriver rest', r.world.2) := by
  obtain ⟨hc, rfl⟩ := TestStream.stream_read hread
  rw [h.stream] at hc ⊢
  refine ⟨rest.drop n, by rw [hc]; exact (List.take_append_drop n rest).symm, fun h0 => ?_, rfl⟩
  rw [hc, TestStream.withToDriver_toDriver, List.take_eq_nil_iff] at h0
  exact h0.resolve_left hn.ne'

theorem FeedingFrom.iteration (hb : InBounds e) (hE : E.Answers e)
    (hdec : Decides e d.maxPacketSize) (hM : 1 ≤ d.maxPacketSize) {s : TestStream}
    {cs : List Bytes} {rest : Bytes} {r : ReadState (TestStream × ω)}
    (h : FeedingFrom e d s cs rest r) :
    (∃ r', readIteration E.beside (testPorts now listeners) TestStream.stream r = .again r' ∧
      (∃ cs rest, FeedingFrom e d s cs rest r') ∧
      r'.world.1.toDriver.length < r.world.1.toDriver.length) ∨
    ∃ b, readIteration E.beside (testPorts now listeners) TestStream.stream r = .done b ∧
      ∃ cs rest something d' w', b = (.ok ((d.finds e cs).getLast?.getD [], something), d',
        (s.withToDriver rest, w')) ∧ FedFrom e d s cs rest d' := by
  have hfeeding := h
  obtain ⟨hfed, hsaid, hstream, hpacket, hfirst, hroom⟩ := h
  have hlast := hfed.extractLast
  have hn : 0 < r.driver.maxPacketSize - r.driver.internalBuffer.length := by omega
  have hcases := readIteration_cases hb hE.beside (testPorts now listeners) TestStream.stream r
  generalize readIteration E.beside (testPorts now listeners) TestStream.stream r = next
    at hcases ⊢
  cases hcases with
  | threw hread => cases hread
  | noData hread hc =>
    -- the device has said nothing more, and the loop ends with the last packet found
    obtain ⟨rest', hrest, hnone, rfl⟩ := hfeeding.chunk hn hread
    rw [hc, List.nil_append] at hrest
    subst hrest
    refine .inr ⟨_, rfl, cs, rest, _, _, r.world.2, by rw [hpacket], hfed, hsaid, fun hf => ?_,
      fun _ => hnone hc⟩
    rw [hfirst hf]
    rfl
  | @packet c w' hread hc hextract hp =>
    obtain ⟨rest', rfl, -, rfl⟩ := hfeeding.chunk hn hread
    have hf : d.extractLast = false := hlast ▸ hextract
    obtain ⟨w'', hw⟩ := effects_test E (asked e false (r.driver.internalBuffer ++ c.val))
      (notifyRead_test now listeners c.val (s.withToDriver rest', r.world.2))
    have hfinds : d.finds e (cs ++ [c.val]) =
        [(cut e false (r.driver.internalBuffer ++ c.val)).packet] := by
      rw [hfed.finds_chunk, hfirst hf, hextract, asList, if_neg hp, List.nil_append]
    refine .inr ⟨_, rfl, cs ++ [c.val], rest', _, _, w'', by rw [hw, hfinds]; rfl,
      hfed.chunk c.val c.property, by simp [hsaid], fun _ => by rw [hfinds]; rfl, ?_⟩
    rw [hfinds, hf]
    simp
  | @full c w' hread hc hquiet hfull =>
    -- a framing that decides on a full buffer always leaves room
    have hroom' := (hfed.chunk c.val c.property).hasRoom hdec hM
    exact absurd hfull hroom'.ne
  | @again c w' hread hc hquiet hfull =>
    obtain ⟨rest', rfl, -, rfl⟩ := hfeeding.chunk hn hread
    obtain ⟨w'', hw⟩ := effects_test E
      (asked e r.driver.extractLast (r.driver.internalBuffer ++ c.val))
      (notifyRead_test now listeners c.val (s.withToDriver rest', r.world.2))
    have hpos := List.length_pos_iff.mpr hc
    refine .inl ⟨_, rfl, ⟨cs ++ [c.val], rest', hfed.chunk c.val c.property, by simp [hsaid], ?_,
      ?_, fun hf => ?_, (hfed.chunk c.val c.property).hasRoom hdec hM⟩, ?_⟩
    · rw [hw]
    · rw [hfed.finds_chunk, getLast_append_asList, hpacket]
    · rw [hfed.finds_chunk, hfirst hf, hlast, hf, hquiet (hlast.trans hf)]
      rfl
    · rw [hw, hstream]
      simp only [TestStream.withToDriver_toDriver, List.length_append]
      omega

theorem readPacketInternal_test (hb : InBounds e) (hE : E.Answers e)
    (hdec : Decides e d.maxPacketSize) (hM : 1 ≤ d.maxPacketSize) (s : TestStream) (w : ω)
    {fuel : ℕ} (hfuel : s.toDriver.length < fuel) : ∃ cs rest something d' w',
      d.readPacketInternal E.beside (testPorts now listeners) TestStream.stream fuel
          d.maxPacketSize (s, w) =
        some (.ok ((d.finds e cs).getLast?.getD [], something), d', (s.withToDriver rest, w')) ∧
      FedFrom e d s cs rest d' := by
  obtain ⟨w₀, hw⟩ := effects_test E (asked e d.extractLast d.internalBuffer) (w := (s, w)) rfl
  have hscan : (cut e d.extractLast d.internalBuffer).packet = (d.finds e []).getLast?.getD [] := by
    rw [Driver.finds_nil, asList]
    split_ifs with h0
    · exact h0
    · rfl
  rw [readPacketInternal_eq hb hE.beside _ _ _ le_rfl, hw, hscan]
  split_ifs with hp
  · have hne : d.finds e [] ≠ [] := fun h0 => hp.1 (by rw [h0]; rfl)
    refine ⟨[], s.toDriver, _, _, _, rfl, .start, rfl, fun _ => ?_, ?_⟩
    · rw [Driver.finds_nil, asList]
      split_ifs <;> rfl
    · rintro (htrue | hnone)
      · exact absurd htrue hp.2
      · exact absurd hnone hne
  · let r : ReadState (TestStream × ω) :=
      ⟨d.scanned e, (s, w₀), (d.finds e []).getLast?.getD [], false⟩
    have hfirst : d.extractLast = false → d.finds e [] = [] := by
      intro hf
      by_contra hne
      refine hp ⟨fun h0 => hne ?_, by simp [hf]⟩
      exact eq_nil_of_getLast?_getD (fun _ => ne_nil_of_mem_found) h0
    have hstart : FeedingFrom e d s [] s.toDriver r :=
      ⟨.start, rfl, rfl, rfl, hfirst, Fed.start.hasRoom hdec hM⟩
    obtain ⟨b, hrun, cs, rest, something, d', w', rfl, hfrom⟩ := run_total
      (I := fun r => ∃ cs rest, FeedingFrom e d s cs rest r) (fun r => r.world.1.toDriver.length)
      (fun r hr => hr.elim fun cs hr => hr.elim fun rest h => h.iteration hb hE hdec hM)
      ⟨[], s.toDriver, hstart⟩ hfuel
    exact ⟨cs, rest, something, d', w', hrun, hfrom⟩

/-- One iteration is enough: behind it there is a packet, or nothing left to wait for. -/
theorem waitIteration_test (hb : InBounds e) (hE : E.Answers e) (hdec : Decides e d.maxPacketSize)
    (hM : 1 ≤ d.maxPacketSize) (s : TestStream) (w : ω) {fuel : ℕ}
    (hfuel : s.toDriver.length < fuel) (packetTimeout startTime deadline : Time)
    (timeoutType : TimeoutType) : ∃ cs rest r d' w',
      waitIteration E.beside (testPorts now listeners) TestStream.stream fuel d.maxPacketSize
          packetTimeout startTime ⟨d, (s, w), deadline, timeoutType⟩ =
        .done (r, d', (s.withToDriver rest, w')) ∧
      FedFrom e d s cs rest d' ∧
      TestReply.of .packet r = (d.finds e cs).getLast?.elim .timedOut .packet := by
  obtain ⟨cs, rest, something, d', w', hint, hfrom⟩ := readPacketInternal_test hb hE hdec hM s w
    hfuel
  have hstep := waitIteration_step E.beside (testPorts now listeners) TestStream.stream fuel
    d.maxPacketSize packetTimeout startTime ⟨d, (s, w), deadline, timeoutType⟩
  generalize hx : (d.finds e cs).getLast?.getD [] = x at hint
  have hresult {r} (hint' : d.readPacketInternal E.beside (testPorts now listeners)
      TestStream.stream fuel d.maxPacketSize (s, w) = r) := hint'.symm.trans hint
  -- without a packet everything has been read
  have hnone (h0 : x = []) : d.finds e cs = [] ∧ rest = [] := by
    have hfinds := eq_nil_of_getLast?_getD (fun _ => ne_nil_of_mem_found) (hx.trans h0)
    exact ⟨hfinds, hfrom.all (.inr hfinds)⟩
  generalize waitIteration E.beside (testPorts now listeners) TestStream.stream fuel
    d.maxPacketSize packetTimeout startTime ⟨d, (s, w), deadline, timeoutType⟩ = next at hstep ⊢
  cases hstep with
  | lost hint' => cases hresult hint'
  | threw hint' => cases hresult hint'
  | packet hint' hp =>
    cases hresult hint'
    refine ⟨cs, rest, _, d', w', rfl, hfrom, ?_⟩
    rw [Option.getD_eq_iff] at hx
    rw [hx.resolve_right fun h => hp h.2.symm]
    rfl
  | noTimeout hint' _ =>
    cases hresult hint'
    obtain ⟨hfinds, rfl⟩ := hnone rfl
    exact ⟨cs, [], _, d', w', rfl, hfrom, by rw [hfinds]; rfl⟩
  | late hint' _ =>
    cases hresult hint'
    obtain ⟨hfinds, rfl⟩ := hnone rfl
    exact ⟨cs, [], _, d', _, rfl, hfrom, by rw [hfinds]; rfl⟩
  | waitThrew hint' _ hwait => cases hwait
  | waitedOut hint' _ hwait =>
    cases hresult hint'
    obtain ⟨-, rfl⟩ := Prod.mk.inj hwait
    obtain ⟨hfinds, rfl⟩ := hnone rfl
    exact ⟨cs, [], _, d', _, rfl, hfrom, by rw [hfinds]; rfl⟩
  | ready hint' _ hwait =>
    cases hresult hint'
    obtain ⟨-, rfl⟩ := hnone rfl
    have hready : (decide ¬ ([] : Bytes).isEmpty) = true := Except.ok.inj (Prod.mk.inj hwait).1
    exact absurd hready (by decide)

/-- `readPacket` returns a packet, or times out when all that the device has said is read.  The
clock and the timeouts show in the text of the exception only. -/
theorem readPacket_test (now : ω → Time × ω) (listeners : List (ℕ × IOListener ω))
    (hb : InBounds e) (hE : E.Answers e) (hdec : Decides e d.maxPacketSize)
    (hM : 1 ≤ d.maxPacketSize) (s : TestStream) (w : ω) (packetTimeout firstByteTimeout : Time) :
    ∃ cs rest r d' w',
      d.readPacket E.beside (testPorts now listeners) (s.toDriver.length + 1) d.maxPacketSize
          packetTimeout firstByteTimeout (s, w) =
        some (r, d', (s.withToDriver rest, w')) ∧
      FedFrom e d s cs rest d' ∧
      TestReply.of .packet r = (d.finds e cs).getLast?.elim .timedOut .packet := by
  obtain ⟨cs, rest, r, d', w', hdone, h⟩ := waitIteration_test hb hE hdec hM s (now w).2
    (Nat.lt_add_one s.toDriver.length) packetTimeout ((testPorts now listeners).now (s, w)).1
    (((testPorts now listeners).now (s, w)).1 + min packetTimeout firstByteTimeout) .firstByte
  refine ⟨cs, rest, r, d', w', ?_, h⟩
  rw [Driver.readPacket, if_neg (lt_irrefl _)]
  show run (waitIteration E.beside (testPorts now listeners) TestStream.stream _ _ packetTimeout _)
    (s.toDriver.length + 1) ⟨d, (s, (now w).2), _, _⟩ = _
  rw [run, hdone]

theorem FedFrom.parse (hb : InBounds e) (hs : Stable e) {s : TestStream} {cs : List Bytes}
    {rest : Bytes} {d' : Driver} (h : FedFrom e d s cs rest d') : ∃ ps,
      ps.getLast? = (d.finds e cs).getLast? ∧
      (∀ u, parse e (d.internalBuffer ++ s.toDriver ++ u) =
        ps ++ parse e (d'.internalBuffer ++ rest ++ u)) ∧
      (d.extractLast = false → ps = d.finds e cs) ∧
      (d.extractLast = true ∨ d.finds e cs = [] → parse e (d'.internalBuffer ++ rest) = []) := by
  obtain ⟨ms, hms⟩ := h.fed.moves hb
  refine ⟨emitted ms, hms.last, fun u => ?_, hms.first, fun hall => ?_⟩
  · rw [h.said, ← hms.arrived]
    simpa only [List.append_assoc] using parse_moves hb hs hms.run hms.asked (rest ++ u)
  · rw [h.all hall, List.append_nil]
    exact h.fed.parse_eq_nil hall

end Reading

/-- The fixture is where the dialogue is. -/
structure Fixture.Holds (e : Bytes → ℤ) (M : ℕ) (f : Fixture ω) (d : Dialogue) : Prop where
  maxPacketSize : f.driver.maxPacketSize = M
  said : ∃ ps : List Bytes, ps.length = d.taken ∧ ∀ u, parse e (d.said ++ u) =
    ps ++ parse e (f.driver.internalBuffer ++ f.stream.toDriver ++ u)
  told : f.stream.fromDriver = d.told
  expectations : f.stream.expectations = d.exchanges.map Prod.fst
  replies : f.stream.replies = d.exchanges.map Prod.snd
  mock : f.stream.mockMode = d.mock
  last : f.driver.extractLast = d.last

section Refinement

variable {e : Bytes → ℤ} {E : Extract ω} {M : ℕ} {f : Fixture ω} {d : Dialogue}
  (now : ω → Time × ω) (listeners : List (ℕ × IOListener ω))

theorem Fixture.Holds.says (h : f.Holds e M d) (data : Bytes) : ∃ ps : List Bytes,
    ps.length = d.taken ∧ ∀ u, parse e (d.said ++ data ++ u) =
      ps ++ parse e (f.driver.internalBuffer ++ (f.stream.toDriver ++ data) ++ u) := by
  obtain ⟨ps, hps, hparse⟩ := h.said
  exact ⟨ps, hps, fun u => by simpa only [List.append_assoc] using hparse (data ++ u)⟩

theorem Fixture.Holds.readPacket (hb : InBounds e) (hs : Stable e) (hE : E.Answers e)
    (hdec : Decides e M) (hM : 1 ≤ M) (h : f.Holds e M d) : ∃ a f' d',
      f.perform E now listeners .readPacket = some (a, f') ∧
      d.perform e .readPacket = some (a, d') ∧ f'.Holds e M d' := by
  obtain ⟨cs, rest, r, driver, w, hread, hfrom, hreply⟩ := readPacket_test now listeners
    hb hE (h.maxPacketSize ▸ hdec) (h.maxPacketSize ▸ hM) f.stream f.rest f.driver.readTimeout
    f.driver.readTimeout
  have hfixture : f.perform E now listeners .readPacket =
      some (.of .packet r, ⟨driver, f.stream.withToDriver rest, w⟩) := by
    rw [Fixture.perform, Fixture.readPacket, hread]
    rfl
  obtain ⟨ps, hps, hparse⟩ := h.said
  obtain ⟨out, hlast, hout, hfirst, hnone⟩ := hfrom.parse hb hs
  have hparse' (u : Bytes) : parse e (d.said ++ u) =
      (ps ++ out) ++ parse e (driver.internalBuffer ++ rest ++ u) := by
    rw [hparse, hout, ← List.append_assoc]
  have hsaid : parse e d.said = ps ++ (out ++ parse e (driver.internalBuffer ++ rest)) := by
    simpa using hparse' []
  have hahead : d.ahead e = out ++ parse e (driver.internalBuffer ++ rest) := by
    rw [Dialogue.ahead, hsaid, ← hps, List.drop_left]
  have htaken : (if d.last then (d.ahead e).getLast? else (d.ahead e).head?) =
        (f.driver.finds e cs).getLast? ∧
      (if d.last then (parse e d.said).length else d.taken + ((d.ahead e).take 1).length) =
        (ps ++ out).length := by
    rw [← h.last, hahead, ← hps]
    -- in the last mode a call takes all there is, in the first one a single packet
    cases hmode : f.driver.extractLast with
    | true =>
      rw [hnone (.inl hmode), List.append_nil] at hsaid ⊢
      exact ⟨hlast, congrArg List.length hsaid⟩
    | false =>
      obtain rfl := hfirst hmode
      rcases hfound : (f.driver.finds e cs).getLast? with _ | p
      · have hnil := List.getLast?_eq_none_iff.mp hfound
        rw [hnone (.inr hnil), hnil]
        simp
      · have hone := hfrom.first hmode
        rw [hfound] at hone
        rw [hone]
        simp
  refine ⟨_, _, (d.readPacket e).2, hfixture, ?_, ?_⟩
  · rw [hreply, ← htaken.1]
    rfl
  · exact ⟨hfrom.fed.maxPacketSize.trans h.maxPacketSize,
      ⟨ps ++ out, htaken.2.symm, hparse'⟩, h.told, h.expectations, h.replies, h.mock,
      hfrom.fed.extractLast.trans h.last⟩

theorem Fixture.writePacket_driver {data : Bytes} {r : Except Exn Bool} {f' : Fixture ω}
    (h : f.writePacket now listeners data = some (r, f')) :
    ∃ stats, f'.driver = f.driver.withStats stats := by
  rw [Fixture.writePacket] at h
  rcases hwrite : f.driver.writePacket (testPorts now listeners) 1 data f.driver.writeTimeout
    (f.stream, f.rest) with _ | ⟨r', driver, stream, rest⟩
  · rw [hwrite] at h
    cases h
  rw [hwrite] at h
  cases h
  have hio : (testPorts now listeners).stream = some TestStream.stream := rfl
  simp only [Driver.writePacket, Driver.writePacketMilliseconds, hio] at hwrite
  split at hwrite
  · cases hwrite
  · cases hwrite
    exact ⟨f.driver.stats, rfl⟩
  · cases hwrite
    exact ⟨_, rfl⟩

theorem TestReply.of_map {α β : Type} (reply : TestReply) (g : α → β) (r : Except Exn α) :
    TestReply.of (fun _ => reply) (r.map g) = .of (fun _ => reply) r := by
  rcases r with x | a
  · cases x <;> rfl
  · rfl

theorem Fixture.Holds.write (h : f.Holds e M d) (data : Bytes) :
    (d.writePacket data).1 = .of (fun _ => .done) (f.stream.write data).1 ∧
      ∀ stats (rest : ω), Fixture.Holds e M
        ⟨f.driver.withStats stats, (f.stream.write data).2, rest⟩ (d.writePacket data).2 := by
  have hmock := h.mock
  have htold : f.stream.fromDriver ++ data = d.told ++ data := by rw [h.told]
  rw [Dialogue.writePacket]
  cases hmode : d.mock with
  | false =>
    rw [hmode] at hmock
    have hwrite : f.stream.write data =
        (.ok (wroteAll data), { f.stream with fromDriver := f.stream.fromDriver ++ data }) := by
      simp [TestStream.write, hmock]
    rw [hwrite]
    exact ⟨rfl, fun _ _ => ⟨h.maxPacketSize, h.said, htold, h.expectations, h.replies, hmock,
      h.last⟩⟩
  | true =>
    rw [hmode] at hmock
    have hexpectations := h.expectations
    have hreplies := h.replies
    cases hexchanges : d.exchanges with
    | nil =>
      rw [hexchanges] at hexpectations hreplies
      rw [TestStream.write_unexpected hmock hexpectations]
      exact ⟨rfl, fun _ _ => ⟨h.maxPacketSize, h.said, htold, hexpectations, hreplies, hmock,
        h.last⟩⟩
    | cons exchange exchanges =>
      obtain ⟨expectation, reply⟩ := exchange
      rw [hexchanges] at hexpectations hreplies
      -- what has been told since the last match is judged together with the new bytes
      by_cases heq : d.told ++ data = expectation
      · rw [TestStream.write_matched hmock hexpectations (htold.trans heq)]
        simp only [if_true, heq]
        refine ⟨rfl, fun _ _ => ⟨h.maxPacketSize, ?_, rfl, ?_, ?_, hmock, h.last⟩⟩
        · have hsays := h.says reply
          simpa [TestStream.reply, hreplies] using hsays
        · simp [TestStream.reply, hexpectations]
        · simp [TestStream.reply, hreplies]
      · rw [TestStream.write_mismatched hmock hexpectations fun h0 => heq (htold.symm.trans h0)]
        simp only [if_true, if_neg heq]
        exact ⟨rfl, fun _ _ => ⟨h.maxPacketSize, h.said, htold, rfl, rfl, hmock, h.last⟩⟩

theorem Fixture.Holds.writePacket (h : f.Holds e M d) (data : Bytes) : ∃ a f' d',
    f.perform E now listeners (.writePacket data) = some (a, f') ∧
      d.perform e (.writePacket data) = some (a, d') ∧ f'.Holds e M d' := by
  obtain ⟨driver, rest, hwrite⟩ := f.writePacket_eq now listeners data
  obtain ⟨stats, rfl⟩ := f.writePacket_driver now listeners hwrite
  obtain ⟨hreply, hholds⟩ := h.write data
  refine ⟨(d.writePacket data).1, ⟨f.driver.withStats stats, (f.stream.write data).2, rest⟩,
    (d.writePacket data).2, ?_, ?_, hholds stats rest⟩
  · rw [Fixture.perform, hwrite, Option.map_some, TestReply.of_map, ← hreply]
  · rfl

theorem Fixture.Holds.perform (hb : InBounds e) (hs : Stable e) (hE : E.Answers e)
    (hdec : Decides e M) (hM : 1 ≤ M) (h : f.Holds e M d) (op : TestOp) : ∃ a f' d',
      f.perform E now listeners op = some (a, f') ∧ d.perform e op = some (a, d') ∧
        f'.Holds e M d' := by
  cases op with
  | pushDataToDriver data =>
    exact ⟨_, _, _, rfl, rfl, h.maxPacketSize, h.says data, h.told, h.expectations, h.replies,
      h.mock, h.last⟩
  | readDataFromDriver =>
    refine ⟨.data d.told, f.readDataFromDriver.2, { d with told := [] }, ?_, rfl,
      h.maxPacketSize, h.said, rfl, h.expectations, h.replies, h.mock, h.last⟩
    rw [← h.told]
    rfl
  | readPacket => exact h.readPacket now listeners hb hs hE hdec hM
  | writePacket data => exact h.writePacket now listeners data
  | expectReply expectation reply =>
    have hmock := h.mock
    cases hmode : d.mock with
    | false =>
      rw [hmode] at hmock
      refine ⟨.threw, f, d, ?_, ?_, h⟩
      · simp [Fixture.perform, Fixture.expectReply, TestStream.expectReply, hmock, TestReply.of]
      · simp [Dialogue.perform, hmode]
    | true =>
      rw [hmode] at hmock
      refine ⟨.done, (f.expectReply expectation reply).2,
        { d with exchanges := d.exchanges ++ [(expectation, reply)] }, ?_, ?_, ?_⟩
      · simp [Fixture.perform, Fixture.expectReply, TestStream.expectReply, hmock, TestReply.of]
      · simp [Dialogue.perform, hmode]
      · rw [Fixture.expectReply, TestStream.expectReply, if_neg (by simp [hmock])]
        exact ⟨h.maxPacketSize, h.said, h.told, by simp [h.expectations], by simp [h.replies],
          h.mock, h.last⟩
  | setMockMode mode =>
    exact ⟨_, _, _, rfl, rfl, h.maxPacketSize, h.said, rfl, h.expectations, h.replies, rfl,
      h.last⟩
  | clearExpectations =>
    exact ⟨_, _, _, rfl, rfl, h.maxPacketSize, h.said, h.told, rfl, rfl, h.mock, h.last⟩
  | validateExpectationsAreEmpty =>
    refine ⟨if d.exchanges = [] then .done else .threw, f, d, ?_, rfl, h⟩
    by_cases hnone : d.exchanges = [] <;>
      simp [Fixture.perform, Fixture.validateExpectationsAreEmpty,
        TestStream.expectationsAreEmpty, h.expectations, hnone]
  | setReadTimeout timeout =>
    exact ⟨_, _, _, rfl, rfl, h.maxPacketSize, h.said, h.told, h.expectations, h.replies, h.mock,
      h.last⟩
  | setExtractLastPacket flag =>
    exact ⟨_, _, _, rfl, rfl, h.maxPacketSize, h.said, h.told, h.expectations, h.replies, h.mock,
      rfl⟩

/-- **A test is a dialogue**: whatever the clock, the timeouts and the listeners do, every call of
a test comes back, and what the test sees is what the dialogue says. -/
theorem test_is_a_dialogue (hb : InBounds e) (hs : Stable e) (hE : E.Answers e)
    (hdec : Decides e M) (hM : 1 ≤ M) (last : Bool) (w : ω) (ops : List TestOp) : ∃ calls f d,
      Lts.performs (Fixture.perform E now listeners) ⟨.new M last, .new, w⟩ ops =
        some (calls, f) ∧
      Lts.performs (Dialogue.perform e) (.new last) ops = some (calls, d) ∧ f.Holds e M d := by
  have hstart : Fixture.Holds e M (⟨.new M last, .new, w⟩ : Fixture ω) (.new last) :=
    ⟨rfl, ⟨[], rfl, fun _ => rfl⟩, rfl, rfl, rfl, rfl, rfl⟩
  exact Lts.performs_alike (fun _ _ op h => h.perform now listeners hb hs hE hdec hM op) hstart ops

end Refinement

/-- A mocked device. -/
def mockedOps : List TestOp :=
  [.setMockMode true, .expectReply [1] [7, 0, 1, 2, 0, 0, 3], .writePacket [1], .readPacket,
    .readPacket, .validateExpectationsAreEmpty, .writePacket [1]]

/-- The device answers what it is asked: noise, a packet, and the beginning of another one. -/
theorem test_is_a_dialogue_sample : ∃ calls f d,
    Lts.performs (Fixture.perform (.pure driverTestExtractPacket) (fun w : Unit => (0, w)) [])
      ⟨.new 100 false, .new, ()⟩ mockedOps = some (calls, f) ∧
    Lts.performs (Dialogue.perform driverTestExtractPacket) (.new false) mockedOps =
      some (calls, d) ∧
    calls.map Prod.snd =
      [.done, .done, .done, .packet [0, 1, 2, 0], .timedOut, .done, .threw] := by
  obtain ⟨calls, f, d, hf, hd, -⟩ := test_is_a_dialogue (E := .pure driverTestExtractPacket)
    (M := 100) (fun w : Unit => (0, w)) [] driverTest_inBounds driverTest_stable
    (Extract.answers_pure driverTestExtractPacket) (fun b hb _ => driverTest_decides (by omega))
    (by decide) false () mockedOps
  refine ⟨calls, f, d, hf, hd, ?_⟩
  have hreplies := congrArg (Option.map fun r => r.1.map Prod.snd) hf
  exact (Option.some.inj hreplies).symm

end IodriversBase
