import IodriversBase.Samples

namespace IodriversBase

open Framing Loop

variable {ω : Type} {e : Bytes → ℤ} {E : Extract ω} {k : ℕ} {d d' : Driver}
  {w w' : Recorded ω} {cs : List Bytes}

def timeoutTypeFor (bs : Bytes) : TimeoutType := if bs = [] then .firstByte else .packet

def TellsSomething (k : ℕ) (w : Recorded ω) :
    Except Exn (Bytes × Bool) × Driver × Recorded ω → Prop
  | (.ok (_, something), _, w') =>
    ∃ cs, Adds k w w' cs ∧ (something = true ↔ cs.flatten ≠ [])
  | (.error x, _, w') =>
    ∀ type what, x = .timeoutError type what → ∃ ev ∈ w'.trace, ev.Throws x

theorem readPacketInternal_tells (hb : InBounds e) (hE : E.Answers e) {io : Ports ω}
    {stream : IOStream ω} {fuel outBufferSize : ℕ} (hsize : d.maxPacketSize ≤ outBufferSize) {r}
    (h : d.readPacketInternal E.recorded (io.recorded k) (stream.recorded k) fuel outBufferSize w =
      some r) : TellsSomething k w r := by
  rw [readPacketInternal_eq hb hE.recorded _ _ _ hsize] at h
  split_ifs at h with hp
  · cases h
    exact ⟨[], adds_effects E _ _, by simp⟩
  refine run_rule (I := fun s : ReadState (Recorded ω) => ∃ cs, Adds k w s.world cs ∧
    (s.receivedSomething = true ↔ cs.flatten ≠ [])) ?_ ⟨[], adds_effects E _ _, by simp⟩ h
  rintro s ⟨cs, hadds, hflag⟩
  have hcases := readIteration_cases hb hE.recorded (io.recorded k) (stream.recorded k) s
  generalize readIteration E.recorded (io.recorded k) (stream.recorded k) s = next at hcases ⊢
  cases hcases with
  | threw hread => exact fun _ _ _ => (adds_read_threw hread).2
  | noData hread hc =>
    refine ⟨_, hadds.trans (adds_read hread), ?_⟩
    simpa [hc] using hflag
  | full => exact fun _ _ hx => by cases hx
  | @packet c w₁ hread hc _ _ =>
    have hread := (hadds.trans (adds_read hread)).trans (adds_notifyRead io c.val w₁)
    exact ⟨_, hread.trans (adds_effects E _ _), by simp [hc]⟩
  | @again c w₁ hread hc _ _ =>
    have hread := (hadds.trans (adds_read hread)).trans (adds_notifyRead io c.val w₁)
    exact ⟨_, hread.trans (adds_effects E _ _), by simp [hc]⟩

theorem InternalEnd.maxPacketSize {r} (h : InternalEnd e k d w (r, d', w')) :
    d'.maxPacketSize = d.maxPacketSize := by
  cases h with
  | packet hfed | noData hfed | full hfed | threw hfed => exact hfed.maxPacketSize

/-- At the head of the loop of `readPacket`, the type tells whether anything has been read. -/
structure TypeTracks (k : ℕ) (d : Driver) (w : Recorded ω) (s : WaitState (Recorded ω)) :
    Prop where
  maxPacketSize : s.driver.maxPacketSize = d.maxPacketSize
  type : ∃ cs, Adds k w s.world cs ∧ s.timeoutType = timeoutTypeFor cs.flatten

/-- A timeout that is not an exception of the stream tells whether anything has been read. -/
def TimesOutWith (k : ℕ) (w : Recorded ω) (b : Except Exn Bytes × Driver × Recorded ω) : Prop :=
  ∀ type what, b.1 = .error (.timeoutError type what) →
    (∃ ev ∈ b.2.2.trace, ev.Throws (.timeoutError type what)) ∨
    ∃ cs, Adds k w b.2.2 cs ∧ type = timeoutTypeFor cs.flatten

theorem nextType_tracks {s : WaitState (Recorded ω)} {something : Bool} {bs bs' : Bytes}
    (htype : s.timeoutType = timeoutTypeFor bs) (hsomething : something = true ↔ bs' ≠ []) :
    s.nextType something = timeoutTypeFor (bs ++ bs') := by
  unfold WaitState.nextType timeoutTypeFor at *
  by_cases hbs : bs = [] <;> by_cases hbs' : bs' = [] <;> simp_all

theorem waitIteration_zero (hb : InBounds e) (hE : E.Answers e) {io : Ports ω}
    {stream : IOStream ω} {fuel bufferSize : ℕ} {startTime : Time} {s : WaitState (Recorded ω)}
    (hsize : s.driver.maxPacketSize ≤ bufferSize) :
    (waitIteration E.recorded (io.recorded k) (stream.recorded k) fuel bufferSize 0 startTime
      s).Holds (fun _ => False) fun b => ∀ type what, b.1 = .error (.timeoutError type what) →
        (∃ ev ∈ b.2.2.trace, ev.Throws (.timeoutError type what)) ∨ type = .firstByte := by
  unfold waitIteration
  rcases hint : s.driver.readPacketInternal E.recorded (io.recorded k) (stream.recorded k) fuel
    bufferSize s.world with _ | ⟨x | ⟨packet, something⟩, d, w⟩
  · trivial
  · rintro type what ⟨⟩
    exact .inl (readPacketInternal_tells hb hE hsize hint type what rfl)
  dsimp only
  by_cases hp : packet.length > 0
  · rw [if_pos hp]
    exact fun _ _ hx => by cases hx
  · rw [if_neg hp, if_pos rfl]
    rintro type what ⟨⟩
    exact .inr rfl

theorem waitIteration_tracks (hb : InBounds e) (hE : E.Answers e) {io : Ports ω}
    {stream : IOStream ω} {fuel bufferSize : ℕ} (hsize : d.maxPacketSize ≤ bufferSize)
    {packetTimeout : Time} (hpacket : packetTimeout ≠ 0) {startTime : Time}
    {s : WaitState (Recorded ω)} (hs : TypeTracks k d w s) :
    (waitIteration E.recorded (io.recorded k) (stream.recorded k) fuel bufferSize packetTimeout
      startTime s).Holds (TypeTracks k d w) (TimesOutWith k w) := by
  obtain ⟨hmax, cs, hadds, htype⟩ := hs
  have htells {b} (hint : s.driver.readPacketInternal E.recorded (io.recorded k)
      (stream.recorded k) fuel bufferSize s.world = some b) : TellsSomething k s.world b :=
    readPacketInternal_tells hb hE (hmax ▸ hsize) hint
  -- an attempt that finds no packet: what has been read by then, and the type
  have hidle {p something d₁ w₁} (hint : s.driver.readPacketInternal E.recorded (io.recorded k)
      (stream.recorded k) fuel bufferSize s.world = some (.ok (p, something), d₁, w₁)) :
      d₁.maxPacketSize = d.maxPacketSize ∧ ∃ cs, Adds k w w₁ cs ∧
        s.nextType something = timeoutTypeFor cs.flatten := by
    obtain ⟨cs₁, hadds₁, hsomething⟩ := htells hint
    have hend := readPacketInternal_end hb hE (hmax ▸ hsize) hint
    refine ⟨hend.maxPacketSize.trans hmax, cs ++ cs₁, hadds.trans hadds₁, ?_⟩
    rw [List.flatten_append]
    exact nextType_tracks htype hsomething
  have hstep := waitIteration_step E.recorded (io.recorded k) (stream.recorded k) fuel bufferSize
    packetTimeout startTime s
  generalize waitIteration E.recorded (io.recorded k) (stream.recorded k) fuel bufferSize
    packetTimeout startTime s = next at hstep ⊢
  cases hstep with
  | lost _ => trivial
  | threw hint =>
    rintro type what ⟨⟩
    exact .inl (htells hint type what rfl)
  | packet => exact fun _ _ hx => by cases hx
  | noTimeout _ hzero => exact absurd hzero hpacket
  | late hint _ =>
    obtain ⟨-, cs₁, hadds₁, htype₁⟩ := hidle hint
    rintro type what ⟨⟩
    exact .inr ⟨cs₁, by simpa using hadds₁.trans (adds_now io _), htype₁⟩
  | waitThrew _ _ hwait =>
    rintro type what ⟨⟩
    exact .inl ((adds_waitRead hwait).2 _ rfl)
  | waitedOut hint _ hwait =>
    obtain ⟨-, cs₁, hadds₁, htype₁⟩ := hidle hint
    have hwaited := (hadds₁.trans (adds_now io _)).trans (adds_waitRead hwait).1
    rintro type what ⟨⟩
    exact .inr ⟨cs₁, by simpa using hwaited.trans (adds_now io _), htype₁⟩
  | ready hint _ hwait =>
    obtain ⟨hmax₁, cs₁, hadds₁, htype₁⟩ := hidle hint
    have hwaited := (hadds₁.trans (adds_now io _)).trans (adds_waitRead hwait).1
    exact ⟨hmax₁, cs₁, by simpa using hwaited, htype₁⟩

/-- The type of a timeout tells whether the call has read anything, unless it has read something
with a `packet_timeout` of 0. -/
theorem readPacket_timeout_type_iff (hb : InBounds e) (hE : E.Answers e) {io : Ports ω}
    {stream : IOStream ω} (hio : io.stream = some stream) {fuel bufferSize : ℕ}
    {packetTimeout firstByteTimeout : Time} {w : ω} {type : TimeoutType} {what : String}
    (h : d.readPacket E.recorded (io.recorded k) fuel bufferSize packetTimeout firstByteTimeout
      ⟨w, []⟩ = some (.error (.timeoutError type what), d', w'))
    (hown : ∀ ev ∈ w'.trace, ¬ ev.Throws (.timeoutError type what)) :
    type = (if received k w'.trace = [] then .firstByte else .packet) ↔
      packetTimeout ≠ 0 ∨ received k w'.trace = [] := by
  have hstream := Ports.recorded_opened k hio
  unfold Driver.readPacket at h
  split_ifs at h with hsize
  · cases h
  rw [hstream] at h
  by_cases hzero : packetTimeout = 0
  · subst hzero
    obtain ⟨ev, hev, hthrew⟩ | rfl := run_rule
      (I := fun s : WaitState (Recorded ω) => s.driver = d)
      (Q := fun b : Except Exn Bytes × Driver × Recorded ω =>
        ∀ type what, b.1 = .error (.timeoutError type what) →
          (∃ ev ∈ b.2.2.trace, ev.Throws (.timeoutError type what)) ∨ type = .firstByte)
      (fun s hs => (waitIteration_zero hb hE (hs ▸ not_lt.mp hsize)).imp (fun _ => False.elim)
        fun _ h => h) rfl h type what rfl
    · exact absurd hthrew (hown ev hev)
    · by_cases hnone : received k w'.trace = [] <;> simp [hnone]
  · have hstart (deadline : Time) : TypeTracks k d ⟨w, []⟩
        ⟨d, ((io.recorded k).now ⟨w, []⟩).2, deadline, .firstByte⟩ :=
      ⟨rfl, [], adds_now io _, rfl⟩
    obtain ⟨ev, hev, hthrew⟩ | ⟨cs, ⟨t, ht, -, rfl⟩, htype⟩ := run_rule
      (fun s => waitIteration_tracks hb hE (not_lt.mp hsize) hzero) (hstart _) h type what rfl
    · exact absurd hthrew (hown ev hev)
    · obtain rfl : w'.trace = t := ht
      exact iff_of_true htype (.inl hzero)

/-- A byte of garbage, and a wait in vain. -/
theorem readPacket_timeout_type_iff_sample :
    ∃ (type : TimeoutType) (what : String) (d' : Driver) (w' : Recorded Script),
    (Driver.new 100 false).readPacket (Extract.recorded (.pure driverTestExtractPacket))
      (Script.ports.recorded 1) 5 100 10 10 ⟨[[7]], []⟩ =
        some (.error (.timeoutError type what), d', w') ∧ received 1 w'.trace = [7] ∧
    type = .packet := by
  obtain ⟨⟨r, d', w'⟩, hcall, hthrew, hreceived, hquiet⟩ := exists_of_any
    (x := (Driver.new 100 false).readPacket (Extract.recorded (.pure driverTestExtractPacket))
      (Script.ports.recorded 1) 5 100 10 10 ⟨[[7]], []⟩)
    (fun b => (match b.1 with | .error x => decide x.IsTimeout | .ok _ => false) = true ∧
      received 1 b.2.2.trace = [7] ∧ Quiet b.2.2.trace) (by decide +kernel)
  rcases r with (what | ⟨type, what⟩ | _ | _) | p <;> try cases hthrew
  have htype := (readPacket_timeout_type_iff driverTest_inBounds (Extract.answers_pure _) rfl hcall
    fun ev hev hx => hquiet ev hev hx.threw).mpr (.inl (by decide))
  refine ⟨type, what, d', w', hcall, hreceived, htype.trans (if_neg ?_)⟩
  simp [hreceived]

/-- The same byte of garbage without a `packet_timeout`: the call has read it, and says that the
first byte did not come. -/
theorem readPacket_timeout_type_wrong :
    ∃ (what : String) (d' : Driver) (w' : Recorded Script),
    (Driver.new 100 false).readPacket (Extract.recorded (.pure driverTestExtractPacket))
      (Script.ports.recorded 1) 5 100 0 0 ⟨[[7]], []⟩ =
        some (.error (.timeoutError .firstByte what), d', w') ∧ received 1 w'.trace = [7] :=
  ⟨_, _, _, rfl, rfl⟩

end IodriversBase
