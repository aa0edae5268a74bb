import IodriversBase.Calls
import IodriversBase.ForwardPackets
import IodriversBase.ReadRule
import IodriversBase.Reassembly
import IodriversBase.Samples

namespace IodriversBase

open Framing Loop

variable {ω Ω : Type}

/-- What `select` and both directions keep holds when `forward` returns, and then one of the
streams is at its end. -/
theorem forward_rule {f : Forwarder ω} {fuel : ℕ} {K : ForwardState ω → Prop}
    (hselect : ∀ reads t s, K s → K { s with world := (f.select reads t s.world).2 })
    (hpass1 : ∀ s t, K s → f.Pass1 fuel s t → K t) (hpass2 : ∀ s t, K s → f.Pass2 fuel s t → K t)
    {d1 d2 : Driver} {w : ω} {t : ForwardState ω} (h₀ : K ⟨d1, d2, w⟩)
    (h : forward f fuel d1 d2 w = some (.ok (), t)) : K t ∧ f.eof t.world = .ok true := by
  refine run_rule (I := K)
    (Q := fun b => b.1 = .ok () → K b.2 ∧ f.eof b.2.world = .ok true) ?_ h₀ h rfl
  intro s hs
  generalize hnext : f.iteration fuel _ _ s = next
  cases next with
  | again t =>
    obtain ⟨_, s₁, h₁, h₂, -⟩ := Forwarder.iteration_again hnext
    exact hpass2 s₁ t (hpass1 _ s₁ (hselect _ _ s hs) h₁) h₂
  | done b =>
    obtain ⟨r, t⟩ := b
    rintro rfl
    obtain ⟨heof, rfl⟩ := Forwarder.iteration_returns hnext
    exact ⟨hs, heof⟩
  | lost => trivial

theorem forwardData_keeps {R : ω → ω → Prop} {rawMode : Bool} {E : Extract ω}
    {ioFrom ioTo : Ports ω} {fuel bufferSize size : ℕ} {timeout : Time}
    {source target source' target' : Driver} {w w' : ω}
    (hto : ioTo.Keeps R)
    (h : forwardData rawMode E ioFrom ioTo fuel bufferSize timeout source target w =
      some (.ok size, source', target', w')) :
    ∃ r w₁, readMode rawMode E ioFrom fuel source bufferSize timeout w = some (r, source', w₁) ∧
      R w₁ w' := by
  unfold forwardData at h
  generalize readMode rawMode E ioFrom fuel source bufferSize timeout w = read at h ⊢
  rcases read with _ | ⟨x | data, d, w₁⟩ <;> dsimp only at h
  · cases h
  · split_ifs at h <;> cases h
    exact ⟨_, _, rfl, hto.refl w'⟩
  · split_ifs at h
    · rcases hwrite : target.writePacket ioTo fuel data target.writeTimeout w₁
        with _ | ⟨x | done, d', w₂⟩ <;> rw [hwrite] at h <;> cases h
      exact ⟨_, _, rfl, writePacket_keeps hto.telling.toKeepsWriting hwrite⟩
    · cases h
      exact ⟨_, _, rfl, hto.refl w'⟩

def Event.ReadsFrom (i : ℕ) : Event → Prop
  | .read j _ _ => j = i
  | _ => False

/-- What any use of a driver keeps: without a read of stream `i` its end of file is what it was, and
the list of the reads gets longer. -/
structure Tracks (i : ℕ) (w w' : Recorded (Machine Ω)) : Prop where
  eof : ∃ new, w'.trace = w.trace ++ new ∧
    ((∀ ev ∈ new, ¬ ev.ReadsFrom i) → w'.world.eof i = w.world.eof i)
  reads : w.world.reads <+: w'.world.reads

/-- A stream object under the number `k`: it leaves the end of file of stream `i` alone, if that is
not its own, and the reads that have been made. -/
structure Tracked (i k : ℕ) (st : IOStream (Machine Ω)) : Prop where
  read : ∀ n m, (k ≠ i → (st.read n m).2.eof i = m.eof i) ∧ m.reads <+: (st.read n m).2.reads
  write : ∀ data m, (st.write data m).2.eof i = m.eof i ∧ m.reads <+: (st.write data m).2.reads
  waitRead : ∀ t m, (st.waitRead t m).2.eof i = m.eof i ∧ m.reads <+: (st.waitRead t m).2.reads
  waitWrite : ∀ t m, (st.waitWrite t m).2.eof i = m.eof i ∧ m.reads <+: (st.waitWrite t m).2.reads

variable {os : Os Ω} {i k : ℕ} {fd : ℤ} {st : IOStream (Machine Ω)}
  {w w' w'' : Recorded (Machine Ω)}

theorem Tracks.refl (i : ℕ) (w : Recorded (Machine Ω)) : Tracks i w w :=
  ⟨⟨[], by simp, fun _ => rfl⟩, List.prefix_refl _⟩

theorem Tracks.trans (h : Tracks i w w') (h' : Tracks i w' w'') : Tracks i w w'' := by
  obtain ⟨new, hnew, heof⟩ := h.eof
  obtain ⟨new', hnew', heof'⟩ := h'.eof
  refine ⟨⟨new ++ new', by rw [hnew', hnew, List.append_assoc], fun hnone => ?_⟩,
    h.reads.trans h'.reads⟩
  rw [heof' fun ev hev => hnone ev (List.mem_append_right _ hev),
    heof fun ev hev => hnone ev (List.mem_append_left _ hev)]

theorem Tracks.of_event {ev : Event} (htrace : w'.trace = w.trace ++ [ev])
    (heof : ¬ ev.ReadsFrom i → w'.world.eof i = w.world.eof i)
    (hreads : w.world.reads <+: w'.world.reads) : Tracks i w w' :=
  ⟨⟨[ev], htrace, fun hnone => heof (hnone ev (List.mem_singleton_self ev))⟩, hreads⟩

theorem Tracks.of_withOs {ev : Event} (htrace : w'.trace = w.trace ++ [ev])
    (hos : ∃ os', w'.world = w.world.withOs os') : Tracks i w w' := by
  obtain ⟨os', hm⟩ := hos
  refine .of_event htrace (fun _ => ?_) ?_
  · rw [hm, Machine.withOs_eof]
  · rw [hm, Machine.withOs_reads]

theorem Tracks.eof_eq {new : List Event} (h : Tracks i w w') (hnew : w'.trace = w.trace ++ new)
    (hnone : ∀ ev ∈ new, ¬ ev.ReadsFrom i) : w'.world.eof i = w.world.eof i := by
  obtain ⟨new', hnew', heof⟩ := h.eof
  obtain rfl : new = new' := List.append_cancel_left (hnew.symm.trans hnew')
  exact heof hnone

theorem selected_untimed {what : String} {answer} {x : Exn} (h : selected what answer = .error x) :
    ¬ x.IsTimeout := by
  unfold selected at h
  rcases answer with errno | ready
  · dsimp only at h
    split_ifs at h
    cases h
    exact not_false
  · cases h

theorem OverDescriptor.untimed (hst : OverDescriptor os k fd st) :
    (∀ n m x, (st.read n m).1 = .error x → ¬ x.IsTimeout) ∧
      ∀ t m x, (st.waitRead t m).1 = .error x → ¬ x.IsTimeout := by
  have key : ∀ {osRead osWrite} {autoClose hasEof : Bool} {n m x},
      ((descriptorStream os osRead osWrite k fd autoClose hasEof).read n m).1 = .error x →
        ¬ x.IsTimeout := by
    intro osRead osWrite autoClose hasEof n m x h
    simp only [descriptorStream] at h
    generalize osRead n m.os = answer at h
    rcases answer with ⟨errno | c, w⟩
    · dsimp only at h
      split_ifs at h
      cases h
      exact not_false
    · cases h
  cases hst with
  | fdStream => exact ⟨fun _ _ _ h => key h, fun _ _ _ h => selected_untimed h⟩
  | socketStream => exact ⟨fun _ _ _ h => key h, fun _ _ _ h => selected_untimed h⟩

theorem withOs_tracked {m m' : Machine Ω} (h : ∃ os', m' = m.withOs os') :
    m'.eof i = m.eof i ∧ m.reads <+: m'.reads := by
  obtain ⟨os', rfl⟩ := h
  exact ⟨rfl, List.prefix_refl _⟩

theorem OverDescriptor.tracked (hst : OverDescriptor os k fd st) : Tracked i k st where
  read n m := by
    rcases hst.read (n := n) (m := m) rfl with ⟨c, hasEof, os', _, hm⟩ | ⟨_, hm⟩
    · rw [hm]
      refine ⟨fun hne => ?_, List.prefix_append _ _⟩
      simp only [Machine.didRead]
      split_ifs
      · exact Function.update_of_ne hne.symm _ _
      · rfl
    · exact (withOs_tracked hm).imp_left fun heof _ => heof
  write _ _ := withOs_tracked (hst.write rfl)
  waitRead _ _ := withOs_tracked (hst.waitRead rfl)
  waitWrite _ _ := withOs_tracked (hst.waitWrite rfl)

theorem tracks_keeps (hst : Tracked i k st) (listeners : List (ℕ × IOListener Ω)) :
    ((os.ports (some st) listeners).recorded k).Keeps (Tracks i) where
  refl := .refl i
  trans := Tracks.trans
  now w := .of_withOs rfl ⟨_, rfl⟩
  notifyRead data w := by
    apply Os.notifyRead_rule _ (Tracks.refl i w)
    intro l _ w' hw'
    exact hw'.trans (.of_withOs rfl ⟨_, rfl⟩)
  notifyWrite data w := by
    apply Os.notifyWrite_rule _ (Tracks.refl i w)
    intro l _ w' hw'
    exact hw'.trans (.of_withOs rfl ⟨_, rfl⟩)
  read := by
    intro st' n w r w' hst' hr
    obtain rfl : st.recorded k = st' := Option.some.inj hst'
    cases hr
    obtain ⟨heof, hreads⟩ := hst.read n w.world
    exact .of_event rfl heof hreads
  waitRead := by
    intro st' t w r w' hst' hr
    obtain rfl : st.recorded k = st' := Option.some.inj hst'
    cases hr
    obtain ⟨heof, hreads⟩ := hst.waitRead t w.world
    exact .of_event rfl (fun _ => heof) hreads
  write := by
    intro st' data w r w' hst' hr
    obtain rfl : st.recorded k = st' := Option.some.inj hst'
    cases hr
    obtain ⟨heof, hreads⟩ := hst.write data w.world
    exact .of_event rfl (fun _ => heof) hreads
  waitWrite := by
    intro st' t w r w' hst' hr
    obtain rfl : st.recorded k = st' := Option.some.inj hst'
    cases hr
    obtain ⟨heof, hreads⟩ := hst.waitWrite t w.world
    exact .of_event rfl (fun _ => heof) hreads

theorem readRaw_untimed {io : Ports ω} {stream : IOStream ω} (hio : io.stream = some stream)
    (hread : ∀ n w x, (stream.read n w).1 = .error x → ¬ x.IsTimeout)
    (hwait : ∀ t w x, (stream.waitRead t w).1 = .error x → ¬ x.IsTimeout) {d d' : Driver}
    {fuel outBufferSize : ℕ} {packetTimeout firstByteTimeout interByteTimeout : Time} {w w' : ω} {x}
    (h : d.readRaw io fuel outBufferSize packetTimeout firstByteTimeout interByteTimeout w =
      some (.error x, d', w')) : ¬ x.IsTimeout := by
  simp only [Driver.readRaw, hio] at h
  generalize d.pullBytesFromInternal 0 _ = pulled at h
  rcases pulled with _ | ⟨buffer, d₁⟩
  · cases h
  dsimp only at h
  set timeout := if interByteTimeout = 0 then packetTimeout else interByteTimeout
  rcases hrun : run (rawIteration io stream outBufferSize packetTimeout timeout) fuel _
    with _ | ⟨r, w₁⟩
  · rw [hrun] at h
    cases h
  rw [hrun] at h
  cases h
  refine run_rule (I := fun _ => True)
    (Q := fun b : Except Exn Bytes × ω => ∀ x, b.1 = .error x → ¬ x.IsTimeout) ?_ trivial hrun x rfl
  intro s _
  by_cases hgo : s.buffer.length < outBufferSize ∧ s.now ≤ s.globalDeadline
  swap
  · rw [rawIteration, if_neg hgo]
    simp
  rw [rawIteration, if_pos hgo]
  dsimp only
  rcases hw : stream.waitRead _ s.world with ⟨y | _ | _, w₁⟩
  · rintro _ ⟨⟩
    exact hwait _ _ y (congrArg Prod.fst hw)
  · simp
  dsimp only
  rcases hr : stream.read _ w₁ with ⟨y | c, w₂⟩
  · rintro _ ⟨⟩
    exact hread _ _ y (congrArg Prod.fst hr)
  · dsimp only
    split_ifs <;> trivial

theorem Adds.eof_eq {cs : List Bytes} (h : Adds k w w' cs) (hk : k ≠ i) (ht : Tracks i w w') :
    w'.world.eof i = w.world.eof i := by
  obtain ⟨new, hnew, hof, _⟩ := h
  refine ht.eof_eq hnew fun ev hev hreads => ?_
  have hread := hof ev hev
  cases ev with
  | read j n answer => exact hk (hread.symm.trans hreads)
  | _ => exact hreads

theorem Accepts.eof_eq {data : Bytes} (h : Accepts k w w' data) (ht : Tracks i w w') :
    w'.world.eof i = w.world.eof i := by
  obtain ⟨new, hnew, hof, _⟩ := h
  refine ht.eof_eq hnew fun ev hev hreads => ?_
  have hwrite := hof ev hev
  cases ev with
  | read j n answer => exact hwrite
  | _ => exact hreads

theorem adds_keeps (io : Ports ω) (k : ℕ) :
    (io.recorded k).KeepsReading fun w w' => ∃ cs, Adds k w w' cs where
  refl w := ⟨[], .refl k w⟩
  trans := by
    rintro w w' w'' ⟨cs, h⟩ ⟨cs', h'⟩
    exact ⟨cs ++ cs', h.trans h'⟩
  now w := ⟨[], adds_now io w⟩
  notifyRead data w := ⟨[], adds_notifyRead io data w⟩
  read := by
    intro st n w r w' hst hr
    obtain ⟨st', _, rfl⟩ := Option.map_eq_some_iff.mp hst
    rcases r with x | c
    · exact ⟨[], (adds_read_threw hr).1⟩
    · exact ⟨[c.val], adds_read hr⟩
  waitRead := by
    intro st t w r w' hst hr
    obtain ⟨st', _, rfl⟩ := Option.map_eq_some_iff.mp hst
    exact ⟨[], (adds_waitRead hr).1⟩

theorem forwardData_parts {R : Recorded ω → Recorded ω → Prop} {rawMode : Bool} {E : Extract ω}
    {ioFrom ioTo : Ports ω} {j k fuel bufferSize size : ℕ} {timeout : Time}
    {source target source' target' : Driver} {w w' : Recorded ω} (hto : ioTo.stream ≠ none)
    (hR : (ioTo.recorded k).Keeps R)
    (h : forwardData rawMode E.recorded (ioFrom.recorded j) (ioTo.recorded k) fuel bufferSize
      timeout source target w = some (.ok size, source', target', w')) :
    ∃ r w₁, readMode rawMode E.recorded (ioFrom.recorded j) fuel source bufferSize timeout w =
        some (r, source', w₁) ∧ R w₁ w' ∧ (∃ stats, target' = target.withStats stats) ∧
      ((∃ x, r = .error x ∧ x.IsTimeout ∧ w' = w₁) ∨
        ∃ data, r = .ok data ∧ Accepts k w₁ w' data) := by
  obtain ⟨r, w₁, hread, htarget, hr⟩ := forwardData_cases hto h
  obtain ⟨r', w₁', hread', hkept⟩ := forwardData_keeps hR h
  obtain ⟨-, -, rfl⟩ : _ ∧ _ ∧ w₁ = w₁' := by
    simpa only [Option.some.injEq, Prod.mk.injEq] using hread.symm.trans hread'
  exact ⟨r, w₁, hread, hkept, htarget, hr⟩

section Iteration

variable {st1 st2 : IOStream (Machine Ω)} {fd1 : ℤ}
  {listeners1 listeners2 : List (ℕ × IOListener Ω)} {rawMode : Bool} {e1 e2 : Bytes → ℤ}
  {timeout1 timeout2 : Time} {bufferSize fuel : ℕ} {s t : ForwardState (Recorded (Machine Ω))}

/-- Nothing has happened to the first driver, nothing was read from its stream, and nothing written
to the other one. -/
structure Spares (s t : ForwardState (Recorded (Machine Ω))) : Prop where
  driver1 : ∃ stats, t.driver1 = s.driver1.withStats stats
  tracks : Tracks 1 s.world t.world
  eof : t.world.world.eof 1 = s.world.world.eof 1
  received : received 1 t.world.trace = received 1 s.world.trace
  written : written 2 t.world.trace = written 2 s.world.trace

theorem Spares.refl (s : ForwardState (Recorded (Machine Ω))) : Spares s s :=
  ⟨⟨s.driver1.stats, rfl⟩, .refl 1 s.world, rfl, rfl, rfl⟩

theorem select_spares (f : Forwarder (Machine Ω))
    (hf : ∀ reads t m, ∃ os', (f.select reads t m).2 = m.withOs os') (reads : List ℤ) (t : Timeval)
    (s : ForwardState (Recorded (Machine Ω))) :
    Spares s { s with world := (f.recorded.select reads t s.world).2 } := by
  obtain ⟨os', hm⟩ := hf reads t s.world.world
  have heof : ∀ i, (f.select reads t s.world.world).2.eof i = s.world.world.eof i := by
    intro i
    rw [hm, Machine.withOs_eof]
  refine ⟨⟨s.driver1.stats, rfl⟩, ⟨⟨[], by simp [Forwarder.recorded], fun _ => heof 1⟩, ?_⟩, heof 1,
    rfl, rfl⟩
  change s.world.world.reads <+: (f.select reads t s.world.world).2.reads
  rw [hm, Machine.withOs_reads]

theorem pass2_spares (h1 : OverDescriptor os 1 fd1 st1) (h2 : Tracked 1 2 st2)
    (h : (os.forwarder rawMode e1 e2 (os.ports (some st1) listeners1)
      (os.ports (some st2) listeners2) timeout1 timeout2 bufferSize).recorded.Pass2 fuel s t) :
    Spares s t := by
  obtain rfl | ⟨size, h⟩ := h
  · exact .refl t
  obtain ⟨r, w₁, hread, htracks, htarget, hr⟩ :=
    forwardData_parts (Option.some_ne_none _) (tracks_keeps h1.tracked listeners1) h
  -- the read is one of stream 2, and the write goes to stream 1
  have hreadTracks : Tracks 1 s.world w₁ :=
    readMode_keeps (tracks_keeps h2 listeners2).toKeepsReading (fun _ w => .refl 1 w) hread
  obtain ⟨cs, hadds⟩ : ∃ cs, Adds 2 s.world w₁ cs :=
    readMode_keeps (adds_keeps _ 2) (fun _ w => ⟨[], .refl 2 w⟩) hread
  have heof : w₁.world.eof 1 = s.world.world.eof 1 := hadds.eof_eq (by decide) hreadTracks
  obtain ⟨x, _, _, hw⟩ | ⟨data, _, haccepts⟩ := hr
  · have htransfers := Transfers.of_adds 1 hadds
    rw [← hw] at htransfers heof hreadTracks
    refine ⟨htarget, hreadTracks, heof, ?_, ?_⟩
    · simpa using htransfers.received 1
    · simpa using htransfers.written 2
  · have htransfers := (Transfers.of_adds 1 hadds).then_accepts haccepts
    refine ⟨htarget, hreadTracks.trans htracks, (haccepts.eof_eq htracks).trans heof, ?_, ?_⟩
    · simpa using htransfers.received 1
    · simpa using htransfers.written 2

/-- Everything that has been read has been written, behind what was in the buffer at the start. -/
structure Copies (d : Driver) (s : ForwardState (Recorded (Machine Ω))) : Prop where
  maxPacketSize : s.driver1.maxPacketSize = d.maxPacketSize
  copied : written 2 s.world.trace ++ s.driver1.internalBuffer =
    d.internalBuffer ++ received 1 s.world.trace
  ended : s.world.world.eof 1 = true → s.driver1.internalBuffer = []

variable {d : Driver}

theorem Copies.spares (h : Copies d s) (hst : Spares s t) : Copies d t := by
  obtain ⟨stats, hdriver⟩ := hst.driver1
  refine ⟨?_, ?_, fun heof => ?_⟩
  · rw [hdriver]
    exact h.maxPacketSize
  · rw [hst.written, hst.received, hdriver]
    exact h.copied
  · rw [hdriver]
    exact h.ended (hst.eof.symm.trans heof)

theorem Copies.pass1 (h1 : OverDescriptor os 1 fd1 st1) (h2 : Tracked 1 2 st2)
    (hsize : d.maxPacketSize ≤ bufferSize) (hs : Copies d s)
    (h : (os.forwarder true e1 e2 (os.ports (some st1) listeners1)
      (os.ports (some st2) listeners2) timeout1 timeout2 bufferSize).recorded.Pass1 fuel s t) :
    Copies d t := by
  obtain rfl | ⟨size, h⟩ := h
  · exact hs
  obtain ⟨r, w₁, hread, htracks, -, hr⟩ :=
    forwardData_parts (Option.some_ne_none _) (tracks_keeps h2 listeners2) h
  have hread : s.driver1.readRaw ((os.ports (some st1) listeners1).recorded 1) fuel bufferSize
    timeout1 timeout1 0 s.world = some (r, t.driver1, w₁) := hread
  obtain ⟨cs, hend⟩ := readRaw_end (by rfl) hread
  have hfits : s.driver1.internalBuffer.length ≤ bufferSize :=
    s.driver1.fits.trans (hs.maxPacketSize.trans_le hsize)
  -- the output buffer takes all of the internal one
  have hempty : t.driver1.internalBuffer = [] := by
    rw [hend.driver, Driver.dropFront_internalBuffer, min_eq_left hfits, List.drop_length]
  have hmax : t.driver1.maxPacketSize = d.maxPacketSize := by
    rw [hend.driver]
    exact hs.maxPacketSize
  obtain ⟨x, rfl, hx, -⟩ | ⟨data, rfl, haccepts⟩ := hr
  · -- the stream throws no timeouts, and `readRaw` has none of its own
    exact absurd hx (readRaw_untimed rfl (fun n w => h1.untimed.1 n w.world)
      (fun t w => h1.untimed.2 t w.world) hread)
  have hdata : data = s.driver1.internalBuffer ++ cs.flatten := by
    obtain hok | ⟨y, hy, _⟩ := hend.result
    · rw [List.take_of_length_le hfits] at hok
      exact Except.ok.inj hok
    · cases hy
  have htransfers := (Transfers.of_adds 2 hend.adds).then_accepts haccepts
  refine ⟨hmax, ?_, fun _ => hempty⟩
  calc written 2 t.world.trace ++ t.driver1.internalBuffer
      = written 2 s.world.trace ++ s.driver1.internalBuffer ++ cs.flatten := by
        rw [hempty, htransfers.written, if_pos rfl, hdata, List.append_nil, List.append_assoc]
    _ = d.internalBuffer ++ received 1 t.world.trace := by
        rw [hs.copied, htransfers.received, if_pos rfl, List.append_assoc]

/-- A read of `fd` that has found the end of the file is not followed by data. -/
def EofLast (fd : ℤ) (reads : List ReadCall) : Prop :=
  reads.Pairwise fun call later =>
    call.fd = fd → 1 ≤ call.size → call.data = [] → later.fd = fd → later.data = []

instance (fd : ℤ) (reads : List ReadCall) : Decidable (EofLast fd reads) :=
  inferInstanceAs (Decidable (List.Pairwise _ _))

/-- The end of the file has been found, and the buffer holds no packet. -/
structure Found (e : Bytes → ℤ) (fd : ℤ) (d : Driver) (reads : List ReadCall) : Prop where
  call : ∃ call ∈ reads, call.fd = fd ∧ 1 ≤ call.size ∧ call.data = []
  parse : EofLast fd reads → parse e d.internalBuffer = []

/-- A driver in the first mode that does not report the end of the file before it has found it. -/
structure Ends (e : Bytes → ℤ) (fd : ℤ) (M : ℕ) (d : Driver) (w : Recorded (Machine Ω)) : Prop where
  extractLast : d.extractLast = false
  maxPacketSize : d.maxPacketSize = M
  ended : w.world.eof 1 = true → M = 0 ∨ Found e fd d w.world.reads

variable {e : Bytes → ℤ} {M : ℕ} {d' : Driver}

theorem Found.mono {reads reads' : List ReadCall} (h : Found e fd d reads) (hle : reads <+: reads')
    (hparse : Framing.parse e d.internalBuffer = [] → Framing.parse e d'.internalBuffer = []) :
    Found e fd d' reads' := by
  obtain ⟨call, hcall, hempty⟩ := h.call
  exact ⟨⟨call, hle.subset hcall, hempty⟩,
    fun hlast => hparse (h.parse (hlast.sublist hle.sublist))⟩

theorem Ends.mono (h : Ends e fd M d w) (hextractLast : d'.extractLast = d.extractLast)
    (hmax : d'.maxPacketSize = d.maxPacketSize) (heof : w'.world.eof 1 = w.world.eof 1)
    (hreads : w.world.reads <+: w'.world.reads)
    (hparse : Framing.parse e d.internalBuffer = [] → Framing.parse e d'.internalBuffer = []) :
    Ends e fd M d' w' := by
  refine ⟨hextractLast.trans h.extractLast, hmax.trans h.maxPacketSize, fun htrue => ?_⟩
  exact (h.ended (heof.symm.trans htrue)).imp id fun hfound => hfound.mono hreads hparse

theorem Ends.of_eq (h : Ends e fd M d w) (heof : w'.world.eof 1 = w.world.eof 1)
    (hreads : w'.world.reads = w.world.reads) : Ends e fd M d w' :=
  h.mono rfl rfl heof (hreads ▸ List.prefix_refl _) id

theorem parse_scanned (hb : InBounds e) (hf : d.extractLast = false)
    (h : Framing.parse e d.internalBuffer = []) :
    Framing.parse e (d.scanned e).internalBuffer = [] := by
  rw [parse_cut hb] at h
  rw [Driver.scanned_internalBuffer, hf]
  exact (List.append_eq_nil_iff.mp h).2

theorem notifyRead_machine (os : Os Ω) (st : Option (IOStream (Machine Ω)))
    (listeners : List (ℕ × IOListener Ω)) (data : Bytes) (w : Recorded (Machine Ω)) :
    (((os.ports st listeners).recorded k).notifyRead data w).world.eof = w.world.eof ∧
      (((os.ports st listeners).recorded k).notifyRead data w).world.reads = w.world.reads := by
  apply Os.notifyRead_rule (P := fun w' : Recorded (Machine Ω) =>
    w'.world.eof = w.world.eof ∧ w'.world.reads = w.world.reads) _ ⟨rfl, rfl⟩
  intro l _ w' hw'
  exact hw'

theorem Ends.read_data (hst : OverDescriptor os 1 fd st) {n : ℕ} {c} (h : Ends e fd M d w)
    (hread : (st.recorded 1).read n w = (.ok c, w')) (hc : c.val ≠ [])
    (hextractLast : d'.extractLast = d.extractLast) (hmax : d'.maxPacketSize = d.maxPacketSize) :
    Ends e fd M d' w' := by
  obtain ⟨hr, rfl⟩ := Prod.mk.inj hread
  rcases hst.read (n := n) (m := w.world) rfl with ⟨c', hasEof, os', hc', hm⟩ | ⟨hnil, -⟩
  swap
  · exact absurd (hnil c hr) hc
  obtain rfl : c = c' := Except.ok.inj (hr.symm.trans hc')
  have heof : (st.read n w.world).2.eof = w.world.eof := by simp [hm, Machine.didRead, hc]
  have hreads : (st.read n w.world).2.reads = w.world.reads ++ [⟨fd, n, c.val⟩] := by
    simp [hm, Machine.didRead]
  refine ⟨hextractLast.trans h.extractLast, hmax.trans h.maxPacketSize, fun htrue => ?_⟩
  change (st.read n w.world).2.eof 1 = true at htrue
  rw [heof] at htrue
  refine (h.ended htrue).imp id fun hfound => ?_
  change Found e fd d' (st.read n w.world).2.reads
  rw [hreads]
  obtain ⟨call, hcall, hfd, hsize, hempty⟩ := hfound.call
  refine ⟨⟨call, List.mem_append_left _ hcall, hfd, hsize, hempty⟩, fun hlast => ?_⟩
  have hafter := (List.pairwise_append.mp hlast).2.2 call hcall _ (List.mem_singleton_self _)
  exact absurd (hafter hfd hsize hempty rfl) hc

theorem Ends.read_nothing (hst : OverDescriptor os 1 fd st) {n : ℕ} {c} (h : Ends e fd M d w)
    (hread : (st.recorded 1).read n w = (.ok c, w')) (hc : c.val = []) (hn : M = 0 ∨ 1 ≤ n)
    (hparse : Framing.parse e d.internalBuffer = []) : Ends e fd M d w' := by
  obtain ⟨hr, rfl⟩ := Prod.mk.inj hread
  rcases hst.read (n := n) (m := w.world) rfl with ⟨c', hasEof, os', hc', hm⟩ | ⟨-, os', hm⟩
  · obtain rfl : c = c' := Except.ok.inj (hr.symm.trans hc')
    refine ⟨h.extractLast, h.maxPacketSize, fun _ => hn.imp id fun hn => ⟨?_, fun _ => hparse⟩⟩
    refine ⟨⟨fd, n, c.val⟩, ?_, rfl, hn, hc⟩
    change _ ∈ (st.read n w.world).2.reads
    rw [hm, Machine.didRead]
    exact List.mem_append_right _ (List.mem_singleton_self _)
  · refine h.of_eq ?_ ?_
    · simp only [hm, Machine.withOs_eof]
    · simp only [hm, Machine.withOs_reads]

theorem ends_rule (hb : InBounds e) (hdec : Decides e M) (hst : OverDescriptor os 1 fd st)
    (listeners : List (ℕ × IOListener Ω)) :
    ReadRule (Extract.pure e).recorded e ((os.ports (some st) listeners).recorded 1) (st.recorded 1)
      (Ends e fd M) (Ends e fd M) (Ends (Ω := Ω) e fd M) where
  start h := h.of_eq rfl rfl
  scan := by
    intro d w h
    change Ends e fd M _ ((Extract.pure e).effects _ w)
    rw [Extract.effects_pure]
    exact h.mono rfl rfl rfl (List.prefix_refl _) (parse_scanned hb h.extractLast)
  chunk := by
    intro d w c w' h hread hc
    change Ends e fd M _ ((Extract.pure e).effects _ _)
    rw [Extract.effects_pure]
    obtain ⟨heof, hreads⟩ := notifyRead_machine (k := 1) os (some st) listeners c.val w'
    have hdata : Ends e fd M ((d.append c.val c.property).scanned e) w' :=
      h.read_data hst hread hc rfl rfl
    exact hdata.of_eq (congrFun heof 1) hreads
  threw := by
    intro d w n x w' h hread
    obtain ⟨hr, rfl⟩ := Prod.mk.inj hread
    rcases hst.read (n := n) (m := w.world) rfl with ⟨c', hasEof, os', hc', hm⟩ | ⟨-, os', hm⟩
    · cases hr.symm.trans hc'
    · refine h.of_eq ?_ ?_
      · simp only [hm, Machine.withOs_eof]
      · simp only [hm, Machine.withOs_reads]
  noData := by
    intro d w c w' h hset hread hc
    have hsettled := hset h.extractLast
    refine h.read_nothing hst hread hc ?_ (parse_settled hsettled)
    -- a full buffer would not have to wait
    by_contra hnone
    have hfits := d.fits
    have hmax := h.maxPacketSize
    have hlen : d.internalBuffer.length = M := by omega
    have hne : d.internalBuffer ≠ [] := List.length_pos_iff.mp (by omega)
    exact hdec _ hlen hne (hsettled.resolve_left hne)
  now h := h.of_eq rfl rfl
  waitRead := by
    intro d w t r w' h hwait
    cases hwait
    obtain ⟨os', hm⟩ := hst.waitRead (t := t) (m := w.world) rfl
    refine h.of_eq ?_ ?_
    · simp only [hm, Machine.withOs_eof]
    · simp only [hm, Machine.withOs_reads]
  again h := h

/-- The packets of everything that has been read are those written, and those in the buffer. -/
structure Relays (e : Bytes → ℤ) (fd : ℤ) (d : Driver) (s : ForwardState (Recorded (Machine Ω))) :
    Prop where
  ends : Ends e fd d.maxPacketSize s.driver1 s.world
  relayed : ∃ ps : List Bytes, written 2 s.world.trace = ps.flatten ∧ ∀ u,
    Framing.parse e (d.internalBuffer ++ received 1 s.world.trace ++ u) =
      ps ++ Framing.parse e (s.driver1.internalBuffer ++ u)

theorem Relays.spares (h : Relays e fd d s) (hst : Spares s t) : Relays e fd d t := by
  obtain ⟨stats, hdriver⟩ := hst.driver1
  refine ⟨h.ends.mono ?_ ?_ hst.eof hst.tracks.reads ?_, ?_⟩
  · rw [hdriver]
    rfl
  · rw [hdriver]
    rfl
  · rw [hdriver]
    exact id
  · rw [hst.written, hst.received, hdriver]
    exact h.relayed

theorem Relays.pass1 (h1 : OverDescriptor os 1 fd1 st1) (h2 : Tracked 1 2 st2)
    (hb : InBounds e1) (hs : Stable e1) (hdec : Decides e1 d.maxPacketSize)
    (hsize : d.maxPacketSize ≤ bufferSize) (hrelays : Relays e1 fd1 d s)
    (h : (os.forwarder false e1 e2 (os.ports (some st1) listeners1)
      (os.ports (some st2) listeners2) timeout1 timeout2 bufferSize).recorded.Pass1 fuel s t) :
    Relays e1 fd1 d t := by
  obtain rfl | ⟨size, h⟩ := h
  · exact hrelays
  -- the read keeps it, and the write to stream 2 leaves stream 1 alone
  have hends : Ends e1 fd1 d.maxPacketSize t.driver1 t.world := by
    obtain ⟨r, w₁, hread, htracks, -, hr⟩ :=
      forwardData_parts (Option.some_ne_none _) (tracks_keeps (i := 1) h2 listeners2) h
    have hread : s.driver1.readPacket (Extract.pure e1).recorded
      ((os.ports (some st1) listeners1).recorded 1) fuel bufferSize timeout1 timeout1 s.world =
        some (r, t.driver1, w₁) := hread
    have hend := (readPacket_rule hb (Extract.answers_pure e1).recorded
      (ends_rule hb hdec h1 listeners1) rfl (hrelays.ends.maxPacketSize.trans_le hsize)
      hrelays.ends hread).elim id id
    refine hend.mono rfl rfl ?_ htracks.reads id
    obtain ⟨x, _, _, hw⟩ | ⟨data, _, haccepts⟩ := hr
    · rw [hw]
    · exact haccepts.eof_eq htracks
  refine ⟨hends, ?_⟩
  obtain ⟨ps, hwritten, hparse⟩ := hrelays.relayed
  obtain ⟨cs, hfed, -, htransfers⟩ := forwardData_packet hb (Extract.answers_pure e1)
    hrelays.ends.extractLast (Option.some_ne_none _) (Option.some_ne_none _) h
  have hreceived : received 1 t.world.trace = received 1 s.world.trace ++ cs.flatten := by
    rcases htransfers with htransfers | ⟨-, htransfers⟩ <;> simpa using htransfers.received 1
  have hout : written 2 t.world.trace =
      written 2 s.world.trace ++ (s.driver1.finds e1 cs).flatten := by
    rcases htransfers with htransfers | ⟨hnone, htransfers⟩
    · simpa using htransfers.written 2
    · simpa [hnone] using htransfers.written 2
  refine ⟨ps ++ s.driver1.finds e1 cs, by rw [hout, hwritten, List.flatten_append], fun u => ?_⟩
  rw [hreceived, ← List.append_assoc, List.append_assoc _ cs.flatten, hparse, ← List.append_assoc,
    hfed.parse_first hb hs hrelays.ends.extractLast, List.append_assoc]

theorem Ends.parse_eq_nil (h : Ends e fd M d w) (heof : w.world.eof 1 = true)
    (hlast : EofLast fd w.world.reads) : Framing.parse e d.internalBuffer = [] := by
  rcases h.ended heof with hzero | hfound
  · have hfits := d.fits
    have hmax := h.maxPacketSize
    have hnil : d.internalBuffer = [] := List.eq_nil_of_length_eq_zero (by omega)
    rw [hnil]
    exact parse_settled settled_nil
  · exact hfound.parse hlast

/-- When `forward` has returned and the second stream has not ended, the first one has. -/
theorem eof_of_returned (h1 : OverDescriptor os 1 fd1 st1)
    (h : (os.forwarder rawMode e1 e2 (os.ports (some st1) listeners1)
      (os.ports (some st2) listeners2) timeout1 timeout2 bufferSize).recorded.eof w = .ok true)
    (hother : st2.eof w.world = false) :
    w.world.eof 1 = true := by
  by_contra hnot
  have hfirst : (st1.recorded 1).eof w = false := by
    change st1.eof w.world = false
    rw [h1.eof]
    exact Bool.eq_false_iff.mpr hnot
  have hsecond : (st2.recorded 2).eof w = false := hother
  simp [Forwarder.eof, IodriversBase.eof, Forwarder.recorded, Os.forwarder, Os.ports,
    Ports.recorded, hfirst, hsecond] at h

/-- A call of `forward` that finds the first stream at the end of its file does nothing. -/
theorem forward_at_eof (h1 : OverDescriptor os 1 fd1 st1) {d1 d2 : Driver} {r : Except Exn Unit}
    (heof : w.world.eof 1 = true)
    (h : forward (os.forwarder rawMode e1 e2 (os.ports (some st1) listeners1)
      (os.ports (some st2) listeners2) timeout1 timeout2 bufferSize).recorded fuel d1 d2 w =
        some (r, t)) : t = ⟨d1, d2, w⟩ := by
  have hfirst : (st1.recorded 1).eof w = true := by
    change st1.eof w.world = true
    rw [h1.eof, heof]
  cases fuel with
  | zero => cases h
  | succ fuel =>
    simp only [forward, run, Forwarder.iteration, Forwarder.eof, IodriversBase.eof,
      Forwarder.recorded, Os.forwarder, Os.ports, Ports.recorded, Option.map_some, hfirst,
      Option.some.injEq, Prod.mk.injEq] at h
    exact h.2.symm

end Iteration

/-- **`forward` loses nothing up to the end of the file.**  When it returns because the first stream
has come to its end, raw mode has written the bytes of the driver's buffer and those received, in
order, up to what the buffer still holds; packet mode has written whole packets only, those at the
front of the input, in order.  This is all there is, unless `forward` was entered at the end of the
file with something in the buffer or, for packets, data came after the end of the file. -/
theorem forward_loses_nothing {st1 st2 : IOStream (Machine Ω)} {fd1 : ℤ}
    {listeners1 listeners2 : List (ℕ × IOListener Ω)} {rawMode : Bool} {e1 e2 : Bytes → ℤ}
    {timeout1 timeout2 : Time} {bufferSize fuel : ℕ} {d1 d2 : Driver} {m : Machine Ω}
    {t : ForwardState (Recorded (Machine Ω))} (h1 : OverDescriptor os 1 fd1 st1)
    (h2 : Tracked 1 2 st2) (hf : d1.extractLast = false) (hsize : d1.maxPacketSize ≤ bufferSize)
    (h : forward (os.forwarder rawMode e1 e2 (os.ports (some st1) listeners1)
      (os.ports (some st2) listeners2) timeout1 timeout2 bufferSize).recorded fuel d1 d2 ⟨m, []⟩ =
        some (.ok (), t)) (hother : st2.eof t.world.world = false) :
    (rawMode = true →
      written 2 t.world.trace ++ t.driver1.internalBuffer =
        d1.internalBuffer ++ received 1 t.world.trace ∧
      ((m.eof 1 = true → d1.internalBuffer = []) →
        written 2 t.world.trace = d1.internalBuffer ++ received 1 t.world.trace)) ∧
    (rawMode = false → InBounds e1 → Stable e1 → Decides e1 d1.maxPacketSize →
      ∃ ps : List Bytes, written 2 t.world.trace = ps.flatten ∧
        Framing.parse e1 (d1.internalBuffer ++ received 1 t.world.trace) =
          ps ++ Framing.parse e1 t.driver1.internalBuffer ∧
        ((m.eof 1 = true → Framing.parse e1 d1.internalBuffer = []) →
          EofLast fd1 t.world.world.reads →
          ps = Framing.parse e1 (d1.internalBuffer ++ received 1 t.world.trace))) := by
  by_cases heof : m.eof 1 = true
  · -- the loop is left before anything is read
    obtain rfl := forward_at_eof h1 heof h
    refine ⟨fun _ => ⟨by simp [written, received], fun hnone => ?_⟩, fun _ _ _ _ =>
      ⟨[], by simp [written], by simp [received], fun hnone _ => ?_⟩⟩
    · simp [written, received, hnone heof]
    · simp [received, hnone heof]
  constructor
  · rintro rfl
    have hstart : Copies d1 ⟨d1, d2, ⟨m, []⟩⟩ :=
      ⟨rfl, by simp [written, received], fun htrue => absurd htrue heof⟩
    obtain ⟨hcopies, hended⟩ := forward_rule (K := Copies d1)
      (fun reads t s hs => hs.spares (select_spares _ (fun _ _ _ => ⟨_, rfl⟩) reads t s))
      (fun s t hs => hs.pass1 h1 h2 hsize)
      (fun s t hs hpass => hs.spares (pass2_spares h1 h2 hpass)) hstart h
    refine ⟨hcopies.copied, fun _ => ?_⟩
    have hcopied := hcopies.copied
    rwa [hcopies.ended (eof_of_returned h1 hended hother), List.append_nil] at hcopied
  · rintro rfl hb hs hdec
    have hstart : Relays e1 fd1 d1 ⟨d1, d2, ⟨m, []⟩⟩ :=
      ⟨⟨hf, rfl, fun htrue => absurd htrue heof⟩, [], by simp [written],
        fun u => by simp [received]⟩
    obtain ⟨hrelays, hended⟩ := forward_rule (K := Relays e1 fd1 d1)
      (fun reads t s hs => hs.spares (select_spares _ (fun _ _ _ => ⟨_, rfl⟩) reads t s))
      (fun s t hs' => hs'.pass1 h1 h2 hb hs hdec hsize)
      (fun s t hs' hpass => hs'.spares (pass2_spares h1 h2 hpass)) hstart h
    obtain ⟨ps, hwritten, hparse⟩ := hrelays.relayed
    have hall := hparse []
    rw [List.append_nil, List.append_nil] at hall
    refine ⟨ps, hwritten, hall, fun _ hlast => ?_⟩
    -- no packet is left, so those that have been written are all
    have hnone := hrelays.ends.parse_eq_nil (eof_of_returned h1 hended hother) hlast
    rw [hall, hnone, List.append_nil]

/-- The chunks are handed out on descriptor 5, which is ready as long as there are any. -/
def Script.pipe : Os Script :=
  { Script.os with select := fun reads writes _ w =>
      (.ok (if w = [] then [] else reads.filter (· = 5), writes), w) }

/-- `driver1` is forwarded from descriptor 5 to a fresh driver on descriptor 6. -/
def Script.forwarded (rawMode : Bool) (timeout : Time) (driver1 : Driver) (m : Machine Script) :
    Option (Except Exn Unit × ForwardState (Recorded (Machine Script))) :=
  forward (Script.pipe.forwarder rawMode driverTestExtractPacket driverTestExtractPacket
    (Script.pipe.ports (some (fdStream Script.pipe 1 5 true true)) [])
    (Script.pipe.ports (some (fdStream Script.pipe 2 6 true true)) []) timeout timeout 100).recorded
    20 driver1 (.new 100 false) ⟨m, []⟩

/-- `forward` has returned because the first stream has ended. -/
def Script.Ended (b : Except Exn Unit × ForwardState (Recorded (Machine Script))) : Prop :=
  b.1.isOk = true ∧ b.2.world.world.eof 1 = true ∧ b.2.world.world.eof 2 = false

instance : DecidablePred Script.Ended :=
  fun b => inferInstanceAs (Decidable (b.1.isOk = true ∧ _ ∧ _))

/-- One packet, and the end of the file. -/
theorem forward_loses_nothing_sample : ∃ b,
    Script.forwarded false 0 (.new 100 false) (.start [[0, 1, 2, 0], []]) = some b ∧
    Script.Ended b ∧ received 1 b.2.world.trace = [0, 1, 2, 0] ∧
    written 2 b.2.world.trace =
      (Framing.parse driverTestExtractPacket (received 1 b.2.world.trace)).flatten := by
  obtain ⟨⟨r, t⟩, hcall, hended, hreceived, hlast⟩ := exists_of_any
    (x := Script.forwarded false 0 (.new 100 false) (.start [[0, 1, 2, 0], []]))
    (fun b => Script.Ended b ∧ received 1 b.2.world.trace = [0, 1, 2, 0] ∧
      EofLast 5 b.2.world.world.reads) (by decide +kernel)
  rcases r with x | ⟨⟩
  · exact absurd hended.1 Bool.false_ne_true
  have hdecides : Decides driverTestExtractPacket 100 :=
    fun b hb _ => driverTest_decides (by omega)
  have hall := forward_loses_nothing (.fdStream true true)
    (OverDescriptor.fdStream true true).tracked (by rfl) (by rfl) hcall hended.2.2
  obtain ⟨ps, hwritten, -, hps⟩ := hall.2 rfl driverTest_inBounds driverTest_stable hdecides
  rw [hps (fun heof => by cases heof) hlast] at hwritten
  exact ⟨_, hcall, hended, hreceived, hwritten⟩

/-- A call of `readPacket` before `forward` is entered. -/
def Script.readBefore (timeout : Time) (script : Script) :
    Option (Except Exn Bytes × Driver × Machine Script) :=
  (Driver.new 100 false).readPacket (.pure driverTestExtractPacket)
    (Script.pipe.ports (some (fdStream Script.pipe 1 5 true true)) []) 20 100 timeout timeout
    (.start script)

/-- What is in the buffer of a driver that has already found the end of the file is lost, bytes in
raw mode and packets otherwise, and so are packets that arrive, together with another one, after an
end of the file. -/
theorem forward_loses_bytes :
    (∃ c b, Script.readBefore 0 [[0, 1], []] = some c ∧
      Script.forwarded true 0 c.2.1 c.2.2 = some b ∧ Script.Ended b ∧
      written 2 b.2.world.trace ≠ c.2.1.internalBuffer ++ received 1 b.2.world.trace) ∧
    (∃ c b, Script.readBefore 10 [[], [0, 1, 2, 0, 0, 3, 4, 0]] = some c ∧
      Script.forwarded false 0 c.2.1 c.2.2 = some b ∧ Script.Ended b ∧
      written 2 b.2.world.trace ≠ (Framing.parse driverTestExtractPacket
        (c.2.1.internalBuffer ++ received 1 b.2.world.trace)).flatten) ∧
    ∃ b, Script.forwarded false 10 (.new 100 false)
        (.start [[], [0, 1, 2, 0, 0, 3, 4, 0]]) = some b ∧
      Script.Ended b ∧ written 2 b.2.world.trace ≠
        (Framing.parse driverTestExtractPacket (received 1 b.2.world.trace)).flatten := by
  have hfirst : driverTestExtractPacket [0, 1, 2, 0, 0, 3, 4, 0] = 4 := by decide
  have hsecond : driverTestExtractPacket [0, 3, 4, 0] = 4 := by decide
  refine ⟨?_, ?_, ?_⟩
  · obtain ⟨c, hread, hlost⟩ := exists_of_any (x := Script.readBefore 0 [[0, 1], []])
      (fun c => (Script.forwarded true 0 c.2.1 c.2.2).any (fun b => decide (Script.Ended b ∧
        written 2 b.2.world.trace ≠ c.2.1.internalBuffer ++ received 1 b.2.world.trace)) = true)
      (by decide +kernel)
    obtain ⟨b, hcall, hended, hne⟩ := exists_of_any _ hlost
    exact ⟨c, b, hread, hcall, hended, hne⟩
  · obtain ⟨c, hread, hbuffer, hlost⟩ := exists_of_any
      (x := Script.readBefore 10 [[], [0, 1, 2, 0, 0, 3, 4, 0]])
      (fun c => c.2.1.internalBuffer = [0, 3, 4, 0] ∧
        (Script.forwarded false 0 c.2.1 c.2.2).any (fun b => decide (Script.Ended b ∧
          received 1 b.2.world.trace = [] ∧ written 2 b.2.world.trace = [])) = true)
      (by decide +kernel)
    obtain ⟨b, hcall, hended, hreceived, hwritten⟩ := exists_of_any _ hlost
    refine ⟨c, b, hread, hcall, hended, fun heq => ?_⟩
    rw [hwritten, hbuffer, hreceived, List.append_nil, parse_packet (List.cons_ne_nil _ _)
      (by omega), hsecond] at heq
    exact absurd (congrArg List.length heq) (by simp)
  · obtain ⟨b, hcall, hended, hreceived, hwritten⟩ := exists_of_any
      (x := Script.forwarded false 10 (.new 100 false) (.start [[], [0, 1, 2, 0, 0, 3, 4, 0]]))
      (fun b => Script.Ended b ∧ received 1 b.2.world.trace = [0, 1, 2, 0, 0, 3, 4, 0] ∧
        written 2 b.2.world.trace = [0, 1, 2, 0]) (by decide +kernel)
    refine ⟨b, hcall, hended, fun heq => ?_⟩
    rw [hwritten, hreceived, parse_packet (List.cons_ne_nil _ _) (by omega), hfirst] at heq
    change _ = [0, 1, 2, 0] ++ (Framing.parse driverTestExtractPacket [0, 3, 4, 0]).flatten at heq
    rw [parse_packet (List.cons_ne_nil _ _) (by omega), hsecond] at heq
    exact absurd (congrArg List.length heq) (by simp)

end IodriversBase
