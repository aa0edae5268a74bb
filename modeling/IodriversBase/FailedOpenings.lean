import IodriversBase.Opening

namespace IodriversBase

open Programs

variable {Ω α : Type} {os : OpenOs Ω} {s₀ s t : Owner Ω}

/-- Only the system has gone on. -/
def Same (s₀ s : Owner Ω) : Prop := ∃ o, s = s₀.withOs o

theorem Same.refl (s : Owner Ω) : Same s s := ⟨s.os, rfl⟩

theorem Same.withOs (h : Same s₀ s) (o : Ω) : Same s₀ (s.withOs o) := by
  obtain ⟨o', rfl⟩ := h
  exact ⟨o, rfl⟩

/-- The driver has a new stream, of the class `main`; the calls so far and its internal buffer are
as they were. -/
structure Replaced (s₀ : Owner Ω) (main : Option (MainStream Ω)) (s : Owner Ω) : Prop where
  main : s.main = main
  driver : s.driver = s₀.driver
  trace : s.world.trace = s₀.world.trace
  listeners : s.listeners = s₀.listeners

theorem Replaced.withOs {main : Option (MainStream Ω)} (h : Replaced s₀ main s) (o : Ω) :
    Replaced s₀ main (s.withOs o) := ⟨h.main, h.driver, h.trace, h.listeners⟩

theorem Same.replaced (h : Same s₀ s) (main : MainStream Ω) (peer : Peer) :
    Replaced s₀ (some main) (s.setMainStream os.toDatagramOs main peer) := by
  obtain ⟨o, rfl⟩ := h
  exact ⟨rfl, rfl, rfl, rfl⟩

theorem onOs_same (f : Act Ω UnixError α) :
    Ensures (Same s₀) (onOs f) (fun _ => Same s₀) fun _ => Same s₀ := by
  refine Ensures.within fun s hs => ?_
  obtain ⟨x | a, w⟩ := f.run s.os
  · exact hs.withOs w
  · exact hs.withOs w

theorem newStream_same (os : OpenOs Ω) (s₀ : Owner Ω) (fd : ℤ) (main : MainStream Ω)
    (peer : Peer) :
    Ensures (Same s₀) (newStream os fd main peer) (fun _ => Replaced s₀ (some main))
      fun _ => Same s₀ :=
  (onOs_same _).bind fun _ => Ensures.act fun _ hs => hs.replaced main peer

theorem onOs_newStream_same (os : OpenOs Ω) (s₀ : Owner Ω) (f : Act Ω UnixError α) (fd : α → ℤ)
    (main : α → MainStream Ω) (peer : α → Peer) :
    Ensures (Same s₀) (do let a ← onOs f; newStream os (fd a) (main a) (peer a))
      (fun _ s => ∃ main, Replaced s₀ (some main) s) fun _ => Same s₀ :=
  (onOs_same f).bind fun a =>
    (newStream_same os s₀ (fd a) (main a) (peer a)).mono (fun _ h => h) (fun _ _ h => ⟨_, h⟩)
      fun _ _ h => h

def Opening.FailsTo (s : Owner Ω) (x : UnixError) (t : Owner Ω) : Opening → Prop
  | .openTCP _ _ => Same s t ∨ x.what = nodelayWhat ∧ Replaced s none t
  | .openSerial _ _ _ => Same s t ∨ x.what ∈ configurationWhats ∧
      ∃ fd, Replaced s (some (.backed (.fdStream fd true false))) t
  | _ => Same s t

/-- The option that cannot be set costs the stream: the old one is gone, and so is the new one. -/
theorem openTCP_same (hostname : Text) (port : ℤ) :
    Ensures (Same s₀) (openTCP os hostname port) (fun _ t => ∃ main, Replaced s₀ (some main) t)
      fun x t => Same s₀ t ∨ x.what = nodelayWhat ∧ Replaced s₀ none t := by
  refine Ensures.bind (Q := fun _ s => ∃ main, Replaced s₀ (some main) s) ?_ fun _ => ?_
  · exact (onOs_newStream_same os s₀ _ Prod.fst _ _).mono (fun _ h => h) (fun _ _ h => h)
      fun _ _ => .inl
  refine Ensures.bind (Q := fun _ s => ∃ main, Replaced s₀ (some main) s)
    (Ensures.act fun _ hs => hs) fun fd => ?_
  refine Ensures.bind (Q := fun _ s => ∃ main, Replaced s₀ (some main) s) ?_ fun result => ?_
  · refine Ensures.within fun s hs => ?_
    obtain ⟨main, hs⟩ := hs
    exact ⟨main, hs.withOs _⟩
  cases result with
  | true => exact Ensures.pure fun _ hs => hs
  | false =>
    refine Ensures.bind (Q := fun _ s => Replaced s₀ none s) ?_ fun _ => ?_
    · refine Ensures.act fun s hs => ?_
      obtain ⟨main, hs⟩ := hs
      exact ⟨rfl, hs.driver, hs.trace, hs.listeners⟩
    · exact Ensures.within fun s hs => .inr ⟨rfl, hs.withOs _⟩

theorem setSerialConfiguration_throws (sos : SerialOs Ω) (fd : ℤ) (c : SerialConfiguration)
    (w : Ω) :
    EndsIn (fun _ _ => True) (fun x _ => x.what ∈ configurationWhats)
      ((setSerialConfiguration sos fd c).run w) := by
  refine Ensures.bind (P := fun _ => True) (Q := fun _ _ => True) (fun w _ => ?_)
    (fun tio w _ => ?_) w trivial
  · rw [demand, ExceptT.run_mk]
    rcases sos.tcgetattr fd w with ⟨_ | tio, w'⟩
    · exact List.mem_cons_self ..
    · trivial
  · rw [check, ExceptT.run_mk]
    rcases sos.tcsetattr fd (tio.configured c) w with ⟨_ | _, w'⟩
    · exact List.mem_cons_of_mem _ (List.mem_singleton_self _)
    · trivial

theorem openSerialOn_same (fd : ℤ) (configuration : SerialConfiguration) :
    Ensures (Same s₀) (openSerialOn os fd configuration)
      (fun _ t => ∃ main, Replaced s₀ (some main) t)
      fun x t => Same s₀ t ∨ x.what ∈ configurationWhats ∧
        ∃ fd, Replaced s₀ (some (.backed (.fdStream fd true false))) t := by
  have hnew := newStream_same os s₀ fd (.backed (.fdStream fd true false)) (noPeer 0)
  refine Ensures.bind (hnew.mono (fun _ h => h) (fun _ _ h => h) fun _ _ => .inl) fun _ => ?_
  refine Ensures.bind (Q := fun _ s => Replaced s₀ (some (.backed (.fdStream fd true false))) s)
    (Ensures.act fun _ hs => hs) fun fd' => ?_
  refine Ensures.within fun s hs => (setSerialConfiguration_throws os.toSerialOs fd' configuration
    s.os).mono (fun _ w _ => ?_) fun x w hx => ?_
  · exact ⟨_, hs.withOs w⟩
  · exact .inr ⟨hx, fd, hs.withOs w⟩

variable {fuel : Time → Socket Ω → ℕ}

theorem openSerial_same {device : Text} {baudrate : ℤ} {configuration : SerialConfiguration}
    {r : Except UnixError Unit} (h : openSerial os device baudrate configuration s = .ok (r, t)) :
    EndsIn (fun _ t => ∃ main, Replaced s (some main) t)
      (fun x t => Same s t ∨ x.what ∈ configurationWhats ∧
        ∃ fd, Replaced s (some (.backed (.fdStream fd true false))) t) (r, t) := by
  rw [openSerial] at h
  rcases hio : openSerialIO os.toSerialOs (.ofList device) baudrate s.os with fault | ⟨x | fd, w⟩
  · rw [hio] at h
    cases h
  · rw [hio] at h
    cases h
    exact .inl ((Same.refl s).withOs w)
  · rw [hio] at h
    rw [← Except.ok.inj h]
    exact openSerialOn_same fd configuration (s.withOs w) ((Same.refl s).withOs w)

theorem opening_ends {o : Opening} {r : Except UnixError Unit}
    (h : o.perform os fuel s = .ok (r, t)) :
    EndsIn (fun _ t => ∃ main, Replaced s (some main) t) (fun x t => o.FailsTo s x t) (r, t) := by
  have hstart := Same.refl s
  have hmakes {β : Type} (f : Act Ω UnixError β) (fd : β → ℤ) (main : β → MainStream Ω)
      (peer : β → Peer) := onOs_newStream_same os s f fd main peer s hstart
  cases o with
  | openSerial => exact openSerial_same h
  | openTCP hostname port => exact Except.ok.inj h ▸ openTCP_same hostname port s hstart
  | openUDPBidirectional call =>
    rw [← Except.ok.inj h]
    exact (onOs_same _).bind (fun sfd => onOs_newStream_same os s _ (fun _ => sfd) _ _) s hstart
  | openUDPServer port => exact Except.ok.inj h ▸ hmakes _ id _ _
  | openFile path => exact Except.ok.inj h ▸ hmakes _ id _ _
  | openUnixStreamServer path =>
    rw [← Except.ok.inj h]
    exact (onOs_same _).bind (fun _ => onOs_newStream_same os s _ id _ _) s hstart
  | openUnixStreamClient path => exact Except.ok.inj h ▸ hmakes _ id _ _
  | openUnixDatagramServer path =>
    rw [← Except.ok.inj h]
    exact (onOs_same _).bind (fun _ => onOs_newStream_same os s _ id _ _) s hstart
  | openUnixDatagramClient path => exact Except.ok.inj h ▸ hmakes _ id _ _
  | openTestMode => exact Except.ok.inj h ▸ ⟨_, hstart.replaced _ _⟩
  | setFileDescriptor fd autoClose hasEof =>
    rw [← Except.ok.inj h]
    exact (newStream_same os s fd _ _).mono (fun _ h => h)
      (fun _ _ h => ⟨_, h⟩) (fun _ _ h => h) s hstart

/-- **A URI that cannot be opened leaves the driver as it was**: its stream, its buffer and its
statistics; only a TCP stream without its option costs the old one, and a serial port that cannot
be configured takes its place. -/
theorem openURI_failed {uriString : Text} {x : OpenError}
    (h : openURI (opener os fuel) uriString (.ok s) = (.error x, .ok t)) :
    Same s t ∨
      (∃ hostname port y, askedFor uriString = some (.openTCP hostname port) ∧
        x = .unixError y ∧ y.what = nodelayWhat ∧ Replaced s none t) ∨
      ∃ device baudrate c y fd, askedFor uriString = some (.openSerial device baudrate c) ∧
        x = .unixError y ∧ y.what ∈ configurationWhats ∧
        Replaced s (some (.backed (.fdStream fd true false))) t := by
  obtain ⟨rfl, -⟩ | ⟨o, r, ho, hperform, hr⟩ := openURI_performs h
  · exact .inl (Same.refl t)
  cases r with
  | ok => cases hr
  | error y =>
    obtain rfl : x = .unixError y := Except.error.inj hr
    have hfails : o.FailsTo s y t := opening_ends hperform
    cases o with
    | openTCP hostname port =>
      refine hfails.imp_right fun hfails => .inl ?_
      exact ⟨hostname, port, y, ho, rfl, hfails⟩
    | openSerial device baudrate c =>
      refine hfails.imp_right fun ⟨hwhat, fd, hreplaced⟩ => .inr ?_
      exact ⟨device, baudrate, c, y, fd, ho, rfl, hwhat, hreplaced⟩
    | _ => exact .inl hfails

/-- A driver with a stream over the descriptor 5. -/
def Owner.onFd5 (driver : Driver) (o : Ω) : Owner Ω where
  main := some (.backed (.fdStream 5 true true))
  listeners := []
  number := 1
  driver := driver
  world := ⟨⟨⟨.start o, fun _ => noPeer 0, fun _ => none⟩, fun _ => .new⟩, []⟩

/-- The host is not known; two bytes in the buffer, and the bytes that have been counted, stay. -/
theorem openURI_failed_sample : ∃ t : Owner ℕ,
    openURI (opener .lonely fun _ _ => 0) "tcp://b:1".toList
        (.ok (.onFd5 ((Script.driver false [1, 2]).withStats ⟨3, 4, 5, 6⟩) 3)) =
      (.error (.unixError ⟨"cannot resolve client port 1".toList, 0⟩), .ok t) ∧
    t.main = some (.backed (.fdStream 5 true true)) ∧ t.driver.internalBuffer = [1, 2] ∧
    t.driver.stats = ⟨3, 4, 5, 6⟩ := by
  obtain ⟨t, ht⟩ : ∃ t, openURI (opener .lonely fun _ _ => 0) "tcp://b:1".toList
      (.ok (.onFd5 ((Script.driver false [1, 2]).withStats ⟨3, 4, 5, 6⟩) 3)) =
        (.error (.unixError ⟨"cannot resolve client port 1".toList, 0⟩), .ok t) := ⟨_, rfl⟩
  refine ⟨t, ht, ?_⟩
  obtain ⟨o, rfl⟩ | ⟨_, _, y, -, hy, hwhat, -⟩ | ⟨_, _, _, y, _, -, hy, hwhat, -⟩ :=
    openURI_failed ht
  · exact ⟨rfl, rfl, rfl⟩
  · cases hy
    exact absurd hwhat (by decide)
  · cases hy
    exact absurd hwhat (by decide)

end IodriversBase
