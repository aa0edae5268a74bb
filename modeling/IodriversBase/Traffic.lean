import IodriversBase.Calls
import IodriversBase.Samples

namespace IodriversBase

variable {ω : Type}

/-- What the listener `l` was told to have been read. -/
def Event.heard (l : ℕ) : Event → Bytes
  | .readData l' data => if l' = l then data else []
  | _ => []

/-- What the listener `l` was told to have been written. -/
def Event.told (l : ℕ) : Event → Bytes
  | .writeData l' data => if l' = l then data else []
  | _ => []

/-- What a read delivered. -/
def Event.delivered : Event → Bytes
  | .read _ _ (.ok data) => data
  | _ => []

/-- What a write accepted. -/
def Event.sent : Event → Bytes
  | .write _ data (.ok n) => data.take n
  | _ => []

/-- Of the events `t`, the listener `l` was told all that was read and all that was written. -/
structure Hears (l : ℕ) (t : List Event) : Prop where
  read : t.flatMap (Event.heard l) = t.flatMap Event.delivered
  write : t.flatMap (Event.told l) = t.flatMap Event.sent

variable {l : ℕ} {t t' : List Event}

theorem hears_nil (l : ℕ) : Hears l [] := ⟨rfl, rfl⟩

theorem Hears.append (h : Hears l t) (h' : Hears l t') : Hears l (t ++ t') := by
  constructor
  · rw [List.flatMap_append, List.flatMap_append, h.read, h'.read]
  · rw [List.flatMap_append, List.flatMap_append, h.write, h'.write]

/-- An event that neither delivers nor accepts anything, and tells nothing. -/
def Event.Mute : Event → Prop
  | .now _ | .waitRead _ _ _ | .waitWrite _ _ _ => True
  | .read _ _ (.error _) | .write _ _ (.error _) => True
  | .read _ _ (.ok data) => data = []
  | _ => False

theorem hears_mute {ev : Event} (h : ev.Mute) : Hears l [ev] := by
  rcases ev with _ | ⟨_, _, _ | data⟩ | ⟨_, _, _ | _⟩ | _ | _ | _ | _
  case read.ok =>
    obtain rfl : data = [] := h
    exact ⟨rfl, rfl⟩
  all_goals first | exact ⟨rfl, rfl⟩ | exact absurd h id

variable {keys : List ℕ} {data : Bytes}

theorem flatMap_once (hset : keys.Nodup) (hl : l ∈ keys) :
    keys.flatMap (fun k => if k = l then data else []) = data := by
  induction keys with
  | nil => cases hl
  | cons k keys ih =>
    obtain ⟨hk, hset⟩ := List.nodup_cons.mp hset
    rw [List.flatMap_cons]
    by_cases hkl : k = l
    · subst hkl
      have hrest : keys.flatMap (fun j => if j = k then data else []) = [] := by
        rw [List.flatMap_eq_nil_iff]
        intro j hj
        exact if_neg (ne_of_mem_of_not_mem hj hk)
      rw [hrest, if_pos rfl, List.append_nil]
    · rw [ih hset ((List.mem_cons.mp hl).resolve_left (Ne.symm hkl)), if_neg hkl, List.nil_append]

abbrev tellRead (keys : List ℕ) (data : Bytes) : List Event := keys.map (Event.readData · data)

abbrev tellWritten (keys : List ℕ) (data : Bytes) : List Event := keys.map (Event.writeData · data)

theorem hears_read (hset : keys.Nodup) (hl : l ∈ keys) (k n : ℕ) (data : Bytes)
    {between : List Event} (hbetween : ∀ ev ∈ between, ∃ time, ev = .now time) :
    Hears l (.read k n (.ok data) :: between ++ tellRead keys data) := by
  have hnone (f : Event → Bytes) (hf : ∀ time, f (.now time) = []) : between.flatMap f = [] := by
    rw [List.flatMap_eq_nil_iff]
    intro ev hev
    obtain ⟨time, rfl⟩ := hbetween ev hev
    exact hf time
  have hmute (f : Event → Bytes) (hf : ∀ k, f (.readData k data) = []) :
      (tellRead keys data).flatMap f = [] := by
    simp [tellRead, List.flatMap_map, hf]
  constructor
  · rw [List.cons_append, List.flatMap_cons, List.flatMap_append, hnone _ fun _ => rfl,
      List.flatMap_cons, List.flatMap_append, hnone _ fun _ => rfl,
      hmute Event.delivered fun _ => rfl, tellRead, List.flatMap_map]
    exact (flatMap_once hset hl).trans (List.append_nil data).symm
  · rw [List.cons_append, List.flatMap_cons, List.flatMap_append, hnone _ fun _ => rfl,
      List.flatMap_cons, List.flatMap_append, hnone _ fun _ => rfl,
      hmute Event.sent fun _ => rfl, hmute (Event.told l) fun _ => rfl]
    rfl

theorem hears_write (hset : keys.Nodup) (hl : l ∈ keys) (k n : ℕ) (data : Bytes) :
    Hears l (.write k data (.ok n) :: tellWritten keys (data.take n)) := by
  constructor
  · simp [tellWritten, List.flatMap_map, Event.heard, Event.delivered]
  · have hmute : (tellWritten keys (data.take n)).flatMap Event.sent = [] := by
      simp [tellWritten, List.flatMap_map, Event.sent]
    rw [List.flatMap_cons, List.flatMap_cons, hmute, tellWritten, List.flatMap_map]
    exact (flatMap_once hset hl).trans (List.append_nil _).symm

variable {io : Ports ω} {k : ℕ}

theorem trace_notifyRead (w : Recorded ω) : ((io.recorded k).notifyRead data w).trace =
    w.trace ++ tellRead (io.listeners.map Prod.fst) data := by
  simp only [Ports.notifyRead, Ports.recorded, tellRead]
  induction io.listeners generalizing w with
  | nil => simp
  | cons l ls ih => rw [List.map_cons, List.foldl_cons, ih]; simp [IOListener.recorded]

theorem trace_notifyWrite (w : Recorded ω) : ((io.recorded k).notifyWrite data w).trace =
    w.trace ++ tellWritten (io.listeners.map Prod.fst) data := by
  simp only [Ports.notifyWrite, Ports.recorded, tellWritten]
  induction io.listeners generalizing w with
  | nil => simp
  | cons l ls ih => rw [List.map_cons, List.foldl_cons, ih]; simp [IOListener.recorded]

def HearsBetween (l : ℕ) (w w' : Recorded ω) : Prop := ∃ t, w'.trace = w.trace ++ t ∧ Hears l t

variable {w w' w'' : Recorded ω}

theorem HearsBetween.of_trace (h : w'.trace = w.trace) : HearsBetween l w w' :=
  ⟨[], by simp [h], hears_nil l⟩

theorem HearsBetween.trans (h : HearsBetween l w w') (h' : HearsBetween l w' w'') :
    HearsBetween l w w'' := by
  obtain ⟨t, ht, hears⟩ := h
  obtain ⟨t', ht', hears'⟩ := h'
  exact ⟨t ++ t', by rw [ht', ht, List.append_assoc], hears.append hears'⟩

theorem HearsBetween.of_mute {ev : Event} (h : w'.trace = w.trace ++ [ev]) (hmute : ev.Mute) :
    HearsBetween l w w' := ⟨[ev], h, hears_mute hmute⟩

/-- Each of the three loops tells the listeners right after the call of the stream, but for the
clock. -/
theorem hearsBetween_keeps (hset : (io.listeners.map Prod.fst).Nodup)
    (hl : l ∈ io.listeners.map Prod.fst) : (io.recorded k).KeepsTelling (HearsBetween l) where
  refl _ := .of_trace rfl
  trans := HearsBetween.trans
  now _ := .of_mute rfl trivial
  readThrew := by
    intro st n w x w' hst hr
    obtain ⟨st', _, rfl⟩ := Option.map_eq_some_iff.mp hst
    obtain ⟨hanswer, rfl⟩ := Prod.mk.inj hr
    exact .of_mute rfl (by rw [hanswer]; trivial)
  readNothing := by
    intro st n w c w' hst hr hc
    obtain ⟨st', _, rfl⟩ := Option.map_eq_some_iff.mp hst
    obtain ⟨hanswer, rfl⟩ := Prod.mk.inj hr
    exact .of_mute rfl (by rw [hanswer]; exact hc)
  heard := by
    intro st n w c w' hst hr
    obtain ⟨st', _, rfl⟩ := Option.map_eq_some_iff.mp hst
    obtain ⟨hanswer, rfl⟩ := Prod.mk.inj hr
    have hnone : ∀ ev ∈ ([] : List Event), ∃ time, ev = .now time := by simp
    refine ⟨_, ?_, hears_read hset hl k n c.val hnone⟩
    rw [trace_notifyRead, hanswer]
    simp [Except.map]
  heardLater := by
    intro st n w c w' hst hr
    obtain ⟨st', _, rfl⟩ := Option.map_eq_some_iff.mp hst
    obtain ⟨hanswer, rfl⟩ := Prod.mk.inj hr
    have hnow : ∀ ev ∈ [Event.now (io.now (st'.read n w.world).2).1], ∃ time, ev = .now time := by
      simp
    refine ⟨_, ?_, hears_read hset hl k n c.val hnow⟩
    rw [trace_notifyRead]
    simp [Ports.recorded, hanswer, Except.map]
  waitRead := by
    intro st t w r w' hst hr
    obtain ⟨st', _, rfl⟩ := Option.map_eq_some_iff.mp hst
    obtain ⟨hanswer, rfl⟩ := Prod.mk.inj hr
    exact .of_mute rfl trivial
  writeThrew := by
    intro st data w x w' hst hr
    obtain ⟨st', _, rfl⟩ := Option.map_eq_some_iff.mp hst
    obtain ⟨hanswer, rfl⟩ := Prod.mk.inj hr
    exact .of_mute rfl (by rw [hanswer]; trivial)
  told := by
    intro st data w n w' hst hr
    obtain ⟨st', _, rfl⟩ := Option.map_eq_some_iff.mp hst
    obtain ⟨hanswer, rfl⟩ := Prod.mk.inj hr
    refine ⟨_, ?_, hears_write hset hl k n.val data⟩
    rw [trace_notifyWrite, hanswer]
    simp [Except.map]
  waitWrite := by
    intro st t w r w' hst hr
    obtain ⟨st', _, rfl⟩ := Option.map_eq_some_iff.mp hst
    obtain ⟨hanswer, rfl⟩ := Prod.mk.inj hr
    exact .of_mute rfl trivial

variable {E : Extract ω} {s t : Sys ω}

theorem Sys.Step.listeners {call : Op ω × Answer} (h : Sys.Step E s call t) :
    t.io.listeners = s.io.listeners := by
  obtain ⟨op, a⟩ := call
  obtain ⟨fuel, h⟩ := h
  cases op with
  | readPacket | readRaw | writePacket | hasPacket =>
    obtain ⟨_, -, -, hio, -⟩ := Sys.after_eq_some h
    rw [hio]
  | _ =>
    cases h
    rfl

/-- Over every run of calls, each listener has been told exactly the bytes that were read and
those that were written, in order. -/
theorem listeners_hear_traffic {io : Ports ω} {d : Driver} {w : ω} {calls : List (Op ω × Answer)}
    (hset : (io.listeners.map Prod.fst).Nodup) (hrun : Sys.Run E (Sys.start io d w) calls t)
    (hl : l ∈ io.listeners.map Prod.fst) :
    t.world.trace.flatMap (Event.heard l) = t.world.trace.flatMap Event.delivered ∧
      t.world.trace.flatMap (Event.told l) = t.world.trace.flatMap Event.sent := by
  have hstep : ∀ (s : Sys ω) call t, s.io.listeners = io.listeners ∧ Hears l s.world.trace →
      Sys.Step E s call t → t.io.listeners = io.listeners ∧ Hears l t.world.trace := by
    intro s call t hs hst
    have hkeeps : (s.io.recorded s.number).KeepsTelling (HearsBetween l) :=
      hearsBetween_keeps (by rwa [hs.1]) (by rwa [hs.1])
    obtain ⟨new, hnew, hears⟩ := hst.keeps hkeeps fun _ _ => .of_trace
    exact ⟨hst.listeners.trans hs.1, hnew ▸ hs.2.append hears⟩
  have hend := hrun.invariant hstep ⟨rfl, hears_nil l⟩
  exact ⟨hend.2.read, hend.2.write⟩

/-- The scripted ports, with a listener at the address 7 that does nothing. -/
def Script.heardPorts : Ports Script :=
  { Script.ports with listeners := [(7, ⟨fun _ w => w, fun _ w => w⟩)] }

theorem listeners_hear_traffic_sample : ∃ calls t,
    Sys.Run (.pure driverTestExtractPacket)
      (.start Script.heardPorts (.new 100 false) [[0, 1, 2, 0, 9]]) calls t ∧
    t.world.trace.flatMap (Event.heard 7) = [0, 1, 2, 0, 9] ∧
      (t.world.trace.flatMap (Event.heard 7) = t.world.trace.flatMap Event.delivered ∧
        t.world.trace.flatMap (Event.told 7) = t.world.trace.flatMap Event.sent) := by
  obtain ⟨calls, t, hrun, hheard⟩ := Sys.exists_run (.pure driverTestExtractPacket) 5
    (.start Script.heardPorts (.new 100 false) [[0, 1, 2, 0, 9]])
    [.readPacket 100 0 0, .writePacket [5, 6] 1000]
    (fun _ t => t.world.trace.flatMap (Event.heard 7) = [0, 1, 2, 0, 9]) (by decide)
  exact ⟨calls, t, hrun, hheard, listeners_hear_traffic (by decide) hrun (by decide)⟩

end IodriversBase
