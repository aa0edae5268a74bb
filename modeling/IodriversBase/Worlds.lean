import IodriversBase.Driver

namespace IodriversBase

open Loop

variable {ω : Type} {R : ω → ω → Prop}

/-- A preorder on worlds that reading through the ports keeps. -/
structure Ports.KeepsReading (io : Ports ω) (R : ω → ω → Prop) : Prop where
  refl : ∀ w, R w w
  trans : ∀ {w w' w''}, R w w' → R w' w'' → R w w''
  now : ∀ w, R w (io.now w).2
  notifyRead : ∀ data w, R w (io.notifyRead data w)
  read : ∀ {st n w r w'}, st ∈ io.stream → st.read n w = (r, w') → R w w'
  waitRead : ∀ {st t w r w'}, st ∈ io.stream → st.waitRead t w = (r, w') → R w w'

/-- A preorder on worlds that every use of the ports keeps. -/
structure Ports.Keeps (io : Ports ω) (R : ω → ω → Prop) : Prop extends io.KeepsReading R where
  notifyWrite : ∀ data w, R w (io.notifyWrite data w)
  write : ∀ {st data w r w'}, st ∈ io.stream → st.write data w = (r, w') → R w w'
  waitWrite : ∀ {st t w r w'}, st ∈ io.stream → st.waitWrite t w = (r, w') → R w w'

/-- A preorder on worlds that reading keeps, as far as the listeners are told what was read. -/
structure Ports.KeepsHearing (io : Ports ω) (R : ω → ω → Prop) : Prop where
  refl : ∀ w, R w w
  trans : ∀ {w w' w''}, R w w' → R w' w'' → R w w''
  now : ∀ w, R w (io.now w).2
  readThrew : ∀ {st n w x w'}, st ∈ io.stream → st.read n w = (.error x, w') → R w w'
  readNothing : ∀ {st n w c w'}, st ∈ io.stream → st.read n w = (.ok c, w') → c.val = [] → R w w'
  heard : ∀ {st n w c w'}, st ∈ io.stream → st.read n w = (.ok c, w') →
    R w (io.notifyRead c.val w')
  heardLater : ∀ {st n w c w'}, st ∈ io.stream → st.read n w = (.ok c, w') →
    R w (io.notifyRead c.val (io.now w').2)
  waitRead : ∀ {st t w r w'}, st ∈ io.stream → st.waitRead t w = (r, w') → R w w'

/-- A preorder on worlds that writing keeps, as far as the listeners are told what was written. -/
structure Ports.KeepsWriting (io : Ports ω) (R : ω → ω → Prop) : Prop where
  refl : ∀ w, R w w
  trans : ∀ {w w' w''}, R w w' → R w' w'' → R w w''
  now : ∀ w, R w (io.now w).2
  writeThrew : ∀ {st data w x w'}, st ∈ io.stream → st.write data w = (.error x, w') → R w w'
  told : ∀ {st data w n w'}, st ∈ io.stream → st.write data w = (.ok n, w') →
    R w (io.notifyWrite (data.take n.val) w')
  waitWrite : ∀ {st t w r w'}, st ∈ io.stream → st.waitWrite t w = (r, w') → R w w'

/-- A preorder on worlds that every use of the ports keeps, as far as the listeners are told. -/
structure Ports.KeepsTelling (io : Ports ω) (R : ω → ω → Prop) : Prop
    extends io.KeepsHearing R, io.KeepsWriting R

theorem Ports.KeepsReading.hearing {io : Ports ω} {R : ω → ω → Prop} (h : io.KeepsReading R) :
    io.KeepsHearing R where
  refl := h.refl
  trans := h.trans
  now := h.now
  readThrew := h.read
  readNothing hio hread _ := h.read hio hread
  heard hio hread := h.trans (h.read hio hread) (h.notifyRead _ _)
  heardLater hio hread := h.trans (h.trans (h.read hio hread) (h.now _)) (h.notifyRead _ _)
  waitRead := h.waitRead

theorem Ports.Keeps.telling {io : Ports ω} {R : ω → ω → Prop} (h : io.Keeps R) :
    io.KeepsTelling R where
  toKeepsHearing := h.toKeepsReading.hearing
  writeThrew := h.write
  told hio hwrite := h.trans (h.write hio hwrite) (h.notifyWrite _ _)
  waitWrite := h.waitWrite

/-- What a listener does to the rest `ω` of the world, beside a stream with the state `σ`. -/
def IOListener.beside {σ : Type} (l : IOListener ω) : IOListener (σ × ω) where
  writeData data w := (w.1, l.writeData data w.2)
  readData data w := (w.1, l.readData data w.2)

/-- An extractor that looks at the bytes and at the rest of the world. -/
def Extract.beside {σ : Type} (E : Extract ω) : Extract (σ × ω) :=
  fun b w => ((E b w.2).1, w.1, (E b w.2).2)

/-- The ports of a driver whose clock and listeners belong to the rest of the world. -/
def portsBeside {σ : Type} (stream : IOStream (σ × ω)) (now : ω → Time × ω)
    (listeners : List (ℕ × IOListener ω)) : Ports (σ × ω) where
  now w := ((now w.2).1, w.1, (now w.2).2)
  stream := some stream
  listeners := listeners.map fun l => (l.1, l.2.beside)

section Beside

variable {σ : Type} (stream : IOStream (σ × ω)) (now : ω → Time × ω)
  (listeners : List (ℕ × IOListener ω))

theorem notifyRead_beside (data : Bytes) (w : σ × ω) :
    ((portsBeside stream now listeners).notifyRead data w).1 = w.1 := by
  refine Ports.notifyRead_rule (P := fun w' : σ × ω => w'.1 = w.1) ?_ rfl
  intro l hl w' hw'
  obtain ⟨l', -, rfl⟩ := List.mem_map.mp hl
  exact hw'

theorem notifyWrite_beside (data : Bytes) (w : σ × ω) :
    ((portsBeside stream now listeners).notifyWrite data w).1 = w.1 := by
  refine Ports.notifyWrite_rule (P := fun w' : σ × ω => w'.1 = w.1) ?_ rfl
  intro l hl w' hw'
  obtain ⟨l', -, rfl⟩ := List.mem_map.mp hl
  exact hw'

end Beside

def Extract.Keeps (E : Extract ω) (R : ω → ω → Prop) : Prop := ∀ b w, R w (E b w).2

variable {E : Extract ω} {io : Ports ω} {stream : IOStream ω}

theorem findPacket_keeps (h : io.KeepsHearing R) (hE : E.Keeps R) {buffer : Bytes} {last : Bool}
    {fuel : ℕ} {pointer size : ℤ} {stats stats' : Status} {w w' : ω} {r}
    (hr : findPacket (E.at buffer) last fuel pointer size stats w = some (r, stats', w')) :
    R w w' := by
  induction fuel generalizing pointer size stats stats' w w' r with
  | zero => cases hr
  | succ fuel ih =>
    have hask : R w (E.at buffer pointer size w).2 := hE _ w
    rw [findPacket] at hr
    dsimp only at hr
    generalize E.at buffer pointer size w = answer at hr hask
    by_cases hlarge : answer.1 > size
    · rw [if_pos hlarge] at hr
      cases hr
      exact hask
    rw [if_neg hlarge] at hr
    by_cases h0 : answer.1 = 0
    · rw [if_pos h0] at hr
      cases hr
      exact hask
    rw [if_neg h0] at hr
    generalize hstart : (if answer.1 < 0 then -answer.1 else 0) = packetStart at hr
    generalize hsize : (if answer.1 < 0 then 0 else answer.1) = packetSize at hr
    by_cases hrem : size - (packetStart + packetSize) = 0
    · rw [if_pos hrem] at hr
      cases hr
      exact hask
    rw [if_neg hrem] at hr
    by_cases hgo : packetSize = 0 ∨ (packetSize > 0 ∧ last = true)
    · rw [if_pos hgo] at hr
      generalize hnext : findPacket (E.at buffer) last fuel _ _ _ answer.2 = next at hr
      rcases next with _ | ⟨_ | _, stats₁, w₁⟩
      · cases hr
      · cases hr
        exact h.trans hask (ih hnext)
      · have hrec := h.trans hask (ih hnext)
        dsimp only at hr
        split_ifs at hr <;> (cases hr; exact hrec)
    · rw [if_neg hgo] at hr
      cases hr
      exact hask

theorem doPacketExtraction_keeps (h : io.KeepsHearing R) (hE : E.Keeps R) {buffer : Bytes}
    {d d' : Driver} {w w' : ω} {r}
    (hr : d.doPacketExtraction (E.at buffer) w = some (r, d', w')) : R w w' := by
  unfold Driver.doPacketExtraction at hr
  generalize hfind : findPacket (E.at buffer) _ _ _ _ _ w = found at hr
  rcases found with _ | ⟨_ | packet, stats, w₁⟩
  · cases hr
  · cases hr
    exact findPacket_keeps h hE hfind
  · dsimp only at hr
    generalize Driver.pullBytesFromInternal _ packet.1 packet.2 = pulled at hr
    rcases pulled with _ | ⟨bytes, d₁⟩
    · cases hr
    · cases hr
      exact findPacket_keeps h hE hfind

theorem hasPacket_keeps (h : io.KeepsHearing R) (hE : E.Keeps R) {d d' : Driver} {w w' : ω} {r}
    (hr : d.hasPacket E w = some (r, d', w')) : R w w' := by
  unfold Driver.hasPacket at hr
  split_ifs at hr
  · cases hr
    exact h.refl _
  generalize hfind : findPacket (E.at _) _ _ _ _ _ w = found at hr
  rcases found with _ | ⟨_ | packet, stats, w₁⟩
  · cases hr
  all_goals
    cases hr
    exact findPacket_keeps h hE hfind

theorem readIteration_keeps (h : io.KeepsHearing R) (hE : E.Keeps R) (hio : stream ∈ io.stream)
    (s : ReadState ω) : (readIteration E io stream s).Holds (fun s' => R s.world s'.world)
      fun r => R s.world r.2.2 := by
  unfold readIteration
  rcases hread : stream.read _ s.world with ⟨_ | c, w₁⟩
  · exact h.readThrew hio hread
  dsimp only
  split_ifs with hc
  swap
  · exact h.readNothing hio hread (by simpa using hc)
  have hnotify := h.heard hio hread
  generalize hextract : Driver.doPacketExtraction _ _ _ = extracted
  rcases extracted with _ | ⟨_ | newPacket, d, w₂⟩
  · trivial
  · exact h.trans hnotify (doPacketExtraction_keeps h hE hextract)
  dsimp only
  split_ifs <;> exact h.trans hnotify (doPacketExtraction_keeps h hE hextract)

theorem run_keeps {σ β : Type} (hrefl : ∀ w, R w w)
    (htrans : ∀ {w w' w''}, R w w' → R w' w'' → R w w'') {body : σ → Next σ β} (world : σ → ω)
    (world' : β → ω) (hbody : ∀ s,
      (body s).Holds (fun s' => R (world s) (world s')) fun b => R (world s) (world' b))
    {n : ℕ} {s : σ} {b : β} (hr : run body n s = some b) : R (world s) (world' b) := by
  refine run_rule (I := fun s' => R (world s) (world s'))
    (Q := fun b => R (world s) (world' b)) ?_ (hrefl _) hr
  intro s' hs
  have hb := hbody s'
  generalize body s' = next at hb ⊢
  rcases next with _ | _ | _
  · exact htrans hs hb
  · exact htrans hs hb
  · trivial

theorem readPacketInternal_keeps (h : io.KeepsHearing R) (hE : E.Keeps R) (hio : stream ∈ io.stream)
    {fuel outBufferSize : ℕ} {d d' : Driver} {w w' : ω} {r}
    (hr : d.readPacketInternal E io stream fuel outBufferSize w = some (r, d', w')) : R w w' := by
  have hloop {s : ReadState ω} {b} (hb : run (readIteration E io stream) fuel s = some b) :
      R s.world b.2.2 :=
    run_keeps h.refl h.trans ReadState.world (·.2.2) (readIteration_keeps h hE hio) hb
  unfold Driver.readPacketInternal at hr
  split_ifs at hr
  · cases hr
    exact h.refl _
  · generalize hextract : Driver.doPacketExtraction _ _ w = extracted at hr
    rcases extracted with _ | ⟨_ | packet, d₁, w₁⟩
    · cases hr
    · cases hr
      exact doPacketExtraction_keeps h hE hextract
    dsimp only at hr
    split_ifs at hr
    · cases hr
      exact doPacketExtraction_keeps h hE hextract
    · exact h.trans (doPacketExtraction_keeps h hE hextract) (hloop hr)
  · exact hloop hr

theorem waitIteration_keeps (h : io.KeepsHearing R) (hE : E.Keeps R) (hio : stream ∈ io.stream)
    (fuel bufferSize : ℕ) (packetTimeout startTime : Time) (s : WaitState ω) :
    (waitIteration E io stream fuel bufferSize packetTimeout startTime s).Holds
      (fun s' => R s.world s'.world) fun r => R s.world r.2.2 := by
  have hstep := waitIteration_step E io stream fuel bufferSize packetTimeout startTime s
  generalize waitIteration E io stream fuel bufferSize packetTimeout startTime s = next at hstep ⊢
  have hread {r d w} (hint : s.driver.readPacketInternal E io stream fuel bufferSize s.world =
      some (r, d, w)) : R s.world w := readPacketInternal_keeps h hE hio hint
  have hnow {r d w} (hint : s.driver.readPacketInternal E io stream fuel bufferSize s.world =
      some (r, d, w)) : R s.world (io.now w).2 := h.trans (hread hint) (h.now w)
  cases hstep with
  | lost _ => trivial
  | threw hint => exact hread hint
  | packet hint _ => exact hread hint
  | noTimeout hint _ => exact hread hint
  | late hint _ => exact hnow hint
  | waitThrew hint _ hwait => exact h.trans (hnow hint) (h.waitRead hio hwait)
  | waitedOut hint _ hwait =>
    exact h.trans (h.trans (hnow hint) (h.waitRead hio hwait)) (h.now _)
  | ready hint _ hwait => exact h.trans (hnow hint) (h.waitRead hio hwait)

theorem drainIteration_keeps (h : io.KeepsHearing R) (hE : E.Keeps R) (s : DrainState ω) :
    (drainIteration E s).Holds (fun s' => R s.world s'.world) fun r => R s.world r.2.2 := by
  unfold drainIteration
  split_ifs
  swap
  · exact h.refl _
  generalize hextract : Driver.doPacketExtraction _ _ _ = extracted
  rcases extracted with _ | ⟨_ | packet, d, w₁⟩
  · trivial
  · exact doPacketExtraction_keeps h hE hextract
  dsimp only
  split_ifs <;> exact doPacketExtraction_keeps h hE hextract

theorem readPacket_keeps (h : io.KeepsHearing R) (hE : E.Keeps R) {fuel bufferSize : ℕ}
    {packetTimeout firstByteTimeout : Time} {d d' : Driver} {w w' : ω} {r}
    (hr : d.readPacket E io fuel bufferSize packetTimeout firstByteTimeout w = some (r, d', w')) :
    R w w' := by
  unfold Driver.readPacket at hr
  split_ifs at hr
  · cases hr
    exact h.refl _
  rcases hio : io.stream with _ | stream
  · simp only [hio] at hr
    generalize hextract : Driver.extractPacketFromInternalBuffer E d w = extracted at hr
    have hdrain {b} (hb : d.extractPacketFromInternalBuffer E w = some b) : R w b.2.2 :=
      run_keeps h.refl h.trans DrainState.world (·.2.2) (drainIteration_keeps h hE) hb
    rcases extracted with _ | ⟨_ | ⟨packet, something⟩, d₁, w₁⟩
    · cases hr
    · cases hr
      exact hdrain hextract
    dsimp only at hr
    split_ifs at hr <;> (cases hr; exact hdrain hextract)
  · simp only [hio] at hr
    exact h.trans (h.now w) (run_keeps h.refl h.trans WaitState.world (·.2.2)
      (waitIteration_keeps h hE hio fuel bufferSize packetTimeout _) hr)

theorem rawIteration_keeps (h : io.KeepsHearing R) (hio : stream ∈ io.stream) (outBufferSize : ℕ)
    (packetTimeout interByteTimeout : Time) (s : RawState ω) :
    (rawIteration io stream outBufferSize packetTimeout interByteTimeout s).Holds
      (fun s' => R s.world s'.world) fun r => R s.world r.2 := by
  unfold rawIteration
  by_cases hgo : s.buffer.length < outBufferSize ∧ s.now ≤ s.globalDeadline
  swap
  · rw [if_neg hgo]
    exact h.refl _
  rw [if_pos hgo]
  dsimp only
  rcases hwait : stream.waitRead _ s.world with ⟨_ | _ | _, w₁⟩
  · exact h.waitRead hio hwait
  · exact h.waitRead hio hwait
  dsimp only
  have hwaited := h.waitRead hio hwait
  rcases hread : stream.read _ w₁ with ⟨_ | c, w₂⟩
  · exact h.trans hwaited (h.readThrew hio hread)
  dsimp only
  by_cases hc : c.val.length > 0
  · rw [if_pos hc]
    exact h.trans hwaited (h.heardLater hio hread)
  · rw [if_neg hc]
    have hnothing : c.val = [] := by simpa using hc
    exact h.trans hwaited (h.trans (h.readNothing hio hread hnothing) (h.now w₂))

theorem readRaw_keeps (h : io.KeepsHearing R) {fuel outBufferSize : ℕ}
    {packetTimeout firstByteTimeout interByteTimeout : Time} {d d' : Driver} {w w' : ω} {r}
    (hr : d.readRaw io fuel outBufferSize packetTimeout firstByteTimeout interByteTimeout w =
      some (r, d', w')) : R w w' := by
  unfold Driver.readRaw at hr
  rcases hio : io.stream with _ | stream
  · simp only [hio] at hr
    cases hr
    exact h.refl _
  simp only [hio] at hr
  generalize d.pullBytesFromInternal _ _ = pulled at hr
  rcases pulled with _ | ⟨buffer, d₁⟩
  · cases hr
  dsimp only at hr
  generalize hrun : run (rawIteration io stream _ _ _) fuel _ = b at hr
  rcases b with _ | ⟨r₁, w₁⟩
  · cases hr
  · cases hr
    exact h.trans (h.now w) (run_keeps h.refl h.trans RawState.world (·.2)
      (rawIteration_keeps h hio outBufferSize packetTimeout _) hrun)

theorem writeIteration_keeps (h : io.KeepsWriting R) (hio : stream ∈ io.stream) (buffer : Bytes)
    (timeOut : Timeout) (s : WriteState ω) : (writeIteration io stream buffer timeOut s).Holds
      (fun s' => R s.world s'.world) fun r => R s.world r.2 := by
  unfold writeIteration
  rcases hwrite : stream.write _ s.world with ⟨_ | n, w₁⟩
  · exact h.writeThrew hio hwrite
  have hnotify := h.told hio hwrite
  dsimp only
  generalize io.notifyWrite _ w₁ = w₂ at hnotify ⊢
  split_ifs
  · exact hnotify
  · exact h.trans hnotify (h.now w₂)
  have hnow := h.trans (h.trans hnotify (h.now w₂)) (h.now _)
  generalize toInt32 (toInt32 _ * 1000) = remaining
  rcases hwait : stream.waitWrite remaining _ with ⟨_ | _ | _, w₃⟩ <;>
    exact h.trans hnow (h.waitWrite hio hwait)

theorem writePacket_keeps (h : io.KeepsWriting R) {fuel : ℕ} {buffer : Bytes} {timeout : Time}
    {d d' : Driver} {w w' : ω} {r}
    (hr : d.writePacket io fuel buffer timeout w = some (r, d', w')) : R w w' := by
  unfold Driver.writePacket Driver.writePacketMilliseconds at hr
  rcases hio : io.stream with _ | stream
  · simp only [hio] at hr
    cases hr
    exact h.refl _
  simp only [hio] at hr
  generalize hrun : run (writeIteration io stream buffer _) fuel _ = b at hr
  rcases b with _ | ⟨_ | r₁, w₁⟩
  · cases hr
  all_goals
    cases hr
    exact h.trans (h.now w)
      (run_keeps h.refl h.trans WriteState.world (·.2) (writeIteration_keeps h hio buffer _) hrun)

end IodriversBase
