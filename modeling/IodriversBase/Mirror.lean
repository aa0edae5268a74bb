import IodriversBase.Endpoints

namespace IodriversBase

open Loop

variable {ω : Type}

/-- A read of one direction, and the data that it forwards. -/
structure Transfer where
  timeout : Time
  data : Bytes
  deriving DecidableEq

def dataRead : Option (Except Exn Bytes × Driver × ω) → Bytes
  | some (.ok data, _) => data
  | _ => []

namespace Forwarder

variable (f : Forwarder ω) (fuel : ℕ)

/-- From the first driver to the second, if that is what the wake-up does. -/
def First (s t : ForwardState ω) : Option Transfer → Prop
  | none => t = s
  | some l => l = ⟨f.timeout1, dataRead (readMode f.rawMode f.extract1 f.io1 fuel s.driver1
        f.bufferSize f.timeout1 s.world)⟩ ∧
      ∃ size, forwardData f.rawMode f.extract1 f.io1 f.io2 fuel f.bufferSize f.timeout1 s.driver1
        s.driver2 s.world = some (.ok size, t.driver1, t.driver2, t.world)

/-- From the second driver to the first, which is given the same timeout. -/
def Second (s t : ForwardState ω) : Option Transfer → Prop
  | none => t = s
  | some l => l = ⟨f.timeout1, dataRead (readMode f.rawMode f.extract2 f.io2 fuel s.driver2
        f.bufferSize f.timeout1 s.world)⟩ ∧
      ∃ size, forwardData f.rawMode f.extract2 f.io2 f.io1 fuel f.bufferSize f.timeout1 s.driver2
        s.driver1 s.world = some (.ok size, t.driver2, t.driver1, t.world)

/-- Once round the loop, with what is read and forwarded in the two directions. -/
def WakeUp (fd1 fd2 : ℤ) (s : ForwardState ω) (l : Option Transfer × Option Transfer)
    (t : ForwardState ω) : Prop :=
  ∃ fuel s₁, f.iteration fuel fd1 fd2 s = .again t ∧
    f.First fuel { s with world := (f.select [fd1, fd2] ⟨10, 0⟩ s.world).2 } s₁ l.1 ∧
    f.Second fuel s₁ t l.2 ∧
    (l.1.isSome = true ↔ InSet fd1 (f.select [fd1, fd2] ⟨10, 0⟩ s.world).1) ∧
    (l.2.isSome = true ↔ InSet fd2 (f.select [fd1, fd2] ⟨10, 0⟩ s.world).1)

end Forwarder

section WakeUps

variable {f : Forwarder ω} {fuel : ℕ} {s s₁ t : ForwardState ω} {set1 set2 : Bool}
  {l : Option Transfer × Option Transfer} {fd1 fd2 : ℤ}

theorem Forwarder.exists_served (h : f.serve fuel set1 set2 s = .again t) :
    ∃ s₁, ∃ l : Option Transfer × Option Transfer, f.First fuel s s₁ l.1 ∧
      f.Second fuel s₁ t l.2 ∧ l.1.isSome = set1 ∧ l.2.isSome = set2 := by
  unfold Forwarder.serve at h
  generalize hfirst : (if set1 then _ else _) = first at h
  rcases first with _ | ⟨x | size, d1, d2, w⟩ <;> dsimp only at h
  · cases h
  · cases h
  generalize hsecond : (if set2 then _ else _) = second at h
  rcases second with _ | ⟨x | size', d2', d1', w'⟩ <;> cases h
  have hone : ∃ l, f.First fuel s ⟨d1, d2, w⟩ l ∧ l.isSome = set1 := by
    cases set1 with
    | true => exact ⟨some _, ⟨rfl, size, hfirst⟩, rfl⟩
    | false =>
      cases hfirst
      exact ⟨none, rfl, rfl⟩
  have htwo : ∃ l, f.Second fuel ⟨d1, d2, w⟩ ⟨d1', d2', w'⟩ l ∧ l.isSome = set2 := by
    cases set2 with
    | true => exact ⟨some _, ⟨rfl, size', hsecond⟩, rfl⟩
    | false =>
      cases hsecond
      exact ⟨none, rfl, rfl⟩
  obtain ⟨l1, hl1, hset1⟩ := hone
  obtain ⟨l2, hl2, hset2⟩ := htwo
  exact ⟨_, (l1, l2), hl1, hl2, hset1, hset2⟩

theorem Forwarder.serve_of (hfirst : f.First fuel s s₁ l.1) (hsecond : f.Second fuel s₁ t l.2) :
    f.serve fuel l.1.isSome l.2.isSome s = .again t := by
  have hone : ∃ size, (if l.1.isSome then forwardData f.rawMode f.extract1 f.io1 f.io2 fuel
      f.bufferSize f.timeout1 s.driver1 s.driver2 s.world
      else some (.ok 0, s.driver1, s.driver2, s.world)) =
      some (.ok size, s₁.driver1, s₁.driver2, s₁.world) := by
    rcases hl : l.1 with _ | l1 <;> rw [hl] at hfirst
    · exact ⟨0, by rw [show s₁ = s from hfirst]; rfl⟩
    · exact hfirst.2
  have htwo : ∃ size, (if l.2.isSome then forwardData f.rawMode f.extract2 f.io2 f.io1 fuel
      f.bufferSize f.timeout1 s₁.driver2 s₁.driver1 s₁.world
      else some (.ok 0, s₁.driver2, s₁.driver1, s₁.world)) =
      some (.ok size, t.driver2, t.driver1, t.world) := by
    rcases hl : l.2 with _ | l2 <;> rw [hl] at hsecond
    · exact ⟨0, by rw [show t = s₁ from hsecond]; rfl⟩
    · exact hsecond.2
  obtain ⟨size, hone⟩ := hone
  obtain ⟨size', htwo⟩ := htwo
  unfold Forwarder.serve
  rw [hone]
  dsimp only
  rw [htwo]

theorem Forwarder.exists_wakeUp (h : f.iteration fuel fd1 fd2 s = .again t) :
    ∃ l, f.WakeUp fd1 fd2 s l t := by
  have hiteration := h
  unfold Forwarder.iteration at h
  rcases heof : f.eof s.world with x | _ | _ <;> rw [heof] at h
  · cases h
  swap
  · cases h
  dsimp only at h
  rcases hready : (f.select [fd1, fd2] ⟨10, 0⟩ s.world).1 with errno | ready <;>
    rw [hready] at h <;> dsimp only at h
  · split_ifs at h
    obtain ⟨s₁, l, hfirst, hsecond, hset1, hset2⟩ := Forwarder.exists_served h
    refine ⟨l, fuel, s₁, hiteration, hfirst, hsecond, ?_, ?_⟩
    · rw [hready, hset1]
      exact iff_of_true rfl trivial
    · rw [hready, hset2]
      exact iff_of_true rfl trivial
  · by_cases hnone : ready = []
    · rw [if_pos hnone] at h
      cases h
      refine ⟨(none, none), fuel, _, hiteration, rfl, rfl, ?_, ?_⟩
      · rw [hready, hnone]
        exact iff_of_false Bool.false_ne_true List.not_mem_nil
      · rw [hready, hnone]
        exact iff_of_false Bool.false_ne_true List.not_mem_nil
    · rw [if_neg hnone] at h
      obtain ⟨s₁, l, hfirst, hsecond, hset1, hset2⟩ := Forwarder.exists_served h
      refine ⟨l, fuel, s₁, hiteration, hfirst, hsecond, ?_, ?_⟩
      · rw [hready, hset1]
        exact decide_eq_true_iff
      · rw [hready, hset2]
        exact decide_eq_true_iff

/-- What a wake-up comes to: `select` has not failed, except by a signal, and the descriptors that
it left in the set are served. -/
theorem Forwarder.wakeUp_iff :
    f.WakeUp fd1 fd2 s l t ↔ f.eof s.world = .ok false ∧
      (∀ errno, (f.select [fd1, fd2] ⟨10, 0⟩ s.world).1 = .error errno → errno = EINTR) ∧
      (l.1.isSome = true ↔ InSet fd1 (f.select [fd1, fd2] ⟨10, 0⟩ s.world).1) ∧
      (l.2.isSome = true ↔ InSet fd2 (f.select [fd1, fd2] ⟨10, 0⟩ s.world).1) ∧
      ∃ fuel s₁, f.First fuel { s with world := (f.select [fd1, fd2] ⟨10, 0⟩ s.world).2 } s₁ l.1 ∧
        f.Second fuel s₁ t l.2 := by
  constructor
  · rintro ⟨fuel, s₁, hiteration, hfirst, hsecond, hset1, hset2⟩
    refine ⟨(Forwarder.iteration_again hiteration).1, ?_, hset1, hset2, fuel, s₁, hfirst, hsecond⟩
    intro errno herror
    unfold Forwarder.iteration at hiteration
    rw [(Forwarder.iteration_again hiteration).1] at hiteration
    dsimp only at hiteration
    rw [herror] at hiteration
    dsimp only at hiteration
    by_contra hne
    rw [if_pos hne] at hiteration
    cases hiteration
  · rintro ⟨heof, herror, hset1, hset2, fuel, s₁, hfirst, hsecond⟩
    refine ⟨fuel, s₁, ?_, hfirst, hsecond, hset1, hset2⟩
    have hserve := Forwarder.serve_of hfirst hsecond
    unfold Forwarder.iteration
    rw [heof]
    dsimp only
    rcases hready : (f.select [fd1, fd2] ⟨10, 0⟩ s.world).1 with errno | ready <;>
      rw [hready] at hset1 hset2 <;> dsimp only
    · -- after a signal both descriptors are still in the set
      rw [if_neg (not_not.mpr (herror errno hready))]
      rwa [hset1.mpr trivial, hset2.mpr trivial] at hserve
    · have hone : l.1.isSome = decide (fd1 ∈ ready) := by
        rw [Bool.eq_iff_iff, decide_eq_true_iff]
        exact hset1
      have htwo : l.2.isSome = decide (fd2 ∈ ready) := by
        rw [Bool.eq_iff_iff, decide_eq_true_iff]
        exact hset2
      rw [hone, htwo] at hserve
      by_cases hnone : ready = []
      · subst hnone
        rw [if_pos rfl]
        simpa [Forwarder.serve] using hserve
      · rwa [if_neg hnone]

end WakeUps

/-- Two sides of the world, and the rest, which is what `select` goes by. -/
structure Sides (α β ρ : Type) where
  side1 : α
  side2 : β
  script : ρ
  deriving DecidableEq

variable {α β ρ σ₁ τ₁ σ₂ τ₂ : Type}

namespace Sides

def part1 : Part (Sides α β ρ) α where
  get := side1
  set w x := { w with side1 := x }
  get_set _ _ := rfl
  set_set _ _ _ := rfl
  set_get _ := rfl

def part2 : Part (Sides α β ρ) β where
  get := side2
  set w x := { w with side2 := x }
  get_set _ _ := rfl
  set_set _ _ _ := rfl
  set_get _ := rfl

theorem apart : (part1 : Part (Sides α β ρ) α).Apart part2 := ⟨fun _ _ => rfl⟩

theorem apart' : (part2 : Part (Sides α β ρ) β).Apart part1 := ⟨fun _ _ => rfl⟩

def flip (w : Sides α β ρ) : Sides β α ρ := ⟨w.side2, w.side1, w.script⟩

end Sides

def ForwardState.flip (s : ForwardState (Sides α β ρ)) : ForwardState (Sides β α ρ) :=
  ⟨s.driver2, s.driver1, s.world.flip⟩

/-- The arguments of `forward` on two independent sides, and the descriptors that `select` finds
ready. -/
structure Relay (σ₁ τ₁ σ₂ τ₂ ρ : Type) where
  rawMode : Bool
  side1 : Endpoint σ₁ τ₁
  side2 : Endpoint σ₂ τ₂
  extract1 : Bytes → ℤ
  extract2 : Bytes → ℤ
  timeout1 : Time
  timeout2 : Time
  bufferSize : ℕ
  select : Sides (σ₁ × τ₁) (σ₂ × τ₂) ρ → Except ℕ (List ℤ) × Sides (σ₁ × τ₁) (σ₂ × τ₂) ρ

namespace Relay

variable (r : Relay σ₁ τ₁ σ₂ τ₂ ρ)

def forwarder : Forwarder (Sides (σ₁ × τ₁) (σ₂ × τ₂) ρ) where
  rawMode := r.rawMode
  extract1 := .pure r.extract1
  extract2 := .pure r.extract2
  io1 := r.side1.ports Sides.part1
  io2 := r.side2.ports Sides.part2
  timeout1 := r.timeout1
  timeout2 := r.timeout2
  bufferSize := r.bufferSize
  select _ _ w := r.select w

/-- The same call with its two sides exchanged, on the mirrored script. -/
def mirror : Relay σ₂ τ₂ σ₁ τ₁ ρ where
  rawMode := r.rawMode
  side1 := r.side2
  side2 := r.side1
  extract1 := r.extract2
  extract2 := r.extract1
  timeout1 := r.timeout2
  timeout2 := r.timeout1
  bufferSize := r.bufferSize
  select w := ((r.select w.flip).1, (r.select w.flip).2.flip)

/-- A wake-up of the loop, which knows the descriptors from the start. -/
def WakeUp (s : ForwardState (Sides (σ₁ × τ₁) (σ₂ × τ₂) ρ)) (l : Option Transfer × Option Transfer)
    (t : ForwardState (Sides (σ₁ × τ₁) (σ₂ × τ₂) ρ)) : Prop :=
  r.forwarder.WakeUp r.side1.fd r.side2.fd s l t

def Returns (s : ForwardState (Sides (σ₁ × τ₁) (σ₂ × τ₂) ρ)) : Prop :=
  r.forwarder.eof s.world = .ok true

/-- In the run from `s` to `t` every read has the timeout of its own side, and the mirror image of
the run, with the same reads and the same data, is a run of the mirrored call, which returns where
the call does. -/
structure Symmetric (s : ForwardState (Sides (σ₁ × τ₁) (σ₂ × τ₂) ρ))
    (ls : List (Option Transfer × Option Transfer))
    (t : ForwardState (Sides (σ₁ × τ₁) (σ₂ × τ₂) ρ)) : Prop where
  timeout1 : ∀ l ∈ ls, ∀ x ∈ l.1, x.timeout = r.timeout1
  timeout2 : ∀ l ∈ ls, ∀ x ∈ l.2, x.timeout = r.timeout2
  mirrored : Lts.Run r.mirror.WakeUp s.flip (ls.map Prod.swap) t.flip
  returns : r.Returns t ↔ r.mirror.Returns t.flip

variable {r} {fuel : ℕ} {timeout : Time} {s s₁ t : ForwardState (Sides (σ₁ × τ₁) (σ₂ × τ₂) ρ)}
  {l : Option Transfer × Option Transfer} {ls : List (Option Transfer × Option Transfer)}

def Goes {σ τ σ' τ' : Type} (rawMode : Bool) (e : Bytes → ℤ) (p : Endpoint σ τ)
    (q : Endpoint σ' τ') (fuel bufferSize : ℕ) (timeout : Time) (d : Driver) (writeTimeout : Time)
    (x : σ) (y : τ') : Option Transfer → Moved σ τ' → Prop
  | none, m => m = ⟨[], d, x, y⟩
  | some l, m => l = ⟨timeout, m.data⟩ ∧
      move rawMode e p q fuel bufferSize timeout d writeTimeout x y = some m

section Goes

variable {σ τ σ' τ' : Type} {rawMode : Bool} {e : Bytes → ℤ} {p : Endpoint σ τ}
  {q : Endpoint σ' τ'} {bufferSize : ℕ} {timeout' writeTimeout : Time} {d : Driver} {x : σ} {y : τ'}
  {l : Option Transfer} {m : Moved σ τ'}

theorem goes_withOutput (k : Output) :
    Goes rawMode e p q fuel bufferSize timeout (d.withOutput k) writeTimeout x y l m ↔
      ∃ m₀, Goes rawMode e p q fuel bufferSize timeout d writeTimeout x y l m₀ ∧
        m = { m₀ with source := m₀.source.withOutput k } := by
  cases l with
  | none => simp [Goes]
  | some l =>
    unfold Goes
    rw [move_withOutput]
    constructor
    · rintro ⟨hl, hmove⟩
      obtain ⟨m₀, hm₀, rfl⟩ := Option.map_eq_some_iff.mp hmove
      exact ⟨m₀, ⟨hl, hm₀⟩, rfl⟩
    · rintro ⟨m₀, ⟨hl, hm₀⟩, rfl⟩
      exact ⟨hl, by rw [hm₀]; rfl⟩

theorem Goes.of_timeout (hl : timeout = timeout' ∨ l = none)
    (h : Goes rawMode e p q fuel bufferSize timeout d writeTimeout x y l m) :
    Goes rawMode e p q fuel bufferSize timeout' d writeTimeout x y l m := by
  rcases hl with rfl | rfl
  · exact h
  · exact h

theorem Goes.source (h : Goes rawMode e p q fuel bufferSize timeout d writeTimeout x y l m) :
    m.source.writeTimeout = d.writeTimeout := by
  cases l with
  | none => exact congrArg (fun m => m.source.writeTimeout) h
  | some l =>
    obtain ⟨r, hread, -⟩ := move_source h.2
    exact p.readMode_writeTimeout hread

theorem goes_iff {a : Part ω (σ × τ)} {b : Part ω (σ' × τ')} {d' target target' : Driver}
    {w w' : ω} {l : Transfer} (hab : a.Apart b) :
    (l = ⟨timeout, dataRead (readMode rawMode (.pure e) (p.ports a) fuel d bufferSize timeout w)⟩ ∧
      ∃ size, forwardData rawMode (.pure e) (p.ports a) (q.ports b) fuel bufferSize timeout d target
        w = some (.ok size, d', target', w')) ↔
    ∃ m, Goes rawMode e p q fuel bufferSize timeout d target.writeTimeout (a.get w).1 (b.get w).2
        (some l) m ∧
      d' = m.source ∧ target' = target.wrote m.data.length ∧
      w' = b.set (a.set w (m.input, (a.get w).2)) ((b.get w).1, m.output) := by
  have hdata {m} (hm : move rawMode e p q fuel bufferSize timeout d target.writeTimeout (a.get w).1
      (b.get w).2 = some m) :
      dataRead (readMode rawMode (.pure e) (p.ports a) fuel d bufferSize timeout w) = m.data := by
    obtain ⟨r, hread, hr⟩ := move_source hm
    rw [p.readMode_eq, hread, ← hr]
    cases r with
    | error ex => rfl
    | ok data => rfl
  rw [forwardData_iff hab]
  constructor
  · rintro ⟨hl, m, hm, hend⟩
    exact ⟨m, ⟨by rw [hl, hdata hm], hm⟩, hend⟩
  · rintro ⟨m, ⟨hl, hm⟩, hend⟩
    exact ⟨by rw [hl, hdata hm], m, hm, hend⟩

end Goes

variable (r fuel timeout s)

def Goes1 : Option Transfer → Moved σ₁ τ₂ → Prop :=
  Goes r.rawMode r.extract1 r.side1 r.side2 fuel r.bufferSize timeout s.driver1
    s.driver2.writeTimeout s.world.side1.1 s.world.side2.2

def Goes2 : Option Transfer → Moved σ₂ τ₁ → Prop :=
  Goes r.rawMode r.extract2 r.side2 r.side1 fuel r.bufferSize timeout s.driver2
    s.driver1.writeTimeout s.world.side2.1 s.world.side1.2

variable {r fuel timeout s}

theorem first_iff {l : Option Transfer} :
    r.forwarder.First fuel s t l ↔ ∃ m, r.Goes1 fuel r.timeout1 s l m ∧
      t = ⟨m.source, s.driver2.wrote m.data.length,
        ⟨(m.input, s.world.side1.2), (s.world.side2.1, m.output), s.world.script⟩⟩ := by
  obtain ⟨d1, d2, w⟩ := t
  cases l with
  | none =>
    simp only [Forwarder.First, Goes1, Goes, exists_eq_left, List.length_nil, Driver.wrote_zero]
  | some l =>
    refine (goes_iff Sides.apart).trans (exists_congr fun m => and_congr_right fun _ => ?_)
    constructor
    · rintro ⟨hsource, htarget, hworld⟩
      rw [ForwardState.mk.injEq]
      exact ⟨hsource, htarget, hworld⟩
    · intro ht
      cases ht
      exact ⟨rfl, rfl, rfl⟩

theorem second_iff {l : Option Transfer} :
    r.forwarder.Second fuel s t l ↔ ∃ m, r.Goes2 fuel r.timeout1 s l m ∧
      t = ⟨s.driver1.wrote m.data.length, m.source,
        ⟨(s.world.side1.1, m.output), (m.input, s.world.side2.2), s.world.script⟩⟩ := by
  obtain ⟨d1, d2, w⟩ := t
  cases l with
  | none =>
    simp only [Forwarder.Second, Goes2, Goes, exists_eq_left, List.length_nil, Driver.wrote_zero]
  | some l =>
    refine (goes_iff Sides.apart').trans (exists_congr fun m => and_congr_right fun _ => ?_)
    constructor
    · rintro ⟨hsource, htarget, hworld⟩
      rw [ForwardState.mk.injEq]
      exact ⟨htarget, hsource, hworld⟩
    · intro ht
      cases ht
      exact ⟨rfl, rfl, rfl⟩

theorem served_iff : (∃ s₁, r.forwarder.First fuel s s₁ l.1 ∧ r.forwarder.Second fuel s₁ t l.2) ↔
    ∃ m1 m2, r.Goes1 fuel r.timeout1 s l.1 m1 ∧ r.Goes2 fuel r.timeout1 s l.2 m2 ∧
      t = ⟨m1.source.wrote m2.data.length, m2.source.wrote m1.data.length,
        ⟨(m1.input, m2.output), (m2.input, m1.output), s.world.script⟩⟩ := by
  -- reading does not change the timeout for writing, which the other direction goes by
  have hsecond {m1} (hm1 : r.Goes1 fuel r.timeout1 s l.1 m1) (m : Moved σ₂ τ₁) :
      r.Goes2 fuel r.timeout1 ⟨m1.source, s.driver2.wrote m1.data.length,
        ⟨(m1.input, s.world.side1.2), (s.world.side2.1, m1.output), s.world.script⟩⟩ l.2 m ↔
      ∃ m2, r.Goes2 fuel r.timeout1 s l.2 m2 ∧
        m = { m2 with source := m2.source.wrote m1.data.length } := by
    unfold Goes2
    rw [Driver.wrote_eq, goes_withOutput, Goes.source hm1]
    refine exists_congr fun m2 => and_congr_right fun hm2 => ?_
    rw [Driver.wrote_eq, Goes.source hm2]
  constructor
  · rintro ⟨s₁, hfirst, hthen⟩
    obtain ⟨m1, hm1, rfl⟩ := first_iff.mp hfirst
    obtain ⟨m, hm, rfl⟩ := second_iff.mp hthen
    obtain ⟨m2, hm2, rfl⟩ := (hsecond hm1 m).mp hm
    exact ⟨m1, m2, hm1, hm2, rfl⟩
  · rintro ⟨m1, m2, hm1, hm2, rfl⟩
    refine ⟨_, first_iff.mpr ⟨m1, hm1, rfl⟩, second_iff.mpr ⟨?_, (hsecond hm1 _).mpr ?_, ?_⟩⟩
    · exact { m2 with source := m2.source.wrote m1.data.length }
    · exact ⟨m2, hm2, rfl⟩
    · rfl

theorem forwarder_eof (w : Sides (σ₁ × τ₁) (σ₂ × τ₂) ρ) :
    r.forwarder.eof w = .ok (r.side1.eof w.side1.1 || r.side2.eof w.side2.1) := by
  have heof1 : IodriversBase.eof r.forwarder.io1 w = .ok (r.side1.eof w.side1.1) := rfl
  have heof2 : IodriversBase.eof r.forwarder.io2 w = .ok (r.side2.eof w.side2.1) := rfl
  unfold Forwarder.eof
  rw [heof1]
  cases r.side1.eof w.side1.1 with
  | true => rfl
  | false => exact heof2

theorem mirror_eof (w : Sides (σ₁ × τ₁) (σ₂ × τ₂) ρ) :
    r.mirror.forwarder.eof w.flip = r.forwarder.eof w := by
  rw [forwarder_eof, forwarder_eof, Bool.or_comm]
  rfl

/-- The mirror image of a wake-up, when the timeouts are the same or nothing is read. -/
theorem WakeUp.mirror (htimeout : r.timeout1 = r.timeout2 ∨ l = (none, none))
    (h : r.WakeUp s l t) : r.mirror.WakeUp s.flip l.swap t.flip := by
  obtain ⟨heof, herror, hset1, hset2, fuel, hserved⟩ := Forwarder.wakeUp_iff.mp h
  obtain ⟨m1, m2, hm1, hm2, rfl⟩ := served_iff.mp hserved
  have htimeout1 : r.timeout1 = r.timeout2 ∨ l.1 = none := htimeout.imp_right (congrArg Prod.fst)
  have htimeout2 : r.timeout1 = r.timeout2 ∨ l.2 = none := htimeout.imp_right (congrArg Prod.snd)
  refine Forwarder.wakeUp_iff.mpr ⟨(mirror_eof s.world).trans heof, herror, hset2, hset1, fuel,
    served_iff.mpr ⟨m2, m1, ?_, ?_, rfl⟩⟩
  · exact Goes.of_timeout htimeout2 hm2
  · exact Goes.of_timeout htimeout1 hm1

theorem run_mirror (htimeout : r.timeout1 = r.timeout2 ∨ ∀ l ∈ ls, l = (none, none))
    (h : Lts.Run r.WakeUp s ls t) : Lts.Run r.mirror.WakeUp s.flip (ls.map Prod.swap) t.flip := by
  have hone : ∀ l ∈ ls, r.timeout1 = r.timeout2 ∨ l = (none, none) :=
    fun l hl => htimeout.imp_right fun hnone => hnone l hl
  exact (h.restrict hone).map ForwardState.flip Prod.swap fun _ _ _ hstep => hstep.1.mirror hstep.2

theorem WakeUp.timeouts (h : r.WakeUp s l t) :
    (∀ x ∈ l.1, x.timeout = r.timeout1) ∧ ∀ x ∈ l.2, x.timeout = r.timeout1 := by
  obtain ⟨fuel, s₁, -, hfirst, hsecond, -, -⟩ := h
  constructor
  · intro x hx
    rw [Option.mem_def.mp hx] at hfirst
    exact congrArg Transfer.timeout hfirst.1
  · intro x hx
    rw [Option.mem_def.mp hx] at hsecond
    exact congrArg Transfer.timeout hsecond.1

theorem run_timeouts (h : Lts.Run r.WakeUp s ls t) :
    ∀ l ∈ ls, (∀ x ∈ l.1, x.timeout = r.timeout1) ∧ ∀ x ∈ l.2, x.timeout = r.timeout1 :=
  h.labels fun _ _ _ => WakeUp.timeouts

/-- `forward` is symmetric in its two sides when their timeouts are the same, and else as long as
neither is read from. -/
theorem forward_mirror_iff (h : Lts.Run r.WakeUp s ls t) :
    r.Symmetric s ls t ↔ r.timeout1 = r.timeout2 ∨ ∀ l ∈ ls, l = (none, none) := by
  have htimeouts := run_timeouts h
  constructor
  · intro hsym
    have hmirrored := run_timeouts hsym.mirrored
    rw [or_iff_not_imp_left]
    intro hne l hl
    refine Prod.ext (Option.eq_none_iff_forall_not_mem.mpr fun x hx => hne ?_)
      (Option.eq_none_iff_forall_not_mem.mpr fun x hx => hne ?_)
    · rw [← (htimeouts l hl).1 x hx]
      exact (hmirrored l.swap (List.mem_map_of_mem hl)).2 x hx
    · rw [← (htimeouts l hl).2 x hx]
      exact hsym.timeout2 l hl x hx
  · intro htimeout
    refine ⟨fun l hl => (htimeouts l hl).1, fun l hl x hx => ?_, run_mirror htimeout h, ?_⟩
    · rcases htimeout with hequal | hnone
      · rw [← hequal]
        exact (htimeouts l hl).2 x hx
      · rw [hnone l hl] at hx
        cases hx
    · unfold Returns
      rw [← mirror_eof]
      exact Iff.rfl

/-- What is there can be read, and what is written is kept. -/
def pipe (fd : ℤ) : Endpoint Bytes Bytes where
  fd := fd
  now _ := 0
  waitRead _ x := (.ok (decide (x ≠ [])), x)
  read n x := (.ok ⟨x.take n, List.length_take_le n x⟩, x.drop n)
  eof _ := false
  waitWrite _ y := (.ok true, y)
  write data y := (.ok (wroteAll data), y ++ data)

/-- Between descriptors 3 and 4, with the descriptors that are ready one time after the other. -/
def pipes (timeout1 timeout2 : Time) : Relay Bytes Bytes Bytes Bytes (List (List ℤ)) where
  rawMode := true
  side1 := pipe 3
  side2 := pipe 4
  extract1 b := b.length
  extract2 b := b.length
  timeout1 := timeout1
  timeout2 := timeout2
  bufferSize := 10
  select w := (.ok (w.script.headD []), { w with script := w.script.tail })

def start (ready : List ℤ) : ForwardState (Sides (Bytes × Bytes) (Bytes × Bytes) (List (List ℤ))) :=
  ⟨.new 10 false, .new 10 false, ⟨([1, 2], []), ([9], []), [ready]⟩⟩

/-- Both directions are served, with the same timeout. -/
theorem forward_mirror_iff_sample : ∃ l t, Lts.Run (pipes 5 5).WakeUp (start [3, 4]) [l] t ∧
    t.world.side2.2 = [1, 2] ∧ t.world.side1.2 = [9] ∧
    (pipes 5 5).Symmetric (start [3, 4]) [l] t := by
  obtain ⟨t, ht, hout⟩ := Next.exists_again
    (fun t => t.world.side2.2 = [1, 2] ∧ t.world.side1.2 = [9])
    (x := (pipes 5 5).forwarder.iteration 5 3 4 (start [3, 4])) (by decide)
  obtain ⟨l, hl⟩ := Forwarder.exists_wakeUp ht
  exact ⟨l, t, .single hl, hout.1, hout.2, (forward_mirror_iff (.single hl)).mpr (.inl rfl)⟩

/-- The second driver is read from with the timeout of the first. -/
theorem forward_mixes_timeouts : ¬ ∀ (r : Relay Bytes Bytes Bytes Bytes (List (List ℤ))) s ls t,
    Lts.Run r.WakeUp s ls t → r.Symmetric s ls t := by
  intro h
  obtain ⟨t, ht, -⟩ := Next.exists_again (fun t => t.world.side1.2 = [9])
    (x := (pipes 5 7).forwarder.iteration 5 3 4 (start [4])) (by decide)
  obtain ⟨l, hl⟩ := Forwarder.exists_wakeUp ht
  have hserved : l.2.isSome = true :=
    (Forwarder.wakeUp_iff.mp hl).2.2.2.1.mpr (List.mem_singleton_self 4)
  obtain ⟨x, hx⟩ := Option.isSome_iff_exists.mp hserved
  have hpassed : x.timeout = 5 := (WakeUp.timeouts hl).2 x hx
  have hmeant : x.timeout = 7 :=
    (h (pipes 5 7) _ _ _ (.single hl)).timeout2 l (List.mem_singleton_self l) x hx
  rw [hpassed] at hmeant
  exact absurd hmeant (by decide)

end Relay

end IodriversBase
