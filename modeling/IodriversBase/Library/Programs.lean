import Mathlib.Logic.Basic

namespace Programs

universe u

variable {σ τ ε α β : Type u}

/-- A program over `σ` that returns an `α` or throws an `ε`. -/
abbrev Act (σ ε α : Type u) := ExceptT ε (StateM σ) α

/-- `Q` where the program has returned, `R` where it has thrown. -/
def EndsIn (Q : α → σ → Prop) (R : ε → σ → Prop) (r : Except ε α × σ) : Prop :=
  match r.1 with
  | .ok a => Q a r.2
  | .error x => R x r.2

/-- From a state with `P` the program ends in one with `Q` or, if it throws, with `R`. -/
def Ensures (P : σ → Prop) (f : Act σ ε α) (Q : α → σ → Prop) (R : ε → σ → Prop) : Prop :=
  ∀ s, P s → EndsIn Q R (f.run s)

variable {P P' : σ → Prop} {Q Q' : α → σ → Prop} {R R' : ε → σ → Prop} {f : Act σ ε α}

theorem EndsIn.mono {r : Except ε α × σ} (h : EndsIn Q' R' r) (hQ : ∀ a s, Q' a s → Q a s)
    (hR : ∀ x s, R' x s → R x s) : EndsIn Q R r := by
  obtain ⟨x | a, s⟩ := r
  · exact hR x s h
  · exact hQ a s h

theorem Ensures.mono (h : Ensures P' f Q' R') (hP : ∀ s, P s → P' s) (hQ : ∀ a s, Q' a s → Q a s)
    (hR : ∀ x s, R' x s → R x s) : Ensures P f Q R :=
  fun s hs => (h s (hP s hs)).mono hQ hR

theorem Ensures.pure {a : α} (h : ∀ s, P s → Q a s) : Ensures P (pure a : Act σ ε α) Q R := h

def act (f : σ → α × σ) : Act σ ε α := ExceptT.mk fun s => (.ok (f s).1, (f s).2)

theorem Ensures.act {f : σ → α × σ} (h : ∀ s, P s → Q (f s).1 (f s).2) :
    Ensures P (act f : Act σ ε α) Q R := h

/-- One program after the other; what the first one throws is thrown. -/
theorem run_bind (f : Act σ ε α) (g : α → Act σ ε β) (s : σ) : (f >>= g).run s =
    match f.run s with
    | (.ok a, t) => (g a).run t
    | (.error x, t) => (.error x, t) := by
  change (match f.run s with
    | (r, t) => (ExceptT.bindCont g r) t) = _
  rcases f.run s with ⟨x | a, t⟩
  · rfl
  · rfl

theorem Ensures.bind {g : α → Act σ ε β} {Q'' : β → σ → Prop} (hf : Ensures P f Q R)
    (hg : ∀ a, Ensures (Q a) (g a) Q'' R) : Ensures P (f >>= g) Q'' R := by
  intro s hs
  have hend := hf s hs
  rw [run_bind]
  rcases hr : f.run s with ⟨x | a, t⟩
  · rw [hr] at hend
    exact hend
  · rw [hr] at hend
    exact hg a t hend

/-- The program, with `release` done to the state if it throws. -/
def guarded (release : σ → σ) (f : Act σ ε α) : Act σ ε α := ExceptT.mk fun s =>
  match f.run s with
  | (.ok a, t) => (.ok a, t)
  | (.error x, t) => (.error x, release t)

theorem Ensures.guarded {release : σ → σ} (hf : Ensures P f Q R')
    (hR : ∀ x s, R' x s → R x (release s)) : Ensures P (guarded release f) Q R := by
  intro s hs
  have hend := hf s hs
  simp only [Programs.guarded, ExceptT.run_mk]
  rcases hr : f.run s with ⟨x | a, t⟩
  · rw [hr] at hend
    exact hR x t hend
  · rw [hr] at hend
    exact hend

def within (get : σ → τ) (set : σ → τ → σ) (f : Act τ ε α) : Act σ ε α :=
  ExceptT.mk fun s => ((f.run (get s)).1, set s (f.run (get s)).2)

theorem Ensures.within {get : σ → τ} {set : σ → τ → σ} {f : Act τ ε α}
    (h : ∀ s, P s → EndsIn (fun a t => Q a (set s t)) (fun x t => R x (set s t)) (f.run (get s))) :
    Ensures P (within get set f) Q R := h

/-- What the first candidate gives for which `attempt` gives something. -/
def firstSome (attempt : α → σ → Option β × σ) : List α → σ → Option β × σ
  | [], s => (none, s)
  | a :: rest, s =>
    match attempt a s with
    | (some b, t) => (some b, t)
    | (none, t) => firstSome attempt rest t

/-- `Q` for the candidate that is taken, if the attempts that fail keep `P`. -/
theorem firstSome_rule {attempt : α → σ → Option β × σ} {Q : β → σ → Prop}
    (hsome : ∀ a s b t, P s → attempt a s = (some b, t) → Q b t)
    (hnone : ∀ a s t, P s → attempt a s = (none, t) → P t) (candidates : List α) {s : σ}
    (hs : P s) :
    (∃ b t, firstSome attempt candidates s = (some b, t) ∧ Q b t) ∨
      ∃ t, firstSome attempt candidates s = (none, t) ∧ P t := by
  induction candidates generalizing s with
  | nil => exact .inr ⟨s, rfl, hs⟩
  | cons a rest ih =>
    rw [firstSome]
    rcases ha : attempt a s with ⟨_ | b, t⟩
    · exact ih (hnone a s t hs ha)
    · exact .inl ⟨b, t, rfl, hsome a s b t hs ha⟩

end Programs
