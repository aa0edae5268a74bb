import Mathlib.Logic.Function.Iterate
import Mathlib.Logic.Relation

namespace Loop

variable {σ β : Type*}

/-- What one iteration does. -/
inductive Next (σ β : Type*)
  | again (s : σ)
  | done (b : β)
  | lost

/-- At most `n` iterations of `body`; `none` when they do not suffice. -/
def run (body : σ → Next σ β) : ℕ → σ → Option β
  | 0, _ => none
  | n + 1, s =>
    match body s with
    | .again s' => run body n s'
    | .done b => some b
    | .lost => none

/-- `I` after an iteration that goes round again, `Q` after one that leaves. -/
def Next.Holds (I : σ → Prop) (Q : β → Prop) : Next σ β → Prop
  | .again s => I s
  | .done b => Q b
  | .lost => True

@[simp] theorem Next.holds_again (I : σ → Prop) (Q : β → Prop) (s : σ) :
    (Next.again s : Next σ β).Holds I Q ↔ I s := Iff.rfl

@[simp] theorem Next.holds_done (I : σ → Prop) (Q : β → Prop) (b : β) :
    (Next.done b : Next σ β).Holds I Q ↔ Q b := Iff.rfl

@[simp] theorem Next.holds_lost (I : σ → Prop) (Q : β → Prop) :
    (Next.lost : Next σ β).Holds I Q ↔ True := Iff.rfl

theorem Next.Holds.imp {I I' : σ → Prop} {Q Q' : β → Prop} {x : Next σ β} (h : x.Holds I Q)
    (hI : ∀ s, I s → I' s) (hQ : ∀ b, Q b → Q' b) : x.Holds I' Q' := by
  cases x with
  | again s => exact hI s h
  | done b => exact hQ b h
  | lost => trivial

/-- An iteration that has been computed, and what has been checked about the state after it. -/
theorem Next.exists_again {x : Next σ β} (P : σ → Prop) [DecidablePred P]
    (h : (match x with | .again s => decide (P s) | _ => false) = true) :
    ∃ s, x = .again s ∧ P s := by
  cases x with
  | again s => exact ⟨s, rfl, of_decide_eq_true h⟩
  | done b => cases h
  | lost => cases h

theorem run_rule {body : σ → Next σ β} {I : σ → Prop} {Q : β → Prop}
    (hbody : ∀ s, I s → (body s).Holds I Q) {n : ℕ} {s : σ} {b : β}
    (hs : I s) (h : run body n s = some b) : Q b := by
  induction n generalizing s with
  | zero => cases h
  | succ n ih =>
    have hb := hbody s hs
    unfold run at h
    cases hc : body s with
    | again s' =>
      rw [hc] at h hb
      exact ih hb h
    | done b' =>
      rw [hc] at h hb
      cases h
      exact hb
    | lost =>
      rw [hc] at h
      cases h

/-- The rule of total correctness: iterations that go round again lower `μ`. -/
theorem run_total {body : σ → Next σ β} {I : σ → Prop} {Q : β → Prop} (μ : σ → ℕ)
    (hbody : ∀ s, I s →
      (∃ s', body s = .again s' ∧ I s' ∧ μ s' < μ s) ∨ ∃ b, body s = .done b ∧ Q b)
    {n : ℕ} {s : σ} (hs : I s) (hn : μ s < n) : ∃ b, run body n s = some b ∧ Q b := by
  induction n generalizing s with
  | zero => omega
  | succ n ih =>
    obtain ⟨s', hc, hs', hlt⟩ | ⟨b, hc, hb⟩ := hbody s hs
    · obtain ⟨b, hr, hb⟩ := ih hs' (by omega)
      exact ⟨b, by rw [run, hc]; exact hr, hb⟩
    · exact ⟨b, by rw [run, hc], hb⟩

/-- When a loop ends at all: its states are seen through `abs`, where an iteration is a step of
`next`, and the loop leaves at those that satisfy `stop`. -/
theorem run_ends_iff {τ : Type*} {body : σ → Next σ β} {I : σ → Prop} {abs : σ → τ} {next : τ → τ}
    {stop : τ → Prop} (hstop : ∀ s, I s → stop (abs s) → ∃ b, body s = .done b)
    (hgo : ∀ s, I s → ¬ stop (abs s) →
      ∃ s', body s = .again s' ∧ I s' ∧ abs s' = next (abs s))
    {s : σ} (hs : I s) : (∃ n b, run body n s = some b) ↔ ∃ n, stop (next^[n] (abs s)) := by
  constructor
  · rintro ⟨n, b, h⟩
    induction n generalizing s with
    | zero => cases h
    | succ n ih =>
      by_cases hleaves : stop (abs s)
      · exact ⟨0, hleaves⟩
      · obtain ⟨s', hc, hs', habs⟩ := hgo s hs hleaves
        rw [run, hc] at h
        obtain ⟨m, hm⟩ := ih hs' h
        exact ⟨m + 1, by rwa [Function.iterate_succ_apply, ← habs]⟩
  · rintro ⟨n, h⟩
    induction n generalizing s with
    | zero =>
      obtain ⟨b, hb⟩ := hstop s hs h
      exact ⟨1, b, by rw [run, hb]⟩
    | succ n ih =>
      by_cases hleaves : stop (abs s)
      · obtain ⟨b, hb⟩ := hstop s hs hleaves
        exact ⟨1, b, by rw [run, hb]⟩
      · obtain ⟨s', hc, hs', habs⟩ := hgo s hs hleaves
        rw [Function.iterate_succ_apply, ← habs] at h
        obtain ⟨m, b, hm⟩ := ih hs' h
        exact ⟨m + 1, b, by rw [run, hc]; exact hm⟩

variable {σ' β' : Type*}

def Next.map (g : σ → σ') (h : β → β') : Next σ β → Next σ' β'
  | .again s => .again (g s)
  | .done b => .done (h b)
  | .lost => .lost

/-- A loop whose iterations do on `g s` what those of another do on `s`. -/
theorem run_map {body : σ → Next σ β} {body' : σ' → Next σ' β'} {g : σ → σ'} {h : β → β'}
    (hbody : ∀ s, body' (g s) = (body s).map g h) (n : ℕ) (s : σ) :
    run body' n (g s) = (run body n s).map h := by
  induction n generalizing s with
  | zero => rfl
  | succ n ih =>
    rw [run, run, hbody]
    rcases body s with s' | b | _
    · exact ih s'
    · rfl
    · rfl

/-- Going round the loop once, as a step between the states at its head. -/
def Step (body : σ → Next σ β) (s t : σ) : Prop := body s = .again t

/-- A loop that comes to a state that leaves it, leaves it. -/
theorem run_of_reaches {body : σ → Next σ β} {s t : σ} {b : β}
    (h : Relation.ReflTransGen (Step body) s t) (ht : body t = .done b) :
    ∃ n, run body n s = some b := by
  induction h using Relation.ReflTransGen.head_induction_on with
  | refl => exact ⟨1, by rw [run, ht]⟩
  | head hstep _ ih =>
    obtain ⟨n, hn⟩ := ih
    exact ⟨n + 1, by rw [run, hstep]; exact hn⟩

/-- The invariant rule for the states at the head of the loop. -/
theorem reaches_rule {body : σ → Next σ β} {I : σ → Prop} {Q : β → Prop}
    (hbody : ∀ s, I s → (body s).Holds I Q) {s t : σ} (hs : I s)
    (h : Relation.ReflTransGen (Step body) s t) : I t := by
  induction h with
  | refl => exact hs
  | tail _ hstep ih =>
    have hb := hbody _ ih
    rw [hstep] at hb
    exact hb

end Loop
