import Mathlib.Data.List.Basic

namespace Lts

variable {σ ℓ : Type*}

/-- Finite runs of a labelled transition system, with the labels in order. -/
inductive Run (step : σ → ℓ → σ → Prop) : σ → List ℓ → σ → Prop
  | nil (s : σ) : Run step s [] s
  | cons {s t u : σ} {l : ℓ} {ls : List ℓ} :
      step s l t → Run step t ls u → Run step s (l :: ls) u

variable {step : σ → ℓ → σ → Prop} {s t u : σ} {l : ℓ} {ls ms : List ℓ}

theorem Run.single (h : step s l t) : Run step s [l] t := .cons h (.nil t)

theorem Run.append (h : Run step s ls t) (h' : Run step t ms u) : Run step s (ls ++ ms) u := by
  induction h with
  | nil => exact h'
  | cons hs _ ih => exact .cons hs (ih h')

/-- An invariant of the state and of the labels so far, kept by every step, holds after
every run. -/
theorem Run.history {I : List ℓ → σ → Prop}
    (hstep : ∀ ls s l t, I ls s → step s l t → I (ls ++ [l]) t)
    (h : Run step s ls t) (pre : List ℓ) (hs : I pre s) : I (pre ++ ls) t := by
  induction h generalizing pre with
  | nil => simpa using hs
  | cons hst _ ih => simpa using ih _ (hstep _ _ _ _ hs hst)

/-- A state predicate kept by every step holds after every run. -/
theorem Run.invariant {I : σ → Prop} (hstep : ∀ s l t, I s → step s l t → I t)
    (h : Run step s ls t) (hs : I s) : I t :=
  h.history (I := fun _ => I) (fun _ => hstep) [] hs

/-- Runs of one system are runs of another, where each step is one. -/
theorem Run.map {σ' ℓ' : Type*} {step' : σ' → ℓ' → σ' → Prop} (g : σ → σ') (m : ℓ → ℓ')
    (hstep : ∀ s l t, step s l t → step' (g s) (m l) (g t)) (h : Run step s ls t) :
    Run step' (g s) (ls.map m) (g t) := by
  induction h with
  | nil => exact .nil _
  | cons hst _ ih => exact .cons (hstep _ _ _ hst) ih

theorem Run.mono {step' : σ → ℓ → σ → Prop} (hsub : ∀ s l t, step s l t → step' s l t)
    (h : Run step s ls t) : Run step' s ls t := by
  have hmap := h.map id id hsub
  rwa [List.map_id] at hmap

/-- What all labels of a run have in common can be required of its steps. -/
theorem Run.restrict {P : ℓ → Prop} (h : Run step s ls t) (hP : ∀ l ∈ ls, P l) :
    Run (fun s l t => step s l t ∧ P l) s ls t := by
  induction h with
  | nil => exact .nil _
  | cons hst _ ih =>
    exact .cons ⟨hst, hP _ (List.mem_cons_self ..)⟩
      (ih fun l hl => hP l (List.mem_cons_of_mem _ hl))

/-- What each step says of its label, for all labels of a run. -/
theorem Run.labels {P : ℓ → Prop} (hstep : ∀ s l t, step s l t → P l) (h : Run step s ls t) :
    ∀ l ∈ ls, P l := by
  induction h with
  | nil => exact fun _ hl => absurd hl List.not_mem_nil
  | cons hst _ ih => exact List.forall_mem_cons.mpr ⟨hstep _ _ _ hst, ih⟩

variable {ι α : Type*}

/-- The operations `ops`, one after the other, with what each of them gives back. -/
def performs (perform : σ → ι → Option (α × σ)) : σ → List ι → Option (List (ι × α) × σ)
  | s, [] => some ([], s)
  | s, op :: ops =>
    match perform s op with
    | none => none
    | some (a, t) => (performs perform t ops).map fun r => ((op, a) :: r.1, r.2)

variable {perform : σ → ι → Option (α × σ)} {next : σ → ι × α → σ → Prop} {ops : List ι}

theorem run_of_performs (hperform : ∀ s op a t, perform s op = some (a, t) → next s (op, a) t)
    {r : List (ι × α) × σ} (h : performs perform s ops = some r) : Run next s r.1 r.2 := by
  induction ops generalizing s r with
  | nil =>
    cases h
    exact .nil s
  | cons op ops ih =>
    rw [performs] at h
    rcases hop : perform s op with _ | ⟨a, t⟩ <;> rw [hop] at h
    · cases h
    · obtain ⟨r', hr', rfl⟩ := Option.map_eq_some_iff.mp h
      exact .cons (hperform s op a t hop) (ih hr')

theorem map_fst_of_performs {r : List (ι × α) × σ} (h : performs perform s ops = some r) :
    r.1.map Prod.fst = ops := by
  induction ops generalizing s r with
  | nil =>
    cases h
    rfl
  | cons op ops ih =>
    rw [performs] at h
    rcases hop : perform s op with _ | ⟨a, t⟩ <;> rw [hop] at h
    · cases h
    · obtain ⟨r', hr', rfl⟩ := Option.map_eq_some_iff.mp h
      rw [List.map_cons, ih hr']

/-- Where `R` holds, two systems give the same back for every operation: they do for all of
them. -/
theorem performs_alike {τ : Type*} {perform' : τ → ι → Option (α × τ)} {R : σ → τ → Prop}
    (hperform : ∀ s t op, R s t → ∃ a s' t', perform s op = some (a, s') ∧
      perform' t op = some (a, t') ∧ R s' t') {s : σ} {t : τ} (h : R s t) (ops : List ι) :
    ∃ calls s' t', performs perform s ops = some (calls, s') ∧
      performs perform' t ops = some (calls, t') ∧ R s' t' := by
  induction ops generalizing s t with
  | nil => exact ⟨[], s, t, rfl, rfl, h⟩
  | cons op ops ih =>
    obtain ⟨a, s', t', hs, ht, h'⟩ := hperform s t op h
    obtain ⟨calls, s'', t'', hs', ht', h''⟩ := ih h'
    refine ⟨(op, a) :: calls, s'', t'', ?_, ?_, h''⟩
    · rw [performs, hs]
      simp only [hs', Option.map_some]
    · rw [performs, ht]
      simp only [ht', Option.map_some]

/-- A run that has been computed, and what has been checked about it. -/
theorem exists_run (hperform : ∀ s op a t, perform s op = some (a, t) → next s (op, a) t) (s : σ)
    (ops : List ι) (P : List (ι × α) → σ → Prop) [∀ calls t, Decidable (P calls t)]
    (h : (performs perform s ops).any (fun r => decide (P r.1 r.2)) = true) :
    ∃ calls t, Run next s calls t ∧ calls.map Prod.fst = ops ∧ P calls t := by
  rcases hr : performs perform s ops with _ | r <;> rw [hr] at h
  · cases h
  · exact ⟨r.1, r.2, run_of_performs hperform hr, map_fst_of_performs hr, of_decide_eq_true h⟩

end Lts
