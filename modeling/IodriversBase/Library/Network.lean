import IodriversBase.Library.Lts
import Mathlib.Data.Fintype.Basic

namespace Network

variable {κ ι ε α : Type*}

/-- What an event puts into each channel, and what it takes out. -/
structure Wiring (κ ε α : Type*) where
  put : ε → κ → List α
  got : ε → κ → List α

variable {w : Wiring κ ε α} {q q' : κ → List α} {evs : List ε}

/-- An event takes from the front of a channel, and puts at its end. -/
def Step (w : Wiring κ ε α) (q : κ → List α) (ev : ε) (q' : κ → List α) : Prop :=
  ∀ c, ∃ rest, q c = w.got ev c ++ rest ∧ q' c = rest ++ w.put ev c

def Wiring.puts (w : Wiring κ ε α) (c : κ) (evs : List ε) : List α := evs.flatMap (w.put · c)

def Wiring.gots (w : Wiring κ ε α) (c : κ) (evs : List ε) : List α := evs.flatMap (w.got · c)

/-- Nothing is lost, duplicated or reordered on the way. -/
theorem conservation (h : Lts.Run (Step w) q evs q') (c : κ) :
    q c ++ w.puts c evs = w.gots c evs ++ q' c := by
  induction h with
  | nil => simp [Wiring.puts, Wiring.gots]
  | @cons q q₁ q' ev evs hstep _ ih =>
    obtain ⟨rest, hq, hq₁⟩ := hstep c
    calc q c ++ w.puts c (ev :: evs)
        = w.got ev c ++ (rest ++ w.put ev c ++ w.puts c evs) := by
          rw [hq, Wiring.puts, List.flatMap_cons, Wiring.puts]
          simp only [List.append_assoc]
      _ = w.gots c (ev :: evs) ++ q' c := by
          rw [← hq₁, ih, Wiring.gots, Wiring.gots, List.flatMap_cons, List.append_assoc]

/-- The channels after an event, if what it takes is there. -/
def advance [Fintype κ] [DecidableEq α] (w : Wiring κ ε α) (q : κ → List α) (ev : ε) :
    Option (κ → List α) :=
  if ∀ c, w.got ev c <+: q c then some fun c => (q c).drop (w.got ev c).length ++ w.put ev c
  else none

theorem step_of_advance [Fintype κ] [DecidableEq α] {ev : ε} (h : advance w q ev = some q') :
    Step w q ev q' := by
  unfold advance at h
  split_ifs at h with hgot
  intro c
  obtain ⟨rest, hrest⟩ := hgot c
  refine ⟨rest, hrest.symm, ?_⟩
  rw [← Option.some.inj h]
  dsimp only
  rw [← hrest, List.drop_left]

theorem run_of_advance [Fintype κ] [DecidableEq α]
    (h : evs.foldlM (advance w) q = some q') : Lts.Run (Step w) q evs q' := by
  induction evs generalizing q with
  | nil =>
    cases h
    exact .nil _
  | cons ev evs ih =>
    rw [List.foldlM_cons] at h
    obtain ⟨q₁, hstep, hrest⟩ := Option.bind_eq_some_iff.mp h
    exact .cons (step_of_advance hstep) (ih hrest)

variable [DecidableEq ι]

/-- The events of one party. -/
def localTo (i : ι) (h : List (ι × ε)) : List ε :=
  h.filterMap fun x => if x.1 = i then some x.2 else none

theorem localTo_append (i : ι) (h h' : List (ι × ε)) :
    localTo i (h ++ h') = localTo i h ++ localTo i h' := List.filterMap_append

theorem localTo_map (i j : ι) (evs : List ε) :
    localTo i (evs.map (Prod.mk j)) = if j = i then evs else [] := by
  unfold localTo
  by_cases hij : j = i <;> simp [List.filterMap_map, hij]

/-- Every channel has one party that puts into it and one that takes out of it. -/
def ends (sender receiver : κ → ι) (put got : κ → ε → List α) : Wiring κ (ι × ε) α where
  put x c := if x.1 = sender c then put c x.2 else []
  got x c := if x.1 = receiver c then got c x.2 else []

theorem flatMap_localTo (i : ι) (f : ε → List α) (h : List (ι × ε)) :
    h.flatMap (fun x => if x.1 = i then f x.2 else []) = (localTo i h).flatMap f := by
  induction h with
  | nil => rfl
  | cons x h ih =>
    rw [List.flatMap_cons, ih]
    by_cases hx : x.1 = i
    · simp [localTo, hx]
    · simp [localTo, hx]

/-- From empty channels on, what the sender has put in is what the receiver has taken out,
followed by what is on the way. -/
theorem sent_eq {sender receiver : κ → ι} {put got : κ → ε → List α} {h : List (ι × ε)}
    (hrun : Lts.Run (Step (ends sender receiver put got)) (fun _ => []) h q) (c : κ) :
    (localTo (sender c) h).flatMap (put c) = (localTo (receiver c) h).flatMap (got c) ++ q c := by
  have hall := conservation hrun c
  rw [List.nil_append, Wiring.puts, Wiring.gots] at hall
  rw [← flatMap_localTo, ← flatMap_localTo]
  exact hall

end Network
