import Mathlib.Data.List.TakeWhile
import Mathlib.Tactic

namespace IodriversBase

/-- The characters of a `std::string`. -/
abbrev Text := List Char

inductive ArgError
  | invalidArgument (what : Text)
  | outOfRange (what : Text)
  deriving DecidableEq

def findFirstOf (s chars : Text) (pos : ℕ) : Option ℕ :=
  ((s.drop pos).findIdx? (· ∈ chars)).map (pos + ·)

/-- `substr`, of a position in the string; to the end without a count. -/
def substr (s : Text) (pos : ℕ) : (count : Option ℕ) → Text
  | none => s.drop pos
  | some n => (s.drop pos).take n

def isSpace (c : Char) : Bool := c ∈ [' ', '\t', '\n', Char.ofNat 11, Char.ofNat 12, '\r']

/-- The value of a decimal numeral. -/
def numeral (digits : Text) : ℕ := digits.foldl (fun n c => 10 * n + (c.toNat - '0'.toNat)) 0

def splitSign : Text → Text × Text
  | '+' :: s => (['+'], s)
  | '-' :: s => (['-'], s)
  | s => ([], s)

def signed (sign : Text) (n : ℕ) : ℤ := if sign = ['-'] then -n else n

def InInt (n : ℤ) : Prop := -2 ^ 31 ≤ n ∧ n < 2 ^ 31

instance (n : ℤ) : Decidable (InInt n) := inferInstanceAs (Decidable (_ ∧ _))

def stoi (s : Text) : Except ArgError (ℤ × ℕ) :=
  let blanks := s.takeWhile isSpace
  let sign := (splitSign (s.dropWhile isSpace)).1
  let digits := (splitSign (s.dropWhile isSpace)).2.takeWhile Char.isDigit
  if digits = [] then .error (.invalidArgument "stoi".toList)
  else if InInt (signed sign (numeral digits)) then
    .ok (signed sign (numeral digits), blanks.length + sign.length + digits.length)
  else .error (.outOfRange "stoi".toList)

variable {s a b chars : Text} {c : Char}

theorem findFirstOf_eq_none (hb : ∀ x ∈ b, x ∉ chars) :
    findFirstOf (a ++ b) chars a.length = none := by
  rw [findFirstOf, List.drop_left, Option.map_eq_none_iff, List.findIdx?_eq_none_iff]
  intro x hx
  simpa using hb x hx

theorem findFirstOf_eq_some (hb : ∀ x ∈ b, x ∉ chars) (hc : c ∈ chars) (r : Text) :
    findFirstOf (a ++ (b ++ c :: r)) chars a.length = some (a.length + b.length) := by
  have hidx : (b ++ c :: r).findIdx? (· ∈ chars) = some b.length := by
    induction b with
    | nil => simp [List.findIdx?_cons, hc]
    | cons x b ih =>
      have hx : x ∉ chars := hb x List.mem_cons_self
      rw [List.cons_append, List.findIdx?_cons, ih fun y hy => hb y (List.mem_cons_of_mem _ hy)]
      simp [hx]
  rw [findFirstOf, List.drop_left, hidx]
  rfl

theorem forall_notMem_singleton (h : c ∉ b) : ∀ x ∈ b, x ∉ [c] := by
  intro x hx hc
  rw [List.mem_singleton] at hc
  exact h (hc ▸ hx)

theorem findFirstOf_bounds {pos i : ℕ} (h : findFirstOf s chars pos = some i) :
    pos ≤ i ∧ i < s.length := by
  obtain ⟨j, hj, rfl⟩ := Option.map_eq_some_iff.mp h
  have hlt := (List.findIdx?_eq_some_iff_findIdx_eq.mp hj).1
  rw [List.length_drop] at hlt
  omega

theorem substr_left (a b r : Text) : substr (a ++ (b ++ r)) a.length (some b.length) = b := by
  rw [substr, List.drop_left, List.take_left]

/-- Either no character of the text is one of `chars`, or there is a first one. -/
theorem split_first (chars s : Text) : (∀ x ∈ s, x ∉ chars) ∨
    ∃ b c r, s = b ++ c :: r ∧ (∀ x ∈ b, x ∉ chars) ∧ c ∈ chars := by
  induction s with
  | nil => exact .inl (by simp)
  | cons x s ih =>
    by_cases hx : x ∈ chars
    · exact .inr ⟨[], x, s, rfl, by simp, hx⟩
    · refine ih.imp (fun h => ?_) ?_
      · simpa [hx] using h
      · rintro ⟨b, c, r, rfl, hb, hc⟩
        exact ⟨x :: b, c, r, rfl, by simpa [hx] using hb, hc⟩

/-- A text that `stoi` reads: blanks, a sign or none, digits, and something else. -/
structure IntText (s blanks sign digits rest : Text) : Prop where
  text : s = blanks ++ sign ++ digits ++ rest
  blanks : ∀ c ∈ blanks, isSpace c
  sign : sign = [] ∨ sign = ['+'] ∨ sign = ['-']
  digits_ne_nil : digits ≠ []
  digits : ∀ c ∈ digits, c.isDigit
  rest : ∀ c ∈ rest.head?, ¬ c.isDigit

theorem isSpace_of_isDigit (h : c.isDigit) : isSpace c = false := by
  by_contra hspace
  simp only [isSpace, Bool.not_eq_false, decide_eq_true_eq] at hspace
  fin_cases hspace <;> exact absurd h (by decide)

theorem takeWhile_append {p : Char → Bool} (ha : ∀ x ∈ a, p x) (hb : ∀ x ∈ b.head?, ¬ p x) :
    (a ++ b).takeWhile p = a ∧ (a ++ b).dropWhile p = b := by
  rw [List.takeWhile_append_of_pos ha, List.dropWhile_append_of_pos ha]
  cases b with
  | nil => simp
  | cons x b =>
    have hx : ¬ p x := hb x rfl
    simp [hx]

theorem splitSign_digit {digits : Text} (hne : digits ≠ []) (hdigits : ∀ c ∈ digits, c.isDigit)
    (r : Text) : splitSign (digits ++ r) = ([], digits ++ r) := by
  obtain ⟨x, ds, rfl⟩ := List.exists_cons_of_ne_nil hne
  have hx := hdigits x List.mem_cons_self
  rw [List.cons_append, splitSign]
  · rintro s ⟨⟩
    exact absurd hx (by decide)
  · rintro s ⟨⟩
    exact absurd hx (by decide)

theorem IntText.stoi_eq {blanks sign digits rest : Text} (h : IntText s blanks sign digits rest) :
    stoi s = if InInt (signed sign (numeral digits)) then
      .ok (signed sign (numeral digits), (blanks ++ sign ++ digits).length)
    else .error (.outOfRange "stoi".toList) := by
  obtain ⟨rfl, hblanks, hsign, hne, hdigits, hrest⟩ := h
  obtain ⟨x, ds, rfl⟩ := List.exists_cons_of_ne_nil hne
  have hx := hdigits x List.mem_cons_self
  have hspace : ∀ c ∈ (sign ++ (x :: ds ++ rest)).head?, ¬ isSpace c := by
    rcases hsign with rfl | rfl | rfl
    · simp [isSpace_of_isDigit hx]
    · simp [isSpace]
    · simp [isSpace]
  obtain ⟨htake, hdrop⟩ := takeWhile_append hblanks hspace
  have hsplit : splitSign (sign ++ (x :: ds ++ rest)) = (sign, x :: ds ++ rest) := by
    rcases hsign with rfl | rfl | rfl
    · exact splitSign_digit hne hdigits rest
    · rfl
    · rfl
  obtain ⟨hdig, _⟩ := takeWhile_append hdigits hrest
  have htext : blanks ++ sign ++ x :: ds ++ rest = blanks ++ (sign ++ (x :: ds ++ rest)) := by simp
  rw [stoi, htext, htake, hdrop, hsplit]
  dsimp only
  rw [hdig, if_neg hne]
  simp [Nat.add_assoc]

theorem splitSign_join (s : Text) : (splitSign s).1 ++ (splitSign s).2 = s ∧
    ((splitSign s).1 = [] ∨ (splitSign s).1 = ['+'] ∨ (splitSign s).1 = ['-']) := by
  unfold splitSign
  split <;> simp

theorem stoi_cases (s : Text) : (∃ blanks sign digits rest, IntText s blanks sign digits rest) ∨
    stoi s = .error (.invalidArgument "stoi".toList) := by
  by_cases hdigits : (splitSign (s.dropWhile isSpace)).2.takeWhile Char.isDigit = []
  · exact .inr (by rw [stoi, if_pos hdigits])
  · refine .inl ⟨s.takeWhile isSpace, _, _,
      (splitSign (s.dropWhile isSpace)).2.dropWhile Char.isDigit, ?_, ?_,
      (splitSign_join (s.dropWhile isSpace)).2, hdigits, ?_, ?_⟩
    · rw [List.append_assoc, List.takeWhile_append_dropWhile, List.append_assoc,
        (splitSign_join _).1, List.takeWhile_append_dropWhile]
    · exact fun c hc => List.mem_takeWhile_imp hc
    · exact fun c hc => List.mem_takeWhile_imp hc
    · intro c hc
      have := List.head?_dropWhile_not Char.isDigit (splitSign (s.dropWhile isSpace)).2
      rw [hc] at this
      simpa using this

end IodriversBase
