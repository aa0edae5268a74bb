import Mathlib.Data.List.Basic
import Mathlib.Tactic

namespace Codes

variable {α β : Type*}

/-- Words for the letters, with their reader. -/
structure Code (α β : Type*) where
  word : α → List β
  /-- The letter at the front of a text, and what follows its word. -/
  letter : List β → Option (α × List β)
  letter_nil : letter [] = none
  letter_word : ∀ a t, letter (word a ++ t) = some (a, t)

namespace Code

variable (c : Code α β)

def encode (as : List α) : List β := as.flatMap c.word

@[simp] theorem encode_nil : c.encode [] = [] := rfl

@[simp] theorem encode_cons (a : α) (as : List α) :
    c.encode (a :: as) = c.word a ++ c.encode as := rfl

/-- The letters of a text, if there are no more than `n` of them. -/
def decodeUpTo : ℕ → List β → Option (List α)
  | _, [] => some []
  | 0, _ :: _ => none
  | n + 1, b :: t => (c.letter (b :: t)).bind fun r => (decodeUpTo n r.2).map (r.1 :: ·)

/-- No text has more letters than symbols. -/
def decode (t : List β) : Option (List α) := c.decodeUpTo t.length t

theorem word_ne_nil (a : α) : c.word a ≠ [] := by
  intro h
  have hread := c.letter_word a []
  rw [h, List.append_nil, c.letter_nil] at hread
  cases hread

theorem length_le_encode (as : List α) : as.length ≤ (c.encode as).length := by
  induction as with
  | nil => exact Nat.zero_le _
  | cons a as ih =>
    have hword := List.length_pos_of_ne_nil (c.word_ne_nil a)
    rw [encode_cons, List.length_cons, List.length_append]
    omega

theorem decodeUpTo_encode (as : List α) :
    ∀ n, as.length ≤ n → c.decodeUpTo n (c.encode as) = some as := by
  induction as with
  | nil =>
    intro n _
    cases n <;> rfl
  | cons a as ih =>
    intro n hn
    obtain ⟨b, t, hword⟩ := List.exists_cons_of_ne_nil (c.word_ne_nil a)
    have hread := c.letter_word a (c.encode as)
    rw [hword, List.cons_append] at hread
    rw [encode_cons, hword, List.cons_append]
    cases n with
    | zero => exact absurd hn (Nat.not_succ_le_zero _)
    | succ n =>
      rw [decodeUpTo, hread, Option.bind_some, ih n (Nat.le_of_succ_le_succ hn)]
      rfl

theorem decode_encode (as : List α) : c.decode (c.encode as) = some as :=
  c.decodeUpTo_encode as _ (c.length_le_encode as)

end Code

def hexValue (c : Char) : Option ℕ :=
  if '0' ≤ c ∧ c ≤ '9' then some (c.toNat - '0'.toNat)
  else if 'a' ≤ c ∧ c ≤ 'f' then some (c.toNat - 'a'.toNat + 10)
  else none

theorem hexValue_digitChar : ∀ n < 16, hexValue n.digitChar = some n := by decide

def hexDigits (b : UInt8) : List Char := [(b.toNat / 16).digitChar, (b.toNat % 16).digitChar]

def hexByte : List Char → Option (UInt8 × List Char)
  | high :: low :: t => (hexValue high).bind fun h =>
      (hexValue low).map fun l => (UInt8.ofNat (16 * h + l), t)
  | _ => none

theorem hexByte_hexDigits (b : UInt8) (t : List Char) :
    hexByte (hexDigits b ++ t) = some (b, t) := by
  have hb := b.toNat_lt
  have hhigh := hexValue_digitChar (b.toNat / 16) (by omega)
  have hlow := hexValue_digitChar (b.toNat % 16) (by omega)
  have hbyte : 16 * (b.toNat / 16) + b.toNat % 16 = b.toNat := Nat.div_add_mod b.toNat 16
  show ((hexValue (b.toNat / 16).digitChar).bind fun h =>
    (hexValue (b.toNat % 16).digitChar).map fun l => (UInt8.ofNat (16 * h + l), t)) = _
  rw [hhigh, hlow, Option.bind_some, Option.map_some, hbyte, UInt8.ofNat_toNat]

def hex : Code UInt8 Char := ⟨hexDigits, hexByte, rfl, hexByte_hexDigits⟩

@[simp] theorem length_hexDigits (b : UInt8) : (hexDigits b).length = 2 := rfl

theorem digitChar_mem : ∀ n < 16, n.digitChar ∈ "0123456789abcdef".toList := by decide

theorem mem_hexDigits {b : UInt8} {c : Char} (h : c ∈ hexDigits b) :
    c ∈ "0123456789abcdef".toList := by
  have hb := b.toNat_lt
  obtain rfl | rfl : c = _ ∨ c = _ := by simpa [hexDigits] using h
  · exact digitChar_mem _ (by omega)
  · exact digitChar_mem _ (by omega)

end Codes
