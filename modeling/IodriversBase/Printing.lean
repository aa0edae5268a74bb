import Mathlib.Data.Bool.AllAny
import IodriversBase.Text
import IodriversBase.Library.Codes

namespace IodriversBase

open Codes

def charCode (c : UInt8) : BitVec 32 := c.toBitVec.signExtend 32

def toHex (n : BitVec 32) : Text := Nat.toDigits 16 n.toNat

def binaryCom (str : List UInt8) : Text :=
  str.flatMap fun c =>
    let code := charCode c
    toHex ((code &&& 0xF0) >>> 4) ++ toHex (code &&& 0xF)

theorem toHex_charCode : ∀ n < 256,
    toHex ((charCode (UInt8.ofNat n) &&& 0xF0) >>> 4) ++ toHex (charCode (UInt8.ofNat n) &&& 0xF) =
      hexDigits (UInt8.ofNat n) := by
  decide +kernel

theorem binaryCom_eq (str : List UInt8) : binaryCom str = hex.encode str := by
  refine List.flatMap_congr fun c _ => ?_
  have hc := toHex_charCode c.toNat c.toNat_lt
  rw [UInt8.ofNat_toNat] at hc
  exact hc

/-- **`binary_com` can be read again**: two lower-case digits for every byte. -/
theorem decode_binaryCom (str : List UInt8) : hex.decode (binaryCom str) = some str ∧
    (binaryCom str).length = 2 * str.length ∧
    ∀ c ∈ binaryCom str, c ∈ "0123456789abcdef".toList := by
  rw [binaryCom_eq]
  refine ⟨hex.decode_encode str, ?_, fun c hc => ?_⟩
  · have hlength : (str.map fun c => (hex.word c).length) = str.map fun _ => 2 :=
      List.map_congr_left fun c _ => length_hexDigits c
    rw [Code.encode, List.length_flatMap, hlength, List.map_const', List.sum_replicate,
      smul_eq_mul, Nat.mul_comm]
  · obtain ⟨b, -, hb⟩ := List.mem_flatMap.mp hc
    exact mem_hexDigits hb

def printable (c : Char) : Text :=
  if c = Char.ofNat 0 then "\\x00".toList
  else if c = '\n' then "\\n".toList
  else if c = '\r' then "\\r".toList
  else [c]

def printableCom (str : Text) : Text := "\"".toList ++ str.flatMap printable ++ "\"".toList

/-- The texts that are printed for 0 and the ends of a line are taken for these characters,
wherever they come from. -/
def unprinted : Text → Text
  | '\\' :: 'x' :: '0' :: '0' :: t => Char.ofNat 0 :: unprinted t
  | '\\' :: 'n' :: t => '\n' :: unprinted t
  | '\\' :: 'r' :: t => '\r' :: unprinted t
  | c :: t => c :: unprinted t
  | [] => []

variable {s t : Text} {c : Char}

/-- What is printed is printed the same way when it is taken for the characters. -/
theorem flatMap_unprinted (s : Text) : (unprinted s).flatMap printable = s.flatMap printable := by
  induction s using unprinted.induct with
  | case1 t ih =>
    rw [unprinted, List.flatMap_cons, ih]
    rfl
  | case2 t ih =>
    rw [unprinted, List.flatMap_cons, ih]
    rfl
  | case3 t ih =>
    rw [unprinted, List.flatMap_cons, ih]
    rfl
  | case4 c t hx hn hr ih =>
    rw [unprinted.eq_4 c t hx hn hr, List.flatMap_cons, ih, List.flatMap_cons]
  | case5 => rfl

theorem head_printed (hc : c ≠ '\\') (h : s.flatMap printable = c :: t) :
    ∃ s', s = c :: s' ∧ s'.flatMap printable = t := by
  cases s with
  | nil => cases h
  | cons c' s =>
    rw [List.flatMap_cons, printable] at h
    split_ifs at h
    · exact absurd (List.cons.inj h).1.symm hc
    · exact absurd (List.cons.inj h).1.symm hc
    · exact absurd (List.cons.inj h).1.symm hc
    · obtain ⟨rfl, htail⟩ := List.cons.inj h
      exact ⟨s, rfl, htail⟩

def Plain (t : Text) : Prop :=
  ∀ t', t ≠ 'x' :: '0' :: '0' :: t' ∧ t ≠ 'n' :: t' ∧ t ≠ 'r' :: t'

theorem unprinted_cons (h : c = '\\' → Plain t) : unprinted (c :: t) = c :: unprinted t :=
  unprinted.eq_4 c t (fun t' hc => (h hc t').1) (fun t' hc => (h hc t').2.1)
    fun t' hc => (h hc t').2.2

theorem Plain.printed (h : Plain t) : Plain (t.flatMap printable) := by
  refine fun t' => ⟨fun ht => ?_, fun ht => ?_, fun ht => ?_⟩
  · obtain ⟨t₁, rfl, h₁⟩ := head_printed (by decide) ht
    obtain ⟨t₂, rfl, h₂⟩ := head_printed (by decide) h₁
    obtain ⟨t₃, rfl, -⟩ := head_printed (by decide) h₂
    exact (h t₃).1 rfl
  · obtain ⟨t₁, rfl, -⟩ := head_printed (by decide) ht
    exact (h t₁).2.1 rfl
  · obtain ⟨t₁, rfl, -⟩ := head_printed (by decide) ht
    exact (h t₁).2.2 rfl

theorem unprinted_printed (s : Text) : unprinted (s.flatMap printable) = unprinted s := by
  induction s using unprinted.induct with
  | case1 t ih =>
    show unprinted ('\\' :: 'x' :: '0' :: '0' :: t.flatMap printable) = _
    rw [unprinted, ih, unprinted]
  | case2 t ih =>
    show unprinted ('\\' :: 'n' :: t.flatMap printable) = _
    rw [unprinted, ih, unprinted]
  | case3 t ih =>
    show unprinted ('\\' :: 'r' :: t.flatMap printable) = _
    rw [unprinted, ih, unprinted]
  | case4 c t hx hn hr ih =>
    rw [unprinted.eq_4 c t hx hn hr, ← ih, List.flatMap_cons, printable]
    split_ifs with hzero hnewline hreturn
    · rw [hzero]
      exact unprinted.eq_1 _
    · rw [hnewline]
      exact unprinted.eq_2 _
    · rw [hreturn]
      exact unprinted.eq_3 _
    · apply unprinted_cons
      intro hc
      have hplain : Plain t := fun t' => ⟨hx t' hc, hn t' hc, hr t' hc⟩
      exact hplain.printed
  | case5 => rfl

theorem unprinted_eq_self (h : '\\' ∉ s) : unprinted s = s := by
  induction s with
  | nil => rfl
  | cons c s ih =>
    rw [List.mem_cons, not_or] at h
    rw [unprinted_cons fun hc => absurd hc.symm h.1, ih h.2]

theorem printable_ends (c : Char) :
    ∀ c' ∈ printable c, c' ≠ Char.ofNat 0 ∧ c' ≠ '\n' ∧ c' ≠ '\r' := by
  rw [printable]
  split_ifs with hzero hnewline hreturn
  · exact List.all_iff_forall_prop.mp (by decide)
  · exact List.all_iff_forall_prop.mp (by decide)
  · exact List.all_iff_forall_prop.mp (by decide)
  · intro c' hc'
    rw [List.mem_singleton.mp hc']
    exact ⟨hzero, hnewline, hreturn⟩

/-- **What `printable_com` confuses**: it prints every text on one line, without a 0, and two texts
alike exactly when they are the same once the texts printed for 0 and the ends of a line are taken
for these characters; without a backslash, only when they are the same. -/
theorem printableCom_eq_iff (s t : Text) :
    (printableCom s = printableCom t ↔ unprinted s = unprinted t) ∧
      ('\\' ∉ s → '\\' ∉ t → printableCom s = printableCom t → s = t) ∧
      ∀ c ∈ printableCom s, c ≠ Char.ofNat 0 ∧ c ≠ '\n' ∧ c ≠ '\r' := by
  have hquotes : printableCom s = printableCom t ↔
      s.flatMap printable = t.flatMap printable := by
    rw [printableCom, printableCom, List.append_left_inj, List.append_right_inj]
  have hsame : printableCom s = printableCom t ↔ unprinted s = unprinted t := by
    refine hquotes.trans ⟨fun h => ?_, fun h => ?_⟩
    · rw [← unprinted_printed s, h, unprinted_printed]
    · rw [← flatMap_unprinted s, h, flatMap_unprinted]
  refine ⟨hsame, fun hs ht h => ?_, fun c hc => ?_⟩
  · have hunprinted := hsame.mp h
    rwa [unprinted_eq_self hs, unprinted_eq_self ht] at hunprinted
  · rw [printableCom, List.mem_append, List.mem_append] at hc
    rcases hc with (hc | hc) | hc
    · rw [List.mem_singleton.mp hc]
      decide
    · obtain ⟨c', -, hc'⟩ := List.mem_flatMap.mp hc
      exact printable_ends c' c hc'
    · rw [List.mem_singleton.mp hc]
      decide

example : printableCom ['\n'] = printableCom ['\\', 'n'] := by decide

end IodriversBase
