import Mathlib.Algebra.Group.Nat.Defs
import Mathlib.Data.List.TakeWhile

/-!
# Decimal text, as `printf` writes it and `scanf` reads it

`dec n` is what `%u` prints, `dec2 n` what `%02u` prints, `decPad w n` what
`%0wu` prints, and `scanDec` reads a decimal number from the front of a text.
Reading back what was printed gives the number (`scanDec_dec`, `scanDec_decPad`), and
a printed number has at most `k` characters exactly when it is below `10 ^ k`
(`length_dec_le_iff`, `length_dec2_le_iff`).
-/

namespace Growbox.Decimal

/-- `%u` -/
def dec (n : Nat) : List Char := Nat.toDigits 10 n

/-- `%02u` -/
def dec2 (n : Nat) : List Char := if n < 10 then '0' :: dec n else dec n

/-- `%0wu` -/
def decPad (w n : Nat) : List Char := List.replicate (w - (dec n).length) '0' ++ dec n

/-- The number at the front of a text; `none` (nothing is assigned) when the
text does not begin with a digit. -/
def scanDec (s : List Char) : Option Nat :=
  match s.takeWhile Char.isDigit with
  | [] => none
  | ds => some (Nat.ofDigitChars 10 ds 0)

theorem isDigit_of_mem_dec (n : Nat) (c : Char) (h : c ∈ dec n) : c.isDigit = true :=
  Nat.isDigit_of_mem_toDigits (by decide) (by decide) h

theorem dec_ne_nil (n : Nat) : dec n ≠ [] := Nat.toDigits_ne_nil

/-- Only 0 is printed with a zero in front. -/
theorem dec_head_zero (n : Nat) : (dec n).head? = some '0' → dec n = ['0'] := by
  unfold dec
  induction n using Nat.base_induction 10 (by decide) with
  | single m hm =>
    rw [Nat.toDigits_of_lt_base hm]
    intro h
    rw [Option.some.inj h]
  | digit m k hk hm ih =>
    intro h
    rw [← Nat.toDigits_append_toDigits (by decide) hm hk] at h
    have hhead : (Nat.toDigits 10 m).head? = some '0' := by
      cases hd : Nat.toDigits 10 m with
      | nil => exact absurd hd Nat.toDigits_ne_nil
      | cons c cs => rwa [hd] at h
    have hzero : m = 0 := by
      rw [← Nat.ofDigitChars_ten_toDigits (n := m), ih hhead]
      rfl
    omega

theorem isDigit_of_mem_decPad (w n : Nat) (c : Char) (h : c ∈ decPad w n) : c.isDigit = true := by
  rcases List.mem_append.mp h with h | h
  · rw [List.eq_of_mem_replicate h]
    rfl
  · exact isDigit_of_mem_dec n c h

theorem decPad_zero (n : Nat) : decPad 0 n = dec n := by
  rw [decPad, Nat.zero_sub]
  rfl

/-- The zeros count for nothing. -/
theorem ofDigitChars_decPad (w n : Nat) : Nat.ofDigitChars 10 (decPad w n) 0 = n := by
  rw [decPad, Nat.ofDigitChars_append, Nat.ofDigitChars_replicate_zero, Nat.mul_zero, dec,
    Nat.ofDigitChars_ten_toDigits]

/-- **Reading back what was printed gives the number**. -/
@[simp] theorem scanDec_decPad (w n : Nat) : scanDec (decPad w n) = some n := by
  have hdigits : (decPad w n).takeWhile Char.isDigit = decPad w n :=
    List.takeWhile_eq_self_iff.mpr (isDigit_of_mem_decPad w n)
  unfold scanDec
  rw [hdigits]
  cases h : decPad w n with
  | nil => exact absurd (List.append_eq_nil_iff.mp h).2 (dec_ne_nil n)
  | cons c cs =>
    show some (Nat.ofDigitChars 10 (c :: cs) 0) = some n
    rw [← h, ofDigitChars_decPad]

@[simp] theorem scanDec_dec (n : Nat) : scanDec (dec n) = some n := by
  rw [← decPad_zero, scanDec_decPad]

theorem length_dec_le_iff (n k : Nat) (hk : 0 < k) : (dec n).length ≤ k ↔ n < 10 ^ k :=
  Nat.length_toDigits_le_iff (by decide) hk

theorem length_dec_pos (n : Nat) : 0 < (dec n).length := Nat.length_toDigits_pos

theorem dec2_eq_decPad (n : Nat) : dec2 n = decPad 2 n := by
  have h1 := length_dec_le_iff n 1 (by decide)
  have h0 := length_dec_pos n
  unfold dec2 decPad
  split
  · next h =>
    have : (dec n).length = 1 := by
      have := h1.mpr (by omega)
      omega
    rw [this]
    rfl
  · next h =>
    have : 2 - (dec n).length = 0 := by
      have : ¬ (dec n).length ≤ 1 := fun hl => h (by have := h1.mp hl; omega)
      omega
    rw [this]
    rfl

theorem length_decPad (w n : Nat) : (decPad w n).length = max w (dec n).length := by
  rw [decPad, List.length_append, List.length_replicate]
  omega

theorem length_dec2 (n : Nat) : (dec2 n).length = max 2 (dec n).length := by
  rw [dec2_eq_decPad, length_decPad]

theorem length_dec2_le_iff (n k : Nat) (hk : 2 ≤ k) : (dec2 n).length ≤ k ↔ n < 10 ^ k := by
  rw [length_dec2, ← length_dec_le_iff n k (by omega)]
  omega

/-- Padding changes nothing exactly when the number has its digits anyway. -/
theorem decPad_eq_dec_iff (w n : Nat) (hw : 2 ≤ w) : decPad w n = dec n ↔ 10 ^ (w - 1) ≤ n := by
  have h := length_dec_le_iff n (w - 1) (by omega)
  have hlen := length_decPad w n
  constructor
  · intro he
    rw [he] at hlen
    by_contra hlt
    have := h.mpr (Nat.lt_of_not_le hlt)
    omega
  · intro hle
    have : w - (dec n).length = 0 := by
      have : ¬ (dec n).length ≤ w - 1 := fun hl => absurd (h.mp hl) (Nat.not_lt.mpr hle)
      omega
    rw [decPad, this]
    rfl

theorem length_dec_le_decPad (w n : Nat) : (dec n).length ≤ (decPad w n).length := by
  rw [length_decPad]
  exact Nat.le_max_right ..

/-- Texts whose parts can only have grown are equal when the parts are. -/
theorem append_eq_append_iff_of_length_le {α : Type} {p p' q q' : List α}
    (h : p.length ≤ q.length) (h' : p'.length ≤ q'.length) :
    p ++ p' = q ++ q' ↔ p = q ∧ p' = q' := by
  constructor
  · intro he
    have hlen := congrArg List.length he
    rw [List.length_append, List.length_append] at hlen
    exact List.append_inj he (by omega)
  · rintro ⟨rfl, rfl⟩
    rfl

/-- A number and a rest, printed plain and printed padded. -/
theorem dec_append_eq_iff {w : Nat} (hw : 2 ≤ w) (n : Nat) (sep : List Char) {x y : List Char}
    (h : x.length ≤ y.length) :
    dec n ++ (sep ++ x) = decPad w n ++ (sep ++ y) ↔ 10 ^ (w - 1) ≤ n ∧ x = y := by
  have hrest : (sep ++ x).length ≤ (sep ++ y).length := by
    rw [List.length_append, List.length_append]
    omega
  rw [append_eq_append_iff_of_length_le (length_dec_le_decPad w n) hrest,
    List.append_cancel_left_eq, eq_comm, decPad_eq_dec_iff w n hw]

@[simp] theorem scanDec_dec2 (n : Nat) : scanDec (dec2 n) = some n := by
  rw [dec2_eq_decPad, scanDec_decPad]

end Growbox.Decimal
