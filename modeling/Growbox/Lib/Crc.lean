import Mathlib

/-!
# Cyclic redundancy checks

A register is shifted to the left, and `poly` is added to it when a 1 falls out.  Read as a
polynomial over two elements, a shift multiplies the register by `X` modulo the generator
`X ^ w + poly` (`step_modEq`), so the check of a block is the remainder of the block, with the
first register added to its first word (`toPoly_crc`).

Blocks that differ within `w` bits in a row only have different checks, if the last bit of `poly`
is 1 (`crc_ne_of_burst`).
-/

namespace Growbox.Crc

open Polynomial

section
variable {w : Nat}

/-- The next register. -/
def step (poly r : BitVec w) : BitVec w := if r.msb then (r <<< 1) ^^^ poly else r <<< 1

/-- A word is added to the register, which is then shifted as often as it is long. -/
def word (poly r b : BitVec w) : BitVec w := Nat.repeat (step poly) w (r ^^^ b)

def crc (poly init : BitVec w) (block : List (BitVec w)) : BitVec w := block.foldl (word poly) init

/-! ## As polynomials -/

def bit (b : Bool) : ZMod 2 := if b then 1 else 0

/-- The bits are the coefficients. -/
noncomputable def toPoly (r : BitVec w) : (ZMod 2)[X] :=
  ∑ i ∈ Finset.range w, C (bit (r.getLsbD i)) * X ^ i

noncomputable def generator (poly : BitVec w) : (ZMod 2)[X] := X ^ w + toPoly poly

/-- The block after the first register, and a word of zeros. -/
noncomputable def message (init : BitVec w) (block : List (BitVec w)) : (ZMod 2)[X] :=
  block.foldl (fun m b => (m + toPoly b) * X ^ w) (toPoly init)

theorem bit_xor (a b : Bool) : bit (a ^^ b) = bit a + bit b := by
  revert a b
  decide

theorem bit_inj {a b : Bool} : bit a = bit b ↔ a = b := by
  revert a b
  decide

theorem coeff_toPoly (r : BitVec w) (i : Nat) : (toPoly r).coeff i = bit (r.getLsbD i) := by
  rw [toPoly, finsetSum_coeff]
  simp only [coeff_C_mul, coeff_X_pow, mul_ite, mul_one, mul_zero]
  rw [Finset.sum_ite_eq (Finset.range w) i]
  split
  · rfl
  · next h =>
    rw [BitVec.getLsbD_of_ge r i (by simpa using h)]
    rfl

theorem toPoly_inj {r s : BitVec w} : toPoly r = toPoly s ↔ r = s := by
  constructor
  · intro h
    refine BitVec.eq_of_getLsbD_eq fun i _ => ?_
    rw [← bit_inj, ← coeff_toPoly, ← coeff_toPoly, h]
  · exact congrArg toPoly

theorem degree_toPoly_lt (r : BitVec w) : (toPoly r).degree < w := by
  rw [degree_lt_iff_coeff_zero]
  intro i hi
  rw [coeff_toPoly, BitVec.getLsbD_of_ge r i hi]
  rfl

theorem toPoly_xor (r s : BitVec w) : toPoly (r ^^^ s) = toPoly r + toPoly s := by
  ext i
  rw [coeff_add, coeff_toPoly, coeff_toPoly, coeff_toPoly, BitVec.getLsbD_xor, bit_xor]

theorem monic_generator (poly : BitVec w) : (generator poly).Monic := monic_X_pow_add (degree_toPoly_lt poly)

theorem degree_generator (poly : BitVec w) : (generator poly).degree = w := by
  rw [generator, degree_add_eq_left_of_degree_lt, degree_X_pow]
  rw [degree_X_pow]
  exact degree_toPoly_lt poly

/-! ## The remainder -/

/-- A shift to the left multiplies by `X`, up to the bit that falls out. -/
theorem toPoly_shiftLeft (r : BitVec w) : X * toPoly r = toPoly (r <<< 1) + C (bit r.msb) * X ^ w := by
  ext i
  rw [coeff_add, coeff_C_mul_X_pow, coeff_toPoly, BitVec.getLsbD_shiftLeft]
  cases i with
  | zero =>
    rw [coeff_X_mul_zero]
    cases w with
    | zero => rw [if_pos rfl, BitVec.of_length_zero (x := r)]; rfl
    | succ w => rw [if_neg (Nat.succ_ne_zero w).symm]; simp [bit]
  | succ i =>
    rw [coeff_X_mul, coeff_toPoly, Nat.add_sub_cancel]
    rcases Nat.lt_trichotomy (i + 1) w with hlt | heq | hgt
    · rw [if_neg (Nat.ne_of_lt hlt)]
      simp [hlt]
    · subst heq
      rw [if_pos rfl, BitVec.msb_eq_getLsbD_last, Nat.add_sub_cancel]
      simp [bit]
    · rw [if_neg (Nat.ne_of_gt hgt), BitVec.getLsbD_of_ge r i (by omega)]
      simp [bit]

/-- **A step multiplies by `X`** modulo the generator. -/
theorem step_modEq (poly r : BitVec w) : generator poly ∣ X * toPoly r - toPoly (step poly r) := by
  rw [toPoly_shiftLeft, step]
  cases r.msb with
  | false => simp [bit]
  | true =>
    have hone : C (bit true) = (1 : (ZMod 2)[X]) := C_1
    rw [if_pos rfl, toPoly_xor, hone, one_mul, add_sub_add_left_eq_sub, CharTwo.sub_eq_add]
    exact dvd_refl _

theorem repeat_modEq (poly r : BitVec w) (n : Nat) :
    generator poly ∣ X ^ n * toPoly r - toPoly (Nat.repeat (step poly) n r) := by
  induction n with
  | zero => simp [Nat.repeat]
  | succ n ih =>
    have hstep := step_modEq poly (Nat.repeat (step poly) n r)
    have hsum := dvd_add (Dvd.dvd.mul_left ih X) hstep
    have heq : X * (X ^ n * toPoly r - toPoly (Nat.repeat (step poly) n r)) +
        (X * toPoly (Nat.repeat (step poly) n r) -
          toPoly (step poly (Nat.repeat (step poly) n r))) =
        X ^ (n + 1) * toPoly r - toPoly (Nat.repeat (step poly) (n + 1) r) := by
      show _ = X ^ (n + 1) * toPoly r - toPoly (step poly (Nat.repeat (step poly) n r))
      ring
    rwa [heq] at hsum

theorem crc_modEq (poly init : BitVec w) (block : List (BitVec w)) :
    generator poly ∣ message init block - toPoly (crc poly init block) := by
  suffices h : ∀ (m : (ZMod 2)[X]) (r : BitVec w), generator poly ∣ m - toPoly r →
      generator poly ∣ block.foldl (fun m b => (m + toPoly b) * X ^ w) m -
        toPoly (block.foldl (word poly) r) from
    h (toPoly init) init (by rw [sub_self]; exact dvd_zero _)
  induction block with
  | nil => exact fun m r h => h
  | cons b block ih =>
    intro m r h
    refine ih _ _ ?_
    have hword := repeat_modEq poly (r ^^^ b) w
    rw [toPoly_xor] at hword
    have hsum := dvd_add (Dvd.dvd.mul_right h (X ^ w)) hword
    have heq : (m - toPoly r) * X ^ w + (X ^ w * (toPoly r + toPoly b) -
        toPoly (Nat.repeat (step poly) w (r ^^^ b))) =
        (m + toPoly b) * X ^ w - toPoly (word poly r b) := by
      rw [word]
      ring
    rwa [heq] at hsum

/-- **The check is the remainder of the block.** -/
theorem toPoly_crc (poly init : BitVec w) (block : List (BitVec w)) :
    toPoly (crc poly init block) = message init block %ₘ generator poly := by
  have hdeg : (toPoly (crc poly init block)).degree < (generator poly).degree := by
    rw [degree_generator]
    exact degree_toPoly_lt _
  obtain ⟨q, hq⟩ := crc_modEq poly init block
  have hdiv : toPoly (crc poly init block) + generator poly * q = message init block := by
    rw [← hq, add_sub_cancel]
  exact (div_modByMonic_unique q _ (monic_generator poly) ⟨hdiv, hdeg⟩).2.symm

/-! ## Bursts -/

/-- The bits of a word, in the order they come. -/
def wordBits (b : BitVec w) : List Bool := (List.range w).map b.getMsbD

def bits (block : List (BitVec w)) : List Bool := block.flatMap wordBits

/-- The last bit is the coefficient of 1. -/
noncomputable def bitsPoly : List Bool → (ZMod 2)[X]
  | [] => 0
  | b :: l => C (bit b) * X ^ l.length + bitsPoly l

theorem bitsPoly_append (l l' : List Bool) :
    bitsPoly (l ++ l') = bitsPoly l * X ^ l'.length + bitsPoly l' := by
  induction l with
  | nil => simp [bitsPoly]
  | cons b l ih =>
    simp only [List.cons_append, bitsPoly, ih, List.length_append]
    ring

theorem coeff_bitsPoly (l : List Bool) (i : Nat) :
    (bitsPoly l).coeff i = bit (l.reverse.getD i false) := by
  induction l with
  | nil => simp [bitsPoly, bit]
  | cons b l ih =>
    rw [bitsPoly, coeff_add, coeff_C_mul_X_pow, ih, List.reverse_cons]
    rcases Nat.lt_trichotomy i l.length with h | h | h
    · simp [Nat.ne_of_lt h, List.getElem?_append_left, h]
    · subst h
      simp [bit]
    · have hout : (l.reverse ++ [b])[i]? = none := List.getElem?_eq_none (by simp; omega)
      have hin : l.reverse[i]? = none := List.getElem?_eq_none (by simp; omega)
      simp [Nat.ne_of_gt h, hout, hin, bit]

theorem degree_bitsPoly_lt (l : List Bool) : (bitsPoly l).degree < l.length := by
  rw [degree_lt_iff_coeff_zero]
  intro i hi
  rw [coeff_bitsPoly, List.getD_eq_default _ _ (by simpa using hi)]
  rfl

theorem bitsPoly_inj {l l' : List Bool} (hlen : l.length = l'.length) :
    bitsPoly l = bitsPoly l' ↔ l = l' := by
  constructor
  · intro h
    refine List.reverse_injective (List.ext_getElem (by simpa using hlen) fun i hi hi' => ?_)
    have hcoeff : (bitsPoly l).coeff i = (bitsPoly l').coeff i := by rw [h]
    rwa [coeff_bitsPoly, coeff_bitsPoly, bit_inj, List.getD_eq_getElem _ _ hi, List.getD_eq_getElem _ _ hi']
      at hcoeff
  · exact congrArg bitsPoly

theorem length_wordBits (b : BitVec w) : (wordBits b).length = w := by
  rw [wordBits, List.length_map, List.length_range]

theorem bitsPoly_wordBits (b : BitVec w) : bitsPoly (wordBits b) = toPoly b := by
  ext i
  rw [coeff_bitsPoly, coeff_toPoly, bit_inj]
  rcases Nat.lt_or_ge i w with h | h
  · rw [List.getD_eq_getElem _ _ (by rw [List.length_reverse, length_wordBits]; exact h),
      List.getElem_reverse]
    simp only [wordBits, List.length_map, List.length_range, List.getElem_map, List.getElem_range,
      BitVec.getMsbD_eq_getLsbD]
    have hlast : w - 1 - i < w := by omega
    simp [hlast, show w - 1 - (w - 1 - i) = i by omega]
  · rw [List.getD_eq_default _ _ (by rw [List.length_reverse, length_wordBits]; exact h),
      BitVec.getLsbD_of_ge b i h]

theorem wordBits_injective {a b : BitVec w} (h : wordBits a = wordBits b) : a = b := by
  rw [← toPoly_inj, ← bitsPoly_wordBits, ← bitsPoly_wordBits, h]

theorem bits_cons (b : BitVec w) (block : List (BitVec w)) :
    bits (b :: block) = wordBits b ++ bits block := rfl

theorem length_bits (block : List (BitVec w)) : (bits block).length = block.length * w := by
  induction block with
  | nil => simp [bits]
  | cons b block ih =>
    rw [bits_cons, List.length_append, length_wordBits, ih, List.length_cons, Nat.succ_mul, Nat.add_comm]

theorem bits_injective {a b : List (BitVec w)} (hlen : a.length = b.length) (h : bits a = bits b) :
    a = b := by
  induction a generalizing b with
  | nil => exact (List.length_eq_zero_iff.mp hlen.symm).symm
  | cons x a ih =>
    obtain ⟨y, b, rfl⟩ := List.exists_cons_of_length_eq_add_one hlen.symm
    obtain ⟨hword, hrest⟩ := List.append_inj h (by rw [length_wordBits, length_wordBits])
    rw [wordBits_injective hword, ih (Nat.succ.inj hlen) hrest]

/-- A block as a message: the first register, the bits, and a word of zeros. -/
theorem message_eq (init : BitVec w) (block : List (BitVec w)) :
    message init block = toPoly init * X ^ (block.length * w) + bitsPoly (bits block) * X ^ w := by
  suffices h : ∀ m : (ZMod 2)[X], block.foldl (fun m b => (m + toPoly b) * X ^ w) m =
      m * X ^ (block.length * w) + bitsPoly (bits block) * X ^ w from h (toPoly init)
  induction block with
  | nil => simp [bits, bitsPoly]
  | cons b block ih =>
    intro m
    rw [List.foldl_cons, ih, bits_cons, bitsPoly_append, bitsPoly_wordBits, length_bits, List.length_cons,
      Nat.succ_mul, pow_add]
    ring

/-- A check is the check of a block that it follows with nothing left over. -/
theorem crc_append_self (poly init : BitVec w) (block : List (BitVec w)) :
    crc poly init (block ++ [crc poly init block]) = 0#w := by
  have hzero : ∀ n, Nat.repeat (step poly) n 0#w = 0#w := by
    intro n
    induction n with
    | zero => rfl
    | succ n ih =>
      show step poly (Nat.repeat (step poly) n 0#w) = 0#w
      rw [ih]
      simp [step]
  rw [crc, List.foldl_append, List.foldl_cons, List.foldl_nil, ← crc, word, BitVec.xor_self, hzero]

/-- The generator has no factor `X` when its last coefficient is 1. -/
theorem isCoprime_generator {poly : BitVec w} (hpoly : poly.getLsbD 0 = true) (n : Nat) :
    IsCoprime (generator poly) (X ^ n) := by
  have hw : 0 ≠ w := by
    rintro rfl
    simp [BitVec.of_length_zero] at hpoly
  have hcoeff : (generator poly).coeff 0 = 1 := by
    rw [generator, coeff_add, coeff_X_pow, if_neg hw, coeff_toPoly, hpoly, zero_add]
    rfl
  have hX : ¬ (X : (ZMod 2)[X]) ∣ generator poly := by
    rw [X_dvd_iff, hcoeff]
    exact one_ne_zero
  exact ((prime_X.irreducible.coprime_iff_not_dvd.mpr hX).symm).pow_right

/-- What lists of bits that agree outside of `n` places differ by. -/
theorem bitsPoly_of_agree {l l' : List Bool} (hlen : l.length = l'.length) {p n : Nat}
    (hout : ∀ i, i < p ∨ p + n ≤ i → l[i]? = l'[i]?) :
    ∃ (e : (ZMod 2)[X]) (k : Nat), bitsPoly l = bitsPoly l' + e * X ^ k ∧ e.degree < n := by
  have hcut (l : List Bool) :
      bitsPoly l = bitsPoly (l.take p ++ ((l.drop p).take n ++ l.drop (p + n))) := by
    rw [← List.drop_drop, List.take_append_drop, List.take_append_drop]
  have hfront : l.take p = l'.take p := by
    refine List.ext_getElem? fun i => ?_
    rw [List.getElem?_take, List.getElem?_take]
    split
    · next hi => exact hout i (.inl hi)
    · rfl
  have hback : l.drop (p + n) = l'.drop (p + n) := by
    refine List.ext_getElem? fun i => ?_
    rw [List.getElem?_drop, List.getElem?_drop]
    exact hout _ (.inr (Nat.le_add_right ..))
  have hmid (l : List Bool) : (bitsPoly ((l.drop p).take n)).degree < n :=
    lt_of_lt_of_le (degree_bitsPoly_lt _) (by exact_mod_cast List.length_take_le n _)
  have hmidlen : ((l.drop p).take n).length = ((l'.drop p).take n).length := by
    rw [List.length_take, List.length_take, List.length_drop, List.length_drop, hlen]
  refine ⟨bitsPoly ((l.drop p).take n) - bitsPoly ((l'.drop p).take n), (l'.drop (p + n)).length, ?_,
    lt_of_le_of_lt (degree_sub_le _ _) (max_lt (hmid l) (hmid l'))⟩
  rw [hcut l, hcut l']
  simp only [bitsPoly_append, List.length_append, hfront, hback, hmidlen]
  ring

/-- **Bursts are detected**: blocks of one length that differ within `w` bits in a row only have
different checks. -/
theorem crc_ne_of_burst {poly : BitVec w} (hpoly : poly.getLsbD 0 = true) (init : BitVec w)
    {a b : List (BitVec w)} (hlen : a.length = b.length) (hne : a ≠ b) {p : Nat}
    (hout : ∀ i, i < p ∨ p + w ≤ i → (bits a)[i]? = (bits b)[i]?) :
    crc poly init a ≠ crc poly init b := by
  intro hcrc
  have hbits : (bits a).length = (bits b).length := by rw [length_bits, length_bits, hlen]
  obtain ⟨e, k, heq, hdeg⟩ := bitsPoly_of_agree hbits hout
  have hdvd : generator poly ∣ e * X ^ (k + w) := by
    have hsub := dvd_sub (crc_modEq poly init a) (crc_modEq poly init b)
    rw [hcrc, sub_sub_sub_cancel_right, message_eq, message_eq, hlen, heq] at hsub
    convert hsub using 1
    ring
  have hzero : e = 0 := eq_zero_of_dvd_of_degree_lt
    ((isCoprime_generator hpoly _).dvd_of_dvd_mul_right hdvd) (by rwa [degree_generator])
  rw [hzero, zero_mul, add_zero] at heq
  exact hne (bits_injective hlen ((bitsPoly_inj hbits).mp heq))

end

end Growbox.Crc
