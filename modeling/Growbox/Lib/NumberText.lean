import Growbox.Lib.Double
import Growbox.Lib.JsonText
import Mathlib.Data.List.DropRight

/-!
# Doubles as text: `%g` and `strtod`

`printG p x` is what `%.pg` prints of a finite double, as a number of the grammar; `strtod` reads
the longest beginning of a text that is a number and rounds it.  A number of the grammar is read
as a whole (`scan_text`), and what `%.17g` prints of a double is that double again
(`strtod_printG`).
-/

namespace Growbox.NumberText

open JsonText Double Decimal

/-! ## Reading -/

/-- A sign; `+` is read, though not of the grammar. -/
def scanSign : List Char → Bool × List Char
  | '-' :: s => (true, s)
  | '+' :: s => (false, s)
  | s => (false, s)

def scanFraction : List Char → List Char × List Char
  | '.' :: s => (s.takeWhile Char.isDigit, s.dropWhile Char.isDigit)
  | s => ([], s)

def scanExponentSign : List Char → List Char × List Char
  | '+' :: s => (['+'], s)
  | '-' :: s => (['-'], s)
  | s => ([], s)

/-- An exponent without digits is not read. -/
def scanExponent : List Char → Option Exponent × List Char
  | [] => (none, [])
  | c :: s =>
    if c = 'e' ∨ c = 'E' then
      match (scanExponentSign s).2.takeWhile Char.isDigit with
      | [] => (none, c :: s)
      | ds => (some ⟨c, (scanExponentSign s).1, ds⟩, (scanExponentSign s).2.dropWhile Char.isDigit)
    else (none, c :: s)

/-- The longest beginning that is a number, and what is behind it. -/
def scan (s : List Char) : Option (Numeral × List Char) :=
  let (minus, s₁) := scanSign s
  let whole := s₁.takeWhile Char.isDigit
  let (fraction, s₂) := scanFraction (s₁.dropWhile Char.isDigit)
  let (exponent, s₃) := scanExponent s₂
  if whole = [] ∧ fraction = [] then none else some (⟨minus, whole, fraction, exponent⟩, s₃)

/-- `strtod` of a decimal number: the double, and the text behind it. -/
def strtod (s : List Char) : Option (Rat × List Char) :=
  (scan s).map fun r => (nearest r.1.value, r.2)

/-- Something of a text is read, or nothing of it is a number. -/
theorem scan_suffix {s r : List Char} {n : Numeral} (h : scan s = some (n, r)) : r <:+ s ∧ r.length < s.length := by
  have hsign : (scanSign s).2 <:+ s := by
    unfold scanSign
    split
    · exact List.suffix_cons _ _
    · exact List.suffix_cons _ _
    · exact List.suffix_rfl
  have hexponentSign : ∀ t, (scanExponentSign t).2 <:+ t := by
    intro t
    unfold scanExponentSign
    split
    · exact List.suffix_cons _ _
    · exact List.suffix_cons _ _
    · exact List.suffix_rfl
  have hexponent : ∀ t, (scanExponent t).2 <:+ t := by
    intro t
    unfold scanExponent
    split
    · exact List.suffix_rfl
    · split_ifs
      · split
        · exact List.suffix_rfl
        · exact ((List.dropWhile_suffix _).trans (hexponentSign _)).trans (List.suffix_cons _ _)
      · exact List.suffix_rfl
  have hfraction : ∀ t, (scanFraction t).2 <:+ t ∧ ((scanFraction t).1 ≠ [] → (scanFraction t).2.length < t.length) := by
    intro t
    unfold scanFraction
    split
    · next t =>
      refine ⟨(List.dropWhile_suffix _).trans (List.suffix_cons _ _), fun _ => ?_⟩
      have := (List.dropWhile_suffix Char.isDigit (l := t)).length_le
      exact Nat.lt_succ_of_le this
    · exact ⟨List.suffix_rfl, fun hne => absurd rfl hne⟩
  unfold scan at h
  dsimp only at h
  split_ifs at h with hnone
  cases h
  have hdigits := List.dropWhile_suffix Char.isDigit (l := (scanSign s).2)
  have hrest := (hexponent _).trans (hfraction ((scanSign s).2.dropWhile Char.isDigit)).1
  refine ⟨(hrest.trans hdigits).trans hsign, ?_⟩
  have hlen := (hexponent (scanFraction ((scanSign s).2.dropWhile Char.isDigit)).2).length_le
  have hlen' := hsign.length_le
  rcases not_and_or.mp hnone with hwhole | hfrac
  · have hsplit := congrArg List.length
      (List.takeWhile_append_dropWhile (p := Char.isDigit) (l := (scanSign s).2))
    rw [List.length_append] at hsplit
    have hpos := List.length_pos_of_ne_nil hwhole
    have hfl := (hfraction ((scanSign s).2.dropWhile Char.isDigit)).1.length_le
    omega
  · have hfl := (hfraction ((scanSign s).2.dropWhile Char.isDigit)).2 hfrac
    have hdl := hdigits.length_le
    omega

/-! ## Printing -/

/-- The zeros at the end of a fraction are not printed. -/
def stripZeros (s : List Char) : List Char := s.rdropWhile (· = '0')

/-- All the digits of `p` digits: with an exponent below `-4` and from `p` on. -/
def spread (p : Nat) (x : Rat) : Numeral :=
  let ds := dec (decimal p x).1.toNat
  let k := (decimal p x).2
  if k < -4 ∨ p ≤ k then
    ⟨decide (x < 0), ds.take 1, ds.drop 1, some ⟨'e', if k < 0 then ['-'] else ['+'], dec2 k.natAbs⟩⟩
  else if k < 0 then ⟨decide (x < 0), ['0'], List.replicate (-k - 1).toNat '0' ++ ds, none⟩
  else ⟨decide (x < 0), ds.take (k.toNat + 1), ds.drop (k.toNat + 1), none⟩

/-- `%.pg` -/
def printG (p : Nat) (x : Rat) : Numeral :=
  if x = 0 then .ofNat 0 else { spread p x with fraction := stripZeros (spread p x).fraction }

/-! ## Values -/

theorem value_eq (n : Numeral) :
    n.value = (if n.minus then -1 else 1) * (Nat.ofDigitChars 10 (n.whole ++ n.fraction) 0 : Rat) *
      10 ^ n.shift := by
  have hsign : (((if n.minus then -1 else 1) : Int) : Rat) = if n.minus then -1 else 1 := by
    split_ifs <;> norm_num
  unfold Numeral.value
  dsimp only
  by_cases hshift : 0 ≤ n.shift
  · rw [if_pos hshift]
    push_cast
    rw [← zpow_natCast, Int.toNat_of_nonneg hshift]
  · rw [if_neg hshift]
    push_cast
    rw [← zpow_natCast, Int.toNat_of_nonneg (by omega), zpow_neg, div_inv_eq_mul]

theorem exists_stripZeros (s : List Char) : ∃ j, s = stripZeros s ++ List.replicate j '0' := by
  refine ⟨(s.rtakeWhile (· = '0')).length, ?_⟩
  have hzeros : s.rtakeWhile (· = '0') = List.replicate (s.rtakeWhile (· = '0')).length '0' :=
    List.eq_replicate_of_mem fun c hc => by simpa using List.mem_rtakeWhile_imp hc
  rw [← hzeros, stripZeros, List.rdropWhile_append_rtakeWhile]

/-- The zeros at the end of a fraction count for nothing. -/
theorem value_stripZeros (n : Numeral) : { n with fraction := stripZeros n.fraction }.value = n.value := by
  obtain ⟨j, hj⟩ := exists_stripZeros n.fraction
  rw [value_eq, value_eq]
  have hdigits : Nat.ofDigitChars 10 (n.whole ++ n.fraction) 0 =
      Nat.ofDigitChars 10 (n.whole ++ stripZeros n.fraction) 0 * 10 ^ j := by
    conv_lhs => rw [hj, ← List.append_assoc]
    rw [Nat.ofDigitChars_append, Nat.ofDigitChars_replicate_zero, Nat.mul_comm]
  have hshift : { n with fraction := stripZeros n.fraction }.shift = n.shift + j := by
    have hlen := congrArg List.length hj
    rw [List.length_append, List.length_replicate] at hlen
    simp only [Numeral.shift]
    omega
  rw [hdigits, hshift, zpow_add₀ (by norm_num), zpow_natCast]
  push_cast
  ring

theorem toNat_decimal_bounds {p : Nat} (hp : 0 < p) {x : Rat} (hx : x ≠ 0) :
    10 ^ (p - 1) ≤ (decimal p x).1.toNat ∧ (decimal p x).1.toNat < 10 ^ p := by
  obtain ⟨hlow, hhigh⟩ := decimal_bounds hp hx
  constructor
  · zify
    rw [Int.toNat_of_nonneg (le_trans (by positivity) hlow)]
    exact_mod_cast hlow
  · zify
    rw [Int.toNat_of_nonneg (le_trans (by positivity) hlow)]
    exact_mod_cast hhigh

/-- `p` digits are printed with `p` characters. -/
theorem length_digits {p : Nat} (hp : 0 < p) {x : Rat} (hx : x ≠ 0) :
    (dec (decimal p x).1.toNat).length = p := by
  obtain ⟨hlow, hhigh⟩ := toNat_decimal_bounds hp hx
  apply le_antisymm ((length_dec_le_iff _ p hp).mpr hhigh)
  rcases Nat.lt_or_ge 1 p with h | h
  · have := mt (length_dec_le_iff (decimal p x).1.toNat (p - 1) (by omega)).mp (not_lt.mpr hlow)
    omega
  · have := length_dec_pos (decimal p x).1.toNat
    omega

theorem ofDigitChars_dec (n : Nat) : Nat.ofDigitChars 10 (dec n) 0 = n := Nat.ofDigitChars_ten_toDigits

theorem spread_minus (p : Nat) (x : Rat) : (spread p x).minus = decide (x < 0) := by
  unfold spread
  dsimp only
  split_ifs <;> rfl

theorem spread_digits (p : Nat) (x : Rat) :
    Nat.ofDigitChars 10 ((spread p x).whole ++ (spread p x).fraction) 0 = (decimal p x).1.toNat := by
  unfold spread
  dsimp only
  split_ifs
  · rw [List.take_append_drop, ofDigitChars_dec]
  · rw [List.take_append_drop, ofDigitChars_dec]
  · rw [← List.append_assoc, ← List.replicate_one, ← List.replicate_add, Nat.ofDigitChars_append,
      Nat.ofDigitChars_replicate_zero, Nat.mul_zero, ofDigitChars_dec]
  · rw [List.take_append_drop, ofDigitChars_dec]

theorem ofDigitChars_dec2 (n : Nat) : Nat.ofDigitChars 10 (dec2 n) 0 = n := by
  rw [dec2_eq_decPad, ofDigitChars_decPad]

theorem spread_shift {p : Nat} (hp : 0 < p) {x : Rat} (hx : x ≠ 0) :
    (spread p x).shift = (decimal p x).2 - p + 1 := by
  have hlen := length_digits hp hx
  unfold spread Numeral.shift
  dsimp only
  generalize (decimal p x).2 = k
  split_ifs with hexp hneg hneg
  all_goals
    simp only [ofDigitChars_dec2, List.length_drop, List.length_append, List.length_replicate, hlen,
      reduceIte, List.cons.injEq, Char.reduceEq, false_and]
    omega

/-- The digits spread out are the digits. -/
theorem spread_value {p : Nat} (hp : 0 < p) {x : Rat} (hx : x ≠ 0) :
    (spread p x).value = decimalValue p x := by
  have hn : (((decimal p x).1.toNat : Nat) : Rat) = (decimal p x).1 := by
    have := (decimal_bounds hp hx).1
    exact_mod_cast Int.toNat_of_nonneg (le_trans (by positivity) this)
  have hsign : (if decide (x < 0) = true then -1 else 1 : Rat) = if x < 0 then -1 else 1 := by
    simp only [decide_eq_true_eq]
  rw [value_eq, spread_minus, spread_digits, spread_shift hp hx, decimalValue, hn, hsign]

theorem printG_value {p : Nat} (hp : 0 < p) {x : Rat} (hx : x ≠ 0) :
    (printG p x).value = decimalValue p x := by
  rw [printG, if_neg hx, value_stripZeros, spread_value hp hx]

/-! ## What is printed is a number of the grammar -/

theorem isDigit_of_mem_replicate {j : Nat} {c : Char} (h : c ∈ List.replicate j '0') : c.isDigit = true := by
  rw [List.eq_of_mem_replicate h]
  rfl

theorem digits_head_ne_zero {p : Nat} (hp : 0 < p) {x : Rat} (hx : x ≠ 0) :
    (dec (decimal p x).1.toNat).head? ≠ some '0' := by
  intro h
  have hzero := ofDigitChars_dec (decimal p x).1.toNat
  rw [dec_head_zero _ h] at hzero
  have hlow := (toNat_decimal_bounds hp hx).1
  rw [← hzero] at hlow
  exact absurd hlow (not_le.mpr (pow_pos (by norm_num : 0 < 10) (p - 1)))

theorem head?_take_succ {α : Type} (l : List α) (n : Nat) : (l.take (n + 1)).head? = l.head? := by
  cases l <;> rfl

theorem exponent_valid (k : Int) : Exponent.Valid ⟨'e', if k < 0 then ['-'] else ['+'], dec2 k.natAbs⟩ where
  mark := by simp
  sign := by
    dsimp only
    split_ifs <;> simp
  ne_nil := by
    rw [dec2_eq_decPad]
    simp [decPad, dec_ne_nil]
  digits := fun c hc => isDigit_of_mem_decPad 2 _ c (dec2_eq_decPad _ ▸ hc)

/-- Digits that do not begin with 0, cut after some of them. -/
theorem valid_of_split {ds : List Char} (hne : ds ≠ []) (hdigits : ∀ c ∈ ds, c.isDigit = true)
    (hhead : ds.head? ≠ some '0') (minus : Bool) (j : Nat) {e : Option Exponent}
    (he : ∀ e', e = some e' → e'.Valid) :
    Numeral.Valid ⟨minus, ds.take (j + 1), ds.drop (j + 1), e⟩ where
  ne_nil := by simpa using hne
  whole := fun c hc => hdigits c (List.mem_of_mem_take hc)
  zero := fun h => absurd ((head?_take_succ _ _).symm.trans h) hhead
  fraction := fun c hc => hdigits c (List.mem_of_mem_drop hc)
  exponent := he

theorem spread_valid {p : Nat} (hp : 0 < p) {x : Rat} (hx : x ≠ 0) : (spread p x).Valid := by
  have hdigits := isDigit_of_mem_dec (decimal p x).1.toNat
  have hhead := digits_head_ne_zero hp hx
  have hne := dec_ne_nil (decimal p x).1.toNat
  unfold spread
  dsimp only
  split_ifs with hexp hneg hneg
  · exact valid_of_split hne hdigits hhead _ 0 fun e he => by
      cases he
      rw [← if_pos hneg (t := ['-']) (e := ['+'])]
      exact exponent_valid _
  · exact valid_of_split hne hdigits hhead _ 0 fun e he => by
      cases he
      rw [← if_neg hneg (t := ['-']) (e := ['+'])]
      exact exponent_valid _
  · refine ⟨by simp, by simp, fun _ => rfl, fun c hc => ?_, fun e he => by cases he⟩
    rcases List.mem_append.mp hc with hc | hc
    · exact isDigit_of_mem_replicate hc
    · exact hdigits c hc
  · exact valid_of_split hne hdigits hhead _ _ fun e he => by cases he

theorem mem_of_mem_stripZeros {s : List Char} {c : Char} (h : c ∈ stripZeros s) : c ∈ s :=
  (List.rdropWhile_prefix (fun c : Char => decide (c = '0')) s).subset h

theorem printG_valid {p : Nat} (hp : 0 < p) (x : Rat) : (printG p x).Valid := by
  unfold printG
  split_ifs with hx
  · exact Numeral.ofNat_valid 0
  · have h := spread_valid hp hx
    exact ⟨h.ne_nil, h.whole, h.zero, fun c hc => h.fraction c (mem_of_mem_stripZeros hc), h.exponent⟩

/-! ## What is read of a number of the grammar -/

/-- No more of a number can follow. -/
def Stops (r : List Char) : Prop := ∀ c ∈ r.head?, ¬ Numeral.IsNumeralChar c

theorem stops_nil : Stops [] := by
  intro c hc
  cases hc

theorem takeWhile_digits {ds r : List Char} (hds : ∀ c ∈ ds, c.isDigit = true)
    (hr : ∀ c ∈ r.head?, c.isDigit = false) :
    (ds ++ r).takeWhile Char.isDigit = ds ∧ (ds ++ r).dropWhile Char.isDigit = r := by
  rw [List.takeWhile_append_of_pos hds, List.dropWhile_append_of_pos hds]
  cases r with
  | nil => simp
  | cons c r =>
    have := hr c rfl
    simp [this]

theorem Stops.isDigit {r : List Char} (h : Stops r) : ∀ c ∈ r.head?, c.isDigit = false := by
  intro c hc
  have := h c hc
  simp only [Numeral.IsNumeralChar, not_or] at this
  simpa using this.1

theorem scanSign_text (minus : Bool) {s : List Char} (hs : ∀ c ∈ s.head?, c.isDigit = true) :
    scanSign ((if minus then ['-'] else []) ++ s) = (minus, s) := by
  cases minus with
  | true => rfl
  | false =>
    cases s with
    | nil => rfl
    | cons c s =>
      have hc := hs c rfl
      have hminus : c ≠ '-' := by
        rintro rfl
        exact absurd hc (by decide)
      have hplus : c ≠ '+' := by
        rintro rfl
        exact absurd hc (by decide)
      simp [scanSign, hminus, hplus]

theorem scanFraction_text {f s : List Char} (hf : ∀ c ∈ f, c.isDigit = true)
    (hs : ∀ c ∈ s.head?, c.isDigit = false ∧ c ≠ '.') :
    scanFraction ((if f = [] then [] else '.' :: f) ++ s) = (f, s) := by
  split_ifs with hnil
  · subst hnil
    cases s with
    | nil => rfl
    | cons c s =>
      have hdot := (hs c rfl).2
      simp [scanFraction, hdot]
  · obtain ⟨htake, hdrop⟩ := takeWhile_digits hf fun c hc => (hs c hc).1
    rw [List.cons_append]
    simp only [scanFraction, htake, hdrop]

theorem scanExponent_none {r : List Char} (hr : Stops r) : scanExponent r = (none, r) := by
  cases r with
  | nil => rfl
  | cons c r =>
    have hmark : ¬ (c = 'e' ∨ c = 'E') := by
      intro h
      apply hr c rfl
      right
      rcases h with rfl | rfl <;> decide
    simp only [scanExponent, if_neg hmark]

theorem scanExponentSign_text {sign s : List Char} (h : sign ∈ [[], ['+'], ['-']])
    (hs : ∀ c ∈ s.head?, c.isDigit = true) : scanExponentSign (sign ++ s) = (sign, s) := by
  simp only [List.mem_cons, List.not_mem_nil, or_false] at h
  rcases h with rfl | rfl | rfl
  · cases s with
    | nil => rfl
    | cons c s =>
      have hc := hs c rfl
      have hminus : c ≠ '-' := by
        rintro rfl
        exact absurd hc (by decide)
      have hplus : c ≠ '+' := by
        rintro rfl
        exact absurd hc (by decide)
      simp [scanExponentSign, hminus, hplus]
  · rfl
  · rfl

theorem head?_isDigit {ds s : List Char} (hne : ds ≠ []) (hds : ∀ c ∈ ds, c.isDigit = true) :
    ∀ c ∈ (ds ++ s).head?, c.isDigit = true := by
  obtain ⟨d, ds, rfl⟩ := List.exists_cons_of_ne_nil hne
  intro c hc
  cases hc
  exact hds d List.mem_cons_self

theorem scanExponent_text {e : Exponent} (h : e.Valid) {r : List Char} (hr : Stops r) :
    scanExponent (e.mark :: (e.sign ++ e.digits) ++ r) = (some e, r) := by
  obtain ⟨hmark, hsign, hne, hdigits⟩ := h
  obtain ⟨mark, sign, digits⟩ := e
  dsimp only at hmark hsign hne hdigits ⊢
  have hmark' : mark = 'e' ∨ mark = 'E' := by simpa using hmark
  obtain ⟨htake, hdrop⟩ := takeWhile_digits hdigits hr.isDigit
  rw [List.cons_append, scanExponent, if_pos hmark', List.append_assoc,
    scanExponentSign_text hsign (head?_isDigit hne hdigits), htake, hdrop]
  cases digits with
  | nil => exact absurd rfl hne
  | cons d ds => rfl

def exponentText : Option Exponent → List Char
  | none => []
  | some e => e.mark :: (e.sign ++ e.digits)

theorem text_eq (n : Numeral) : n.text = (if n.minus then ['-'] else []) ++ (n.whole ++
    ((if n.fraction = [] then [] else '.' :: n.fraction) ++ exponentText n.exponent)) := by
  unfold Numeral.text
  rw [List.append_assoc, List.append_assoc]
  cases n.exponent <;> rfl

/-- What stands behind the digits of a fraction. -/
theorem exponentText_head {o : Option Exponent} (h : ∀ e, o = some e → e.Valid) {r : List Char}
    (hr : Stops r) : ∀ c ∈ (exponentText o ++ r).head?, c.isDigit = false ∧ c ≠ '.' := by
  intro c hc
  cases o with
  | none =>
    refine ⟨hr.isDigit c hc, ?_⟩
    rintro rfl
    exact hr _ hc (.inr (by decide))
  | some e =>
    cases hc
    have hmark := (h e rfl).mark
    simp only [List.mem_cons, List.not_mem_nil, or_false] at hmark
    rcases hmark with hmark | hmark <;> rw [hmark] <;> decide

theorem scanExponent_exponentText {o : Option Exponent} (h : ∀ e, o = some e → e.Valid) {r : List Char}
    (hr : Stops r) : scanExponent (exponentText o ++ r) = (o, r) := by
  cases o with
  | none => exact scanExponent_none hr
  | some e => exact scanExponent_text (h e rfl) hr

/-- **A number of the grammar** is read as a whole. -/
theorem scan_text {n : Numeral} (h : n.Valid) {r : List Char} (hr : Stops r) :
    scan (n.text ++ r) = some (n, r) := by
  have hbehind := exponentText_head h.exponent hr
  have hfraction : ∀ c ∈ ((if n.fraction = [] then [] else '.' :: n.fraction) ++
      (exponentText n.exponent ++ r)).head?, c.isDigit = false := by
    split_ifs
    · exact fun c hc => (hbehind c hc).1
    · intro c hc
      cases hc
      decide
  obtain ⟨htake, hdrop⟩ := takeWhile_digits h.whole hfraction
  unfold scan
  rw [text_eq, List.append_assoc, List.append_assoc, List.append_assoc,
    scanSign_text _ (head?_isDigit h.ne_nil h.whole)]
  dsimp only
  rw [htake, hdrop, scanFraction_text h.fraction hbehind]
  dsimp only
  rw [scanExponent_exponentText h.exponent hr, if_neg (fun hnil => h.ne_nil hnil.1)]

theorem strtod_text {n : Numeral} (h : n.Valid) {r : List Char} (hr : Stops r) :
    strtod (n.text ++ r) = some (nearest n.value, r) := by
  rw [strtod, scan_text h hr, Option.map_some]

/-- **What `%.17g` prints** of a double is read as that double. -/
theorem strtod_printG {d : Rat} (h : IsDouble d) {r : List Char} (hr : Stops r) :
    strtod ((printG 17 d).text ++ r) = some (d, r) := by
  rw [strtod_text (printG_valid (by norm_num) d) hr]
  rcases eq_or_ne d 0 with rfl | hne
  · have hvalue : (printG 17 0).value = 0 := by
      rw [printG, if_pos rfl, Numeral.ofNat_value]
      rfl
    rw [hvalue, isDouble_zero.nearest_eq]
  · rw [printG_value (by norm_num) hne, nearest_decimal h hne]

/-! ## The length of what is printed -/

theorem length_text_le (n : Numeral) :
    n.text.length ≤ n.whole.length + n.fraction.length + (exponentText n.exponent).length + 2 := by
  rw [text_eq]
  simp only [List.length_append]
  have hminus : (if n.minus then ['-'] else []).length ≤ 1 := by split_ifs <;> simp
  have hfraction : (if n.fraction = [] then [] else '.' :: n.fraction).length ≤ n.fraction.length + 1 := by
    split_ifs <;> simp
  omega

theorem length_stripZeros_le (s : List Char) : (stripZeros s).length ≤ s.length :=
  (List.rdropWhile_prefix (fun c : Char => decide (c = '0')) s).length_le

/-- The power of ten of a double's first digit has at most three digits. -/
theorem natAbs_decimal_lt (p : Nat) {d : Rat} (h : IsDouble d) (hd : d ≠ 0) : (decimal p d).2.natAbs < 1000 := by
  have hpos : 0 < |d| := abs_pos.mpr hd
  have hhigh : |d| < ((10 : Nat) : Rat) ^ (998 : Int) := h.abs_lt_huge.trans_le (by
    have hpow : 2 ^ 1024 ≤ 10 ^ 998 := by decide +kernel
    rw [huge, show (998 : Int) = (998 : Nat) from rfl, zpow_natCast]
    exact_mod_cast hpow)
  have hlow : ((10 : Nat) : Rat) ^ (-999 : Int) ≤ |d| := by
    obtain ⟨m, hm⟩ := h.exists_units (lastBit_ge d)
    have hone : (1 : Rat) ≤ |(m : Rat)| := by
      have hne : m ≠ 0 := by
        rintro rfl
        exact hd (by rw [hm, Int.cast_zero, zero_mul])
      exact_mod_cast Int.one_le_abs hne
    calc ((10 : Nat) : Rat) ^ (-999 : Int) ≤ 1 * 2 ^ (-1074 : Int) := by
          rw [show (-999 : Int) = -(999 : Nat) from rfl, show (-1074 : Int) = -(1074 : Nat) from rfl,
            zpow_neg, zpow_neg, zpow_natCast, zpow_natCast, one_mul]
          have hpow : 2 ^ 1074 ≤ 10 ^ 999 := by decide +kernel
          exact inv_anti₀ (by positivity) (by exact_mod_cast hpow)
      _ ≤ |(m : Rat)| * 2 ^ (-1074 : Int) := mul_le_mul_of_nonneg_right hone (zpow_pos' _).le
      _ = |d| := by rw [hm, abs_mul, abs_of_pos (zpow_pos' _)]
  have hlog := (Int.lt_zpow_iff_log_lt (by norm_num) hpos).mp hhigh
  have hlog' := (Int.zpow_le_iff_le_log (by norm_num) hpos).mp hlow
  unfold decimal
  dsimp only
  split_ifs <;> dsimp only <;> omega

/-- A double takes at most seven characters more than its digits. -/
theorem length_printG_le {p : Nat} (hp : 0 < p) {d : Rat} (h : IsDouble d) : (printG p d).text.length ≤ p + 7 := by
  unfold printG
  split_ifs with hd
  · rw [Numeral.ofNat_text]
    have : (dec 0).length = 1 := rfl
    omega
  · have hlen := length_digits hp hd
    have hexp := (length_dec2_le_iff (decimal p d).2.natAbs 3 (by norm_num)).mpr (natAbs_decimal_lt p h hd)
    refine (length_text_le _).trans ?_
    dsimp only
    have hstrip := length_stripZeros_le (spread p d).fraction
    have hspread : (spread p d).whole.length + (spread p d).fraction.length +
        (exponentText (spread p d).exponent).length ≤ p + 5 := by
      unfold spread
      dsimp only
      split_ifs
      all_goals
        simp only [exponentText, List.length_take, List.length_drop, List.length_cons, List.length_nil,
          List.length_append, List.length_replicate, hlen]
        omega
    omega

end Growbox.NumberText
