import Growbox.Lib.Decimal
import Mathlib.Algebra.Group.Int.Defs

/-!
# JSON texts

The grammar as relations between a text and what is left of it: `Value s v r` says that a value
`v` stands at the front of `s` and `r` is behind it.  Strings keep their escapes, so a value
says how its text is written, up to whitespace and the way numbers are written.

An object of one member is a text (`isText_object`).  Where a quotation mark comes right after
the digits of a number there is no text (`not_isText_of_digits`).
-/

namespace Growbox.JsonText

open Decimal

/-- A character of a string as it is written. -/
inductive StrItem where
  | plain (c : Char)
  | escaped (c : Char)
  | unicode (digits : List Char)

inductive Json where
  | null
  | bool (b : Bool)
  | number (value : Rat)
  | string (s : List StrItem)
  | array (items : List Json)
  | object (members : List (List StrItem × Json))

/-! ## Whitespace, strings and numbers -/

inductive Ws : List Char → List Char → Prop
  | none (r : List Char) : Ws r r
  | skip {c : Char} {s r : List Char} : c ∈ [' ', '\t', '\n', '\r'] → Ws s r → Ws (c :: s) r

/-- Characters that stand for themselves in a string. -/
def IsPlain (c : Char) : Prop := 32 ≤ c.toNat ∧ c ≠ '"' ∧ c ≠ '\\'

instance : DecidablePred IsPlain := fun _ => inferInstanceAs (Decidable (_ ∧ _ ∧ _))

def IsHex (c : Char) : Prop := c.isDigit = true ∨ c ∈ "abcdefABCDEF".toList

/-- A string after its first quotation mark. -/
inductive Chars : List Char → List StrItem → List Char → Prop
  | close (r : List Char) : Chars ('"' :: r) [] r
  | plain {c : Char} {s r : List Char} {p : List StrItem} :
      IsPlain c → Chars s p r → Chars (c :: s) (.plain c :: p) r
  | escaped {c : Char} {s r : List Char} {p : List StrItem} :
      c ∈ "\"\\/bfnrt".toList → Chars s p r → Chars ('\\' :: c :: s) (.escaped c :: p) r
  | unicode {c₁ c₂ c₃ c₄ : Char} {s r : List Char} {p : List StrItem} :
      (∀ c ∈ [c₁, c₂, c₃, c₄], IsHex c) → Chars s p r →
        Chars ('\\' :: 'u' :: c₁ :: c₂ :: c₃ :: c₄ :: s) (.unicode [c₁, c₂, c₃, c₄] :: p) r

/-- `e`, a sign and digits. -/
structure Exponent where
  mark : Char
  sign : List Char
  digits : List Char

/-- A number as it is written; no digits of the fraction stand for no fraction. -/
structure Numeral where
  minus : Bool
  whole : List Char
  fraction : List Char
  exponent : Option Exponent

structure Exponent.Valid (e : Exponent) : Prop where
  mark : e.mark ∈ ['e', 'E']
  sign : e.sign ∈ [[], ['+'], ['-']]
  ne_nil : e.digits ≠ []
  digits : ∀ c ∈ e.digits, c.isDigit = true

namespace Numeral

/-- The digits are digits, and a whole part that begins with 0 is 0. -/
structure Valid (n : Numeral) : Prop where
  ne_nil : n.whole ≠ []
  whole : ∀ c ∈ n.whole, c.isDigit = true
  zero : n.whole.head? = some '0' → n.whole = ['0']
  fraction : ∀ c ∈ n.fraction, c.isDigit = true
  exponent : ∀ e, n.exponent = some e → e.Valid

def text (n : Numeral) : List Char :=
  (if n.minus then ['-'] else []) ++ n.whole ++ (if n.fraction = [] then [] else '.' :: n.fraction) ++
    match n.exponent with
    | none => []
    | some e => e.mark :: (e.sign ++ e.digits)

/-- The power of ten behind the digits. -/
def shift (n : Numeral) : Int :=
  (match n.exponent with
    | none => 0
    | some e => (if e.sign = ['-'] then -1 else 1) * (Nat.ofDigitChars 10 e.digits 0 : Int)) -
    n.fraction.length

def value (n : Numeral) : Rat :=
  let m : Int := (if n.minus then -1 else 1) * (Nat.ofDigitChars 10 (n.whole ++ n.fraction) 0 : Int)
  if 0 ≤ n.shift then ((m * 10 ^ n.shift.toNat : Int) : Rat)
  else (m : Rat) / ((10 ^ (-n.shift).toNat : Nat) : Rat)

end Numeral

/-! ## Values -/

mutual

inductive Value : List Char → Json → List Char → Prop
  | null (r : List Char) : Value ('n' :: 'u' :: 'l' :: 'l' :: r) .null r
  | true (r : List Char) : Value ('t' :: 'r' :: 'u' :: 'e' :: r) (.bool .true) r
  | false (r : List Char) : Value ('f' :: 'a' :: 'l' :: 's' :: 'e' :: r) (.bool .false) r
  | number {s r : List Char} (n : Numeral) : n.Valid → s = n.text ++ r → Value s (.number n.value) r
  | string {s r : List Char} {p : List StrItem} : Chars s p r → Value ('"' :: s) (.string p) r
  | noItems {s r : List Char} : Ws s (']' :: r) → Value ('[' :: s) (.array []) r
  | items {s t r : List Char} {vs : List Json} : Ws s t → Items t vs r → Value ('[' :: s) (.array vs) r
  | noMembers {s r : List Char} : Ws s ('}' :: r) → Value ('{' :: s) (.object []) r
  | members {s t r : List Char} {ms : List (List StrItem × Json)} :
      Ws s t → Members t ms r → Value ('{' :: s) (.object ms) r

/-- Items, up to the closing bracket. -/
inductive Items : List Char → List Json → List Char → Prop
  | last {s t r : List Char} {v : Json} : Value s v t → Ws t (']' :: r) → Items s [v] r
  | more {s t t' u r : List Char} {v : Json} {vs : List Json} :
      Value s v t → Ws t (',' :: t') → Ws t' u → Items u vs r → Items s (v :: vs) r

/-- A name and a value. -/
inductive Member : List Char → List StrItem × Json → List Char → Prop
  | mk {s t t' u r : List Char} {name : List StrItem} {v : Json} :
      Chars s name t → Ws t (':' :: t') → Ws t' u → Value u v r → Member ('"' :: s) (name, v) r

/-- Members, up to the closing brace. -/
inductive Members : List Char → List (List StrItem × Json) → List Char → Prop
  | last {s t r : List Char} {m : List StrItem × Json} : Member s m t → Ws t ('}' :: r) → Members s [m] r
  | more {s t t' u r : List Char} {m : List StrItem × Json} {ms : List (List StrItem × Json)} :
      Member s m t → Ws t (',' :: t') → Ws t' u → Members u ms r → Members s (m :: ms) r

end

/-- The whole text is the value. -/
def IsText (s : List Char) (v : Json) : Prop := ∃ t r, Ws s t ∧ Value t v r ∧ Ws r []

/-- The string that is written as it stands. -/
def plainStr (k : List Char) : List StrItem := k.map .plain

/-! ## Whitespace and strings -/

/-- Nothing is skipped before a character that is no whitespace. -/
theorem Ws.eq_of_not_mem {c : Char} {s r : List Char} (h : Ws (c :: s) r)
    (hc : c ∉ [' ', '\t', '\n', '\r']) : r = c :: s := by
  cases h with
  | none => rfl
  | skip hmem => exact absurd hmem hc

theorem isPlain_of_isDigit {c : Char} (h : c.isDigit = true) : IsPlain c := by
  refine ⟨?_, ?_, ?_⟩
  · exact Nat.le_trans (by decide) (Char.isDigit_iff_toNat.mp h).1
  · rintro rfl
    exact absurd h (by decide)
  · rintro rfl
    exact absurd h (by decide)

theorem isPlain_of_all {k : List Char} (h : k.all (fun c => decide (IsPlain c)) = true) :
    ∀ c ∈ k, IsPlain c := fun c hc => of_decide_eq_true (List.all_eq_true.mp h c hc)

theorem chars_plainStr {k : List Char} (hk : ∀ c ∈ k, IsPlain c) (r : List Char) :
    Chars (k ++ '"' :: r) (plainStr k) r := by
  induction k with
  | nil => exact .close r
  | cons c k ih =>
    rw [List.forall_mem_cons] at hk
    exact .plain hk.1 (ih hk.2)

/-- A string that is written as it stands ends at the first quotation mark. -/
theorem Chars.eq_plainStr {k r r' : List Char} {p : List StrItem} (hk : ∀ c ∈ k, IsPlain c)
    (h : Chars (k ++ '"' :: r) p r') : p = plainStr k ∧ r' = r := by
  induction k generalizing p with
  | nil =>
    cases h with
    | close => exact ⟨rfl, rfl⟩
    | plain hplain => exact absurd rfl hplain.2.1
  | cons c k ih =>
    rw [List.forall_mem_cons] at hk
    obtain ⟨⟨-, hquote, hback⟩, hk⟩ := hk
    rw [List.cons_append] at h
    generalize hrest : k ++ '"' :: r = rest at h
    cases h with
    | close => exact absurd rfl hquote
    | plain _ h =>
      obtain ⟨rfl, hr⟩ := ih hk (hrest ▸ h)
      exact ⟨rfl, hr⟩
    | escaped => exact absurd rfl hback
    | unicode => exact absurd rfl hback

/-! ## Numbers -/

namespace Numeral

/-- A number that is printed with `%u`. -/
def ofNat (n : Nat) : Numeral := ⟨false, dec n, [], none⟩

theorem ofNat_text (n : Nat) : (ofNat n).text = dec n := by
  simp [ofNat, text]

theorem ofNat_value (n : Nat) : (ofNat n).value = n := by
  have hdigits : Nat.ofDigitChars 10 (dec n) 0 = n := Nat.ofDigitChars_ten_toDigits
  have hvalue : (ofNat n).value =
      ((1 * (Nat.ofDigitChars 10 (dec n ++ []) 0 : Int) * 10 ^ 0 : Int) : Rat) := rfl
  rw [hvalue, List.append_nil, hdigits, Int.one_mul, Int.pow_zero, Int.mul_one, Rat.intCast_natCast]

theorem ofNat_valid (n : Nat) : (ofNat n).Valid where
  ne_nil := dec_ne_nil n
  whole := isDigit_of_mem_dec n
  zero := dec_head_zero n
  fraction := fun _ h => absurd h List.not_mem_nil
  exponent := fun _ h => by cases h

/-- The characters of numbers. -/
def IsNumeralChar (c : Char) : Prop := c.isDigit = true ∨ c ∈ ['-', '+', '.', 'e', 'E']

theorem Valid.isNumeralChar {n : Numeral} (h : n.Valid) : ∀ c ∈ n.text, IsNumeralChar c := by
  have hminus : ∀ c ∈ (if n.minus then ['-'] else []), IsNumeralChar c := by
    split <;> simp [IsNumeralChar]
  have hfraction : ∀ c ∈ (if n.fraction = [] then [] else '.' :: n.fraction), IsNumeralChar c := by
    split
    · exact fun _ hc => absurd hc List.not_mem_nil
    · rw [List.forall_mem_cons]
      exact ⟨.inr (by decide), fun c hc => .inl (h.fraction c hc)⟩
  unfold text
  simp only [List.forall_mem_append]
  refine ⟨⟨⟨hminus, fun c hc => .inl (h.whole c hc)⟩, hfraction⟩, ?_⟩
  split
  · exact fun _ hc => absurd hc List.not_mem_nil
  · next e he =>
    obtain ⟨hmark, hsign, -, hdigits⟩ := h.exponent e he
    rw [List.forall_mem_cons, List.forall_mem_append]
    refine ⟨.inr ?_, fun c hc => .inr ?_, fun c hc => .inl (hdigits c hc)⟩
    · simp at hmark ⊢
      rcases hmark with hmark | hmark <;> simp [hmark]
    · simp at hsign
      rcases hsign with hsign | hsign | hsign <;> simp [hsign] at hc <;> simp [hc]

/-- A number begins with a character of its own. -/
theorem Valid.isNumeralChar_head {n : Numeral} (h : n.Valid) {c : Char} {s r : List Char}
    (hs : c :: s = n.text ++ r) : IsNumeralChar c := by
  cases htext : n.text with
  | nil =>
    unfold text at htext
    have hwhole : n.whole = [] := by
      simp only [List.append_eq_nil_iff] at htext
      exact htext.1.1.2
    exact absurd hwhole h.ne_nil
  | cons d ds =>
    rw [htext] at hs
    obtain ⟨rfl, -⟩ := List.cons.inj hs
    exact h.isNumeralChar c (htext ▸ List.mem_cons_self)

end Numeral

/-! ## Objects -/

theorem value_ofNat (n : Nat) (r : List Char) : Value (dec n ++ r) (.number n) r := by
  have h := Value.number (s := dec n ++ r) (r := r) _ (Numeral.ofNat_valid n) (by rw [Numeral.ofNat_text])
  rwa [Numeral.ofNat_value] at h

theorem value_plainStr {k : List Char} (hk : ∀ c ∈ k, IsPlain c) (r : List Char) :
    Value ('"' :: (k ++ '"' :: r)) (.string (plainStr k)) r := .string (chars_plainStr hk r)

/-- **After digits and a quotation mark** a value has come to an end among the digits or right
after them: it cannot be in front of a comma or a brace. -/
theorem value_digits {ds t r' : List Char} (hne : ds ≠ []) (hds : ∀ c ∈ ds, c.isDigit = true) {v : Json}
    (h : Value (ds ++ '"' :: t) v r') : ∃ c r, r' = c :: r ∧ (c.isDigit = true ∨ c = '"') := by
  generalize hs : ds ++ '"' :: t = s at h
  cases h with
  | number n hvalid htext =>
    rcases List.append_eq_append_iff.mp (hs.trans htext) with ⟨a, hnum, hrest⟩ | ⟨a, hnum, hrest⟩
    · cases a with
      | nil => exact ⟨'"', t, hrest.symm, .inr rfl⟩
      | cons c a =>
        obtain ⟨rfl, -⟩ := List.cons.inj hrest
        have hquote := hvalid.isNumeralChar '"'
          (by rw [hnum]; exact List.mem_append_right _ List.mem_cons_self)
        exact absurd hquote (by unfold Numeral.IsNumeralChar; decide)
    · cases a with
      | nil => exact ⟨'"', t, hrest, .inr rfl⟩
      | cons c a =>
        have hmem : c ∈ ds := hnum ▸ List.mem_append_right _ List.mem_cons_self
        exact ⟨c, _, hrest, .inl (hds c hmem)⟩
  | null | true | false | string | noItems | items | noMembers | members =>
    -- the text begins with a digit
    obtain ⟨d, ds, rfl⟩ := List.exists_cons_of_ne_nil hne
    obtain ⟨rfl, -⟩ := List.cons.inj hs
    exact absurd (hds _ List.mem_cons_self) (by decide)

/-- The text of an object with one member. -/
def objectText (key value : List Char) : List Char := '{' :: '"' :: (key ++ '"' :: ':' :: (value ++ ['}']))

/-- **An object of one member is a text.** -/
theorem isText_object (key value : List Char) {v : Json} (hkey : ∀ c ∈ key, IsPlain c)
    (hvalue : Value (value ++ ['}']) v ['}']) :
    IsText (objectText key value) (.object [(plainStr key, v)]) :=
  ⟨_, [], .none _,
    .members (.none _) (.last (.mk (chars_plainStr hkey _) (.none _) (.none _) hvalue) (.none _)), .none _⟩

/-- What a member comes to when its name is written as it stands. -/
theorem Member.value_of_key {key s t : List Char} {m : List StrItem × Json} (hkey : ∀ c ∈ key, IsPlain c)
    (h : Member ('"' :: (key ++ '"' :: ':' :: s)) m t) : ∃ u, Ws s u ∧ Value u m.2 t := by
  cases h with
  | mk hchars hws hws' hvalue =>
    obtain ⟨-, rfl⟩ := hchars.eq_plainStr hkey
    have hcolon := hws.eq_of_not_mem (by decide)
    obtain ⟨-, rfl⟩ := List.cons.inj hcolon
    exact ⟨_, hws', hvalue⟩

/-- The first member of a text that begins as an object with a name. -/
theorem IsText.first_member (key s : List Char) {v : Json} (hkey : ∀ c ∈ key, IsPlain c)
    (h : IsText ('{' :: '"' :: (key ++ '"' :: ':' :: s)) v) :
    ∃ u v' t c r, Ws s u ∧ Value u v' t ∧ Ws t (c :: r) ∧ (c = '}' ∨ c = ',') := by
  obtain ⟨t, r, hws, hvalue, hend⟩ := h
  rw [hws.eq_of_not_mem (by decide)] at hvalue
  cases hvalue with
  | number n hvalid htext =>
    exact absurd (hvalid.isNumeralChar_head htext) (by unfold Numeral.IsNumeralChar; decide)
  | noMembers h =>
    have := h.eq_of_not_mem (by decide)
    cases this
  | members h hmembers =>
    rw [h.eq_of_not_mem (by decide)] at hmembers
    cases hmembers with
    | last hm hclose =>
      obtain ⟨u, hu, hv⟩ := hm.value_of_key hkey
      exact ⟨u, _, _, _, _, hu, hv, hclose, .inl rfl⟩
    | more hm hcomma =>
      obtain ⟨u, hu, hv⟩ := hm.value_of_key hkey
      exact ⟨u, _, _, _, _, hu, hv, hcomma, .inr rfl⟩

theorem not_mem_ws {c : Char} (h : c.isDigit = true ∨ c = '"') : c ∉ [' ', '\t', '\n', '\r'] := by
  intro hmem
  simp only [List.mem_cons, List.not_mem_nil, or_false] at hmem
  rcases hmem with rfl | rfl | rfl | rfl <;> exact absurd h (by decide)

/-- **A number with a quotation mark after it** is in no object. -/
theorem not_isText_of_digits {key ds t : List Char} (hkey : ∀ c ∈ key, IsPlain c) (hne : ds ≠ [])
    (hds : ∀ c ∈ ds, c.isDigit = true) (v : Json) :
    ¬ IsText ('{' :: '"' :: (key ++ '"' :: ':' :: (ds ++ '"' :: t))) v := by
  intro h
  obtain ⟨u, v', r, c, r', hws, hvalue, hafter, hc⟩ := IsText.first_member key (ds ++ '"' :: t) hkey h
  have hu : u = ds ++ '"' :: t := by
    obtain ⟨d, ds, rfl⟩ := List.exists_cons_of_ne_nil hne
    exact hws.eq_of_not_mem (not_mem_ws (.inl (hds d List.mem_cons_self)))
  obtain ⟨c', r'', rfl, hc'⟩ := value_digits hne hds (hu ▸ hvalue)
  -- neither a comma nor a brace is a digit or a quotation mark
  obtain ⟨rfl, -⟩ := List.cons.inj (hafter.eq_of_not_mem (not_mem_ws hc'))
  rcases hc with rfl | rfl <;> exact absurd hc' (by decide)

end Growbox.JsonText
