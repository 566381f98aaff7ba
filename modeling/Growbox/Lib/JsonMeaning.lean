import Growbox.Lib.JsonText

/-!
# What the strings of a JSON text mean

A string means bytes: characters that stand for themselves as they are, the others in UTF-8.
Escapes with four digits are units of UTF-16, so two of them can be one character, and one that
has lost its other half means nothing (`meaning`).
-/

namespace Growbox.JsonText

def hexDigitValue (c : Char) : Nat :=
  if c.isDigit then c.toNat - '0'.toNat
  else if c.toNat ≤ 'F'.toNat then c.toNat - 'A'.toNat + 10 else c.toNat - 'a'.toNat + 10

def hexValue (digits : List Char) : Nat := digits.foldl (fun h c => 16 * h + hexDigitValue c) 0

/-- The bytes of a character. -/
def utf8 (n : Nat) : List Char := (String.utf8EncodeChar (Char.ofNat n)).map fun b => Char.ofNat b.toNat

/-- What the character after a backslash stands for. -/
def escapedChar (c : Char) : Char :=
  if c = 'b' then Char.ofNat 8
  else if c = 'f' then Char.ofNat 12
  else if c = 'n' then '\n'
  else if c = 'r' then '\r'
  else if c = 't' then '\t'
  else c

def IsHighSurrogate (n : Nat) : Prop := 0xD800 ≤ n ∧ n ≤ 0xDBFF

def IsLowSurrogate (n : Nat) : Prop := 0xDC00 ≤ n ∧ n ≤ 0xDFFF

instance : DecidablePred IsHighSurrogate := fun _ => inferInstanceAs (Decidable (_ ∧ _))

instance : DecidablePred IsLowSurrogate := fun _ => inferInstanceAs (Decidable (_ ∧ _))

/-- The character of two units. -/
def surrogates (high low : Nat) : Nat := 0x10000 + (high - 0xD800) * 0x400 + (low - 0xDC00)

/-- The bytes that a string means; `none` for half a character. -/
def meaning : List StrItem → Option (List Char)
  | [] => some []
  | .plain c :: p => (meaning p).map (c :: ·)
  | .escaped c :: p => (meaning p).map (escapedChar c :: ·)
  | .unicode digits :: p =>
    if IsLowSurrogate (hexValue digits) then none
    else if IsHighSurrogate (hexValue digits) then
      match p with
      | .unicode digits' :: p' =>
        if IsLowSurrogate (hexValue digits') then
          (meaning p').map (utf8 (surrogates (hexValue digits) (hexValue digits')) ++ ·)
        else none
      | _ => none
    else (meaning p).map (utf8 (hexValue digits) ++ ·)

theorem meaning_of_low {digits : List Char} (h : IsLowSurrogate (hexValue digits)) (p : List StrItem) :
    meaning (.unicode digits :: p) = none := by
  rw [meaning.eq_def]
  exact if_pos h

theorem meaning_of_unit {digits : List Char} (hlow : ¬ IsLowSurrogate (hexValue digits))
    (hhigh : ¬ IsHighSurrogate (hexValue digits)) (p : List StrItem) :
    meaning (.unicode digits :: p) = (meaning p).map (utf8 (hexValue digits) ++ ·) := by
  rw [meaning.eq_def]
  dsimp only
  rw [if_neg hlow, if_neg hhigh]

theorem meaning_plainStr (k : List Char) : meaning (plainStr k) = some k := by
  induction k with
  | nil => rfl
  | cons c k ih =>
    show (meaning (plainStr k)).map (c :: ·) = some (c :: k)
    rw [ih]
    rfl

/-! ## Where a value can end -/

/-- Whitespace, or what may follow a value. -/
def IsFollow (c : Char) : Prop := c ∈ [' ', '\t', '\n', '\r', ',', ']', '}']

/-- Behind a value there is nothing, whitespace, a comma or a closing bracket. -/
def Follows (r : List Char) : Prop := ∀ c ∈ r.head?, IsFollow c

theorem Ws.follows {s r : List Char} (h : Ws s r) (hr : Follows r) : Follows s := by
  cases h with
  | none => exact hr
  | skip hc =>
    intro d hd
    cases hd
    unfold IsFollow
    simp only [List.mem_cons, List.not_mem_nil, or_false] at hc
    rcases hc with rfl | rfl | rfl | rfl <;> decide

theorem follows_nil : Follows [] := fun _ h => by cases h

theorem follows_cons {c : Char} {r : List Char} (h : IsFollow c) : Follows (c :: r) := fun _ hd => by
  cases hd
  exact h

theorem not_isNumeralChar_of_isFollow {c : Char} (h : IsFollow c) : ¬ Numeral.IsNumeralChar c := by
  unfold IsFollow at h
  unfold Numeral.IsNumeralChar
  simp only [List.mem_cons, List.not_mem_nil, or_false] at h
  rcases h with rfl | rfl | rfl | rfl | rfl | rfl | rfl <;> decide

/-! ## Where a value begins -/

theorem Ws.length_le {s r : List Char} (h : Ws s r) : r.length ≤ s.length := by
  induction h with
  | none => exact Nat.le_refl _
  | skip _ _ ih => exact Nat.le_succ_of_le ih

theorem Chars.length_lt {s r : List Char} {p : List StrItem} (h : Chars s p r) : r.length < s.length := by
  induction h with
  | close => simp
  | plain | escaped | unicode =>
    simp only [List.length_cons]
    omega

/-- A value begins with a character that is neither whitespace nor follows one. -/
theorem Value.head {s r : List Char} {v : Json} (h : Value s v r) :
    ∃ c t, s = c :: t ∧ ¬ IsFollow c ∧ 32 < c.toNat ∧ c.toNat < 128 := by
  cases h with
  | number n hvalid htext =>
    cases s with
    | nil =>
      have hnil := List.append_eq_nil_iff.mp htext.symm
      rw [Numeral.text, List.append_assoc, List.append_assoc] at hnil
      simp only [List.append_eq_nil_iff] at hnil
      exact absurd hnil.1.2.1 hvalid.ne_nil
    | cons c t =>
      have hc := hvalid.isNumeralChar_head htext
      refine ⟨c, t, rfl, fun h => not_isNumeralChar_of_isFollow h hc, ?_⟩
      rcases hc with hc | hc
      · obtain ⟨hlow, hhigh⟩ := Char.isDigit_iff_toNat.mp hc
        exact ⟨Nat.lt_of_lt_of_le (by decide) hlow, Nat.lt_of_le_of_lt hhigh (by decide)⟩
      · simp only [List.mem_cons, List.not_mem_nil, or_false] at hc
        rcases hc with rfl | rfl | rfl | rfl | rfl <;> decide
  | null | true | false | string | noItems | items | noMembers | members =>
    exact ⟨_, _, rfl, by unfold IsFollow; decide, by decide⟩

mutual

theorem Value.length_lt {s r : List Char} {v : Json} : Value s v r → r.length < s.length
  | .null _ | .true _ | .false _ => by
    simp only [List.length_cons]
    omega
  | .number n hvalid htext => by
    have hpos := List.length_pos_iff.mpr hvalid.ne_nil
    rw [htext, Numeral.text]
    simp only [List.length_append]
    omega
  | .string h => by
    have := h.length_lt
    rw [List.length_cons]
    omega
  | .noItems h | .noMembers h => by
    have := h.length_le
    simp only [List.length_cons] at this ⊢
    omega
  | .items hws h => by
    have := hws.length_le
    have := Items.length_lt h
    rw [List.length_cons]
    omega
  | .members hws h => by
    have := hws.length_le
    have := Members.length_lt h
    rw [List.length_cons]
    omega

theorem Items.length_lt {s r : List Char} {vs : List Json} : Items s vs r → r.length < s.length
  | .last hv hws => by
    have := Value.length_lt hv
    have := hws.length_le
    simp only [List.length_cons] at this
    omega
  | .more hv hws hws' h => by
    have := Value.length_lt hv
    have := hws.length_le
    have := hws'.length_le
    have := Items.length_lt h
    simp only [List.length_cons] at *
    omega

theorem Member.length_lt {s r : List Char} {m : List StrItem × Json} : Member s m r → r.length < s.length
  | .mk hname hws hws' hv => by
    have := hname.length_lt
    have := hws.length_le
    have := hws'.length_le
    have := Value.length_lt hv
    simp only [List.length_cons] at *
    omega

theorem Members.length_lt {s r : List Char} {ms : List (List StrItem × Json)} : Members s ms r → r.length < s.length
  | .last hm hws => by
    have := Member.length_lt hm
    have := hws.length_le
    simp only [List.length_cons] at this
    omega
  | .more hm hws hws' h => by
    have := Member.length_lt hm
    have := hws.length_le
    have := hws'.length_le
    have := Members.length_lt h
    simp only [List.length_cons] at *
    omega

end

end Growbox.JsonText
