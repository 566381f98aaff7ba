import Growbox.CJsonParse
import Growbox.CJsonPrint
import Growbox.Lib.JsonMeaning
import Mathlib.Data.Bool.AllAny

/-!
# `cJSON.c`: texts and trees

What the parser makes of a JSON text is the tree of its meaning (`parse_isText`): strings are
bytes up to the first that is 0, numbers are rounded, and what is nested too deep is rejected,
as is half a character.
-/

namespace Growbox

open JsonText NumberText Double ParseBuffer

/-! ## The tree of a text -/

mutual

/-- The tree, with at most `levels` lists in one another.  Strings and names are C strings: an escaped
NUL ends them. -/
def JsonText.Json.tree (levels : Nat) : Json → Option CJson
  | .null => some .null
  | .bool b => some (.bool b)
  | .number x => some (.number (nearest x))
  | .string p => (meaning p).map fun s => .string (cText s)
  | .array items =>
    match levels with
    | 0 => none
    | levels + 1 => (treeItems levels items).map .array
  | .object members =>
    match levels with
    | 0 => none
    | levels + 1 => (treeMembers levels members).map .object

def treeItems (levels : Nat) : List Json → Option (List CJson)
  | [] => some []
  | v :: vs => do
    let item ← v.tree levels
    let items ← treeItems levels vs
    return item :: items

def treeMembers (levels : Nat) : List (List StrItem × Json) → Option (List (String × CJson))
  | [] => some []
  | (name, v) :: ms => do
    let name ← meaning name
    let item ← v.tree levels
    let members ← treeMembers levels ms
    return (String.ofList (cText name), item) :: members

end

/-! ## UTF-8 -/

theorem or_and_continuation (n : Nat) : (n ||| 0x80) &&& 0xBF = n % 64 + 0x80 := by
  have hmod : n % 64 < 64 := Nat.mod_lt _ (by norm_num)
  have hbits : ∀ m < 64, (m ||| 0x80) &&& 0xBF = m + 0x80 := by decide
  rw [← hbits _ hmod]
  apply Nat.eq_of_testBit_eq
  intro i
  have h64 : n % 64 = n % 2 ^ 6 := rfl
  rw [Nat.testBit_and, Nat.testBit_or, Nat.testBit_and, Nat.testBit_or, h64, Nat.testBit_mod_two_pow]
  by_cases hi : i < 6
  · simp [hi]
  · rcases (by omega : i = 6 ∨ i = 7 ∨ 8 ≤ i) with rfl | rfl | hi
    · rw [show Nat.testBit 0xBF 6 = false by decide, Bool.and_false, Bool.and_false]
    · rw [show Nat.testBit 0x80 7 = true by decide, Bool.or_true, Bool.or_true]
    · have hlt : 0xBF < 2 ^ i := lt_of_lt_of_le (by norm_num : 0xBF < 2 ^ 8) (Nat.pow_le_pow_right (by norm_num) hi)
      rw [Nat.testBit_lt_two_pow hlt, Bool.and_false, Bool.and_false]

theorem or_and_marks :
    (∀ n < 128, n &&& 0x7F = n) ∧ (∀ n < 32, (n ||| 0xC0) &&& 0xFF = n % 32 + 0xC0) ∧
      (∀ n < 16, (n ||| 0xE0) &&& 0xFF = n % 16 + 0xE0) ∧ (∀ n < 8, (n ||| 0xF0) &&& 0xFF = n % 8 + 0xF0) := by
  decide

theorem toNat_charOfNat {n : Nat} (h : n.isValidChar) : (Char.ofNat n).val.toNat = n := by
  rw [Char.ofNat, dif_pos h]
  rfl

theorem toNat_byte {n : Nat} (h : n < 256) : (UInt8.ofNat n).toNat = n := UInt8.toNat_ofNat_of_lt' h

/-- **The bytes of a code point** are its UTF-8. -/
theorem encodeUtf8_eq {n : Nat} (h : n.isValidChar) : encodeUtf8 n = some (utf8 n) := by
  have hmax : n < 0x110000 := by
    rcases h with h | h
    · omega
    · exact h.2
  obtain ⟨h1, h2, h3, h4⟩ := or_and_marks
  unfold encodeUtf8 utf8 String.utf8EncodeChar
  dsimp only
  rw [toNat_charOfNat h]
  split_ifs with ha hb hc hd
  all_goals first
    | omega
    | skip
  all_goals
    simp only [continuation, Nat.shiftRight_eq_div_pow, or_and_continuation, Nat.div_div_eq_div_mul,
      List.map_cons, List.map_nil, List.nil_append, List.cons_append, Nat.reducePow, Nat.reduceMul,
      Nat.reduceSub]
  · rw [h1 n ha, toNat_byte (by omega)]
  · rw [h2 _ (by omega), toNat_byte (by omega), toNat_byte (by omega)]
  · rw [h3 _ (by omega), toNat_byte (by omega), toNat_byte (by omega), toNat_byte (by omega)]
  · rw [h4 _ (by omega), toNat_byte (by omega), toNat_byte (by omega), toNat_byte (by omega),
      toNat_byte (by omega)]

/-! ## Escapes with four digits -/

theorem hexDigit_of_isHex {c : Char} (h : IsHex c) : hexDigit c = some (hexDigitValue c) := by
  rcases h with h | h
  · obtain ⟨hlow, hhigh⟩ := Char.isDigit_iff_toNat.mp h
    have hrange : '0' ≤ c ∧ c ≤ '9' := ⟨(char_le_iff _ _).mpr hlow, (char_le_iff _ _).mpr hhigh⟩
    rw [hexDigit, if_pos hrange, hexDigitValue, if_pos h]
  · have hall : ∀ d ∈ "abcdefABCDEF".toList, hexDigit d = some (hexDigitValue d) :=
      List.all_iff_forall_prop.mp (by decide)
    exact hall c h

theorem parseHex_of_isHex : ∀ (ds : List Char), (∀ c ∈ ds, IsHex c) → ∀ h,
    parseHex h ds = ds.foldl (fun h c => 16 * h + hexDigitValue c) h
  | [], _, _ => rfl
  | c :: ds, hds, h => by
    rw [List.forall_mem_cons] at hds
    rw [parseHex, hexDigit_of_isHex hds.1, List.foldl_cons]
    show parseHex (h <<< 4 + hexDigitValue c) ds = _
    rw [parseHex_of_isHex ds hds.2, Nat.shiftLeft_eq, Nat.mul_comm h]

theorem parseHex4_eq {ds : List Char} (h : ∀ c ∈ ds, IsHex c) : parseHex4 ds = hexValue ds := parseHex_of_isHex ds h 0

theorem and_mask (n : Nat) : n &&& 0x3FF = n % 1024 := by
  have h := Nat.and_two_pow_sub_one_eq_mod n 10
  norm_num at h
  exact h

theorem surrogates_eq {high low : Nat} (hh : IsHighSurrogate high) (hl : IsLowSurrogate low) :
    0x10000 + ((high &&& 0x3FF) <<< 10 ||| (low &&& 0x3FF)) = surrogates high low := by
  obtain ⟨h1, h2⟩ := hh
  obtain ⟨h3, h4⟩ := hl
  have hor : (high % 1024) <<< 10 ||| low % 1024 = high % 1024 * 1024 + low % 1024 := by
    rw [← Nat.shiftLeft_add_eq_or_of_lt (Nat.mod_lt _ (by norm_num)), Nat.shiftLeft_eq]
  rw [and_mask, and_mask, hor]
  unfold surrogates
  omega

theorem encodeUtf8_surrogates {high low : Nat} (hh : IsHighSurrogate high) (hl : IsLowSurrogate low) :
    encodeUtf8 (0x10000 + ((high &&& 0x3FF) <<< 10 ||| (low &&& 0x3FF))) = some (utf8 (surrogates high low)) := by
  rw [surrogates_eq hh hl]
  obtain ⟨h1, h2⟩ := hh
  obtain ⟨h3, h4⟩ := hl
  apply encodeUtf8_eq
  unfold surrogates
  exact .inr ⟨by omega, by omega⟩

/-! ## Strings -/

/-- A string without its quotation marks, and its parts. -/
inductive Spells : List Char → List StrItem → Prop
  | nil : Spells [] []
  | plain {c : Char} {w : List Char} {p : List StrItem} : IsPlain c → Spells w p → Spells (c :: w) (.plain c :: p)
  | escaped {c : Char} {w : List Char} {p : List StrItem} : c ∈ "\"\\/bfnrt".toList → Spells w p →
      Spells ('\\' :: c :: w) (.escaped c :: p)
  | unicode (ds : List Char) {w : List Char} {p : List StrItem} : ds.length = 4 → (∀ c ∈ ds, IsHex c) → Spells w p →
      Spells ('\\' :: 'u' :: (ds ++ w)) (.unicode ds :: p)

theorem spells_of_chars {s r : List Char} {p : List StrItem} (h : Chars s p r) :
    ∃ w, s = w ++ '"' :: r ∧ Spells w p := by
  induction h with
  | close r => exact ⟨[], rfl, .nil⟩
  | plain hc _ ih =>
    obtain ⟨w, rfl, hw⟩ := ih
    exact ⟨_, rfl, .plain hc hw⟩
  | escaped hc _ ih =>
    obtain ⟨w, rfl, hw⟩ := ih
    exact ⟨_, rfl, .escaped hc hw⟩
  | @unicode c₁ c₂ c₃ c₄ _ _ _ hhex _ ih =>
    obtain ⟨w, rfl, hw⟩ := ih
    exact ⟨_, rfl, .unicode [c₁, c₂, c₃, c₄] rfl hhex hw⟩

theorem isHex_plain {c : Char} (h : IsHex c) : c ≠ '"' ∧ c ≠ '\\' := by
  constructor <;> rintro rfl <;> exact absurd h (by unfold IsHex; decide)

/-- The first pass goes over characters that are no marks. -/
theorem scanString_plain (ds : List Char) (hds : ∀ c ∈ ds, c ≠ '"' ∧ c ≠ '\\') (e k : Nat) (t : List Char) :
    scanString e k (ds ++ t) = scanString (e + ds.length) k t ∧ escapes false (ds ++ t) = escapes false t := by
  induction ds generalizing e with
  | nil => exact ⟨rfl, rfl⟩
  | cons c ds ih =>
    rw [List.forall_mem_cons] at hds
    obtain ⟨⟨hquote, hback⟩, hds⟩ := hds
    obtain ⟨hscan, hcount⟩ := ih hds (e + 1)
    constructor
    · rw [List.cons_append, scanString_cons hquote hback, hscan, List.length_cons]
      congr 1
      omega
    · rw [List.cons_append, escapes, if_neg hback, hcount]

/-- The first pass over a string of the grammar. -/
theorem scanString_spells {w : List Char} {p : List StrItem} (h : Spells w p) (t : List Char) : ∀ e k,
    scanString e k (w ++ '"' :: t) = some (e + w.length, k + escapes false w) := by
  induction h with
  | nil => exact fun e k => by simp [escapes]
  | @plain c w p hc _ ih =>
    intro e k
    obtain ⟨hscan, hcount⟩ := scanString_plain [c] (by simpa using hc.2) e k (w ++ '"' :: t)
    have hcount' := (scanString_plain [c] (by simpa using hc.2) e k w).2
    rw [List.singleton_append] at hscan hcount hcount'
    rw [List.cons_append, hscan, ih, hcount', List.length_singleton, List.length_cons]
    congr 2
    omega
  | @escaped c w p _ _ ih =>
    intro e k
    rw [List.cons_append, List.cons_append, scanString_escape, ih]
    simp only [List.length_cons, escapes, if_pos]
    congr 2
    all_goals omega
  | @unicode ds w p hlen hhex _ ih =>
    intro e k
    have hplain : ∀ c ∈ ds, c ≠ '"' ∧ c ≠ '\\' := fun c hc => isHex_plain (hhex c hc)
    rw [List.cons_append, List.cons_append, scanString_escape, List.append_assoc, (scanString_plain _ hplain _ _ _).1, ih]
    have hcount := (scanString_plain _ hplain e k w).2
    simp only [List.length_cons, List.length_append, escapes, if_pos, hcount]
    congr 2
    all_goals omega

theorem ok_bind {ε α β : Type} (a : α) (k : α → Except ε β) : (Except.ok a >>= k) = k a := rfl

/-- A run that comes to a result has a result of its first part. -/
theorem bind_ok {ε α β : Type} {r : Except ε α} {k : α → Except ε β} {y : β} (h : r >>= k = .ok y) :
    ∃ a, r = .ok a ∧ k a = .ok y := by
  cases r with
  | error e => cases h
  | ok a => exact ⟨a, rfl, h⟩

/-- What comes out, unless there is no room. -/
def Gives {α : Type} (r x : Except ParseFault α) : Prop := r = .error .undefined ∨ r = x

theorem Gives.of_defined {α : Type} {r x : Except ParseFault α} {Q : α → Prop} (h : Gives r x) (hdef : Defined r Q) :
    r = x := by
  rcases h with h | h
  · rw [h] at hdef
    exact hdef.elim
  · exact h

theorem gives_emit {α : Type} {size : Nat} {output bytes : List Char} {k : List Char → Except ParseFault α}
    {x : Except ParseFault α} (h : Gives (k (output ++ bytes)) x) : Gives (emit size output bytes >>= k) x := by
  unfold emit
  split_ifs
  · exact h
  · exact .inl rfl

/-- The output with the bytes of a string behind it. -/
def decoded (output : List Char) : Option (List Char) → Except ParseFault (List Char)
  | some bytes => .ok (output ++ bytes)
  | none => .error .failed

theorem decoded_map (output bytes : List Char) (o : Option (List Char)) :
    decoded output (o.map (bytes ++ ·)) = decoded (output ++ bytes) o := by
  cases o with
  | none => rfl
  | some r => simp [decoded]

theorem unescape_of_mem {c : Char} (h : c ∈ "\"\\/bfnrt".toList) : unescape c = some (escapedChar c) := by
  have hall : ∀ d ∈ "\"\\/bfnrt".toList, unescape d = some (escapedChar d) :=
    List.all_iff_forall_prop.mp (by decide)
  exact hall c h

theorem slice_of_drop {b : ParseBuffer} {i n : Nat} {cs t : List Char} (h : b.content.drop i = cs ++ t)
    (hne : t ≠ []) (hn : cs.length = n) : b.slice i n = .ok cs := by
  have hlen := congrArg List.length h
  have hpos := List.length_pos_of_ne_nil hne
  rw [List.length_drop, List.length_append] at hlen
  unfold ParseBuffer.slice ParseBuffer.length
  rw [if_pos (by omega), h, ← hn, List.take_left]

theorem encoded_of_some {n codepoint : Nat} {bytes : List Char} (h : encodeUtf8 codepoint = some bytes) :
    encoded n codepoint = .ok (n, bytes) := by
  unfold encoded
  rw [h]

theorem valid_of_not_surrogate {n : Nat} (hlt : n < 65536) (hh : ¬ IsHighSurrogate n) (hl : ¬ IsLowSurrogate n) :
    n.isValidChar := by
  unfold IsHighSurrogate at hh
  unfold IsLowSurrogate at hl
  unfold Nat.isValidChar
  omega

theorem hexValue_lt {ds : List Char} (hlen : ds.length = 4) (hds : ∀ c ∈ ds, IsHex c) : hexValue ds < 65536 := by
  rw [← parseHex4_eq hds]
  exact parseHex4_lt hlen

/-- The second half of a pair, `meaning` of the whole string at hand. -/
theorem surrogatePair_spells {b : ParseBuffer} {i e : Nat} {ds w : List Char} {p : List StrItem} {t : List Char}
    (hhigh : IsHighSurrogate (hexValue ds)) (hspells : Spells w p) (hdrop : b.content.drop i = w ++ '"' :: t)
    (he : e = i + w.length) :
    (surrogatePair b (hexValue ds) i e = .error .failed ∧ meaning (.unicode ds :: p) = none) ∨
      ∃ ds' w' p' bytes, p = .unicode ds' :: p' ∧ w = '\\' :: 'u' :: (ds' ++ w') ∧ ds'.length = 4 ∧ Spells w' p' ∧
        surrogatePair b (hexValue ds) i e = .ok (12, bytes) ∧
        meaning (.unicode ds :: p) = (meaning p').map (bytes ++ ·) := by
  have hnotlow : ¬ IsLowSurrogate (hexValue ds) := by
    unfold IsHighSurrogate at hhigh
    unfold IsLowSurrogate
    omega
  -- a first character that begins no escape of four digits
  have hother : ∀ c x : Char, (w ++ '"' :: t).take 2 = [c, x] → ¬ (c = '\\' ∧ x = 'u') →
      surrogatePair b (hexValue ds) i e = .error .failed := by
    intro c x htake hne
    unfold surrogatePair
    split_ifs with hshort
    · rfl
    have hslice : b.slice i 2 = .ok [c, x] := by
      refine slice_of_drop (t := (w ++ '"' :: t).drop 2) ?_ ?_ rfl
      · rw [hdrop, ← htake, List.take_append_drop]
      · intro hnil
        have := congrArg List.length hnil
        simp only [List.length_drop, List.length_append, List.length_cons, List.length_nil] at this
        omega
    rw [hslice, ok_bind, if_pos (by simpa using fun hc => not_and.mp hne hc)]
  cases hspells with
  | nil =>
    left
    refine ⟨?_, by simp [meaning, hnotlow, hhigh]⟩
    unfold surrogatePair
    rw [if_pos (by rw [he]; simp)]
  | @plain c w p hc _ =>
    left
    refine ⟨?_, by simp [meaning, hnotlow, hhigh]⟩
    cases w with
    | nil => exact hother c '"' rfl fun h => hc.2.2 h.1
    | cons x w => exact hother c x rfl fun h => hc.2.2 h.1
  | @escaped c w p hc _ =>
    left
    refine ⟨hother '\\' c rfl fun h => ?_, by simp [meaning, hnotlow, hhigh]⟩
    rw [h.2] at hc
    exact absurd hc (by decide)
  | @unicode ds' w p hlen hhex hw =>
    have hmark : b.slice i 2 = .ok ['\\', 'u'] :=
      slice_of_drop (t := ds' ++ w ++ '"' :: t) hdrop (by simp) rfl
    have hdigits : b.slice (i + 2) 4 = .ok ds' := by
      refine slice_of_drop (t := w ++ '"' :: t) ?_ (by simp) hlen
      rw [← List.drop_drop, hdrop, ← List.append_assoc]
      rfl
    have hrun : surrogatePair b (hexValue ds) i e =
        if IsLowSurrogate (hexValue ds') then .ok (12, utf8 (surrogates (hexValue ds) (hexValue ds')))
        else .error .failed := by
      unfold surrogatePair
      rw [if_neg (by rw [he]; simp [hlen]), hmark, ok_bind, if_neg (by simp), hdigits, ok_bind,
        parseHex4_eq hhex]
      dsimp only
      by_cases hlow : IsLowSurrogate (hexValue ds')
      · rw [if_pos hlow, if_neg (by unfold IsLowSurrogate at hlow; omega)]
        exact encoded_of_some (encodeUtf8_surrogates hhigh hlow)
      · rw [if_neg hlow, if_pos (by unfold IsLowSurrogate at hlow; omega)]
    rw [hrun]
    by_cases hlow : IsLowSurrogate (hexValue ds')
    · right
      refine ⟨ds', w, p, _, rfl, rfl, hlen, hw, if_pos hlow, ?_⟩
      simp [meaning, hnotlow, hhigh, hlow]
    · left
      exact ⟨if_neg hlow, by simp [meaning, hnotlow, hhigh, hlow]⟩

/-- **The second pass** gives the meaning of a string. -/
theorem decodeString_spells {b : ParseBuffer} (size : Nat) {e : Nat} {t : List Char} : ∀ (n : Nat) (w : List Char)
    (p : List StrItem), Spells w p → ∀ (output : List Char) (i : Nat), b.content.drop i = w ++ '"' :: t →
      e = i + w.length → w.length ≤ n → Gives (decodeString b size e n i output) (decoded output (meaning p))
  | 0, w, p, hspells, output, i, hdrop, he, hn => by
    have hnil : w = [] := List.eq_nil_of_length_eq_zero (by omega)
    subst hnil
    cases hspells
    exact .inr (by simp [decodeString, decoded, meaning])
  | n + 1, w, p, hspells, output, i, hdrop, he, hn => by
    have hread : ∀ {j : Nat} {c : Char}, (w ++ '"' :: t)[j]? = some c →
        ParseBuffer.charAt { b with offset := i } j = .ok c := by
      intro j c hj
      unfold ParseBuffer.charAt
      rw [← List.getElem?_drop, hdrop, hj]
    -- the rest of the string, behind `v`
    have hrest : ∀ (v w' : List Char) {p' : List StrItem} (bytes : List Char), w = v ++ w' → 0 < v.length →
        Spells w' p' → Gives (emit size output bytes >>= fun o => decodeString b size e n (i + v.length) o)
          (decoded output ((meaning p').map (bytes ++ ·))) := by
      rintro v w' p' bytes rfl hv hw'
      rw [List.length_append] at he hn
      rw [decoded_map]
      refine gives_emit (decodeString_spells size (t := t) n w' p' hw' _ _ ?_ (by omega) (by omega))
      rw [← List.drop_drop, hdrop, List.append_assoc, List.drop_left]
    rw [decodeString]
    cases hspells with
    | nil =>
      rw [if_neg (by rw [he]; simp)]
      exact .inr (by simp [decoded, meaning])
    | @plain c w p hc hw =>
      rw [if_pos (by rw [he]; simp), hread rfl, ok_bind, if_pos hc.2.2]
      exact hrest [c] _ [c] rfl (by simp) hw
    | @escaped c w p hc hw =>
      rw [if_pos (by rw [he]; simp), hread rfl, ok_bind, if_neg (by simp), hread (j := 1) rfl, ok_bind,
        unescape_of_mem hc]
      exact hrest ['\\', c] _ [escapedChar c] rfl (by simp) hw
    | @unicode ds w p hlen hhex hw =>
      rw [if_pos (by rw [he]; simp), hread rfl, ok_bind, if_neg (by simp), hread (j := 1) rfl, ok_bind]
      show Gives (utf16LiteralToUtf8 b i e >>= fun r => emit size output r.2 >>= fun o =>
        decodeString b size e n (i + r.1) o) _
      have hdigits : b.slice (i + 2) 4 = .ok ds := by
        refine slice_of_drop (t := w ++ '"' :: t) ?_ (by simp) hlen
        rw [← List.drop_drop, hdrop, ← List.append_assoc]
        rfl
      have hrun : utf16LiteralToUtf8 b i e =
          if IsLowSurrogate (hexValue ds) then .error .failed
          else if IsHighSurrogate (hexValue ds) then surrogatePair b (hexValue ds) (i + 6) e
          else .ok (6, utf8 (hexValue ds)) := by
        unfold utf16LiteralToUtf8
        rw [if_neg (by rw [he]; simp [hlen]), hdigits, ok_bind, parseHex4_eq hhex]
        show (if IsLowSurrogate (hexValue ds) then _ else if IsHighSurrogate (hexValue ds) then _ else _) = _
        split_ifs with hlow hhigh
        · rfl
        · rfl
        · exact encoded_of_some (encodeUtf8_eq (valid_of_not_surrogate (hexValue_lt hlen hhex) hhigh hlow))
      rw [hrun]
      have hdrop' : b.content.drop (i + 6) = w ++ '"' :: t := by
        rw [← List.drop_drop, hdrop, List.cons_append, List.cons_append, List.append_assoc]
        show (ds ++ (w ++ '"' :: t)).drop 4 = _
        rw [← hlen, List.drop_left]
      simp only [List.length_cons, List.length_append, hlen] at he
      by_cases hlow : IsLowSurrogate (hexValue ds)
      · rw [if_pos hlow]
        rw [meaning_of_low hlow]
        exact .inr rfl
      rw [if_neg hlow]
      by_cases hhigh : IsHighSurrogate (hexValue ds)
      · rw [if_pos hhigh]
        rcases surrogatePair_spells hhigh hw hdrop' (e := e) (by omega) with ⟨hrun', hnone⟩ |
          ⟨ds', w', p', bytes, rfl, rfl, hlen', hw', hrun', hsome⟩
        · rw [hrun', hnone]
          exact .inr rfl
        · rw [hrun', hsome, ok_bind]
          have := hrest ('\\' :: 'u' :: (ds ++ '\\' :: 'u' :: ds')) w' bytes (by simp) (by simp) hw'
          simpa [hlen, hlen'] using this
      · rw [if_neg hhigh, ok_bind, meaning_of_unit hlow hhigh]
        have := hrest ('\\' :: 'u' :: ds) w (utf8 (hexValue ds)) (by simp) (by simp) hw
        simpa [hlen] using this

theorem Gives.bind {α β : Type} {r : Except ParseFault α} {a : α} {k : α → Except ParseFault β}
    {x : Except ParseFault β} (h : Gives r (.ok a)) (hk : Gives (k a) x) : Gives (r >>= k) x := by
  rcases h with rfl | rfl
  · exact .inl rfl
  · exact hk

theorem Gives.failed {α β : Type} {r : Except ParseFault α} {k : α → Except ParseFault β}
    (h : Gives r (.error .failed)) : Gives (r >>= k) (.error .failed) := by
  rcases h with rfl | rfl
  · exact .inl rfl
  · exact .inr rfl

/-- `o` is read up to `rest`, or is not there and nothing is read. -/
def Reads {α : Type} (r : Except ParseFault (α × ParseBuffer)) (o : Option α) (rest : List Char) : Prop :=
  match o with
  | some a => ∃ b, r = .ok (a, b) ∧ b.At rest
  | none => r = .error .failed

theorem Reads.bind {α β : Type} {r : Except ParseFault (α × ParseBuffer)} {o : Option α} {rest rest' : List Char}
    {k : α × ParseBuffer → Except ParseFault (β × ParseBuffer)} {f : α → Option β} (h : Reads r o rest)
    (hk : ∀ a b, b.At rest → Reads (k (a, b)) (f a) rest') : Reads (r >>= k) (o >>= f) rest' := by
  cases o with
  | some a =>
    obtain ⟨b, rfl, hat⟩ := h
    exact hk a b hat
  | none =>
    rw [show r = .error .failed from h]
    rfl

theorem Reads.map {α β : Type} {r : Except ParseFault (α × ParseBuffer)} {o : Option α} {rest : List Char}
    (h : Reads r o rest) (f : α → β) : Reads (r >>= fun a => .ok (f a.1, a.2)) (o.map f) rest := by
  have hbind : o.map f = o >>= fun a => some (f a) := by cases o <;> rfl
  rw [hbind]
  exact h.bind fun a b hat => ⟨b, rfl, hat⟩

/-- **A string** is read with its meaning, up to the first character that is 0. -/
theorem parseString_reads {s r : List Char} {p : List StrItem} {b : ParseBuffer} (h : Chars s p r)
    (hb : b.At ('"' :: s)) : Reads (parseString b) ((meaning p).map cText) r := by
  obtain ⟨w, rfl, hw⟩ := spells_of_chars h
  have hat := hb.advance_one
  have hdrop : b.content.drop (b.offset + 1) = w ++ '"' :: (r ++ [nul]) := by
    have := hat.rest
    rwa [List.append_assoc] at this
  have hend : ParseBuffer.At { b with offset := b.offset + 1 + w.length + 1 } r := by
    have hat' := At.advance (w := w ++ ['"']) (s := r) (b := b.advance 1) (by simpa using hat)
    rwa [List.length_append] at hat'
  have hspec := parseString_spec hb
  have hstring : parseString b = decodeString b (b.offset + 1 + w.length - b.offset - (0 + escapes false w) + 1)
      (b.offset + 1 + w.length) (b.offset + 1 + w.length - (b.offset + 1)) (b.offset + 1) [] >>= fun output =>
        emit (b.offset + 1 + w.length - b.offset - (0 + escapes false w) + 1) output [nul] >>= fun output =>
          .ok (cText output, { b with offset := b.offset + 1 + w.length + 1 }) := by
    unfold parseString
    rw [hb.charAt (i := 0) rfl, ok_bind, if_pos rfl, hdrop, scanString_spells hw]
    rfl
  have hdecode := decodeString_spells (b := b) (b.offset + 1 + w.length - b.offset - (0 + escapes false w) + 1)
    (e := b.offset + 1 + w.length)
    (b.offset + 1 + w.length - (b.offset + 1)) w p hw [] _ hdrop rfl (by omega)
  rw [hstring] at hspec ⊢
  cases hp : meaning p with
  | none =>
    rw [hp] at hdecode
    exact (Gives.failed hdecode).of_defined hspec
  | some bytes =>
    rw [hp] at hdecode
    refine ⟨_, Gives.of_defined (Gives.bind hdecode (gives_emit (.inr ?_))) hspec, hend⟩
    rw [List.nil_append, show [nul] = List.replicate 1 nul from rfl, cText_append_replicate]

/-! ## Numbers -/

/-- Where a character of a text stands: outside of the strings after `run` characters of numbers,
in a string, or behind a backslash there. -/
inductive Place where
  | outside (run : Nat)
  | inside
  | skipped

/-- No number gets longer than the copy that `strtod` reads. -/
def Place.step : Place → Char → Option Place
  | outside run, c =>
    if c = '"' then some inside
    else if isNumberChar c then
      if run < 63 then some (outside (run + 1)) else none
    else some (outside 0)
  | inside, c => some (if c = '"' then outside 0 else if c = '\\' then skipped else inside)
  | skipped, _ => some inside

/-- Outside of the strings no more than 63 characters of numbers follow each other. -/
def ShortNumbers (place : Place) (s : List Char) : Prop := (s.foldlM Place.step place).isSome

instance : DecidableRel ShortNumbers := fun _ _ => inferInstanceAs (Decidable (_ = true))

theorem shortNumbers_cons {place : Place} {c : Char} {s : List Char} :
    ShortNumbers place (c :: s) ↔ ∃ place', place.step c = some place' ∧ ShortNumbers place' s := by
  unfold ShortNumbers
  rw [List.foldlM_cons]
  cases place.step c with
  | none => simp
  | some place' => simp

theorem isNumberChar_iff (c : Char) : isNumberChar c = true ↔ Numeral.IsNumeralChar c := by
  unfold isNumberChar Numeral.IsNumeralChar
  rw [List.contains_iff_mem]
  constructor
  · intro h
    have hall : ∀ d ∈ "0123456789+-eE.".toList, d.isDigit = true ∨ d ∈ ['-', '+', '.', 'e', 'E'] :=
      List.all_iff_forall_prop.mp (by decide)
    exact hall c h
  · rintro (h | h)
    · obtain ⟨hlow, hhigh⟩ := Char.isDigit_iff_toNat.mp h
      have hall : ∀ n < 58, 48 ≤ n → Char.ofNat n ∈ "0123456789+-eE.".toList := by
        simp only [String.toList]
        decide
      have := hall c.toNat (by have : '9'.toNat = 57 := rfl; omega) (by have : '0'.toNat = 48 := rfl; omega)
      rwa [Char.ofNat_toNat] at this
    · have hall : ∀ d ∈ ['-', '+', '.', 'e', 'E'], d ∈ "0123456789+-eE.".toList :=
        List.all_iff_forall_prop.mp (by decide)
      exact hall c h

/-- A character that is none of a number ends the run. -/
theorem shortNumbers_other {c : Char} (hquote : c ≠ '"') (hc : ¬ Numeral.IsNumeralChar c) (run : Nat) (s : List Char) :
    ShortNumbers (.outside run) (c :: s) ↔ ShortNumbers (.outside 0) s := by
  have hstep : (Place.outside run).step c = some (.outside 0) := by
    unfold Place.step
    dsimp only
    rw [if_neg hquote, if_neg fun h => hc ((isNumberChar_iff c).mp h)]
  simp [shortNumbers_cons, hstep]

/-- A number that is not too long, and what follows it. -/
theorem shortNumbers_run {w : List Char} (hw : ∀ c ∈ w, Numeral.IsNumeralChar c) {run : Nat} (hrun : run ≤ 63)
    (s : List Char) : ShortNumbers (.outside run) (w ++ s) ↔
      run + w.length ≤ 63 ∧ ShortNumbers (.outside (run + w.length)) s := by
  induction w generalizing run with
  | nil => simp [hrun]
  | cons c w ih =>
    rw [List.forall_mem_cons] at hw
    have hquote : c ≠ '"' := by
      rintro rfl
      exact absurd hw.1 (by unfold Numeral.IsNumeralChar; decide)
    have hstep : (Place.outside run).step c = if run < 63 then some (.outside (run + 1)) else none := by
      unfold Place.step
      dsimp only
      rw [if_neg hquote, if_pos ((isNumberChar_iff c).mpr hw.1)]
    rw [List.cons_append, shortNumbers_cons, hstep, List.length_cons]
    split_ifs with hlt
    · have hsum : run + (w.length + 1) = run + 1 + w.length := by omega
      rw [hsum, ← ih hw.2 (by omega)]
      simp
    · simp
      omega

/-- Behind a value a run has come to an end. -/
theorem shortNumbers_follows {r : List Char} (h : Follows r) (run : Nat) :
    ShortNumbers (.outside run) r ↔ ShortNumbers (.outside 0) r := by
  cases r with
  | nil => exact Iff.rfl
  | cons c r =>
    have hc := h c rfl
    have hquote : c ≠ '"' := by
      rintro rfl
      exact absurd hc (by unfold IsFollow; decide)
    rw [shortNumbers_other hquote (not_isNumeralChar_of_isFollow hc),
      shortNumbers_other hquote (not_isNumeralChar_of_isFollow hc)]

theorem shortNumbers_ws {s r : List Char} (h : Ws s r) :
    ShortNumbers (.outside 0) s ↔ ShortNumbers (.outside 0) r := by
  induction h with
  | none => exact Iff.rfl
  | @skip c s r hc _ ih =>
    have hfollow : IsFollow c := by
      unfold IsFollow
      simp only [List.mem_cons, List.not_mem_nil, or_false] at hc
      rcases hc with rfl | rfl | rfl | rfl <;> decide
    have hquote : c ≠ '"' := by
      rintro rfl
      exact absurd hfollow (by unfold IsFollow; decide)
    rw [shortNumbers_other hquote (not_isNumeralChar_of_isFollow hfollow), ih]

/-- A string counts for nothing. -/
theorem shortNumbers_chars {s r : List Char} {p : List StrItem} (h : Chars s p r) :
    ShortNumbers .inside s ↔ ShortNumbers (.outside 0) r := by
  induction h with
  | close r => simp [shortNumbers_cons, Place.step]
  | plain hc _ ih =>
    rw [← ih]
    simp [shortNumbers_cons, Place.step, hc.2.1, hc.2.2]
  | escaped _ _ ih =>
    rw [← ih]
    simp [shortNumbers_cons, Place.step]
  | unicode hhex _ ih =>
    simp only [List.forall_mem_cons] at hhex
    obtain ⟨h1, h2, h3, h4, -⟩ := hhex
    rw [← ih]
    simp [shortNumbers_cons, Place.step, isHex_plain h1, isHex_plain h2, isHex_plain h3, isHex_plain h4]

theorem shortNumbers_string {s r : List Char} {p : List StrItem} (h : Chars s p r) (run : Nat) :
    ShortNumbers (.outside run) ('"' :: s) ↔ ShortNumbers (.outside 0) r := by
  rw [← shortNumbers_chars h]
  simp [shortNumbers_cons, Place.step]

/-- **A number** that is not too long is read as the double next to it. -/
theorem parseNumber_reads {n : Numeral} {r : List Char} {b : ParseBuffer} (h : n.Valid) (hb : b.At (n.text ++ r))
    (hr : Follows r) (hlen : n.text.length ≤ 63) :
    Reads (parseNumber b) (some (.number (nearest n.value))) r := by
  have hcopy : ((n.text ++ r ++ [nul]).take 63).takeWhile isNumberChar = n.text := by
    rw [List.append_assoc, List.take_append, List.take_of_length_le hlen,
      List.takeWhile_append_of_pos fun c hc => (isNumberChar_iff c).mpr (h.isNumeralChar c hc)]
    have hstop : ((r ++ [nul]).take (63 - n.text.length)).takeWhile isNumberChar = [] := by
      cases hm : 63 - n.text.length with
      | zero => rfl
      | succ m =>
        cases r with
        | nil => rfl
        | cons c r =>
          have hc := not_isNumeralChar_of_isFollow (hr c rfl)
          rw [List.cons_append, List.take_succ_cons, List.takeWhile_cons_of_neg]
          rwa [isNumberChar_iff]
    rw [hstop, List.append_nil]
  have hread : strtod n.text = some (nearest n.value, []) := by
    have := strtod_text h stops_nil
    rwa [List.append_nil] at this
  unfold parseNumber
  dsimp only
  rw [hb.rest, hcopy, hread]
  exact ⟨_, rfl, hb.advance⟩

/-! ## Values -/

section
variable {b : ParseBuffer} {c : Char} {s t r : List Char}

theorem JsonText.Ws.dropWhile_eq (h : Ws s (c :: t)) (hc : 32 < c.toNat) : s.dropWhile isBlank = c :: t := by
  generalize hr : c :: t = r at h
  induction h with
  | none =>
    rw [← hr, List.dropWhile_cons_of_neg]
    simpa [isBlank] using hc
  | @skip d s r hd _ ih =>
    have hblank : isBlank d = true := by
      simp only [List.mem_cons, List.not_mem_nil, or_false] at hd
      rcases hd with rfl | rfl | rfl | rfl <;> rfl
    rw [List.dropWhile_cons_of_pos hblank, ih hr]

theorem At.skip_ws (hb : b.At s) (h : Ws s (c :: t)) (hc : 32 < c.toNat) : b.skipWhitespace.At (c :: t) := by
  rw [← h.dropWhile_eq hc]
  exact hb.skipWhitespace

theorem At.sees (hb : b.At (c :: s)) (hc : c ≠ nul) : b.sees c = true := (hb.sees_iff hc).mpr ⟨s, rfl⟩

theorem At.not_sees (hb : b.At (c :: s)) {d : Char} (hd : d ≠ nul) (hne : c ≠ d) : ¬ b.sees d = true := by
  rw [hb.sees_iff hd]
  rintro ⟨t, ht⟩
  exact hne (List.cons.inj ht).1

theorem At.not_startsWith (hb : b.At (c :: s)) {d : Char} {w : List Char} (hw : nul ∉ w)
    (hhead : w.head? = some d) (hne : c ≠ d) : ¬ b.startsWith w = true := by
  rw [hb.startsWith_iff hw]
  rintro ⟨t, ht⟩
  obtain ⟨w, rfl⟩ := List.head?_eq_some_iff.mp hhead
  exact hne (List.cons.inj ht).1.symm

section
variable {α : Type} {parseItem : ParseBuffer → Except ParseFault (α × ParseBuffer)} {o : Option (List α)}
  {opening close : Char}

theorem parseClosed_empty (hb : b.At (opening :: s)) (h : Ws s (close :: r)) (hclose : 32 < close.toNat) :
    Reads (parseClosed close parseItem b) (some []) r := by
  have hat := At.skip_ws hb.advance_one h hclose
  unfold parseClosed
  dsimp only
  rw [if_pos (At.sees hat (by rintro rfl; exact absurd hclose (by decide)))]
  exact ⟨_, rfl, hat.advance_one⟩

/-- A list that is not empty, from the opening bracket on. -/
theorem parseClosed_reads (hb : b.At (opening :: s)) (h : Ws s (c :: t)) (hc : 32 < c.toNat) (hne : c ≠ close)
    (hclose : close ≠ nul) (hlist : ∀ n b, (b.advance 1).skipWhitespace.At (c :: t) → (c :: t).length < n →
      Reads (parseList parseItem n b) o (close :: r)) : Reads (parseClosed close parseItem b) o r := by
  have hat := At.skip_ws hb.advance_one h hc
  have hlen := hat.length_eq
  unfold parseClosed
  dsimp only
  rw [if_neg (At.not_sees hat hclose hne), if_neg (by omega)]
  have hloop := hlist (b.advance 1).skipWhitespace.length
    { (b.advance 1).skipWhitespace with offset := (b.advance 1).skipWhitespace.offset - 1 }
    (by
      rw [advance_back (offset_pos hb.advance_one)]
      exact At.skip_ws hat (.none _) hc) (by omega)
  cases o with
  | none =>
    rw [show parseList parseItem _ _ = .error .failed from hloop]
    rfl
  | some items =>
    obtain ⟨b', hrun, hat'⟩ := hloop
    rw [hrun, ok_bind]
    dsimp only
    rw [if_pos (At.sees hat' hclose)]
    exact ⟨_, rfl, hat'.advance_one⟩

/-- The last round of a loop. -/
theorem parseList_last {n : Nat} {o : Option α} (hat : (b.advance 1).skipWhitespace.At s)
    (hitem : ∀ b, ParseBuffer.At b s → Reads (parseItem b) o t) (h : Ws t (close :: r)) (hclose : 32 < close.toNat)
    (hcomma : close ≠ ',') (hn : s.length < n) :
    Reads (parseList parseItem n b) (o >>= fun item => some [item]) (close :: r) := by
  cases n with
  | zero => omega
  | succ n =>
    unfold parseList
    refine (hitem _ hat).bind fun item b' hat' => ?_
    have hend := At.skip_ws hat' h hclose
    dsimp only
    rw [if_neg (At.not_sees hend (by decide) hcomma)]
    exact ⟨_, rfl, hend⟩

/-- A round of a loop that goes on. -/
theorem parseList_more {n : Nat} {o : Option α} {os : Option (List α)} {t' u : List Char}
    (hat : (b.advance 1).skipWhitespace.At s) (hitem : ∀ b, ParseBuffer.At b s → Reads (parseItem b) o t)
    (h : Ws t (',' :: t')) (h' : Ws t' (c :: u)) (hc : 32 < c.toNat) (hu : (c :: u).length < s.length)
    (hlist : ∀ n b, (b.advance 1).skipWhitespace.At (c :: u) → (c :: u).length < n →
      Reads (parseList parseItem n b) os r) (hn : s.length < n) :
    Reads (parseList parseItem n b) (o >>= fun item => os >>= fun items => some (item :: items)) r := by
  cases n with
  | zero => omega
  | succ n =>
    unfold parseList
    refine (hitem _ hat).bind fun item b' hat' => ?_
    have hend := At.skip_ws hat' h (by decide)
    dsimp only
    rw [if_pos (At.sees hend (by decide))]
    refine (hlist n _ (At.skip_ws hend.advance_one h' hc) (by omega)).bind fun items b'' hat'' => ?_
    exact ⟨_, rfl, hat''⟩

end

end

/-! ## Which value -/

section
variable {b : ParseBuffer} {s t r : List Char}

theorem parseValue_null (hb : b.At ('n' :: 'u' :: 'l' :: 'l' :: r)) (levels : Nat) :
    Reads (parseValue levels b) (some .null) r := by
  rw [parseValue.eq_def, if_pos ((hb.startsWith_iff (by decide)).mpr ⟨r, rfl⟩)]
  exact ⟨_, rfl, At.advance (w := "null".toList) hb⟩

theorem parseValue_false (hb : b.At ('f' :: 'a' :: 'l' :: 's' :: 'e' :: r)) (levels : Nat) :
    Reads (parseValue levels b) (some (.bool false)) r := by
  rw [parseValue.eq_def, if_neg (At.not_startsWith hb (by decide) rfl (by decide)),
    if_pos ((hb.startsWith_iff (by decide)).mpr ⟨r, rfl⟩)]
  exact ⟨_, rfl, At.advance (w := "false".toList) hb⟩

theorem parseValue_true (hb : b.At ('t' :: 'r' :: 'u' :: 'e' :: r)) (levels : Nat) :
    Reads (parseValue levels b) (some (.bool true)) r := by
  rw [parseValue.eq_def, if_neg (At.not_startsWith hb (by decide) rfl (by decide)),
    if_neg (At.not_startsWith hb (by decide) rfl (by decide)), if_pos ((hb.startsWith_iff (by decide)).mpr ⟨r, rfl⟩)]
  exact ⟨_, rfl, At.advance (w := "true".toList) hb⟩

/-- Where no word begins. -/
theorem At.no_word {c : Char} (hb : b.At (c :: s)) (hc : c ∉ ['n', 'f', 't']) :
    ¬ b.startsWith "null".toList = true ∧ ¬ b.startsWith "false".toList = true ∧
      ¬ b.startsWith "true".toList = true := by
  simp only [List.mem_cons, List.not_mem_nil, or_false, not_or] at hc
  exact ⟨At.not_startsWith hb (by decide) rfl hc.1, At.not_startsWith hb (by decide) rfl hc.2.1,
    At.not_startsWith hb (by decide) rfl hc.2.2⟩

theorem parseValue_string {p : List StrItem} (hb : b.At ('"' :: s)) (h : Chars s p r) (levels : Nat) :
    Reads (parseValue levels b) ((meaning p).map fun s => .string (cText s)) r := by
  obtain ⟨hnull, hfalse, htrue⟩ := At.no_word hb (by decide)
  rw [parseValue.eq_def, if_neg hnull, if_neg hfalse, if_neg htrue, if_pos (At.sees hb (by decide))]
  have := (parseString_reads h hb).map CJson.string
  rwa [Option.map_map] at this

theorem sees_number {c : Char} (hb : b.At (c :: s)) : "-0123456789".toList.any b.sees = true ↔
    c ∈ "-0123456789".toList := by
  rw [List.any_eq_true]
  constructor
  · rintro ⟨d, hd, hsees⟩
    have hnul : ∀ e ∈ "-0123456789".toList, e ≠ nul := List.all_iff_forall_prop.mp (by decide)
    obtain ⟨t, ht⟩ := (hb.sees_iff (hnul d hd)).mp hsees
    rwa [(List.cons.inj ht).1]
  · intro hc
    exact ⟨c, hc, At.sees hb (by rintro rfl; exact absurd hc (by decide))⟩

theorem number_head {n : Numeral} (h : n.Valid) : ∃ c w, n.text = c :: w ∧ (c = '-' ∨ c.isDigit = true) := by
  obtain ⟨d, ds, hwhole⟩ := List.exists_cons_of_ne_nil h.ne_nil
  have hd := h.whole d (hwhole ▸ List.mem_cons_self)
  rw [text_eq, hwhole]
  cases n.minus with
  | true => exact ⟨'-', _, rfl, .inl rfl⟩
  | false => exact ⟨d, _, rfl, .inr hd⟩

/-- A number is recognised by its first character. -/
theorem parseValue_eq_parseNumber {n : Numeral} (hb : b.At (n.text ++ r)) (h : n.Valid) (levels : Nat) :
    parseValue levels b = parseNumber b := by
  obtain ⟨c, w, htext, hc⟩ := number_head h
  rw [htext, List.cons_append] at hb
  have hmem : c ∈ "-0123456789".toList := by
    rcases hc with rfl | hc
    · decide
    · obtain ⟨hlow, hhigh⟩ := Char.isDigit_iff_toNat.mp hc
      have hall : ∀ n < 58, 48 ≤ n → Char.ofNat n ∈ "-0123456789".toList := by
        simp only [String.toList]
        decide
      have := hall c.toNat (by have : '9'.toNat = 57 := rfl; omega) (by have : '0'.toNat = 48 := rfl; omega)
      rwa [Char.ofNat_toNat] at this
  have hne : ∀ d : Char, d ∉ "-0123456789".toList → c ≠ d := by
    rintro d hd rfl
    exact hd hmem
  obtain ⟨hnull, hfalse, htrue⟩ := At.no_word hb (by
    simp only [List.mem_cons, List.not_mem_nil, or_false, not_or]
    exact ⟨hne _ (by decide), hne _ (by decide), hne _ (by decide)⟩)
  rw [parseValue.eq_def, if_neg hnull, if_neg hfalse, if_neg htrue,
    if_neg (At.not_sees hb (by decide) (hne _ (by decide))), if_pos ((sees_number hb).mpr hmem)]

theorem parseValue_number {n : Numeral} (hb : b.At (n.text ++ r)) (h : n.Valid) (hr : Follows r)
    (hlen : n.text.length ≤ 63) (levels : Nat) :
    Reads (parseValue levels b) (some (.number (nearest n.value))) r := by
  rw [parseValue_eq_parseNumber hb h]
  exact parseNumber_reads h hb hr hlen

theorem parseValue_array (hb : b.At ('[' :: s)) (levels : Nat) :
    parseValue levels b = match levels with
      | 0 => .error .failed
      | levels + 1 => parseClosed ']' (parseValue levels) b >>= fun a => .ok (.array a.1, a.2) := by
  obtain ⟨hnull, hfalse, htrue⟩ := At.no_word hb (by decide)
  rw [parseValue.eq_def, if_neg hnull, if_neg hfalse, if_neg htrue,
    if_neg (At.not_sees hb (by decide) (by decide)), if_neg (by rw [sees_number hb]; decide),
    if_pos (At.sees hb (by decide))]
  cases levels with
  | zero => rfl
  | succ levels =>
    dsimp only
    unfold parseArray
    rw [hb.charAt (i := 0) rfl]
    rfl

theorem parseValue_object (hb : b.At ('{' :: s)) (levels : Nat) :
    parseValue levels b = match levels with
      | 0 => .error .failed
      | levels + 1 => parseClosed '}' (parseMember (parseValue levels)) b >>= fun a => .ok (.object a.1, a.2) := by
  obtain ⟨hnull, hfalse, htrue⟩ := At.no_word hb (by decide)
  rw [parseValue.eq_def, if_neg hnull, if_neg hfalse, if_neg htrue,
    if_neg (At.not_sees hb (by decide) (by decide)), if_neg (by rw [sees_number hb]; decide),
    if_neg (At.not_sees hb (by decide) (by decide)), if_pos (At.sees hb (by decide))]
  cases levels with
  | zero => rfl
  | succ levels =>
    dsimp only
    unfold parseObject
    rw [if_pos (At.sees hb (by decide))]
    rfl

end

/-! ## Trees -/

theorem treeItems_cons (levels : Nat) (v : Json) (vs : List Json) :
    treeItems levels (v :: vs) = v.tree levels >>= fun item => treeItems levels vs >>= fun items =>
      some (item :: items) := rfl

theorem treeItems_single (levels : Nat) (v : Json) :
    treeItems levels [v] = v.tree levels >>= fun item => some [item] := by
  rw [treeItems_cons]
  cases v.tree levels <;> rfl

/-- The member of a tree. -/
def treeMember (levels : Nat) (m : List StrItem × Json) : Option (String × CJson) := do
  let name ← meaning m.1
  let item ← m.2.tree levels
  return (String.ofList (cText name), item)

theorem treeMembers_cons (levels : Nat) (m : List StrItem × Json) (ms : List (List StrItem × Json)) :
    treeMembers levels (m :: ms) = treeMember levels m >>= fun member => treeMembers levels ms >>= fun members =>
      some (member :: members) := by
  obtain ⟨name, v⟩ := m
  unfold treeMember
  rw [treeMembers]
  cases meaning name with
  | none => rfl
  | some name => cases v.tree levels <;> rfl

theorem treeMembers_single (levels : Nat) (m : List StrItem × Json) :
    treeMembers levels [m] = treeMember levels m >>= fun member => some [member] := by
  rw [treeMembers_cons]
  cases treeMember levels m <;> rfl

theorem follows_close {c : Char} {t r : List Char} (h : Ws t (c :: r)) (hc : IsFollow c) : Follows t :=
  h.follows (follows_cons hc)

mutual

/-- **A value** is read as its tree. -/
theorem parseValue_reads {s r : List Char} {v : Json} (h : Value s v r) (hr : Follows r)
    (hs : ShortNumbers (.outside 0) s) :
    ShortNumbers (.outside 0) r ∧ ∀ levels b, ParseBuffer.At b s → Reads (parseValue levels b) (v.tree levels) r := by
  match h with
  | .null r =>
    refine ⟨?_, fun levels b hb => by rw [Json.tree]; exact parseValue_null hb levels⟩
    simpa [shortNumbers_cons, Place.step, isNumberChar] using hs
  | .true r =>
    refine ⟨?_, fun levels b hb => by rw [Json.tree]; exact parseValue_true hb levels⟩
    rw [← shortNumbers_follows hr 1]
    simpa [shortNumbers_cons, Place.step, isNumberChar] using hs
  | .false r =>
    refine ⟨?_, fun levels b hb => by rw [Json.tree]; exact parseValue_false hb levels⟩
    rw [← shortNumbers_follows hr 1]
    simpa [shortNumbers_cons, Place.step, isNumberChar] using hs
  | .number n hvalid htext =>
    subst htext
    obtain ⟨hlen, hrest⟩ := (shortNumbers_run hvalid.isNumeralChar (by omega) r).mp hs
    rw [Nat.zero_add] at hlen
    refine ⟨(shortNumbers_follows hr _).mp hrest, fun levels b hb => ?_⟩
    rw [Json.tree]
    exact parseValue_number hb hvalid hr hlen levels
  | .string hchars =>
    refine ⟨(shortNumbers_string hchars 0).mp hs, fun levels b hb => ?_⟩
    rw [Json.tree]
    exact parseValue_string hb hchars levels
  | .noItems hws =>
    rw [shortNumbers_other (by decide) (by unfold Numeral.IsNumeralChar; decide), shortNumbers_ws hws,
      shortNumbers_other (by decide) (by unfold Numeral.IsNumeralChar; decide)] at hs
    refine ⟨hs, fun levels b hb => ?_⟩
    rw [parseValue_array hb]
    cases levels with
    | zero => rfl
    | succ levels => exact (parseClosed_empty hb hws (by decide)).map CJson.array
  | .items hws hitems =>
    rw [shortNumbers_other (by decide) (by unfold Numeral.IsNumeralChar; decide), shortNumbers_ws hws] at hs
    obtain ⟨hrest, c, t, rfl, hfollow, hc, hlist⟩ := parseList_items hitems hs
    refine ⟨hrest, fun levels b hb => ?_⟩
    rw [parseValue_array hb]
    cases levels with
    | zero => rfl
    | succ levels =>
      have hne : c ≠ ']' := by rintro rfl; exact hfollow (by unfold IsFollow; decide)
      exact (parseClosed_reads hb hws hc hne (by decide) (hlist levels)).map CJson.array
  | .noMembers hws =>
    rw [shortNumbers_other (by decide) (by unfold Numeral.IsNumeralChar; decide), shortNumbers_ws hws,
      shortNumbers_other (by decide) (by unfold Numeral.IsNumeralChar; decide)] at hs
    refine ⟨hs, fun levels b hb => ?_⟩
    rw [parseValue_object hb]
    cases levels with
    | zero => rfl
    | succ levels => exact (parseClosed_empty hb hws (by decide)).map CJson.object
  | .members hws hmembers =>
    rw [shortNumbers_other (by decide) (by unfold Numeral.IsNumeralChar; decide), shortNumbers_ws hws] at hs
    obtain ⟨hrest, t, rfl, hlist⟩ := parseList_members hmembers hs
    refine ⟨hrest, fun levels b hb => ?_⟩
    rw [parseValue_object hb]
    cases levels with
    | zero => rfl
    | succ levels =>
      exact (parseClosed_reads hb hws (by decide) (by decide) (by decide) (hlist levels)).map CJson.object

theorem parseList_items {s r : List Char} {vs : List Json} (h : Items s vs r) (hs : ShortNumbers (.outside 0) s) :
    ShortNumbers (.outside 0) r ∧ ∃ c t, s = c :: t ∧ ¬ IsFollow c ∧ 32 < c.toNat ∧ ∀ levels n b,
      (ParseBuffer.advance b 1).skipWhitespace.At (c :: t) → (c :: t).length < n →
        Reads (parseList (parseValue levels) n b) (treeItems levels vs) (']' :: r) := by
  match h with
  | .last hv hws =>
    obtain ⟨hrest, hread⟩ := parseValue_reads hv (follows_close hws (by unfold IsFollow; decide)) hs
    obtain ⟨c, t, rfl, hfollow, hc, -⟩ := hv.head
    rw [shortNumbers_ws hws, shortNumbers_other (by decide) (by unfold Numeral.IsNumeralChar; decide)] at hrest
    refine ⟨hrest, c, t, rfl, hfollow, hc, fun levels n b hat hn => ?_⟩
    rw [treeItems_single]
    exact parseList_last hat (hread levels) hws (by decide) (by decide) hn
  | .more hv hws hws' hitems =>
    obtain ⟨hrest, hread⟩ := parseValue_reads hv (follows_close hws (by unfold IsFollow; decide)) hs
    have hlt := hv.length_lt
    have hle := hws.length_le
    have hle' := hws'.length_le
    obtain ⟨c, t, rfl, hfollow, hc, -⟩ := hv.head
    rw [shortNumbers_ws hws, shortNumbers_other (by decide) (by unfold Numeral.IsNumeralChar; decide),
      shortNumbers_ws hws'] at hrest
    obtain ⟨hend, c', t', rfl, -, hc', hlist⟩ := parseList_items hitems hrest
    refine ⟨hend, c, t, rfl, hfollow, hc, fun levels n b hat hn => ?_⟩
    rw [treeItems_cons]
    exact parseList_more hat (hread levels) hws hws' hc' (by simp only [List.length_cons] at *; omega)
      (hlist levels) hn

theorem parseMember_reads {s r : List Char} {m : List StrItem × Json} (h : Member s m r) (hr : Follows r)
    (hs : ShortNumbers (.outside 0) s) :
    ShortNumbers (.outside 0) r ∧ (∃ t, s = '"' :: t) ∧ ∀ levels b, ParseBuffer.At b s →
      Reads (parseMember (parseValue levels) b) (treeMember levels m) r := by
  match h with
  | .mk hname hws hws' hv =>
    rw [shortNumbers_string hname, shortNumbers_ws hws,
      shortNumbers_other (by decide) (by unfold Numeral.IsNumeralChar; decide), shortNumbers_ws hws'] at hs
    obtain ⟨hrest, hread⟩ := parseValue_reads hv hr hs
    obtain ⟨c, t, rfl, hfollow, hc, -⟩ := hv.head
    refine ⟨hrest, ⟨_, rfl⟩, fun levels b hb => ?_⟩
    unfold parseMember treeMember
    have hstring := parseString_reads hname hb
    cases hmeaning : meaning _ with
    | none =>
      rw [hmeaning] at hstring
      rw [show parseString b = .error .failed from hstring]
      rfl
    | some name =>
      rw [hmeaning] at hstring
      obtain ⟨b', hrun, hat⟩ := hstring
      have hcolon := At.skip_ws hat hws (by decide)
      rw [hrun, ok_bind]
      dsimp only
      rw [if_pos (At.sees hcolon (by decide))]
      exact (hread levels _ (At.skip_ws hcolon.advance_one hws' hc)).bind fun item b'' hat' => ⟨b'', rfl, hat'⟩

theorem parseList_members {s r : List Char} {ms : List (List StrItem × Json)} (h : Members s ms r)
    (hs : ShortNumbers (.outside 0) s) :
    ShortNumbers (.outside 0) r ∧ ∃ t, s = '"' :: t ∧ ∀ levels n b,
      (ParseBuffer.advance b 1).skipWhitespace.At ('"' :: t) → ('"' :: t).length < n →
        Reads (parseList (parseMember (parseValue levels)) n b) (treeMembers levels ms) ('}' :: r) := by
  match h with
  | .last hm hws =>
    obtain ⟨hrest, ⟨t, rfl⟩, hread⟩ := parseMember_reads hm (follows_close hws (by unfold IsFollow; decide)) hs
    rw [shortNumbers_ws hws, shortNumbers_other (by decide) (by unfold Numeral.IsNumeralChar; decide)] at hrest
    refine ⟨hrest, t, rfl, fun levels n b hat hn => ?_⟩
    rw [treeMembers_single]
    exact parseList_last hat (hread levels) hws (by decide) (by decide) hn
  | .more hm hws hws' hmembers =>
    obtain ⟨hrest, ⟨t, rfl⟩, hread⟩ := parseMember_reads hm (follows_close hws (by unfold IsFollow; decide)) hs
    have hlt := hm.length_lt
    have hle := hws.length_le
    have hle' := hws'.length_le
    rw [shortNumbers_ws hws, shortNumbers_other (by decide) (by unfold Numeral.IsNumeralChar; decide),
      shortNumbers_ws hws'] at hrest
    obtain ⟨hend, t', rfl, hlist⟩ := parseList_members hmembers hrest
    refine ⟨hend, t, rfl, fun levels n b hat hn => ?_⟩
    rw [treeMembers_cons]
    exact parseList_more hat (hread levels) hws hws' (by decide) (by simp only [List.length_cons] at *; omega)
      (hlist levels) hn

end

/-- A text does not begin with a mark of its byte order. -/
theorem skipUtf8Bom_isText {s t r : List Char} {v : Json} (hws : Ws s t) (h : Value t v r) :
    ParseBuffer.skipUtf8Bom ⟨s ++ [nul], 0⟩ = ⟨s ++ [nul], 0⟩ := by
  have hhead : ∃ c s', s = c :: s' ∧ c.toNat < 128 := by
    cases hws with
    | none =>
      obtain ⟨c, t, rfl, -, -, hc⟩ := h.head
      exact ⟨c, t, rfl, hc⟩
    | @skip c s _ hc _ =>
      refine ⟨c, s, rfl, ?_⟩
      simp only [List.mem_cons, List.not_mem_nil, or_false] at hc
      rcases hc with rfl | rfl | rfl | rfl <;> decide
  obtain ⟨c, s', rfl, hc⟩ := hhead
  unfold ParseBuffer.skipUtf8Bom
  rw [if_neg]
  rintro ⟨-, hbom⟩
  rw [List.drop_zero, List.cons_append, List.take_succ_cons] at hbom
  obtain ⟨rfl, -⟩ := List.cons.inj hbom
  exact absurd hc (by decide)

theorem cJsonParse_isText {s : List Char} {v : Json} (h : IsText s v) (hnul : nul ∉ s)
    (hs : ShortNumbers (.outside 0) s) : cJsonParse s = v.tree nestingLimit := by
  obtain ⟨t, r, hws, hvalue, hend⟩ := h
  rw [shortNumbers_ws hws] at hs
  obtain ⟨-, hread⟩ := parseValue_reads hvalue (hend.follows follows_nil) hs
  obtain ⟨c, t', rfl, -, hc, -⟩ := hvalue.head
  have hread := hread nestingLimit _ (At.skip_ws (at_start hnul) hws hc)
  unfold cJsonParse parseText
  rw [skipUtf8Bom_isText hws hvalue]
  dsimp only
  cases htree : v.tree nestingLimit with
  | none =>
    rw [htree] at hread
    rw [show parseValue nestingLimit _ = .error .failed from hread]
    rfl
  | some item =>
    rw [htree] at hread
    obtain ⟨b, hrun, -⟩ := hread
    rw [hrun]
    rfl

/-- **A JSON text** is parsed to the tree of its meaning, and rejected where it has none: half a
character, or more lists in one another than the limit. -/
theorem parse_isText (s : List Char) (v : Json) (h : IsText s v) (hnul : nul ∉ s)
    (hs : ShortNumbers (.outside 0) s) : cJsonParse s = v.tree nestingLimit := cJsonParse_isText h hnul hs

theorem parse_isText_object :
    cJsonParse (objectText "t".toList "12".toList) = some (.object [("t", .number 12)]) := by
  have hvalue : Value ("12".toList ++ ['}']) (.number 12) ['}'] := value_ofNat 12 ['}']
  rw [parse_isText _ _ (isText_object _ _ (isPlain_of_all (by decide)) hvalue) (by decide) (by decide)]
  have hnumber : nearest 12 = 12 := (isDouble_intCast (n := 12) (by norm_num)).nearest_eq
  simp only [nestingLimit, Json.tree, treeMembers, meaning_plainStr, hnumber]
  rfl

end Growbox
