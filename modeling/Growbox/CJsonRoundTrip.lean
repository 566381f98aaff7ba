import Growbox.CJsonText

/-!
# `cJSON.c`: printing and parsing

What the printer makes of a tree is a JSON text that means this tree (`render_isText`).  Parsed
again it is the tree, as long as no more lists are in one another than the parser allows, and
only then (`parse_print`).
-/

namespace Growbox

open JsonText NumberText Double

/-- What the server builds: C strings and doubles. -/
inductive CJson.Printable : CJson → Prop
  | null : Printable .null
  | bool (b : Bool) : Printable (.bool b)
  | number {d : Rat} : IsDouble d → Printable (.number d)
  | string {s : CStr} : nul ∉ s → Printable (.string s)
  | array {items : List CJson} : (∀ v ∈ items, v.Printable) → Printable (.array items)
  | object {members : List (String × CJson)} :
      (∀ m ∈ members, nul ∉ m.1.toList) → (∀ m ∈ members, m.2.Printable) → Printable (.object members)

theorem CJson.Printable.writable {t : CJson} (h : t.Printable) : t.Writable := by
  induction h with
  | null => exact .null
  | bool b => exact .bool b
  | number hd => exact .number (.inl hd)
  | string hs => exact .string hs
  | array _ ih => exact .array ih
  | object hnames _ ih => exact .object hnames ih

/-! ## Strings -/

/-- A character as the printer writes it. -/
def escapeItem (c : Char) : StrItem :=
  if 31 < c.toNat ∧ c ≠ '"' ∧ c ≠ '\\' then .plain c
  else
    match shortEscape c with
    | some e => .escaped e
    | none => .unicode (hex4 c.toNat)

theorem hex4_hex : ∀ n < 32, hexValue (hex4 n) = n ∧ utf8 n = [Char.ofNat n] ∧
    ∀ c ∈ hex4 n, c.isDigit = true ∨ c ∈ "abcdefABCDEF".toList := by
  simp only [← List.all_iff_forall_prop]
  decide

/-- The escapes of two characters, and what they stand for. -/
theorem shortEscape_some {c e : Char} (h : shortEscape c = some e) :
    e ∈ "\"\\/bfnrt".toList ∧ escapedChar e = c := by
  unfold shortEscape at h
  split_ifs at h with h1 h2 h3 h4 h5 h6 h7
  all_goals
    cases h
    subst_vars
    exact ⟨by decide, by decide⟩

theorem chars_escape {c : Char} {s r : List Char} {p : List StrItem} (h : Chars s p r) :
    Chars (escape c ++ s) (escapeItem c :: p) r := by
  unfold escape escapeItem
  by_cases hplain : 31 < c.toNat ∧ c ≠ '"' ∧ c ≠ '\\'
  · rw [if_pos hplain, if_pos hplain]
    exact .plain hplain h
  rw [if_neg hplain, if_neg hplain]
  cases hshort : shortEscape c with
  | some e => exact .escaped (shortEscape_some hshort).1 h
  | none =>
    have hlt := lt_of_shortEscape hplain hshort
    obtain ⟨-, -, hhex⟩ := hex4_hex _ hlt
    have hlen := (hex4_facts _ hlt).1
    dsimp only
    match hd : hex4 c.toNat, hlen with
    | [c₁, c₂, c₃, c₄], _ =>
      rw [hd] at hhex
      exact .unicode hhex h

theorem chars_renderString (s : CStr) (r : List Char) :
    Chars (s.flatMap escape ++ '"' :: r) (s.map escapeItem) r := by
  induction s with
  | nil => exact .close r
  | cons c s ih =>
    rw [List.flatMap_cons, List.append_assoc]
    exact chars_escape ih

theorem meaning_escapeItem (c : Char) (p : List StrItem) :
    meaning (escapeItem c :: p) = (meaning p).map (c :: ·) := by
  unfold escapeItem
  split_ifs with hplain
  · rfl
  cases hshort : shortEscape c with
  | some e =>
    have := (shortEscape_some hshort).2
    show (meaning p).map (escapedChar e :: ·) = _
    rw [this]
  | none =>
    have hlt := lt_of_shortEscape hplain hshort
    obtain ⟨hvalue, hutf, -⟩ := hex4_hex _ hlt
    have hlow : ¬ IsLowSurrogate (hexValue (hex4 c.toNat)) := by
      rw [hvalue]
      unfold IsLowSurrogate
      omega
    have hhigh : ¬ IsHighSurrogate (hexValue (hex4 c.toNat)) := by
      rw [hvalue]
      unfold IsHighSurrogate
      omega
    dsimp only
    rw [meaning_of_unit hlow hhigh, hvalue, hutf, Char.ofNat_toNat]
    rfl

/-- **A string is printed as what it is.** -/
theorem meaning_map_escapeItem (s : CStr) : meaning (s.map escapeItem) = some s := by
  induction s with
  | nil => rfl
  | cons c s ih =>
    rw [List.map_cons, meaning_escapeItem, ih]
    rfl

/-! ## Numbers -/

/-- **A number is printed as what it is**: 15 digits are tried out, and 17 are enough. -/
theorem exists_numeral {d : Rat} (hd : IsDouble d) :
    ∃ n : Numeral, n.Valid ∧ numberText d = n.text ∧ nearest n.value = d := by
  have hvalid15 : (printG 15 d).Valid := printG_valid (by norm_num) d
  have hvalid17 : (printG 17 d).Valid := printG_valid (by norm_num) d
  have hread15 : strtod (printG 15 d).text = some (nearest (printG 15 d).value, []) := by
    have := strtod_text hvalid15 stops_nil
    rwa [List.append_nil] at this
  have hread17 : nearest (printG 17 d).value = d := by
    have htext := strtod_text hvalid17 stops_nil
    rw [strtod_printG hd stops_nil] at htext
    exact (Prod.ext_iff.mp (Option.some.inj htext)).1.symm
  unfold numberText
  rw [if_neg (not_le.mpr hd.abs_lt_huge), hread15]
  dsimp only
  split_ifs with hne
  · exact ⟨_, hvalid17, rfl, hread17⟩
  · exact ⟨_, hvalid15, rfl, not_not.mp hne⟩

/-! ## Nesting -/

mutual

/-- How many lists are in one another. -/
def CJson.nesting : CJson → Nat
  | .array items => nestingItems items + 1
  | .object members => nestingMembers members + 1
  | _ => 0

def nestingItems : List CJson → Nat
  | [] => 0
  | v :: vs => max v.nesting (nestingItems vs)

def nestingMembers : List (String × CJson) → Nat
  | [] => 0
  | (_, v) :: ms => max v.nesting (nestingMembers ms)

end

/-- What is there when `n` are in one another. -/
def within {α : Type} (n levels : Nat) (a : α) : Option α := if n ≤ levels then some a else none

theorem within_succ {α β : Type} (n levels : Nat) (a : α) (f : α → β) :
    (within n levels a).map f = within (n + 1) (levels + 1) (f a) := by
  unfold within
  split_ifs <;> first | rfl | omega

theorem within_cons {α β γ : Type} (m n levels : Nat) (a : α) (b : β) (f : α → β → γ) :
    (within m levels a >>= fun a => within n levels b >>= fun b => some (f a b)) =
      within (max m n) levels (f a b) := by
  unfold within
  by_cases hm : m ≤ levels
  · by_cases hn : n ≤ levels
    · rw [if_pos hm, if_pos hn, if_pos (show max m n ≤ levels by omega)]
      rfl
    · rw [if_pos hm, if_neg hn, if_neg (show ¬ max m n ≤ levels by omega)]
      rfl
  · rw [if_neg hm, if_neg (show ¬ max m n ≤ levels by omega)]
    rfl

/-! ## Values -/

theorem ws_append {w : List Char} (hw : ∀ c ∈ w, c ∈ [' ', '\t', '\n', '\r']) {s r : List Char} (h : Ws s r) :
    Ws (w ++ s) r := by
  induction w with
  | nil => exact h
  | cons c w ih =>
    rw [List.forall_mem_cons] at hw
    exact .skip hw.1 (ih hw.2)

theorem ws_tabs (format : Bool) (depth : Nat) {s r : List Char} (h : Ws s r) : Ws (tabs format depth ++ s) r := by
  refine ws_append (fun c hc => ?_) h
  unfold tabs at hc
  split_ifs at hc
  · rw [List.eq_of_mem_replicate hc]
    decide
  · cases hc

/-- The line end that only the formatted text has. -/
theorem ws_optional (format : Bool) {c : Char} (hc : c ∈ [' ', '\t', '\n', '\r']) {s r : List Char} (h : Ws s r) :
    Ws ((if format then [c] else []) ++ s) r := by
  refine ws_append (fun d hd => ?_) h
  split_ifs at hd
  · rwa [List.mem_singleton.mp hd]
  · cases hd

/-- No number of `s` is too long if none of `r` is. -/
def KeepsShort (s r : List Char) : Prop := ShortNumbers (.outside 0) r → ShortNumbers (.outside 0) s

theorem KeepsShort.ws {s r : List Char} (h : Ws s r) : KeepsShort s r := (shortNumbers_ws h).mpr

theorem KeepsShort.other {c : Char} (hc : c ∈ ['[', ']', '{', '}', ',', ':']) (s : List Char) :
    KeepsShort (c :: s) s := by
  apply (shortNumbers_other _ _ 0 s).mpr
  · rintro rfl
    exact absurd hc (by decide)
  · simp only [List.mem_cons, List.not_mem_nil, or_false] at hc
    unfold Numeral.IsNumeralChar
    rcases hc with rfl | rfl | rfl | rfl | rfl | rfl <;> decide

theorem KeepsShort.trans {s t r : List Char} (h : KeepsShort s t) (h' : KeepsShort t r) : KeepsShort s r :=
  fun hr => h (h' hr)

mutual

/-- **A tree is printed as a value** that means the tree. -/
theorem value_render (format : Bool) : ∀ t : CJson, t.Printable → ∀ (depth : Nat) (r : List Char), Follows r →
    ∃ v, Value (render format depth t ++ r) v r ∧ (∀ levels, v.tree levels = within t.nesting levels t) ∧
      KeepsShort (render format depth t ++ r) r
  | .null, _, depth, r, hr => by
    refine ⟨_, .null r, fun levels => by rw [Json.tree]; rfl, ?_⟩
    intro hs
    simpa [render, shortNumbers_cons, Place.step, isNumberChar] using hs
  | .bool true, _, depth, r, hr => by
    refine ⟨_, .true r, fun levels => by rw [Json.tree]; rfl, ?_⟩
    intro hs
    rw [← shortNumbers_follows hr 1] at hs
    simpa [render, shortNumbers_cons, Place.step, isNumberChar] using hs
  | .bool false, _, depth, r, hr => by
    refine ⟨_, .false r, fun levels => by rw [Json.tree]; rfl, ?_⟩
    intro hs
    rw [← shortNumbers_follows hr 1] at hs
    simpa [render, shortNumbers_cons, Place.step, isNumberChar] using hs
  | .number d, ht, depth, r, hr => by
    cases ht with
    | number hd =>
      obtain ⟨n, hvalid, htext, hvalue⟩ := exists_numeral hd
      have hlen := length_numberText_le (.inl hd)
      have hrender : render format depth (.number d) = n.text := htext
      rw [hrender]
      refine ⟨_, .number n hvalid rfl, fun levels => by rw [Json.tree, hvalue]; rfl, fun hs => ?_⟩
      rw [htext] at hlen
      rw [shortNumbers_run hvalid.isNumeralChar (by omega), shortNumbers_follows hr]
      exact ⟨by omega, hs⟩
  | .string s, ht, depth, r, hr => by
    cases ht with
    | string hs =>
      have hchars := chars_renderString s r
      have hrender : render format depth (.string s) ++ r = '"' :: (s.flatMap escape ++ '"' :: r) := by
        simp [render, renderString]
      rw [hrender]
      refine ⟨_, .string hchars, fun levels => ?_, (shortNumbers_string hchars 0).mpr⟩
      rw [Json.tree, meaning_map_escapeItem, Option.map_some, cText_eq_self hs]
      rfl
  | .array items, ht, depth, r, hr => by
    cases ht with
    | array hitems =>
      have hrender : render format depth (.array items) ++ r =
          '[' :: (renderElements format (depth + 1) items ++ ']' :: r) := by
        simp [render]
      rw [hrender]
      cases items with
      | nil =>
        refine ⟨_, .noItems (.none _), fun levels => ?_,
          .trans (.other (by decide) _) (.other (by decide) _)⟩
        cases levels <;> rfl
      | cons v vs =>
        obtain ⟨js, hjs, htree, hshort⟩ := items_render format (v :: vs) (List.cons_ne_nil _ _) hitems (depth + 1) r
        refine ⟨_, .items (.none _) hjs, fun levels => ?_, .trans (.other (by decide) _) hshort⟩
        cases levels with
        | zero => rfl
        | succ levels =>
          rw [Json.tree, htree]
          exact within_succ _ _ _ _
  | .object members, ht, depth, r, hr => by
    cases ht with
    | object hnames hmembers =>
      have hclose : Ws (tabs format depth ++ '}' :: r) ('}' :: r) := ws_tabs format depth (.none _)
      have hrender : render format depth (.object members) ++ r =
          '{' :: ((if format then ['\n'] else []) ++ (renderMembers format (depth + 1) members ++
            (tabs format depth ++ '}' :: r))) := by
        simp [render, brace]
      rw [hrender]
      cases members with
      | nil =>
        have hws := ws_optional format (c := '\n') (by decide) hclose
        refine ⟨_, .noMembers hws, fun levels => ?_,
          .trans (.other (by decide) _) (.trans (.ws hws) (.other (by decide) _))⟩
        cases levels <;> rfl
      | cons m ms =>
        obtain ⟨js, u, hws, hjs, htree, hshort⟩ := members_render format (m :: ms) (List.cons_ne_nil _ _) hnames
          hmembers (depth + 1) hclose
        have hws' := ws_optional format (c := '\n') (by decide) hws
        refine ⟨_, .members hws' hjs, fun levels => ?_, .trans (.other (by decide) _) (.trans (.ws hws') hshort)⟩
        cases levels with
        | zero => rfl
        | succ levels =>
          rw [Json.tree, htree]
          exact within_succ _ _ _ _

theorem items_render (format : Bool) : ∀ vs : List CJson, vs ≠ [] → (∀ v ∈ vs, v.Printable) →
    ∀ (depth : Nat) (r : List Char), ∃ js, Items (renderElements format depth vs ++ ']' :: r) js r ∧
      (∀ levels, treeItems levels js = within (nestingItems vs) levels vs) ∧
      KeepsShort (renderElements format depth vs ++ ']' :: r) r
  | [], hne, _, _, _ => absurd rfl hne
  | v :: vs, _, hvs, depth, r => by
    rw [List.forall_mem_cons] at hvs
    by_cases hnil : vs = []
    · obtain ⟨j, hj, htree, hshort⟩ := value_render format v hvs.1 depth (']' :: r)
        (follows_cons (by unfold IsFollow; decide))
      have hrender : renderElements format depth (v :: vs) ++ ']' :: r = render format depth v ++ ']' :: r := by
        simp [renderElements, hnil]
      rw [hrender]
      refine ⟨_, .last hj (.none _), fun levels => ?_, .trans hshort (.other (by decide) _)⟩
      rw [treeItems_cons, htree, hnil]
      exact within_cons _ 0 levels v [] List.cons
    · obtain ⟨j, hj, htree, hshort⟩ := value_render format v hvs.1 depth
        (',' :: ((if format then [' '] else []) ++ (renderElements format depth vs ++ ']' :: r)))
        (follows_cons (by unfold IsFollow; decide))
      obtain ⟨js, hjs, htrees, hshorts⟩ := items_render format vs hnil hvs.2 depth r
      have hws := ws_optional format (c := ' ') (by decide) (.none (renderElements format depth vs ++ ']' :: r))
      have hrender : renderElements format depth (v :: vs) ++ ']' :: r = render format depth v ++
          ',' :: ((if format then [' '] else []) ++ (renderElements format depth vs ++ ']' :: r)) := by
        simp [renderElements, comma, hnil]
      rw [hrender]
      refine ⟨_, .more hj (.none _) hws hjs, fun levels => ?_,
        .trans hshort (.trans (.other (by decide) _) (.trans (.ws hws) hshorts))⟩
      rw [treeItems_cons, htree, htrees]
      exact within_cons _ _ levels v vs List.cons

theorem members_render (format : Bool) : ∀ ms : List (String × CJson), ms ≠ [] → (∀ m ∈ ms, nul ∉ m.1.toList) →
    (∀ m ∈ ms, m.2.Printable) → ∀ (depth : Nat) {tail r : List Char}, Ws tail ('}' :: r) →
      ∃ js u, Ws (renderMembers format depth ms ++ tail) u ∧ Members u js r ∧
        (∀ levels, treeMembers levels js = within (nestingMembers ms) levels ms) ∧ KeepsShort u r
  | [], hne, _, _, _, _, _, _ => absurd rfl hne
  | (name, v) :: ms, _, hnames, hms, depth, tail, r, htail => by
    rw [List.forall_mem_cons] at hnames hms
    -- the member, its value in front of `rest`
    have hmember : ∀ rest, Follows rest → ∃ j, Member (renderString name.toList ++
        (colon format ++ (render format depth v ++ rest))) j rest ∧
        (∀ levels, treeMember levels j = within v.nesting levels (name, v)) ∧
        KeepsShort (renderString name.toList ++ (colon format ++ (render format depth v ++ rest))) rest := by
      intro rest hrest
      obtain ⟨j, hj, htree, hshort⟩ := value_render format v hms.1 depth rest hrest
      have hchars := chars_renderString name.toList (colon format ++ (render format depth v ++ rest))
      have hws := ws_optional format (c := '\t') (by decide) (.none (render format depth v ++ rest))
      have hstring : renderString name.toList ++ (colon format ++ (render format depth v ++ rest)) =
          '"' :: (name.toList.flatMap escape ++ '"' :: (colon format ++ (render format depth v ++ rest))) := by
        simp [renderString]
      rw [hstring]
      refine ⟨(name.toList.map escapeItem, j), .mk hchars (.none _) hws hj, fun levels => ?_,
        .trans (shortNumbers_string hchars 0).mpr (.trans (.other (by decide) _) (.trans (.ws hws) hshort))⟩
      have hname : String.ofList (cText name.toList) = name := by
        rw [cText_eq_self hnames.1, String.ofList_toList]
      unfold treeMember
      rw [meaning_map_escapeItem, htree]
      show (within v.nesting levels v >>= fun item => some (String.ofList (cText name.toList), item)) = _
      rw [hname]
      unfold within
      split_ifs <;> rfl
    by_cases hnil : ms = []
    · have hend := ws_optional format (c := '\n') (by decide) htail
      obtain ⟨j, hj, htree, hshort⟩ := hmember _ (hend.follows (follows_cons (by unfold IsFollow; decide)))
      have hrender : renderMembers format depth ((name, v) :: ms) ++ tail = tabs format depth ++
          (renderString name.toList ++ (colon format ++ (render format depth v ++
            ((if format then ['\n'] else []) ++ tail)))) := by
        simp [renderMembers, memberEnd, hnil]
      rw [hrender]
      refine ⟨_, _, ws_tabs format depth (.none _), .last hj hend, fun levels => ?_,
        .trans hshort (.trans (.ws hend) (.other (by decide) _))⟩
      rw [treeMembers_cons, htree, hnil]
      exact within_cons _ 0 levels (name, v) [] List.cons
    · obtain ⟨js, u, hws, hjs, htrees, hshorts⟩ := members_render format ms hnil hnames.2 hms.2 depth htail
      have hnext := ws_optional format (c := '\n') (by decide) hws
      obtain ⟨j, hj, htree, hshort⟩ := hmember
        (',' :: ((if format then ['\n'] else []) ++ (renderMembers format depth ms ++ tail)))
        (follows_cons (by unfold IsFollow; decide))
      have hrender : renderMembers format depth ((name, v) :: ms) ++ tail = tabs format depth ++
          (renderString name.toList ++ (colon format ++ (render format depth v ++
            ',' :: ((if format then ['\n'] else []) ++ (renderMembers format depth ms ++ tail))))) := by
        simp [renderMembers, memberEnd, hnil]
      rw [hrender]
      refine ⟨_, _, ws_tabs format depth (.none _), .more hj (.none _) hnext hjs, fun levels => ?_,
        .trans hshort (.trans (.other (by decide) _) (.trans (.ws hnext) hshorts))⟩
      rw [treeMembers_cons, htree, htrees]
      exact within_cons _ _ levels (name, v) ms List.cons

end

/-! ## Texts -/

/-- The tree is the meaning of its text. -/
theorem exists_isText_render (format : Bool) {t : CJson} (ht : t.Printable) :
    ∃ v, IsText (render format 0 t) v ∧ (∀ levels, v.tree levels = within t.nesting levels t) ∧
      ShortNumbers (.outside 0) (render format 0 t) := by
  obtain ⟨v, hv, htree, hshort⟩ := value_render format t ht 0 [] follows_nil
  rw [List.append_nil] at hv hshort
  exact ⟨v, ⟨_, _, .none _, hv, .none _⟩, htree, hshort rfl⟩

/-- **What is printed is a JSON text**, formatted or not, and means the tree wherever as many lists
may be in one another as there are in it. -/
theorem render_isText (format : Bool) (t : CJson) (ht : t.Printable) :
    ∃ v, IsText (render format 0 t) v ∧ ∀ levels, t.nesting ≤ levels → v.tree levels = some t := by
  obtain ⟨v, hv, htree, -⟩ := exists_isText_render format ht
  refine ⟨v, hv, fun levels hle => ?_⟩
  rw [htree, within, if_pos hle]

/-- A cooler with a name that has to be escaped. -/
def quotedTree : CJson := .object [("name", .string "\"in\"".toList), ("on", .array [.bool true, .null])]

theorem quotedTree_printable : quotedTree.Printable := by
  refine .object (by decide) fun m hm => ?_
  simp only [List.mem_cons, List.not_mem_nil, or_false] at hm
  rcases hm with rfl | rfl
  · exact .string (by decide)
  · refine .array fun v hv => ?_
    simp only [List.mem_cons, List.not_mem_nil, or_false] at hv
    rcases hv with rfl | rfl
    · exact .bool true
    · exact .null

theorem render_isText_quoted : ∃ v, IsText (render true 0 quotedTree) v ∧
    ∀ levels, quotedTree.nesting ≤ levels → v.tree levels = some quotedTree :=
  render_isText true quotedTree quotedTree_printable

theorem cJsonParse_render (format : Bool) {t : CJson} (ht : t.Printable) :
    cJsonParse (render format 0 t) = within t.nesting nestingLimit t := by
  obtain ⟨v, hv, htree, hshort⟩ := exists_isText_render format ht
  rw [cJsonParse_isText hv (nul_not_mem_render format 0 t ht.writable) hshort, htree]

/-- **Printed and parsed again**, a tree is the same if no more than the limit are in one another;
else it is rejected. -/
theorem parse_print (h : Heap) (format : Bool) (t : CJson) (ht : t.Printable) (text : CStr)
    (hprint : cJsonPrint h format t = .ok text) :
    (t.nesting ≤ nestingLimit → cJsonParse text = some t) ∧ (nestingLimit < t.nesting → cJsonParse text = none) := by
  have hspec := cJsonPrint_spec h format ht.writable
  rw [hprint] at hspec
  obtain ⟨rfl, -⟩ := hspec
  rw [cJsonParse_render format ht, within]
  exact ⟨fun hle => if_pos hle, fun hlt => if_neg (Nat.not_le.mpr hlt)⟩

theorem parse_print_quoted : cJsonParse (render true 0 quotedTree) = some quotedTree :=
  (parse_print .ample true quotedTree quotedTree_printable _
    (cJsonPrint_ample true quotedTree_printable.writable (by decide))).1 (by decide)

/-! ## Texts that are not printed -/

/-- What the parser makes of any text, with `levels` lists in one another at most: C strings, and
numbers that are doubles or too large for one. -/
inductive Parsed : Nat → CJson → Prop
  | null (levels : Nat) : Parsed levels .null
  | bool (levels : Nat) (b : Bool) : Parsed levels (.bool b)
  | number (levels : Nat) {d : Rat} : IsDouble d ∨ |d| = huge → Parsed levels (.number d)
  | string (levels : Nat) {s : CStr} : nul ∉ s → Parsed levels (.string s)
  | array {levels : Nat} {items : List CJson} : (∀ v ∈ items, Parsed levels v) → Parsed (levels + 1) (.array items)
  | object {levels : Nat} {members : List (String × CJson)} : (∀ m ∈ members, nul ∉ m.1.toList) →
      (∀ m ∈ members, Parsed levels m.2) → Parsed (levels + 1) (.object members)

/-- No number was too large. -/
inductive CJson.Finite : CJson → Prop
  | null : Finite .null
  | bool (b : Bool) : Finite (.bool b)
  | number {d : Rat} : |d| < huge → Finite (.number d)
  | string (s : CStr) : Finite (.string s)
  | array {items : List CJson} : (∀ v ∈ items, v.Finite) → Finite (.array items)
  | object {members : List (String × CJson)} : (∀ m ∈ members, m.2.Finite) → Finite (.object members)

/-- What comes out satisfies `P`. -/
def Makes {α : Type} (r : Except ParseFault (α × ParseBuffer)) (P : α → Prop) : Prop := ∀ a, r = .ok a → P a.1

theorem parseString_makes (b : ParseBuffer) : Makes (parseString b) fun s => nul ∉ s := by
  intro a ha
  unfold parseString at ha
  obtain ⟨c, -, ha⟩ := bind_ok ha
  split_ifs at ha with hc
  split at ha
  · cases ha
  · obtain ⟨o, -, ha⟩ := bind_ok ha
    obtain ⟨o', -, ha⟩ := bind_ok ha
    cases ha
    exact nul_not_mem_cText o'

theorem parseNumber_makes (levels : Nat) (b : ParseBuffer) : Makes (parseNumber b) (Parsed levels) := by
  intro a ha
  unfold parseNumber at ha
  dsimp only at ha
  split at ha
  · cases ha
  · next hread =>
    cases ha
    obtain ⟨r, -, hr⟩ := Option.map_eq_some_iff.mp hread
    cases hr
    exact .number levels (isDouble_nearest _)

section
variable {α : Type} {parseItem : ParseBuffer → Except ParseFault (α × ParseBuffer)} {P : α → Prop}
  (hitem : ∀ b, Makes (parseItem b) P)

include hitem

theorem parseList_makes (n : Nat) : ∀ b, Makes (parseList parseItem n b) fun items => ∀ a ∈ items, P a := by
  induction n with
  | zero => exact fun b a ha => by cases ha
  | succ n ih =>
    intro b a ha
    unfold parseList at ha
    obtain ⟨⟨item, b₁⟩, hrun, ha⟩ := bind_ok ha
    have hP := hitem _ _ hrun
    dsimp only at ha
    split_ifs at ha
    · obtain ⟨⟨items, b₂⟩, hrest, ha⟩ := bind_ok ha
      cases ha
      exact List.forall_mem_cons.mpr ⟨hP, ih _ _ hrest⟩
    · cases ha
      simpa using hP

theorem parseClosed_makes (close : Char) (b : ParseBuffer) :
    Makes (parseClosed close parseItem b) fun items => ∀ a ∈ items, P a := by
  intro a ha
  unfold parseClosed at ha
  dsimp only at ha
  split_ifs at ha
  · cases ha
    exact fun _ h => absurd h List.not_mem_nil
  · obtain ⟨⟨items, b₁⟩, hrun, ha⟩ := bind_ok ha
    dsimp only at ha
    split_ifs at ha
    cases ha
    exact parseList_makes hitem _ _ (items, b₁) hrun

end

theorem parseMember_makes {pv : ParseBuffer → Except ParseFault (CJson × ParseBuffer)} {levels : Nat}
    (hpv : ∀ b, Makes (pv b) (Parsed levels)) (b : ParseBuffer) :
    Makes (parseMember pv b) fun m => nul ∉ m.1.toList ∧ Parsed levels m.2 := by
  intro a ha
  unfold parseMember at ha
  obtain ⟨⟨name, b₁⟩, hname, ha⟩ := bind_ok ha
  have hplain := parseString_makes _ _ hname
  dsimp only at ha
  split_ifs at ha
  obtain ⟨⟨item, b₂⟩, hitem, ha⟩ := bind_ok ha
  cases ha
  refine ⟨?_, hpv _ _ hitem⟩
  rwa [String.toList_ofList]

/-- **Whatever the text is**, the parser makes nothing else. -/
theorem parseValue_makes : ∀ (levels : Nat) (b : ParseBuffer), Makes (parseValue levels b) (Parsed levels) := by
  intro levels
  induction levels with
  | zero =>
    intro b a ha
    unfold parseValue at ha
    split_ifs at ha with hnull hfalse htrue hquote hnumber
    · cases ha
      exact .null _
    · cases ha
      exact .bool _ _
    · cases ha
      exact .bool _ _
    · obtain ⟨⟨s, b₁⟩, hs, ha⟩ := bind_ok ha
      cases ha
      exact .string _ (parseString_makes _ _ hs)
    · exact parseNumber_makes _ _ _ ha
  | succ levels ih =>
    intro b a ha
    unfold parseValue at ha
    split_ifs at ha with hnull hfalse htrue hquote hnumber harray hobject
    · cases ha
      exact .null _
    · cases ha
      exact .bool _ _
    · cases ha
      exact .bool _ _
    · obtain ⟨⟨s, b₁⟩, hs, ha⟩ := bind_ok ha
      cases ha
      exact .string _ (parseString_makes _ _ hs)
    · exact parseNumber_makes _ _ _ ha
    · unfold parseArray at ha
      obtain ⟨c, -, ha⟩ := bind_ok ha
      split_ifs at ha
      obtain ⟨⟨items, b₁⟩, hitems, ha⟩ := bind_ok ha
      cases ha
      exact .array (parseClosed_makes ih _ _ _ hitems)
    · unfold parseObject at ha
      split_ifs at ha
      obtain ⟨⟨members, b₁⟩, hmembers, ha⟩ := bind_ok ha
      cases ha
      have hall := parseClosed_makes (parseMember_makes ih) _ _ _ hmembers
      exact .object (fun m hm => (hall m hm).1) fun m hm => (hall m hm).2

theorem parsed_of_cJsonParse {value : CStr} {t : CJson} (h : cJsonParse value = some t) : Parsed nestingLimit t := by
  unfold cJsonParse parseText at h
  dsimp only at h
  match hrun : parseValue nestingLimit (ParseBuffer.skipUtf8Bom ⟨value ++ [nul], 0⟩).skipWhitespace with
  | .ok (item, b) =>
    rw [hrun] at h
    cases h
    exact parseValue_makes _ _ _ hrun
  | .error e =>
    rw [hrun] at h
    cases h

theorem Parsed.printable {levels : Nat} {t : CJson} (h : Parsed levels t) (hfinite : t.Finite) : t.Printable := by
  induction h with
  | null => exact .null
  | bool _ b => exact .bool b
  | number _ hd =>
    cases hfinite with
    | number hlt => exact .number (hd.resolve_right hlt.ne)
  | string _ hs => exact .string hs
  | array _ ih =>
    cases hfinite with
    | array hf => exact .array fun v hv => ih v hv (hf v hv)
  | object hnames _ ih =>
    cases hfinite with
    | object hf => exact .object hnames fun m hm => ih m hm (hf m hm)

theorem nestingItems_le {n : Nat} {items : List CJson} (h : ∀ v ∈ items, v.nesting ≤ n) : nestingItems items ≤ n := by
  induction items with
  | nil => exact Nat.zero_le _
  | cons v vs ih =>
    rw [List.forall_mem_cons] at h
    exact max_le h.1 (ih h.2)

theorem nestingMembers_le {n : Nat} {members : List (String × CJson)} (h : ∀ m ∈ members, m.2.nesting ≤ n) :
    nestingMembers members ≤ n := by
  induction members with
  | nil => exact Nat.zero_le _
  | cons m ms ih =>
    rw [List.forall_mem_cons] at h
    exact max_le h.1 (ih h.2)

theorem Parsed.nesting_le {levels : Nat} {t : CJson} (h : Parsed levels t) : t.nesting ≤ levels := by
  induction h with
  | null | bool | number | string => exact Nat.zero_le _
  | array _ ih => exact Nat.succ_le_succ (nestingItems_le ih)
  | object _ _ ih => exact Nat.succ_le_succ (nestingMembers_le ih)

/-- **What was parsed can be stored**: whatever the text was, JSON or not, the tree of it is read
again of what is printed of it, if no number was too large. -/
theorem print_parsed (value : CStr) (t : CJson) (h : cJsonParse value = some t) (hfinite : t.Finite) (heap : Heap)
    (format : Bool) (text : CStr) (hprint : cJsonPrint heap format t = .ok text) : cJsonParse text = some t := by
  have hparsed := parsed_of_cJsonParse h
  have hprintable := hparsed.printable hfinite
  have hspec := cJsonPrint_spec heap format hprintable.writable
  rw [hprint] at hspec
  rw [hspec.1, cJsonParse_render format hprintable, within, if_pos hparsed.nesting_le]

theorem quotedTree_finite : quotedTree.Finite := by
  refine .object fun m hm => ?_
  simp only [List.mem_cons, List.not_mem_nil, or_false] at hm
  rcases hm with rfl | rfl
  · exact .string _
  · refine .array fun v hv => ?_
    simp only [List.mem_cons, List.not_mem_nil, or_false] at hv
    rcases hv with rfl | rfl
    · exact .bool true
    · exact .null

theorem print_parsed_quoted : cJsonParse (render true 0 quotedTree) = some quotedTree :=
  print_parsed (render false 0 quotedTree) quotedTree
    (by rw [cJsonParse_render false quotedTree_printable, within, if_pos (by decide)])
    quotedTree_finite .ample true _ (cJsonPrint_ample true quotedTree_printable.writable (by decide))

end Growbox
