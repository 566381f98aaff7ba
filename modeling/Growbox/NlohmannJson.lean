import Growbox.CJsonText
import Mathlib.Data.List.Forall2
import Mathlib.Data.List.Induction

/-!
# `src_v2/json.hpp`: objects and parsing

An object is a `std::map`, so of a repeated key it has the last value; `j[key] = value` writes
one of its values.  `json::parse` is given on the value of a text, as the grammar has it.  It
throws at a number that is no finite double and at bytes that are no UTF-8, and keeps all of a
string that has a NUL, where cJSON goes on with huge numbers and reads to the NUL.
-/

namespace Growbox

open JsonText Double

/-! ## Objects -/

/-- `j[key] = value` in a `std::map`. -/
def setKey (key : String) (v : CJson) : List (String × CJson) → List (String × CJson)
  | [] => [(key, v)]
  | m :: ms =>
    if key = m.1 then (key, v) :: ms
    else if key < m.1 then (key, v) :: m :: ms
    else m :: setKey key v ms

/-- On a `json` that is still `null` the first assignment makes an object. -/
def CJson.assign (j : CJson) (key : String) (v : CJson) : CJson :=
  match j with
  | .object ms => .object (setKey key v ms)
  | _ => .object [(key, v)]

def CJson.assignIf (j : CJson) (given : Bool) (key : String) (v : CJson) : CJson :=
  if given then j.assign key v else j

/-- The members in the order of the text. -/
def nlohmannObject (ms : List (String × CJson)) : CJson :=
  ms.foldl (fun j m => j.assign m.1 m.2) (.object [])

/-! ## `json::parse` -/

namespace Nlohmann

/-- What `scan_string` wants behind a first byte, for `next_byte_in_range`; `none` where the byte
is ill-formed. -/
def ranges (first : Nat) : Option (List (Nat × Nat)) :=
  if first < 0x80 then some []
  else if 0xC2 ≤ first ∧ first ≤ 0xDF then some [(0x80, 0xBF)]
  else if first = 0xE0 then some [(0xA0, 0xBF), (0x80, 0xBF)]
  else if first = 0xED then some [(0x80, 0x9F), (0x80, 0xBF)]
  else if 0xE1 ≤ first ∧ first ≤ 0xEF then some [(0x80, 0xBF), (0x80, 0xBF)]
  else if first = 0xF0 then some [(0x90, 0xBF), (0x80, 0xBF), (0x80, 0xBF)]
  else if 0xF1 ≤ first ∧ first ≤ 0xF3 then some [(0x80, 0xBF), (0x80, 0xBF), (0x80, 0xBF)]
  else if first = 0xF4 then some [(0x80, 0x8F), (0x80, 0xBF), (0x80, 0xBF)]
  else none

/-- The bytes that stand for themselves are UTF-8, with the given ranges still to come. -/
def isUtf8 : List (Nat × Nat) → List StrItem → Bool
  | [], [] => true
  | [], .plain c :: p =>
    match ranges c.toNat with
    | some rs => isUtf8 rs p
    | none => false
  | [], _ :: p => isUtf8 [] p
  | r :: rs, .plain c :: p => decide (r.1 ≤ c.toNat) && decide (c.toNat ≤ r.2) && isUtf8 rs p
  | _ :: _, _ => false

/-- `scan_string`: nothing is cut at a NUL. -/
def scanString (p : List StrItem) : Option CStr := if isUtf8 [] p then meaning p else none

/-- `value_float`, unless it is not finite.  (A whole number is kept in 64 bits, which is the same
for those a double has exactly.) -/
def number (x : Rat) : Option CJson := if |nearest x| < huge then some (.number (nearest x)) else none

mutual

/-- `json::parse` of a text with this value; `none` is an exception.  The depth is not limited. -/
def parse : Json → Option CJson
  | .null => some .null
  | .bool b => some (.bool b)
  | .number x => number x
  | .string p => (scanString p).map .string
  | .array items => (parseItems items).map .array
  | .object members => (parseMembers members).map nlohmannObject

def parseItems : List Json → Option (List CJson)
  | [] => some []
  | v :: vs => do
    let item ← parse v
    let items ← parseItems vs
    return item :: items

def parseMembers : List (List StrItem × Json) → Option (List (String × CJson))
  | [] => some []
  | (name, v) :: ms => do
    let name ← scanString name
    let item ← parse v
    let members ← parseMembers ms
    return (String.ofList name, item) :: members

end

/-! ## Texts that are parsed -/

mutual

/-- All numbers are finite doubles, and all strings UTF-8. -/
def Readable : Json → Prop
  | .number x => |nearest x| < huge
  | .string p => isUtf8 [] p = true
  | .array items => ItemsReadable items
  | .object members => MembersReadable members
  | _ => True

def ItemsReadable : List Json → Prop
  | [] => True
  | v :: vs => Readable v ∧ ItemsReadable vs

def MembersReadable : List (List StrItem × Json) → Prop
  | [] => True
  | (name, v) :: ms => isUtf8 [] name = true ∧ Readable v ∧ MembersReadable ms

end

theorem isSome_scanString {p : List StrItem} {bytes : List Char} (h : meaning p = some bytes) :
    (scanString p).isSome = true ↔ isUtf8 [] p = true := by
  unfold scanString
  split
  · next hutf => simp [h, hutf]
  · next hutf => simp [hutf]

mutual

/-- **What cJSON has a tree of, `json::parse` reads** exactly when it is readable. -/
theorem isSome_parse {levels : Nat} {v : Json} {t : CJson} (h : v.tree levels = some t) :
    (parse v).isSome = true ↔ Readable v := by
  match v with
  | .null | .bool b => simp [parse, Readable]
  | .number x =>
    rw [parse, Readable, number]
    split <;> simp [*]
  | .string p =>
    rw [Json.tree] at h
    obtain ⟨bytes, hbytes, -⟩ := Option.map_eq_some_iff.mp h
    rw [parse, Readable, Option.isSome_map, isSome_scanString hbytes]
  | .array items =>
    cases levels with
    | zero => simp [Json.tree] at h
    | succ levels =>
      rw [Json.tree] at h
      obtain ⟨ts, hts, -⟩ := Option.map_eq_some_iff.mp h
      rw [parse, Readable, Option.isSome_map, isSome_parseItems hts]
  | .object members =>
    cases levels with
    | zero => simp [Json.tree] at h
    | succ levels =>
      rw [Json.tree] at h
      obtain ⟨ts, hts, -⟩ := Option.map_eq_some_iff.mp h
      rw [parse, Readable, Option.isSome_map, isSome_parseMembers hts]

theorem isSome_parseItems {levels : Nat} {vs : List Json} {ts : List CJson} (h : treeItems levels vs = some ts) :
    (parseItems vs).isSome = true ↔ ItemsReadable vs := by
  match vs with
  | [] => simp [parseItems, ItemsReadable]
  | v :: vs =>
    simp only [treeItems_cons, Option.bind_eq_bind, Option.bind_eq_some_iff] at h
    obtain ⟨t, ht, ts, hts, -⟩ := h
    rw [parseItems, ItemsReadable, ← isSome_parse ht, ← isSome_parseItems hts]
    cases parse v <;> cases parseItems vs <;> simp

theorem isSome_parseMembers {levels : Nat} {ms : List (List StrItem × Json)} {ts : List (String × CJson)}
    (h : treeMembers levels ms = some ts) : (parseMembers ms).isSome = true ↔ MembersReadable ms := by
  match ms with
  | [] => simp [parseMembers, MembersReadable]
  | (name, v) :: ms =>
    simp only [treeMembers, Option.bind_eq_bind, Option.bind_eq_some_iff] at h
    obtain ⟨bytes, hbytes, t, ht, ts, hts, -⟩ := h
    rw [parseMembers, MembersReadable, ← isSome_scanString hbytes, ← isSome_parse ht, ← isSome_parseMembers hts]
    cases scanString name <;> cases parse v <;> cases parseMembers ms <;> simp

end

end Nlohmann

/-! ## Lookups -/

theorem lookup_setKey (key : String) (v : CJson) (ms : List (String × CJson)) (key' : String) :
    getObjectItem (.object (setKey key v ms)) key' =
      if key = key' then some v else getObjectItem (.object ms) key' := by
  induction ms with
  | nil => exact getObjectItem_cons (key, v) [] key'
  | cons m ms ih =>
    unfold setKey
    split
    · next h =>
      rw [getObjectItem_cons, getObjectItem_cons]
      split
      · rfl
      · next hne => rw [if_neg (h ▸ hne)]
    · next h =>
      split
      · exact getObjectItem_cons (key, v) (m :: ms) key'
      · rw [getObjectItem_cons, ih, getObjectItem_cons]
        split
        · next hm => rw [if_neg (hm ▸ h)]
        · rfl

theorem lookup_assign (j : CJson) (key : String) (v : CJson) (key' : String) :
    getObjectItem (j.assign key v) key' = if key = key' then some v else getObjectItem j key' := by
  cases j with
  | object ms => exact lookup_setKey key v ms key'
  | _ => exact lookup_setKey key v [] key'

theorem lookup_assignIf (j : CJson) (given : Bool) (key : String) (v : CJson) (key' : String) :
    getObjectItem (j.assignIf given key v) key' =
      if given = true ∧ key = key' then some v else getObjectItem j key' := by
  cases given with
  | false => simp [CJson.assignIf]
  | true => simpa [CJson.assignIf] using lookup_assign j key v key'

/-- Of a repeated key, cJSON finds the first member and nlohmann keeps the last. -/
theorem lookup_nlohmannObject (ms : List (String × CJson)) (key : String) :
    getObjectItem (nlohmannObject ms) key = getObjectItem (.object ms.reverse) key := by
  induction ms using List.reverseRecOn with
  | nil => rfl
  | append_singleton ms m ih =>
    unfold nlohmannObject at ih ⊢
    rw [List.foldl_append, List.reverse_append]
    show getObjectItem (CJson.assign _ m.1 m.2) key = getObjectItem (.object (m :: ms.reverse)) key
    rw [lookup_assign, getObjectItem_cons, ih]

/-! ## Members of a text -/

/-- The value of the first member whose name is read as `key`. -/
def named (read : List StrItem → Option CStr) (key : String) (ms : List (List StrItem × Json)) : Option Json :=
  (ms.find? fun m => read m.1 == some key.toList).map Prod.snd

/-- cJSON's name of a member ends at a NUL. -/
def cutName (name : List StrItem) : Option CStr := (meaning name).map cText

/-- The member that cJSON finds. -/
def firstNamed (key : String) (ms : List (List StrItem × Json)) : Option Json := named cutName key ms

/-- The member whose value nlohmann keeps. -/
def lastNamed (key : String) (ms : List (List StrItem × Json)) : Option Json := named meaning key ms.reverse

/-- The members of the text, each with its name and its value as they are read. -/
def MembersRead (read : List StrItem → Option CStr) (readValue : Json → Option CJson)
    (ms : List (List StrItem × Json)) (ms' : List (String × CJson)) : Prop :=
  List.Forall₂ (fun m m' => read m.1 = some m'.1.toList ∧ readValue m.2 = some m'.2) ms ms'

section
variable {read : List StrItem → Option CStr} {readValue : Json → Option CJson} {ms : List (List StrItem × Json)}
  {ms' : List (String × CJson)} {key : String}

theorem named_cons (m : List StrItem × Json) (ms : List (List StrItem × Json)) :
    named read key (m :: ms) = if read m.1 = some key.toList then some m.2 else named read key ms := by
  unfold named
  rw [List.find?_cons]
  by_cases h : read m.1 = some key.toList
  · rw [if_pos h, beq_iff_eq.mpr h]
    rfl
  · rw [if_neg h, beq_eq_false_iff_ne.mpr h]

/-- A lookup in what was read goes to the member of that name in the text. -/
theorem MembersRead.lookup (h : MembersRead read readValue ms ms') :
    getObjectItem (.object ms') key = (named read key ms).bind readValue ∧
      ∀ v, named read key ms = some v → (readValue v).isSome = true := by
  induction h with
  | nil => exact ⟨rfl, fun v hv => by cases hv⟩
  | @cons m m' ms ms' hm _ ih =>
    rw [getObjectItem_cons, named_cons, hm.1]
    by_cases hkey : m'.1 = key
    · rw [if_pos hkey, if_pos (by rw [hkey])]
      refine ⟨hm.2.symm, fun v hv => ?_⟩
      rw [← Option.some.inj hv, hm.2]
      rfl
    · rw [if_neg hkey, if_neg fun he => hkey (String.toList_inj.mp (Option.some.inj he))]
      exact ih

theorem named_mem {v : Json} (h : named read key ms = some v) :
    ∃ name, (name, v) ∈ ms ∧ read name = some key.toList := by
  unfold named at h
  obtain ⟨m, hm, rfl⟩ := Option.map_eq_some_iff.mp h
  exact ⟨m.1, List.mem_of_find?_eq_some hm, by simpa using List.find?_some hm⟩

/-- A key without a NUL that nlohmann finds is found by cJSON. -/
theorem firstNamed_of_lastNamed (hkey : nul ∉ key.toList) {v : Json} (h : lastNamed key ms = some v) :
    ∃ w, firstNamed key ms = some w := by
  obtain ⟨name, hmem, hname⟩ := named_mem h
  rw [← Option.isSome_iff_exists, firstNamed, named, Option.isSome_map, List.find?_isSome]
  refine ⟨_, List.mem_reverse.mp hmem, ?_⟩
  rw [cutName, hname, Option.map_some, cText_eq_self hkey]
  exact beq_self_eq_true _

end

/-- The members of an object that cJSON accepts. -/
theorem membersRead_treeMembers {levels : Nat} {ms : List (List StrItem × Json)} {ms' : List (String × CJson)}
    (h : treeMembers levels ms = some ms') : MembersRead cutName (·.tree levels) ms ms' := by
  induction ms generalizing ms' with
  | nil =>
    cases h
    exact .nil
  | cons m ms ih =>
    obtain ⟨name, v⟩ := m
    simp only [treeMembers, Option.bind_eq_bind, Option.bind_eq_some_iff] at h
    obtain ⟨bytes, hbytes, t, ht, ts, hts, he⟩ := h
    cases he
    refine .cons ⟨?_, ht⟩ (ih hts)
    rw [cutName, hbytes, Option.map_some, String.toList_ofList]

theorem Nlohmann.membersRead_parseMembers {ms : List (List StrItem × Json)} {ms' : List (String × CJson)}
    (h : parseMembers ms = some ms') : MembersRead meaning parse ms ms' := by
  induction ms generalizing ms' with
  | nil =>
    cases h
    exact .nil
  | cons m ms ih =>
    obtain ⟨name, v⟩ := m
    simp only [parseMembers, Option.bind_eq_bind, Option.bind_eq_some_iff] at h
    obtain ⟨bytes, hbytes, t, ht, ts, hts, he⟩ := h
    cases he
    refine .cons ⟨?_, ht⟩ (ih hts)
    rw [String.toList_ofList]
    unfold scanString at hbytes
    split at hbytes
    · exact hbytes
    · cases hbytes

end Growbox
