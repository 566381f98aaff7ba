import Growbox.CJsonAccepted
import Growbox.Flc
import Growbox.NlohmannJson

/-!
# `src_v2/app_types.cpp`: the second version's JSON

Requests to the lamp are built with nlohmann's `j[key] = value`, and request bodies
are read with `j[key]` too, which gives `null` for a key that is absent; converting
that throws.  `flcReqToJson_v2_iff` says which requests the second version encodes as
the first does, and `decoders_v2_iff` which texts it decodes as the first does.
-/

namespace Growbox

open JsonText Double Decimal

/-- What a C cast leaves of a number. -/
def whole (d : Rat) : Int := d.num.tdiv d.den

namespace V2

/-! ## `flc_req_to_json` -/

/-- The second version: `stop_time` and `ch3_power` get the values of other fields. -/
def flcReqToJson (req : FlcReq) : CJson :=
  CJson.null
    |>.assignIf (!req.currTime.isEmpty) "current_time" (.string req.currTime)
    |>.assignIf (!req.startTime.isEmpty) "start_time" (.string req.startTime)
    |>.assignIf (!req.stopTime.isEmpty) "stop_time" (.string req.startTime)
    |>.assignIf (decide (0 ≤ req.chPwr.ch1)) "ch1_power" (intNumber req.chPwr.ch1)
    |>.assignIf (decide (0 ≤ req.chPwr.ch2)) "ch2_power" (intNumber req.chPwr.ch2)
    |>.assignIf (decide (0 ≤ req.chPwr.ch3)) "ch3_power" (intNumber req.chPwr.ch1)
    |>.assignIf (decide (0 ≤ req.smooth)) "smooth_control" (.bool (req.smooth != 0))
    |>.assignIf (decide (0 ≤ req.smoothValue)) "smooth_value" (intNumber req.smoothValue)

/-! ## The decoders -/

/-- `j[key]`, which is `null` when the key is absent. -/
def item (j : CJson) (key : String) : CJson := (getObjectItem j key).getD .null

/-- Conversion to `int`; `none` is a throw. -/
def getInt (v : CJson) : Option Int32 :=
  match v with
  | .number d => some (Int32.ofInt (whole d))
  | .bool b => some (if b then 1 else 0)
  | _ => none

/-- Conversion to `uint32_t`. -/
def getUint32 (v : CJson) : Option UInt32 :=
  match v with
  | .number d => some (Int32.ofInt (whole d)).toUInt32
  | .bool b => some (if b then 1 else 0)
  | _ => none

def getString (v : CJson) : Option CStr :=
  match v with
  | .string s => some s
  | _ => none

def jsonToFlcChPwr (j : CJson) : Option FlcChPwr := do
  let ch1 ← getInt (item j "ch1_power")
  let ch2 ← getInt (item j "ch2_power")
  let ch3 ← getInt (item j "ch3_power")
  return ⟨ch1, ch2, ch3⟩

def jsonToCoolersPower (j : CJson) : Option CoolersPwr := do
  let windIn ← getInt (item j "wind_in")
  let windOut ← getInt (item j "wind_out")
  return ⟨windIn, windOut⟩

def jsonToRtcSettings (j : CJson) : Option RtcSett := do
  let hour ← getString (item j "hour")
  let min ← getString (item j "min")
  let sec ← getString (item j "sec")
  let mday ← getString (item j "mday")
  let month ← getString (item j "month")
  let year ← getString (item j "year")
  return ⟨hour, min, sec, mday, month, year⟩

def jsonToThsDate (j : CJson) : Option ThDateReq := do
  let day ← getUint32 (item j "day")
  let month ← getUint32 (item j "month")
  let year ← getUint32 (item j "year")
  return ⟨day, month, year⟩

end V2

/-! ## Lookups -/

def CJson.IsObject (j : CJson) : Prop := ∃ ms, j = .object ms

theorem isObject_assignIf (j : CJson) (given : Bool) (key : String) (v : CJson) :
    (j.assignIf given key v).IsObject ↔ given = true ∨ j.IsObject := by
  cases given with
  | false => simp [CJson.assignIf]
  | true =>
    refine iff_of_true ?_ (.inl rfl)
    cases j <;> exact ⟨_, rfl⟩

theorem lookup_addIf (given : Bool) (key : String) (v : CJson) (ms : List (String × CJson))
    (key' : String) :
    getObjectItem (.object (addIf given key v ++ ms)) key' =
      if given = true ∧ key = key' then some v else getObjectItem (.object ms) key' := by
  cases given with
  | false => simp
  | true => simpa using getObjectItem_cons (key, v) ms key'

/-! ## Requests to the lamp -/

/-- Two readings of `smooth`: above and at 0, or from 0 on and not 0. -/
theorem smooth_member (smooth : Int32) :
    (if 0 < smooth then [("smooth_control", CJson.bool true)]
      else addIf (smooth == 0) "smooth_control" (.bool false)) =
      addIf (decide (0 ≤ smooth)) "smooth_control" (.bool (smooth != 0)) := by
  rcases Int.lt_trichotomy 0 smooth.toInt with h | h | h
  · have hlt : 0 < smooth := Int32.lt_iff_toInt_lt.mpr h
    have hle : 0 ≤ smooth := Int32.le_of_lt hlt
    have hne : smooth ≠ 0 := fun h0 => Int32.lt_irrefl (h0 ▸ hlt)
    simp [hlt, hle, hne]
  · obtain rfl : smooth = 0 := Int32.toInt_inj.mp h.symm
    rfl
  · have hnot : ¬ 0 ≤ smooth := fun hle => by
      have := Int32.le_iff_toInt_le.mp hle
      simp only [Int32.toInt_zero] at this
      omega
    have hlt : ¬ 0 < smooth := fun hlt => hnot (Int32.le_of_lt hlt)
    have hne : smooth ≠ 0 := fun h0 => hnot (h0 ▸ Int32.le_refl 0)
    rw [if_neg hlt, beq_eq_false_iff_ne.mpr hne, decide_eq_false hnot]
    rfl

theorem lookup_flcReqToJson (req : FlcReq) (key : String) :
    getObjectItem (flcReqToJson req) key =
      if (!req.currTime.isEmpty) = true ∧ "current_time" = key then some (.string req.currTime)
      else if (!req.startTime.isEmpty) = true ∧ "start_time" = key then some (.string req.startTime)
      else if (!req.stopTime.isEmpty) = true ∧ "stop_time" = key then some (.string req.stopTime)
      else if decide (0 ≤ req.chPwr.ch1) = true ∧ "ch1_power" = key then
        some (intNumber req.chPwr.ch1)
      else if decide (0 ≤ req.chPwr.ch2) = true ∧ "ch2_power" = key then
        some (intNumber req.chPwr.ch2)
      else if decide (0 ≤ req.chPwr.ch3) = true ∧ "ch3_power" = key then
        some (intNumber req.chPwr.ch3)
      else if decide (0 ≤ req.smooth) = true ∧ "smooth_control" = key then
        some (.bool (req.smooth != 0))
      else if decide (0 ≤ req.smoothValue) = true ∧ "smooth_value" = key then
        some (intNumber req.smoothValue)
      else none := by
  have hlast : ∀ g n v, addIf g n v = addIf g n v ++ [] := fun g n v => (List.append_nil _).symm
  unfold flcReqToJson
  rw [smooth_member, hlast (decide (0 ≤ req.smoothValue))]
  simp only [List.append_assoc, lookup_addIf]
  rfl

/-- The keys a request can have. -/
def flcKeys : List String :=
  ["current_time", "start_time", "stop_time", "ch1_power", "ch2_power", "ch3_power", "smooth_control",
    "smooth_value"]

theorem lookup_v2_flcReqToJson (req : FlcReq) (key : String) :
    getObjectItem (V2.flcReqToJson req) key =
      if decide (0 ≤ req.smoothValue) = true ∧ "smooth_value" = key then
        some (intNumber req.smoothValue)
      else if decide (0 ≤ req.smooth) = true ∧ "smooth_control" = key then
        some (.bool (req.smooth != 0))
      else if decide (0 ≤ req.chPwr.ch3) = true ∧ "ch3_power" = key then
        some (intNumber req.chPwr.ch1)
      else if decide (0 ≤ req.chPwr.ch2) = true ∧ "ch2_power" = key then
        some (intNumber req.chPwr.ch2)
      else if decide (0 ≤ req.chPwr.ch1) = true ∧ "ch1_power" = key then
        some (intNumber req.chPwr.ch1)
      else if (!req.stopTime.isEmpty) = true ∧ "stop_time" = key then some (.string req.startTime)
      else if (!req.startTime.isEmpty) = true ∧ "start_time" = key then some (.string req.startTime)
      else if (!req.currTime.isEmpty) = true ∧ "current_time" = key then some (.string req.currTime)
      else none := by
  unfold V2.flcReqToJson
  simp only [lookup_assignIf]
  rfl

/-- Some field of the request is given. -/
def FlcReq.Given (req : FlcReq) : Prop :=
  req.currTime ≠ [] ∨ req.startTime ≠ [] ∨ req.stopTime ≠ [] ∨ 0 ≤ req.chPwr.ch1 ∨
    0 ≤ req.chPwr.ch2 ∨ 0 ≤ req.chPwr.ch3 ∨ 0 ≤ req.smooth ∨ 0 ≤ req.smoothValue

/-- Without an assignment the value stays `null`. -/
theorem isObject_v2_flcReqToJson (req : FlcReq) :
    (V2.flcReqToJson req).IsObject ↔ req.Given := by
  have hnull : ¬ CJson.null.IsObject := fun ⟨_, h⟩ => CJson.noConfusion h
  simp only [V2.flcReqToJson, isObject_assignIf, FlcReq.Given, hnull, decide_eq_true_eq,
    Bool.not_eq_true', List.isEmpty_eq_false_iff, or_false]
  grind

/-- The second version makes an object with the keys and values of the first. -/
def SameObject (v1 v2 : CJson) : Prop :=
  v2.IsObject ∧ ∀ key, getObjectItem v2 key = getObjectItem v1 key

theorem intNumber_injective : Function.Injective intNumber := fun a b h => by
  simpa [intNumber, Int32.toInt_inj] using h

/-- **The requests that both versions encode alike**: some field is given, a stop time only with
an equal start time, and a third channel only with an equal first. -/
theorem flcReqToJson_v2_iff (req : FlcReq) :
    SameObject (flcReqToJson req) (V2.flcReqToJson req) ↔
      req.Given ∧ (req.stopTime ≠ [] → req.stopTime = req.startTime) ∧
        (0 ≤ req.chPwr.ch3 → req.chPwr.ch3 = req.chPwr.ch1) := by
  rw [SameObject, isObject_v2_flcReqToJson]
  refine and_congr_right fun hgiven => ⟨fun h => ⟨fun hstop => ?stop, fun hch3 => ?ch3⟩,
    fun ⟨hstop, hch3⟩ key => ?same⟩
  case stop =>
    have hkey := h "stop_time"
    simp [lookup_flcReqToJson, lookup_v2_flcReqToJson, hstop] at hkey
    exact hkey.symm
  case ch3 =>
    have hkey := h "ch3_power"
    simp [lookup_flcReqToJson, lookup_v2_flcReqToJson, hch3] at hkey
    exact (intNumber_injective hkey).symm
  case same =>
    rw [lookup_flcReqToJson, lookup_v2_flcReqToJson]
    by_cases hk : key ∈ flcKeys
    · simp only [flcKeys, List.mem_cons, List.not_mem_nil, or_false] at hk
      rcases hk with rfl | rfl | rfl | rfl | rfl | rfl | rfl | rfl
      case inr.inr.inl =>
        by_cases hs : req.stopTime = []
        · simp [hs]
        · simp [hs, ← hstop hs]
      case inr.inr.inr.inr.inr.inl =>
        by_cases hc : 0 ≤ req.chPwr.ch3
        · simp [hc, ← hch3 hc]
        · simp [hc]
      all_goals simp
    · have hne : ∀ k ∈ flcKeys, k ≠ key := fun k hm he => hk (he ▸ hm)
      simp only [flcKeys, List.forall_mem_cons, List.not_mem_nil] at hne
      simp [hne]

/-- A lamp told to shine from 8 to 20 is told to stop when it starts. -/
theorem stop_time_is_start_time : ¬ ∀ req, SameObject (flcReqToJson req) (V2.flcReqToJson req) := by
  intro h
  have hkey := (h ⟨[], "08:00:00".toList, "20:00:00".toList, ⟨-1, -1, -1⟩, -1, -1⟩).2 "stop_time"
  simp [lookup_flcReqToJson, lookup_v2_flcReqToJson] at hkey

/-! ## Bodies -/

/-- The type and range that a decoder expects of a field. -/
inductive FieldKind where
  | int
  | uint32
  | str (size : Nat)
  deriving DecidableEq, Repr

namespace FieldKind

/-- A number has the range when it is a double, a text goes into the field up to its first NUL. -/
def Fits : FieldKind → Json → Prop
  | .int, .number x => -2147483648 ≤ nearest x ∧ nearest x ≤ 2147483647
  | .uint32, .number x => 0 ≤ nearest x ∧ nearest x ≤ 4294967295
  | .str size, .string p => ∃ bytes, meaning p = some bytes ∧ (cText bytes).length < size
  | _, _ => False

/-- The first value up to a NUL, and all of the second, are read as the same. -/
def Same : FieldKind → Json → Json → Prop
  | .int, .number x, .number y => whole (nearest x) = whole (nearest y)
  | .uint32, .number x, .number y => whole (nearest x) = whole (nearest y)
  | .str _, .string p, .string q => (meaning p).map cText = meaning q
  | _, _, _ => False

/-- The key is there, and its last value is read as its first. -/
def Given (kind : FieldKind) (ms : List (List StrItem × Json)) (key : String) : Prop :=
  ∃ first last, firstNamed key ms = some first ∧ lastNamed key ms = some last ∧ kind.Same first last

end FieldKind

/-! ## Whole parts -/

theorem whole_mem {d : Rat} {lo hi : Int} (hlo : (lo : Rat) ≤ d) (hhi : d ≤ (hi : Rat)) :
    lo ≤ whole d ∧ whole d ≤ hi := by
  have hden : (0 : Int) < d.den := Int.natCast_pos.mpr d.den_pos
  rw [Rat.le_iff] at hlo hhi
  refine ⟨Int.le_tdiv_of_mul_le hden (by simpa using hlo), ?_⟩
  have hneg : -hi ≤ (-d.num).tdiv d.den :=
    Int.le_tdiv_of_mul_le hden (by rw [Int.neg_mul]; exact Int.neg_le_neg (by simpa using hhi))
  rw [Int.neg_tdiv] at hneg
  exact Int.le_of_neg_le_neg hneg

/-- Within one range of 32 bits the conversion forgets nothing. -/
theorem ofInt_eq_iff {lo a b : Int} (ha : lo ≤ a ∧ a ≤ lo + 4294967295)
    (hb : lo ≤ b ∧ b ≤ lo + 4294967295) : Int32.ofInt a = Int32.ofInt b ↔ a = b := by
  refine ⟨fun h => ?_, fun h => h ▸ rfl⟩
  have hbits : (BitVec.ofInt 32 a).toNat = (BitVec.ofInt 32 b).toNat :=
    congrArg (fun n => n.toBitVec.toNat) h
  rw [BitVec.toNat_ofInt, BitVec.toNat_ofInt] at hbits
  omega

theorem whole_int_range {x : Rat} (h : FieldKind.int.Fits (.number x)) :
    -2147483648 ≤ whole (nearest x) ∧ whole (nearest x) ≤ -2147483648 + 4294967295 :=
  whole_mem h.1 h.2

theorem whole_uint32_range {x : Rat} (h : FieldKind.uint32.Fits (.number x)) :
    0 ≤ whole (nearest x) ∧ whole (nearest x) ≤ 0 + 4294967295 :=
  whole_mem h.1 h.2

/-- In range nothing is saturated. -/
theorem valueint_eq_ofInt_whole {d : Rat} (h : -2147483648 ≤ d ∧ d ≤ 2147483647) :
    valueint d = Int32.ofInt (whole d) := by
  unfold valueint
  split
  · next hhi =>
    obtain rfl : d = 2147483647 := Rat.le_antisymm h.2 hhi
    rfl
  · split
    · next hlo =>
      obtain rfl : d = -2147483648 := Rat.le_antisymm hlo h.1
      rfl
    · rfl

/-! ## Fields -/

/-- The members that cJSON takes for the field have the expected type and range. -/
def Expected (ms : List (List StrItem × Json)) (f : String × FieldKind) : Prop :=
  ∀ m ∈ ms, cutName m.1 = some f.1.toList → f.2.Fits m.2

/-- The members of a text as the two libraries have read them. -/
structure ReadBoth (levels : Nat) (ms : List (List StrItem × Json)) (ms₁ ms₂ : List (String × CJson)) :
    Prop where
  v1 : MembersRead cutName (·.tree levels) ms ms₁
  v2 : MembersRead meaning Nlohmann.parse ms ms₂

section
variable {levels : Nat} {ms : List (List StrItem × Json)} {ms₁ ms₂ : List (String × CJson)} {key : String}
  {kind : FieldKind}

theorem fits_firstNamed (h : Expected ms (key, kind)) {a : Json} (ha : firstNamed key ms = some a) :
    kind.Fits a := by
  obtain ⟨name, hmem, hname⟩ := named_mem ha
  exact h _ hmem hname

theorem fits_lastNamed (h : Expected ms (key, kind)) (hkey : nul ∉ key.toList) {b : Json}
    (hb : lastNamed key ms = some b) : kind.Fits b := by
  obtain ⟨name, hmem, hname⟩ := named_mem hb
  refine h _ (List.mem_reverse.mp hmem) ?_
  rw [cutName, hname, Option.map_some, cText_eq_self hkey]

/-- The first version finds the value of the first member of a name. -/
theorem lookup_first (hread : ReadBoth levels ms ms₁ ms₂) :
    getObjectItem (.object ms₁) key = (firstNamed key ms).bind (·.tree levels) :=
  hread.v1.lookup.1

/-- The second one that of the last, which it has read. -/
theorem lookup_last (hread : ReadBoth levels ms ms₁ ms₂) (key : String) :
    getObjectItem (nlohmannObject ms₂) key = (lastNamed key ms).bind Nlohmann.parse ∧
      ∀ b, lastNamed key ms = some b → (Nlohmann.parse b).isSome = true := by
  rw [lookup_nlohmannObject]
  exact MembersRead.lookup (List.rel_reverse hread.v2)

/-- What the two versions find of a field of expected type: the second one nothing, or both a
value of the text. -/
theorem lookups_of_expected (hread : ReadBoth levels ms ms₁ ms₂) (hkey : nul ∉ key.toList)
    (h : Expected ms (key, kind)) :
    (getObjectItem (nlohmannObject ms₂) key = none ∧ ¬ kind.Given ms key) ∨
      ∃ a b, getObjectItem (.object ms₁) key = a.tree levels ∧
        getObjectItem (nlohmannObject ms₂) key = Nlohmann.parse b ∧ (Nlohmann.parse b).isSome = true ∧
        kind.Fits a ∧ kind.Fits b ∧ lastNamed key ms = some b ∧ (kind.Given ms key ↔ kind.Same a b) := by
  obtain ⟨hlast, hread₂⟩ := lookup_last hread key
  cases hb : lastNamed key ms with
  | none =>
    refine .inl ⟨?_, fun ⟨_, last, _, hlast', _⟩ => ?_⟩
    · rw [hlast, hb, Option.bind_none]
    · rw [hb] at hlast'
      cases hlast'
  | some b =>
    obtain ⟨a, ha⟩ := firstNamed_of_lastNamed hkey hb
    refine .inr ⟨a, b, ?_, ?_, hread₂ b hb, fits_firstNamed h ha, fits_lastNamed h hkey hb, rfl, ?_⟩
    · rw [lookup_first hread, ha, Option.bind_some]
    · rw [hlast, hb, Option.bind_some]
    · simp [FieldKind.Given, ha, hb]

/-- A number that is parsed. -/
theorem parse_number {x : Rat} (h : (Nlohmann.parse (.number x)).isSome = true) :
    Nlohmann.parse (.number x) = some (.number (nearest x)) := by
  rw [Nlohmann.parse, Nlohmann.number] at h ⊢
  split at h
  · next hfin => rw [if_pos hfin]
  · cases h

theorem getInt_eq_iff (hread : ReadBoth levels ms ms₁ ms₂) (hkey : nul ∉ key.toList)
    (h : Expected ms (key, .int)) (absent : Int32) :
    V2.getInt (V2.item (nlohmannObject ms₂) key) =
        some ((getJsonObjInt (.object ms₁) key).getD absent) ↔ FieldKind.int.Given ms key := by
  unfold V2.item getJsonObjInt
  rcases lookups_of_expected hread hkey h with ⟨hb, hnot⟩ | ⟨a, b, ha, hb, hparse, hfa, hfb, -, hsame⟩
  · rw [hb]
    exact iff_of_false (fun h => by cases h) hnot
  · rw [ha, hb, hsame]
    cases a with
    | number x =>
      cases b with
      | number y =>
        rw [Json.tree, parse_number hparse]
        show some (Int32.ofInt (whole (nearest y))) = some (valueint (nearest x)) ↔
          whole (nearest x) = whole (nearest y)
        rw [Option.some_inj, valueint_eq_ofInt_whole hfa, eq_comm,
          ofInt_eq_iff (whole_int_range hfa) (whole_int_range hfb)]
      | _ => exact hfb.elim
    | _ => exact hfa.elim

theorem toUInt32_inj {a b : Int32} : a.toUInt32 = b.toUInt32 ↔ a = b :=
  ⟨congrArg Int32.ofUInt32, congrArg Int32.toUInt32⟩

theorem getUint32_eq_iff (hread : ReadBoth levels ms ms₁ ms₂) (hkey : nul ∉ key.toList)
    (h : Expected ms (key, .uint32)) (absent : UInt32) :
    V2.getUint32 (V2.item (nlohmannObject ms₂) key) =
        some ((getJsonObjUint32 (.object ms₁) key).getD absent) ↔ FieldKind.uint32.Given ms key := by
  unfold V2.item getJsonObjUint32
  rcases lookups_of_expected hread hkey h with ⟨hb, hnot⟩ | ⟨a, b, ha, hb, hparse, hfa, hfb, -, hsame⟩
  · rw [hb]
    exact iff_of_false (fun h => by cases h) hnot
  · rw [ha, hb, hsame]
    cases a with
    | number x =>
      cases b with
      | number y =>
        rw [Json.tree, parse_number hparse]
        show some (Int32.ofInt (whole (nearest y))).toUInt32 = some (Int32.ofInt (whole (nearest x))).toUInt32 ↔
          whole (nearest x) = whole (nearest y)
        rw [Option.some_inj, toUInt32_inj, eq_comm,
          ofInt_eq_iff (whole_uint32_range hfa) (whole_uint32_range hfb)]
      | _ => exact hfb.elim
    | _ => exact hfa.elim

/-- A text that fits its field is copied whole, up to its first NUL. -/
theorem getString_eq_iff (hread : ReadBoth levels ms ms₁ ms₂) (hkey : nul ∉ key.toList) {size : Nat}
    (h : Expected ms (key, .str size)) (absent : CStr) :
    V2.getString (V2.item (nlohmannObject ms₂) key) =
        some ((getJsonObjStr (.object ms₁) key size).getD absent) ↔
      (FieldKind.str size).Given ms key := by
  unfold V2.item getJsonObjStr
  rcases lookups_of_expected hread hkey h with ⟨hb, hnot⟩ | ⟨a, b, ha, hb, hparse, hfa, hfb, -, hsame⟩
  · rw [hb]
    exact iff_of_false (fun h => by cases h) hnot
  · rw [ha, hb, hsame]
    cases a with
    | string p =>
      cases b with
      | string q =>
        obtain ⟨bytes, hp, hlen⟩ := hfa
        obtain ⟨bytes', hq, -⟩ := hfb
        have hscan : Nlohmann.parse (.string q) = some (.string bytes') := by
          rw [Nlohmann.parse, Nlohmann.scanString] at hparse ⊢
          split at hparse
          · next hutf => rw [if_pos hutf, hq, Option.map_some]
          · cases hparse
        rw [Json.tree, hscan, hp, Option.map_some]
        show some bytes' = some ((cText bytes).take (size - 1)) ↔ (meaning p).map cText = meaning q
        rw [hp, hq, Option.map_some, Option.some_inj, Option.some_inj,
          List.take_of_length_le (Nat.le_sub_one_of_lt hlen), eq_comm]
      | _ => exact hfb.elim
    | _ => exact hfa.elim

/-- The second power, which the first version leaves at -1 when it reads the first. -/
theorem getInt_eq_neg_one_iff (hread : ReadBoth levels ms ms₁ ms₂) (hkey : nul ∉ key.toList)
    (h : Expected ms (key, .int)) :
    V2.getInt (V2.item (nlohmannObject ms₂) key) = some (-1) ↔
      ∃ x, lastNamed key ms = some (.number x) ∧ whole (nearest x) = -1 := by
  unfold V2.item
  rcases lookups_of_expected hread hkey h with ⟨hb, hnot⟩ | ⟨a, b, -, hb, hparse, -, hfb, hlast', -⟩
  · rw [hb]
    refine iff_of_false (fun h => by cases h) fun ⟨x, hx, _⟩ => ?_
    have hsome := (lookup_last hread key).2 _ hx
    rw [(lookup_last hread key).1, hx, Option.bind_some] at hb
    rw [hb] at hsome
    cases hsome
  · rw [hb, hlast']
    cases b with
    | number x =>
      rw [parse_number hparse]
      show some (Int32.ofInt (whole (nearest x))) = some (Int32.ofInt (-1)) ↔ _
      rw [Option.some_inj, ofInt_eq_iff (whole_int_range hfb) (by omega)]
      simp
    | _ => exact hfb.elim

/-- A key that the first version does not find is not there for the second. -/
theorem getInt_of_absent (hread : ReadBoth levels ms ms₁ ms₂) (hkey : nul ∉ key.toList)
    (h : Expected ms (key, .int)) (hnone : getJsonObjInt (.object ms₁) key = none) :
    V2.getInt (V2.item (nlohmannObject ms₂) key) = none := by
  unfold getJsonObjInt at hnone
  unfold V2.item
  rcases lookups_of_expected hread hkey h with ⟨hb, -⟩ | ⟨a, -, ha, -, -, hfa, -⟩
  · rw [hb]
    rfl
  · rw [ha] at hnone
    cases a with
    | number x =>
      rw [Json.tree] at hnone
      cases hnone
    | _ => exact hfa.elim

end

/-! ## The four decoders -/

inductive Decoder where
  | flcChPwr | coolersPower | rtcSettings | thDate
  deriving DecidableEq, Repr

namespace Decoder

def Value : Decoder → Type
  | flcChPwr => FlcChPwr
  | coolersPower => CoolersPwr
  | rtcSettings => RtcSett
  | thDate => ThDateReq

def v1 : (d : Decoder) → Body → Except Jerr d.Value
  | flcChPwr => jsonToFlcChPwr
  | coolersPower => jsonToCoolersPower
  | rtcSettings => jsonToRtcSettings
  | thDate => jsonToThDate

def v2 : (d : Decoder) → CJson → Option d.Value
  | flcChPwr => V2.jsonToFlcChPwr
  | coolersPower => V2.jsonToCoolersPower
  | rtcSettings => V2.jsonToRtcSettings
  | thDate => V2.jsonToThsDate

def fields : Decoder → List (String × FieldKind)
  | flcChPwr => [("ch1_power", .int), ("ch2_power", .int), ("ch3_power", .int)]
  | coolersPower => [("wind_in", .int), ("wind_out", .int)]
  | rtcSettings => [("hour", .str 4), ("min", .str 4), ("sec", .str 4), ("mday", .str 4),
      ("month", .str 4), ("year", .str 8)]
  | thDate => [("day", .uint32), ("month", .uint32), ("year", .uint32)]

/-- Every field is given; of the coolers the second as -1, since the first version does not read
it after the first. -/
def Complete (ms : List (List StrItem × Json)) : Decoder → Prop
  | coolersPower => FieldKind.int.Given ms "wind_in" ∧
      ∃ x, lastNamed "wind_out" ms = some (.number x) ∧ whole (nearest x) = -1
  | d => ∀ f ∈ d.fields, f.2.Given ms f.1

end Decoder

section
variable {levels : Nat} {ms : List (List StrItem × Json)} {ms₁ ms₂ : List (String × CJson)}
  (hread : ReadBoth levels ms ms₁ ms₂)
include hread

theorem flcChPwr_v2_iff (hexp : ∀ f ∈ Decoder.flcChPwr.fields, Expected ms f) {p : FlcChPwr}
    (hok : jsonToFlcChPwr (some (.object ms₁)) = .ok p) :
    V2.jsonToFlcChPwr (nlohmannObject ms₂) = some p ↔ Decoder.flcChPwr.Complete ms := by
  simp only [Decoder.fields, List.forall_mem_cons] at hexp
  obtain ⟨h1, h2, h3, -⟩ := hexp
  cases hok
  simp only [V2.jsonToFlcChPwr, Decoder.Complete, Decoder.fields, List.forall_mem_cons]
  rw [← getInt_eq_iff hread (by decide) h1 (-1), ← getInt_eq_iff hread (by decide) h2 (-1),
    ← getInt_eq_iff hread (by decide) h3 (-1)]
  simp [Option.bind_eq_some_iff]

theorem rtcSettings_v2_iff (hexp : ∀ f ∈ Decoder.rtcSettings.fields, Expected ms f) {r : RtcSett}
    (hok : jsonToRtcSettings (some (.object ms₁)) = .ok r) :
    V2.jsonToRtcSettings (nlohmannObject ms₂) = some r ↔ Decoder.rtcSettings.Complete ms := by
  simp only [Decoder.fields, List.forall_mem_cons] at hexp
  obtain ⟨h1, h2, h3, h4, h5, h6, -⟩ := hexp
  cases hok
  simp only [V2.jsonToRtcSettings, Decoder.Complete, Decoder.fields, List.forall_mem_cons]
  rw [← getString_eq_iff hread (by decide) h1 [], ← getString_eq_iff hread (by decide) h2 [],
    ← getString_eq_iff hread (by decide) h3 [], ← getString_eq_iff hread (by decide) h4 [],
    ← getString_eq_iff hread (by decide) h5 [], ← getString_eq_iff hread (by decide) h6 []]
  simp [Option.bind_eq_some_iff]

theorem thDate_v2_iff (hexp : ∀ f ∈ Decoder.thDate.fields, Expected ms f) {r : ThDateReq}
    (hok : jsonToThDate (some (.object ms₁)) = .ok r) :
    V2.jsonToThsDate (nlohmannObject ms₂) = some r ↔ Decoder.thDate.Complete ms := by
  simp only [Decoder.fields, List.forall_mem_cons] at hexp
  obtain ⟨h1, h2, h3, -⟩ := hexp
  simp only [jsonToThDate, withRoot] at hok
  cases hday : getJsonObjUint32 (.object ms₁) "day" with
  | none =>
    rw [hday] at hok
    cases hok
  | some day =>
    cases hmonth : getJsonObjUint32 (.object ms₁) "month" with
    | none =>
      rw [hday, hmonth] at hok
      cases hok
    | some month =>
      simp only [hday, hmonth, required] at hok
      cases hok
      simp only [V2.jsonToThsDate, Decoder.Complete, Decoder.fields, List.forall_mem_cons]
      rw [← getUint32_eq_iff hread (by decide) h1 0, ← getUint32_eq_iff hread (by decide) h2 0,
        ← getUint32_eq_iff hread (by decide) h3 0, hday, hmonth]
      simp [Option.bind_eq_some_iff]

theorem coolersPower_v2_iff (hexp : ∀ f ∈ Decoder.coolersPower.fields, Expected ms f) {p : CoolersPwr}
    (hok : jsonToCoolersPower (some (.object ms₁)) = .ok p) :
    V2.jsonToCoolersPower (nlohmannObject ms₂) = some p ↔ Decoder.coolersPower.Complete ms := by
  simp only [Decoder.fields, List.forall_mem_cons] at hexp
  obtain ⟨h1, h2, -⟩ := hexp
  have hboth : V2.jsonToCoolersPower (nlohmannObject ms₂) = some p ↔
      V2.getInt (V2.item (nlohmannObject ms₂) "wind_in") = some p.in ∧
        V2.getInt (V2.item (nlohmannObject ms₂) "wind_out") = some p.out := by
    obtain ⟨pin, pout⟩ := p
    simp [V2.jsonToCoolersPower, Option.bind_eq_some_iff]
  rw [hboth, Decoder.Complete, ← getInt_eq_neg_one_iff hread (by decide) h2,
    ← getInt_eq_iff hread (by decide) h1 (-1)]
  simp only [jsonToCoolersPower, withRoot] at hok
  cases hin : getJsonObjInt (.object ms₁) "wind_in" with
  | some pin =>
    rw [hin] at hok
    cases hok
    rfl
  | none =>
    -- the second version throws at the key that the first did not find
    rw [getInt_of_absent hread (by decide) h1 hin]
    exact iff_of_false (fun h => by cases h.1) (fun h => by cases h.1)

theorem decoder_v2_iff (d : Decoder) (hexp : ∀ f ∈ d.fields, Expected ms f) {v : d.Value}
    (hok : d.v1 (some (.object ms₁)) = .ok v) :
    d.v2 (nlohmannObject ms₂) = some v ↔ d.Complete ms := by
  cases d with
  | flcChPwr => exact flcChPwr_v2_iff hread hexp hok
  | coolersPower => exact coolersPower_v2_iff hread hexp hok
  | rtcSettings => exact rtcSettings_v2_iff hread hexp hok
  | thDate => exact thDate_v2_iff hread hexp hok

end

/-- A text that is not parsed is not accepted. -/
theorem Decoder.v1_none (d : Decoder) (v : d.Value) : d.v1 none ≠ .ok v := by
  cases d <;> exact nofun

/-- The decoder of the second version on the text of an object. -/
def Decoder.v2Text (d : Decoder) (v : Json) : Option d.Value := (Nlohmann.parse v).bind d.v2

/-- **The texts that both versions decode alike**: of the objects that the first one accepts, with
every field of the expected type and range, exactly those that are complete and readable. -/
theorem decoders_v2_iff (d : Decoder) (s : CStr) (ms : List (List StrItem × Json))
    (htext : IsText s (.object ms)) (hnul : nul ∉ s) (hexp : ∀ f ∈ d.fields, Expected ms f)
    (v : d.Value) (hok : d.v1 (cJsonParse s) = .ok v) :
    d.v2Text (.object ms) = some v ↔ d.Complete ms ∧ Nlohmann.Readable (.object ms) := by
  cases hparse : cJsonParse s with
  | none =>
    rw [hparse] at hok
    exact absurd hok (d.v1_none v)
  | some t =>
    rw [hparse] at hok
    have htree := cJsonParse_accepted htext hnul hparse
    have hreadable := Nlohmann.isSome_parse htree
    rw [nestingLimit, Json.tree] at htree
    obtain ⟨ms₁, hms₁, rfl⟩ := Option.map_eq_some_iff.mp htree
    rw [Decoder.v2Text, ← hreadable, Nlohmann.parse]
    cases hms₂ : Nlohmann.parseMembers ms with
    | none => simp
    | some ms₂ =>
      have hread : ReadBoth 999 ms ms₁ ms₂ :=
        ⟨membersRead_treeMembers hms₁, Nlohmann.membersRead_parseMembers hms₂⟩
      simpa using decoder_v2_iff hread d hexp hok

/-- A member as `JSON.stringify` writes it. -/
def numberMember (key : String) (n : Nat) : List Char := '"' :: (key.toList ++ '"' :: ':' :: dec n)

theorem member_numberMember (key : String) (hkey : ∀ c ∈ key.toList, IsPlain c) (n : Nat) (r : List Char) :
    Member (numberMember key n ++ r) (plainStr key.toList, .number n) r := by
  unfold numberMember
  simp only [List.cons_append, List.append_assoc]
  exact .mk (chars_plainStr hkey _) (.none _) (.none _) (value_ofNat n r)

/-- The body of `app_get_th_day_data`, with the year. -/
def fullDate : CStr :=
  '{' :: (numberMember "day" 7 ++ ',' :: (numberMember "month" 3 ++ ',' :: (numberMember "year" 2024 ++ ['}'])))

def fullDateMembers : List (List StrItem × Json) :=
  [(plainStr "day".toList, .number (7 : Nat)), (plainStr "month".toList, .number (3 : Nat)),
    (plainStr "year".toList, .number (2024 : Nat))]

theorem isText_fullDate : IsText fullDate (.object fullDateMembers) := by
  have hlast := Members.last (member_numberMember "year" (isPlain_of_all (by decide)) 2024 ['}']) (.none _)
  have hmonth := Members.more (member_numberMember "month" (isPlain_of_all (by decide)) 3 _) (.none _)
    (.none _) hlast
  have hday := Members.more (member_numberMember "day" (isPlain_of_all (by decide)) 7 _) (.none _)
    (.none _) hmonth
  exact ⟨_, [], .none _, .members (.none _) hday, .none _⟩

theorem cJsonParse_fullDate :
    cJsonParse fullDate = some (.object [("day", .number 7), ("month", .number 3), ("year", .number 2024)]) := by
  rw [cJsonParse_isText isText_fullDate (by decide) (by decide)]
  simp only [nestingLimit, fullDateMembers, Json.tree, treeMembers, meaning_plainStr,
    (isDouble_natCast (show 7 < 2 ^ 53 by decide)).nearest_eq,
    (isDouble_natCast (show 3 < 2 ^ 53 by decide)).nearest_eq,
    (isDouble_natCast (show 2024 < 2 ^ 53 by decide)).nearest_eq]
  rfl

theorem expected_of_forall {ms : List (List StrItem × Json)} {f : String × FieldKind}
    (h : ∀ m ∈ ms, f.2.Fits m.2) : Expected ms f := fun m hm _ => h m hm

theorem fits_int {n : Nat} (h : n < 2 ^ 31) : FieldKind.int.Fits (.number (n : Nat)) := by
  rw [FieldKind.Fits, (isDouble_natCast (by omega)).nearest_eq]
  refine ⟨?_, by exact_mod_cast (by omega : n ≤ 2147483647)⟩
  exact_mod_cast (by omega : (-2147483648 : Int) ≤ n)

theorem fits_uint32 {n : Nat} (h : n < 2 ^ 32) : FieldKind.uint32.Fits (.number (n : Nat)) := by
  rw [FieldKind.Fits, (isDouble_natCast (by omega)).nearest_eq]
  exact ⟨by exact_mod_cast Nat.zero_le n, by exact_mod_cast (by omega : n ≤ 4294967295)⟩

theorem readable_number {n : Nat} (h : n < 2 ^ 53) : Nlohmann.Readable (.number (n : Nat)) := by
  rw [Nlohmann.Readable, (isDouble_natCast h).nearest_eq]
  exact (isDouble_natCast h).abs_lt_huge

theorem full_date_decoded_alike :
    Decoder.thDate.v2Text (.object fullDateMembers) = some ⟨7, 3, 2024⟩ := by
  refine (decoders_v2_iff .thDate fullDate fullDateMembers isText_fullDate (by decide) ?_ ⟨7, 3, 2024⟩
    ?_).mpr ⟨?_, ?_⟩
  · intro f hf
    simp only [Decoder.fields, List.mem_cons, List.not_mem_nil, or_false] at hf
    rcases hf with rfl | rfl | rfl <;>
    · refine expected_of_forall ?_
      simp only [fullDateMembers, List.forall_mem_cons]
      exact ⟨fits_uint32 (by decide), fits_uint32 (by decide), fits_uint32 (by decide), nofun⟩
  · rw [cJsonParse_fullDate]
    rfl
  · simp only [Decoder.Complete, Decoder.fields, List.forall_mem_cons]
    exact ⟨⟨_, _, rfl, rfl, rfl⟩, ⟨_, _, rfl, rfl, rfl⟩, ⟨_, _, rfl, rfl, rfl⟩, nofun⟩
  · simp only [fullDateMembers, Nlohmann.Readable, Nlohmann.MembersReadable]
    exact ⟨by decide, readable_number (by decide), by decide, readable_number (by decide), by decide,
      readable_number (by decide), trivial⟩

/-- A page that sets one channel sends one key. -/
theorem single_channel_throws : ¬ ∀ (d : Decoder) (s : CStr) (ms : List (List StrItem × Json)),
    IsText s (.object ms) → nul ∉ s → (∀ f ∈ d.fields, Expected ms f) →
      ∀ v : d.Value, d.v1 (cJsonParse s) = .ok v → d.v2Text (.object ms) = some v := by
  intro h
  have hvalue : Value ("50".toList ++ ['}']) (.number (50 : Nat)) ['}'] := value_ofNat 50 ['}']
  have htext := isText_object "ch1_power".toList _ (isPlain_of_all (by decide)) hvalue
  have hdouble := isDouble_natCast (show 50 < 2 ^ 53 by decide)
  have hparse : cJsonParse (objectText "ch1_power".toList "50".toList) =
      some (.object [("ch1_power", .number 50)]) := by
    rw [cJsonParse_isText htext (by decide) (by decide)]
    simp only [nestingLimit, Json.tree, treeMembers, meaning_plainStr, hdouble.nearest_eq]
    rfl
  have hv := h .flcChPwr _ _ htext (by decide) ?_ ⟨50, -1, -1⟩ ?_
  · have hscan : Nlohmann.scanString (plainStr "ch1_power".toList) = some "ch1_power".toList := by rfl
    have hnumber : Nlohmann.number (50 : Nat) = some (.number (50 : Nat)) := by
      rw [Nlohmann.number, hdouble.nearest_eq, if_pos hdouble.abs_lt_huge]
    simp only [Decoder.v2Text, Nlohmann.parse, Nlohmann.parseMembers, hscan, hnumber] at hv
    cases hv
  · intro f hf
    simp only [Decoder.fields, List.mem_cons, List.not_mem_nil, or_false] at hf
    rcases hf with rfl | rfl | rfl <;>
      exact expected_of_forall (by simpa using fits_int (n := 50) (by decide))
  · rw [hparse]
    rfl

end Growbox
