/-!
# Request bodies: the cJSON tree and the decoders of `jsont.c`

A handler sees of a body what `cJSON_Parse` returns for it: `none` when the
parser rejects the text, else the tree.  The decoders read members of the root
object by name; `getJsonObj` with its type argument is one reader per type here
(`getJsonObjInt`, `getJsonObjStr`, …), `none` where the source returns `false`.
-/

namespace Growbox

/-- A C string: its bytes up to the terminator. -/
abbrev CStr := List Char

/-! ## cJSON -/

/-- A number is a double without the sign of a zero, and never a NaN. -/
inductive CJson where
  | null
  | bool (b : Bool)
  | number (valuedouble : Rat)
  | string (valuestring : CStr)
  | array (items : List CJson)
  | object (members : List (String × CJson))

/-- What `cJSON_Parse` returns for a request body. -/
abbrev Body := Option CJson

/-- `parse_number`: the value truncated to `int`, saturated at both ends. -/
def valueint (valuedouble : Rat) : Int32 :=
  if valuedouble ≥ 2147483647 then 2147483647
  else if valuedouble ≤ -2147483648 then -2147483648
  else Int32.ofInt (valuedouble.num.tdiv valuedouble.den)

/-- First member of that name; only an object has named children. -/
def getObjectItem : CJson → String → Option CJson
  | .object members, name => (members.find? fun m => m.1 == name).map Prod.snd
  | _, _ => none

def getJsonObjInt (root : CJson) (name : String) : Option Int32 :=
  match getObjectItem root name with
  | some (.number d) => some (valueint d)
  | _ => none

/-- The cast of a `double` outside `uint32_t` is undefined in C; here it wraps. -/
def getJsonObjUint32 (root : CJson) (name : String) : Option UInt32 :=
  match getObjectItem root name with
  | some (.number d) => some (Int32.ofInt (d.num.tdiv d.den)).toUInt32
  | _ => none

def getJsonObjBool (root : CJson) (name : String) : Option Bool :=
  match getObjectItem root name with
  | some (.bool b) => some b
  | _ => none

/-- Copies into a zeroed field of `destSize` bytes; a longer string is cut. -/
def getJsonObjStr (root : CJson) (name : String) (destSize : Nat) : Option CStr :=
  match getObjectItem root name with
  | some (.string s) => some (s.take (destSize - 1))
  | _ => none

/-! ## Results -/

/-- `jerr_t` without `J_OK`, which is `Except.ok` here. -/
inductive Jerr where
  | invalidFormat | fieldMissing | unknownErr | parserErr | outOfRange
  deriving DecidableEq, Repr

def Jerr.code : Jerr → Int
  | .invalidFormat => 1
  | .fieldMissing => 2
  | .unknownErr => 3
  | .parserErr => 4
  | .outOfRange => 5

def jsontGetErrText : Jerr → CStr
  | .invalidFormat => "JSON: Invalid data format".toList
  | .fieldMissing => "JSON: Data field missing".toList
  | .unknownErr => "JSON: Unknown error".toList
  | .parserErr => "JSON: Parser error".toList
  | .outOfRange => "JSON: Data out of range".toList

/-- `res_t`: the result part of a reply. -/
structure Res where
  code : Int
  text : CStr
  deriving DecidableEq, Repr

/-- `if (!GET_JSON_OBJ_…) EXIT(J_FIELD_MISSING)` -/
def required {α : Type} : Option α → Except Jerr α
  | some a => .ok a
  | none => .error .fieldMissing

/-- Every decoder first parses the text. -/
def withRoot {α : Type} (json : Body) (k : CJson → Except Jerr α) : Except Jerr α :=
  match json with
  | none => .error .parserErr
  | some root => k root

/-! ## Decoders -/

structure MyTime where
  hour : UInt32
  min : UInt32
  sec : UInt32
  deriving DecidableEq, Repr

/-- Each `int` is copied byte for byte into the unsigned field. -/
def jsonToMyTime (json : Body) : Except Jerr MyTime :=
  withRoot json fun root => do
    let hour ← required (getJsonObjInt root "hour")
    let min ← required (getJsonObjInt root "min")
    let sec ← required (getJsonObjInt root "sec")
    return ⟨hour.toUInt32, min.toUInt32, sec.toUInt32⟩

structure CoolersPwr where
  «in» : Int32
  out : Int32
  deriving DecidableEq, Repr

/-- `wind_out` is read only when `wind_in` is absent; an unread field keeps
the `-1` of the constructor. -/
def jsonToCoolersPower (json : Body) : Except Jerr CoolersPwr :=
  withRoot json fun root =>
    match getJsonObjInt root "wind_in" with
    | some p => .ok ⟨p, -1⟩
    | none =>
      match getJsonObjInt root "wind_out" with
      | some p => .ok ⟨-1, p⟩
      | none => .error .fieldMissing

def jsonToThPeriod (json : Body) : Except Jerr Int32 :=
  withRoot json fun root => required (getJsonObjInt root "poll_period")

structure FlcChPwr where
  ch1 : Int32
  ch2 : Int32
  ch3 : Int32
  deriving DecidableEq, Repr

def jsonToFlcChPwr (json : Body) : Except Jerr FlcChPwr :=
  withRoot json fun root =>
    .ok ⟨(getJsonObjInt root "ch1_power").getD (-1), (getJsonObjInt root "ch2_power").getD (-1),
      (getJsonObjInt root "ch3_power").getD (-1)⟩

def jsonToFlcSmooth (json : Body) : Except Jerr Bool :=
  withRoot json fun root => required (getJsonObjBool root "smooth_control")

def jsonToFlcSmoothValue (json : Body) : Except Jerr Int32 :=
  withRoot json fun root => required (getJsonObjInt root "smooth_value")

structure LanSett where
  ip4 : CStr
  ip3 : CStr
  ip2 : CStr
  ip1 : CStr
  gw4 : CStr
  gw3 : CStr
  gw2 : CStr
  gw1 : CStr
  dhcp : Bool
  deriving DecidableEq, Repr

def jsonToLanSettings (json : Body) : Except Jerr LanSett :=
  withRoot json fun root => do
    let ip4 ← required (getJsonObjStr root "ip4" 4)
    let ip3 ← required (getJsonObjStr root "ip3" 4)
    let ip2 ← required (getJsonObjStr root "ip2" 4)
    let ip1 ← required (getJsonObjStr root "ip1" 4)
    let gw4 ← required (getJsonObjStr root "gw4" 4)
    let gw3 ← required (getJsonObjStr root "gw3" 4)
    let gw2 ← required (getJsonObjStr root "gw2" 4)
    let gw1 ← required (getJsonObjStr root "gw1" 4)
    let dhcp ← required (getJsonObjBool root "dhcp")
    return ⟨ip4, ip3, ip2, ip1, gw4, gw3, gw2, gw1, dhcp⟩

structure RtcSett where
  hour : CStr
  min : CStr
  sec : CStr
  mday : CStr
  month : CStr
  year : CStr
  deriving DecidableEq, Repr

/-- No field is required; one that is absent stays empty. -/
def jsonToRtcSettings (json : Body) : Except Jerr RtcSett :=
  withRoot json fun root =>
    .ok { hour := (getJsonObjStr root "hour" 4).getD []
          min := (getJsonObjStr root "min" 4).getD []
          sec := (getJsonObjStr root "sec" 4).getD []
          mday := (getJsonObjStr root "mday" 4).getD []
          month := (getJsonObjStr root "month" 4).getD []
          year := (getJsonObjStr root "year" 8).getD [] }

structure ThDateReq where
  day : UInt32
  month : UInt32
  year : UInt32
  deriving DecidableEq, Repr

def jsonToThDate (json : Body) : Except Jerr ThDateReq :=
  withRoot json fun root => do
    let day ← required (getJsonObjUint32 root "day")
    let month ← required (getJsonObjUint32 root "month")
    return ⟨day, month, (getJsonObjUint32 root "year").getD 0⟩

/-! ## Lemmas -/

theorem getObjectItem_cons (m : String × CJson) (ms : List (String × CJson)) (name : String) :
    getObjectItem (.object (m :: ms)) name =
      if m.1 = name then some m.2 else getObjectItem (.object ms) name := by
  simp only [getObjectItem, List.find?_cons]
  by_cases h : m.1 = name
  · rw [if_pos h, beq_iff_eq.mpr h]
    rfl
  · rw [if_neg h, beq_eq_false_iff_ne.mpr h]

theorem required_ok_iff {α : Type} {o : Option α} {a : α} : required o = .ok a ↔ o = some a := by
  cases o <;> simp [required]

/-- Past a required member, the decoder goes on with its value. -/
theorem required_bind_ok_iff {α β : Type} {o : Option α} {k : α → Except Jerr β} {b : β} :
    (required o >>= k) = .ok b ↔ ∃ a, o = some a ∧ k a = .ok b := by
  cases o with
  | none => exact iff_of_false (fun h => by cases h) (fun ⟨_, h, _⟩ => by cases h)
  | some a => exact ⟨fun h => ⟨a, rfl, h⟩, fun ⟨_, h, hk⟩ => by cases h; exact hk⟩

/-- The channel decoder fails on a text the parser rejects, and only there. -/
theorem jsonToFlcChPwr_error_iff (json : Body) (e : Jerr) :
    jsonToFlcChPwr json = .error e ↔ json = none ∧ e = .parserErr := by
  cases json with
  | none => simp [jsonToFlcChPwr, withRoot, eq_comm]
  | some root => simp [jsonToFlcChPwr, withRoot]

/-- At most one of the two powers is asked for. -/
theorem jsonToCoolersPower_ok (json : Body) (p : CoolersPwr)
    (h : jsonToCoolersPower json = .ok p) : p.in = -1 ∨ p.out = -1 := by
  cases json with
  | none => simp [jsonToCoolersPower, withRoot] at h
  | some root =>
    simp only [jsonToCoolersPower, withRoot] at h
    split at h
    · cases h; right; rfl
    · split at h
      · cases h; left; rfl
      · cases h

theorem toUInt32_ofInt_natCast (n : Nat) : (Int32.ofInt (n : Int)).toUInt32 = UInt32.ofNat n := by
  apply UInt32.toBitVec_inj.mp
  show BitVec.ofInt 32 (n : Int) = BitVec.ofNat 32 n
  exact BitVec.ofInt_natCast 32 n

end Growbox
