import Growbox.CJsonRoundTrip
import Growbox.FlcTimes
import Growbox.ListedDates

/-!
# `jsont.c`: the replies as texts

An encoder makes a tree of its structure and prints it.  Whoever reads the text reads this tree
again (`reply_reads_back`).  So the settings page shows what it could send back as it is
(`settings_round_trip`), the coolers page shows what was sent last (`coolers_show_last_sent`),
and the climate page shows the records of the date that is chosen (`climate_shows_records`),
however the texts of the browser are written.
-/

namespace Growbox

open Decimal Double EventRun JsonText

/-! ## The structures -/

structure ContentResp where
  temperature : CStr
  humidity : CStr
  water : CStr
  light : CStr
  windIn : CStr
  windOut : CStr

/-- `load_percent` is in no reply. -/
structure CpuSett where
  temperature : CStr
  appVersion : CStr

structure CurrSett where
  lan : LanSett
  wifiApState : Bool
  rtc : RtcSett
  cpu : CpuSett

/-- `arr` with the type of each cooler; `none` is the null pointer. -/
structure CoolersState where
  res : Res
  arr : Option (List (CStr × CoolerStatus))

/-! ## The encoders -/

def resToJson (resp : Res) : CJson :=
  .object [("result_text", .string resp.text), ("result_code", .number resp.code)]

def contentRespToJson (resp : ContentResp) : CJson :=
  .object [("temperature", .string resp.temperature), ("humidity", .string resp.humidity),
    ("water", .string resp.water), ("wind_in", .string resp.windIn), ("wind_out", .string resp.windOut),
    ("light", .string resp.light)]

def lanJson (lan : LanSett) : CJson :=
  .object [("ip4", .string lan.ip4), ("ip3", .string lan.ip3), ("ip2", .string lan.ip2), ("ip1", .string lan.ip1),
    ("gw4", .string lan.gw4), ("gw3", .string lan.gw3), ("gw2", .string lan.gw2), ("gw1", .string lan.gw1),
    ("dhcp", .bool lan.dhcp)]

def rtcJson (rtc : RtcSett) : CJson :=
  .object [("hour", .string rtc.hour), ("min", .string rtc.min), ("sec", .string rtc.sec),
    ("mday", .string rtc.mday), ("month", .string rtc.month), ("year", .string rtc.year)]

def currSettRespToJson (resp : CurrSett) : CJson :=
  .object [("LAN", lanJson resp.lan), ("WIFI", .object [("ap_state", .bool resp.wifiApState)]),
    ("RTC", rtcJson resp.rtc),
    ("CPU", .object [("temperature", .string resp.cpu.temperature), ("app_ver", .string resp.cpu.appVersion)])]

/-- `"%02u"` of a number of a time; one that was not assigned is what the memory holds. -/
def clockField (unset : UInt32) (n : Option UInt32) : CStr := dec2 (n.getD unset).toNat

def flcStatusToJson (unset : UInt32) (resp : FlcStatus) : CJson :=
  .object [("result_text", .string resp.res.text), ("result_code", .number resp.res.code),
    ("power_state", .bool resp.powerState),
    ("curr_hour", .string (clockField unset resp.currTime.hour)),
    ("curr_min", .string (clockField unset resp.currTime.min)),
    ("curr_sec", .string (clockField unset resp.currTime.sec)),
    ("start_hour", .string (clockField unset resp.startTime.hour)),
    ("start_min", .string (clockField unset resp.startTime.min)),
    ("start_sec", .string (clockField unset resp.startTime.sec)),
    ("stop_hour", .string (clockField unset resp.stopTime.hour)),
    ("stop_min", .string (clockField unset resp.stopTime.min)),
    ("stop_sec", .string (clockField unset resp.stopTime.sec)),
    ("white_power", intNumber resp.chPwr.ch1), ("red_power", intNumber resp.chPwr.ch2),
    ("blue_power", intNumber resp.chPwr.ch3), ("smooth", .bool resp.smooth),
    ("smooth_value", intNumber resp.smoothValue)]

/-- The member `result` of the replies with a list. -/
def resultJson (res : Res) : CJson := .object [("code", .number res.code), ("text", .string res.text)]

/-- A list is left out when there is no memory for it; an element whose first field is empty is
left out of it. -/
def listMember {α : Type} (name : String) (key : α → CStr) (elem : α → CJson) :
    Option (List α) → List (String × CJson)
  | some arr => [(name, .array ((arr.filter fun a => !(key a).isEmpty).map elem))]
  | none => []

def coolerElem (c : CStr × CoolerStatus) : CJson :=
  .object [("type", .string c.1), ("power", .number c.2.power.toNat), ("start_hour", .string c.2.startHour),
    ("start_min", .string c.2.startMin), ("start_sec", .string c.2.startSec), ("stop_hour", .string c.2.stopHour),
    ("stop_min", .string c.2.stopMin), ("stop_sec", .string c.2.stopSec), ("wp_min", .string c.2.wpMin),
    ("is_on", .bool c.2.isOn)]

def coolersStateToJson (resp : CoolersState) : CJson :=
  .object (("result", resultJson resp.res) :: listMember "coolers_state" Prod.fst coolerElem resp.arr)

section
variable {F : Type} (value : F → Rat)

/-- `value` is what a `float` is as a `double`. -/
def thDataElem (d : ThData F) : CJson :=
  .object [("temp", .number (value d.temp)), ("hum", .number (value d.hum)), ("time", .string d.time)]

def thDataToJson (resp : ThDataResp F) : CJson :=
  .object (("result", resultJson resp.res) :: ("poll_period", intNumber resp.pollPeriod) ::
    listMember "temp_hum_data" ThData.time (thDataElem value) resp.arr)

end

def thAvailToJson (resp : ThAvailResp) : CJson :=
  .object (("result", resultJson resp.res) ::
    listMember "avail_dates" id (fun date => .object [("date", .string date)]) resp.arr)

/-! ## What is printed of them -/

theorem isDouble_int32 (n : Int32) : IsDouble (n.toInt : Rat) := by
  apply isDouble_intCast
  have := n.toInt_lt
  have := n.le_toInt
  rw [abs_lt]
  omega

/-- The value of an `int`. -/
def IsInt (n : Int) : Prop := -2147483648 ≤ n ∧ n ≤ 2147483647

theorem IsInt.isDouble {n : Int} (h : IsInt n) : IsDouble (n : Rat) := by
  obtain ⟨hlow, hhigh⟩ := h
  apply isDouble_intCast
  rw [abs_lt]
  omega

theorem isInt_zero : IsInt 0 := ⟨by decide, by decide⟩

theorem nul_not_mem_okText : nul ∉ okText := by decide

/-- The replies of the server. -/
inductive Document (F : Type) where
  | res (resp : Res)
  | content (resp : ContentResp)
  | currSett (resp : CurrSett)
  | flcStatus (unset : UInt32) (resp : FlcStatus)
  | coolersState (resp : CoolersState)
  | thData (resp : ThDataResp F)
  | thAvail (resp : ThAvailResp)

namespace Document

variable {F : Type}

def root (value : F → Rat) : Document F → CJson
  | res resp => resToJson resp
  | content resp => contentRespToJson resp
  | currSett resp => currSettRespToJson resp
  | flcStatus unset resp => flcStatusToJson unset resp
  | coolersState resp => coolersStateToJson resp
  | thData resp => thDataToJson value resp
  | thAvail resp => thAvailToJson resp

/-- `cJSON_Print`, and `cJSON_PrintUnformatted` for the records. -/
def formatted : Document F → Bool
  | thData _ => false
  | _ => true

/-- The texts it is made of. -/
def texts : Document F → List CStr
  | res resp => [resp.text]
  | content resp => [resp.temperature, resp.humidity, resp.water, resp.light, resp.windIn, resp.windOut]
  | currSett resp =>
    [resp.lan.ip4, resp.lan.ip3, resp.lan.ip2, resp.lan.ip1, resp.lan.gw4, resp.lan.gw3, resp.lan.gw2, resp.lan.gw1,
      resp.rtc.hour, resp.rtc.min, resp.rtc.sec, resp.rtc.mday, resp.rtc.month, resp.rtc.year,
      resp.cpu.temperature, resp.cpu.appVersion]
  | flcStatus _ resp => [resp.res.text]
  | coolersState resp => resp.res.text :: (resp.arr.getD []).flatMap fun c => c.1 :: c.2.texts
  | thData resp => resp.res.text :: (resp.arr.getD []).map ThData.time
  | thAvail resp => resp.res.text :: resp.arr.getD []

def code : Document F → Int
  | res resp => resp.code
  | content _ => 0
  | currSett _ => 0
  | flcStatus _ resp => resp.res.code
  | coolersState resp => resp.res.code
  | thData resp => resp.res.code
  | thAvail resp => resp.res.code

/-- Its texts are C strings, and its code is an `int`. -/
structure Plain (doc : Document F) : Prop where
  texts : ∀ s ∈ doc.texts, nul ∉ s
  code : IsInt doc.code

end Document

/-- Members whose names and values can be printed. -/
def PrintableMembers (ms : List (String × CJson)) : Prop := ∀ m ∈ ms, nul ∉ m.1.toList ∧ m.2.Printable

theorem PrintableMembers.object {ms : List (String × CJson)} (h : PrintableMembers ms) :
    (CJson.object ms).Printable := .object (fun m hm => (h m hm).1) fun m hm => (h m hm).2

theorem printableMembers_nil : PrintableMembers [] := fun _ h => absurd h List.not_mem_nil

theorem printableMembers_cons {name : String} {v : CJson} {ms : List (String × CJson)} :
    PrintableMembers ((name, v) :: ms) ↔ (nul ∉ name.toList ∧ v.Printable) ∧ PrintableMembers ms :=
  List.forall_mem_cons

theorem nul_not_mem_dec2 (n : Nat) : nul ∉ dec2 n := fun h =>
  absurd (isDigit_of_mem_decPad 2 n _ (dec2_eq_decPad n ▸ h)) (by decide)

theorem printable_listMember {α : Type} {name : String} (hname : nul ∉ name.toList) {key : α → CStr}
    {elem : α → CJson} {arr : Option (List α)} (h : ∀ a ∈ arr.getD [], (elem a).Printable) :
    PrintableMembers (listMember name key elem arr) := by
  cases arr with
  | none => exact printableMembers_nil
  | some arr =>
    refine printableMembers_cons.mpr ⟨⟨hname, .array fun v hv => ?_⟩, printableMembers_nil⟩
    obtain ⟨a, ha, rfl⟩ := List.mem_map.mp hv
    exact h a (List.mem_filter.mp ha).1

theorem printable_resultJson {res : Res} (hcode : IsInt res.code) (htext : nul ∉ res.text) :
    (resultJson res).Printable := by
  refine PrintableMembers.object ?_
  simp only [printableMembers_cons, printableMembers_nil, and_true]
  exact ⟨⟨by decide, .number hcode.isDouble⟩, by decide, .string htext⟩

theorem printable_intNumber (n : Int32) : (intNumber n).Printable := .number (isDouble_int32 n)

theorem printable_clockField (unset : UInt32) (n : Option UInt32) :
    (CJson.string (clockField unset n)).Printable := .string (nul_not_mem_dec2 _)

theorem Document.printable_root {F : Type} {value : F → Rat} (hvalue : ∀ x, IsDouble (value x)) {doc : Document F}
    (h : doc.Plain) : (doc.root value).Printable := by
  obtain ⟨htexts, hcode⟩ := h
  cases doc with
  | res resp =>
    refine PrintableMembers.object ?_
    simp only [printableMembers_cons, printableMembers_nil, and_true]
    exact ⟨⟨by decide, .string (htexts _ (by simp [texts]))⟩, by decide, .number hcode.isDouble⟩
  | content resp =>
    refine PrintableMembers.object ?_
    simp only [texts, List.forall_mem_cons] at htexts
    obtain ⟨h1, h2, h3, h4, h5, h6, -⟩ := htexts
    simp only [printableMembers_cons, printableMembers_nil, and_true]
    exact ⟨⟨by decide, .string h1⟩, ⟨by decide, .string h2⟩, ⟨by decide, .string h3⟩, ⟨by decide, .string h5⟩,
      ⟨by decide, .string h6⟩, by decide, .string h4⟩
  | currSett resp =>
    simp only [texts, List.forall_mem_cons] at htexts
    obtain ⟨i4, i3, i2, i1, g4, g3, g2, g1, hh, hm, hs, hd, hmo, hy, ht, hv, -⟩ := htexts
    refine PrintableMembers.object ?_
    simp only [printableMembers_cons, printableMembers_nil, and_true]
    refine ⟨⟨by decide, PrintableMembers.object ?_⟩, ⟨by decide, PrintableMembers.object ?_⟩,
      ⟨by decide, PrintableMembers.object ?_⟩, by decide, PrintableMembers.object ?_⟩
    all_goals simp only [printableMembers_cons, printableMembers_nil, and_true]
    · exact ⟨⟨by decide, .string i4⟩, ⟨by decide, .string i3⟩, ⟨by decide, .string i2⟩, ⟨by decide, .string i1⟩,
        ⟨by decide, .string g4⟩, ⟨by decide, .string g3⟩, ⟨by decide, .string g2⟩, ⟨by decide, .string g1⟩,
        by decide, .bool _⟩
    · exact ⟨by decide, .bool _⟩
    · exact ⟨⟨by decide, .string hh⟩, ⟨by decide, .string hm⟩, ⟨by decide, .string hs⟩, ⟨by decide, .string hd⟩,
        ⟨by decide, .string hmo⟩, by decide, .string hy⟩
    · exact ⟨⟨by decide, .string ht⟩, by decide, .string hv⟩
  | flcStatus unset resp =>
    have htext := htexts resp.res.text (by simp [texts])
    refine PrintableMembers.object ?_
    simp only [printableMembers_cons, printableMembers_nil, and_true, printable_clockField, printable_intNumber]
    exact ⟨⟨by decide, .string htext⟩, ⟨by decide, .number hcode.isDouble⟩, ⟨by decide, .bool _⟩, by decide, by decide,
      by decide, by decide, by decide, by decide, by decide, by decide, by decide, by decide, by decide, by decide,
      ⟨by decide, .bool _⟩, by decide⟩
  | coolersState resp =>
    have htext := htexts resp.res.text (by simp [texts])
    refine PrintableMembers.object (printableMembers_cons.mpr ⟨⟨by decide, printable_resultJson hcode htext⟩,
      printable_listMember (by decide) fun c hc => PrintableMembers.object ?_⟩)
    have helem : ∀ s ∈ c.1 :: c.2.texts, nul ∉ s := fun s hs =>
      htexts s (List.mem_cons_of_mem _ (List.mem_flatMap.mpr ⟨c, hc, hs⟩))
    simp only [CoolerStatus.texts, List.forall_mem_cons] at helem
    obtain ⟨h0, h1, h2, h3, h4, h5, h6, h7, -⟩ := helem
    have hpower : IsDouble ((c.2.power.toNat : Nat) : Rat) := by
      have := c.2.power.toNat_lt
      have := isDouble_intCast (n := (c.2.power.toNat : Int)) (by rw [abs_lt]; omega)
      exact_mod_cast this
    simp only [printableMembers_cons, printableMembers_nil, and_true]
    exact ⟨⟨by decide, .string h0⟩, ⟨by decide, .number hpower⟩, ⟨by decide, .string h1⟩, ⟨by decide, .string h2⟩,
      ⟨by decide, .string h3⟩, ⟨by decide, .string h4⟩, ⟨by decide, .string h5⟩, ⟨by decide, .string h6⟩,
      ⟨by decide, .string h7⟩, by decide, .bool _⟩
  | thData resp =>
    have htext := htexts resp.res.text (by simp [texts])
    refine PrintableMembers.object (printableMembers_cons.mpr ⟨⟨by decide, printable_resultJson hcode htext⟩,
      printableMembers_cons.mpr ⟨⟨by decide, printable_intNumber _⟩,
        printable_listMember (by decide) fun d hd => PrintableMembers.object ?_⟩⟩)
    have htime := htexts d.time (List.mem_cons_of_mem _ (List.mem_map.mpr ⟨d, hd, rfl⟩))
    simp only [printableMembers_cons, printableMembers_nil, and_true]
    exact ⟨⟨by decide, .number (hvalue _)⟩, ⟨by decide, .number (hvalue _)⟩, by decide, .string htime⟩
  | thAvail resp =>
    have htext := htexts resp.res.text (by simp [texts])
    refine PrintableMembers.object (printableMembers_cons.mpr ⟨⟨by decide, printable_resultJson hcode htext⟩,
      printable_listMember (by decide) fun date hdate => PrintableMembers.object ?_⟩)
    have := htexts date (List.mem_cons_of_mem _ hdate)
    simp only [printableMembers_cons, printableMembers_nil, and_true]
    exact ⟨by decide, .string this⟩

/-! ## What is read of them -/

theorem nestingItems_map_le {α : Type} {elem : α → CJson} {n : Nat} (h : ∀ a, (elem a).nesting ≤ n) (l : List α) :
    nestingItems (l.map elem) ≤ n := by
  induction l with
  | nil => exact Nat.zero_le _
  | cons a l ih => exact max_le (h a) ih

theorem nestingMembers_listMember_le {α : Type} (name : String) (key : α → CStr) (elem : α → CJson)
    (h : ∀ a, (elem a).nesting ≤ 1) (arr : Option (List α)) : nestingMembers (listMember name key elem arr) ≤ 2 := by
  cases arr with
  | none => exact Nat.zero_le _
  | some arr =>
    have := nestingItems_map_le h (arr.filter fun a => !(key a).isEmpty)
    simp only [listMember, nestingMembers, CJson.nesting]
    omega

theorem Document.nesting_root_le {F : Type} (value : F → Rat) (doc : Document F) : (doc.root value).nesting ≤ 3 := by
  cases doc with
  | res | content | currSett | flcStatus => exact Nat.le_of_ble_eq_true rfl
  | coolersState resp =>
    have := nestingMembers_listMember_le "coolers_state" Prod.fst coolerElem (fun _ => Nat.le_refl 1) resp.arr
    simp only [Document.root, coolersStateToJson, CJson.nesting, nestingMembers, resultJson]
    omega
  | thData resp =>
    have := nestingMembers_listMember_le "temp_hum_data" ThData.time (thDataElem value)
      (fun _ => Nat.le_refl 1) resp.arr
    simp only [Document.root, thDataToJson, CJson.nesting, nestingMembers, resultJson, intNumber]
    omega
  | thAvail resp =>
    have := nestingMembers_listMember_le "avail_dates" id
      (fun date => .object [("date", .string date)]) (fun _ => Nat.le_refl 1) resp.arr
    simp only [Document.root, thAvailToJson, CJson.nesting, nestingMembers, resultJson]
    omega

section
variable {F : Type} {value : F → Rat} (hvalue : ∀ x, IsDouble (value x)) {doc : Document F} (hdoc : doc.Plain)
  {h : Heap} {text : CStr} (hprint : cJsonPrint h doc.formatted (doc.root value) = .ok text)

include hvalue hdoc hprint

theorem Document.text_eq : text = render doc.formatted 0 (doc.root value) := by
  have hspec := cJsonPrint_spec h doc.formatted (Document.printable_root hvalue hdoc).writable
  rw [hprint] at hspec
  exact hspec.1

theorem Document.parse_text : cJsonParse text = some (doc.root value) := by
  rw [Document.text_eq hvalue hdoc hprint, cJsonParse_render _ (Document.printable_root hvalue hdoc), within,
    if_pos (le_trans (doc.nesting_root_le value) (by decide))]

end

theorem Document.printable_root_zero {doc : Document Unit} (h : doc.Plain) : (doc.root fun _ => 0).Printable :=
  Document.printable_root (fun _ => isDouble_zero) h

/-- The replies without records have no numbers that are not integers. -/
theorem Document.parse_text_zero {doc : Document Unit} (hdoc : doc.Plain) {h : Heap} {text : CStr}
    (hprint : cJsonPrint h doc.formatted (doc.root fun _ => 0) = .ok text) :
    cJsonParse text = some (doc.root fun _ => 0) :=
  Document.parse_text (fun _ => isDouble_zero) hdoc hprint

theorem isDouble_natMod (n : Nat) : IsDouble ((n % 1000 : Nat) : Rat) := isDouble_natCast (by omega)

/-- A reply with two records. -/
def recordsDocument : Document Nat :=
  .thData ⟨⟨0, okText⟩, 30, some [⟨"08:00".toList, 20, 45⟩, ⟨"08:30".toList, 21, 44⟩]⟩

theorem recordsDocument_plain : recordsDocument.Plain := ⟨by decide, by decide, by decide⟩

/-- A JSON text that means a tree, in whatever way it is written. -/
structure Means (text : CStr) (t : CJson) : Prop where
  plain : nul ∉ text
  short : ShortNumbers (.outside 0) text
  isText : ∃ v, IsText text v ∧ v.tree nestingLimit = some t

theorem Means.parse {text : CStr} {t : CJson} (h : Means text t) : cJsonParse text = some t := by
  obtain ⟨v, hv, htree⟩ := h.isText
  rw [cJsonParse_isText hv h.plain h.short, htree]

/-- What is printed is one of them. -/
theorem means_render (format : Bool) {t : CJson} (ht : t.Printable) (hle : t.nesting ≤ nestingLimit) :
    Means (render format 0 t) t := by
  obtain ⟨v, hv, htree, hshort⟩ := exists_isText_render format ht
  exact ⟨nul_not_mem_render format 0 t ht.writable, hshort, v, hv, by rw [htree, within, if_pos hle]⟩

/-! ## The settings -/

/-- Each text fits the field it is decoded into. -/
structure CurrSett.Fits (r : CurrSett) : Prop where
  lan : ∀ s ∈ [r.lan.ip4, r.lan.ip3, r.lan.ip2, r.lan.ip1, r.lan.gw4, r.lan.gw3, r.lan.gw2, r.lan.gw1], s.length ≤ 3
  rtc : ∀ s ∈ [r.rtc.hour, r.rtc.min, r.rtc.sec, r.rtc.mday, r.rtc.month], s.length ≤ 3
  year : r.rtc.year.length ≤ 7

theorem jsonToLanSettings_lanJson {lan : LanSett}
    (h : ∀ s ∈ [lan.ip4, lan.ip3, lan.ip2, lan.ip1, lan.gw4, lan.gw3, lan.gw2, lan.gw1], s.length ≤ 3) :
    jsonToLanSettings (some (lanJson lan)) = .ok lan := by
  simp only [List.forall_mem_cons] at h
  obtain ⟨h1, h2, h3, h4, h5, h6, h7, h8, -⟩ := h
  obtain ⟨ip4, ip3, ip2, ip1, gw4, gw3, gw2, gw1, dhcp⟩ := lan
  show Except.ok (LanSett.mk (ip4.take 3) (ip3.take 3) (ip2.take 3) (ip1.take 3) (gw4.take 3) (gw3.take 3)
    (gw2.take 3) (gw1.take 3) dhcp) = _
  rw [List.take_of_length_le h1, List.take_of_length_le h2, List.take_of_length_le h3, List.take_of_length_le h4,
    List.take_of_length_le h5, List.take_of_length_le h6, List.take_of_length_le h7, List.take_of_length_le h8]

theorem jsonToRtcSettings_rtcJson {rtc : RtcSett}
    (h : ∀ s ∈ [rtc.hour, rtc.min, rtc.sec, rtc.mday, rtc.month], s.length ≤ 3) (hyear : rtc.year.length ≤ 7) :
    jsonToRtcSettings (some (rtcJson rtc)) = .ok rtc := by
  simp only [List.forall_mem_cons] at h
  obtain ⟨h1, h2, h3, h4, h5, -⟩ := h
  obtain ⟨hour, min, sec, mday, month, year⟩ := rtc
  show Except.ok (RtcSett.mk (hour.take 3) (min.take 3) (sec.take 3) (mday.take 3) (month.take 3) (year.take 7)) = _
  rw [List.take_of_length_le h1, List.take_of_length_le h2, List.take_of_length_le h3, List.take_of_length_le h4,
    List.take_of_length_le h5, List.take_of_length_le hyear]

/-- **What the settings page is sent can be sent back**: the members for the network and the clock,
in any text that means them, are decoded to the settings they were made of. -/
theorem settings_round_trip (r : CurrSett) (hplain : (Document.currSett (F := Unit) r).Plain) (hfits : r.Fits)
    (h : Heap) (text : CStr) (hprint : cJsonPrint h true (currSettRespToJson r) = .ok text) :
    ∃ root lan rtc, cJsonParse text = some root ∧ getObjectItem root "LAN" = some lan ∧
      getObjectItem root "RTC" = some rtc ∧
      (∀ req, Means req lan → jsonToLanSettings (cJsonParse req) = .ok r.lan) ∧
      ∀ req, Means req rtc → jsonToRtcSettings (cJsonParse req) = .ok r.rtc := by
  have hparse := Document.parse_text_zero hplain hprint
  refine ⟨_, lanJson r.lan, rtcJson r.rtc, hparse, rfl, rfl, fun req hreq => ?_, fun req hreq => ?_⟩
  · rw [hreq.parse]
    exact jsonToLanSettings_lanJson hfits.lan
  · rw [hreq.parse]
    exact jsonToRtcSettings_rtcJson hfits.rtc hfits.year

/-- The settings of a network at home. -/
def homeSettings : CurrSett where
  lan := ⟨"192".toList, "168".toList, "0".toList, "7".toList, "192".toList, "168".toList, "0".toList, "1".toList, false⟩
  wifiApState := true
  rtc := ⟨"08".toList, "30".toList, "00".toList, "01".toList, "05".toList, "2024".toList⟩
  cpu := ⟨"41.2".toList, "2.0".toList⟩

theorem homeSettings_plain : (Document.currSett (F := Unit) homeSettings).Plain := ⟨by decide, isInt_zero⟩

theorem settings_round_trip_home :
    ∃ root lan rtc, cJsonParse (render true 0 (currSettRespToJson homeSettings)) = some root ∧
      getObjectItem root "LAN" = some lan ∧ getObjectItem root "RTC" = some rtc ∧
      (∀ req, Means req lan → jsonToLanSettings (cJsonParse req) = .ok homeSettings.lan) ∧
      ∀ req, Means req rtc → jsonToRtcSettings (cJsonParse req) = .ok homeSettings.rtc :=
  settings_round_trip homeSettings homeSettings_plain ⟨by decide, by decide, by decide⟩ .ample _
    (cJsonPrint_ample true (Document.printable_root_zero homeSettings_plain).writable (by decide +kernel))

/-! ## The coolers -/

/-- `app_get_coolers_state` -/
def coolersReply (app : AppData) : CoolersState :=
  ⟨⟨0, okText⟩, some [("input".toList, coolerStatus app .input), ("output".toList, coolerStatus app .output)]⟩

/-- What the page asks for. -/
inductive CoolersOp where
  | time (flag : ClFlag) (hour min sec : Nat)
  | power (c : Cooler) (percent : Nat)

namespace CoolersOp

/-- The object that is sent. -/
def tree : CoolersOp → CJson
  | time _ hour min sec => .object [("hour", .number hour), ("min", .number min), ("sec", .number sec)]
  | power .input percent => .object [("wind_in", .number percent)]
  | power .output percent => .object [("wind_out", .number percent)]

/-- Three digits at most, and one byte. -/
def Small : CoolersOp → Prop
  | time _ hour min sec => hour < 1000 ∧ min < 1000 ∧ sec < 1000
  | power _ percent => percent < 256

end CoolersOp

/-- A request, and how its steps come out. -/
structure SentOp where
  op : CoolersOp
  text : CStr
  dbOk : Bool
  i2cOk : Bool
  res0 : Int

/-- The handler of the request. -/
def serveOp (srv : Server) (s : SentOp) : Server :=
  match s.op with
  | .time flag _ _ _ => (appSetCoolersTime s.dbOk (cJsonParse s.text) flag srv).2
  | .power _ _ => (appSaveCoolersPower s.dbOk s.i2cOk s.res0 (cJsonParse s.text) srv).2

namespace SentOp

structure Sent (s : SentOp) : Prop where
  means : Means s.text s.op.tree
  small : s.op.Small

/-- The time that is asked for. -/
def time (k : CoolersRaw) (s : SentOp) : Option MyTime :=
  match s.op with
  | .time flag hour min sec =>
    if k = flag.dest.1 then some ⟨UInt32.ofNat hour, UInt32.ofNat min, UInt32.ofNat sec⟩ else none
  | .power _ _ => none

def power (c : Cooler) (s : SentOp) : Option UInt8 :=
  match s.op with
  | .time _ _ _ _ => none
  | .power d percent => if c = d then some (UInt8.ofNat percent) else none

end SentOp

/-- What is sent last, and else what there was at first. -/
def shownStatus (app : AppData) (sent : List SentOp) (c : Cooler) : CoolerStatus :=
  let time (k : CoolersRaw) : MyTime := lastWritten (SentOp.time k) (app.cwt.get k) sent
  { power := lastWritten (SentOp.power c) (app.clPower c) sent
    startHour := dec2 (time (startRaw c)).hour.toNat
    startMin := dec2 (time (startRaw c)).min.toNat
    startSec := dec2 (time (startRaw c)).sec.toNat
    stopHour := dec2 (time (stopRaw c)).hour.toNat
    stopMin := dec2 (time (stopRaw c)).min.toNat
    stopSec := dec2 (time (stopRaw c)).sec.toNat
    wpMin := dec (time (wpRaw c)).min.toNat
    isOn := app.clOn c }

theorem valueint_natCast {n : Nat} (h : n < 2147483647) : valueint (n : Rat) = Int32.ofInt (n : Int) := by
  have hhigh : ¬ (n : Rat) ≥ 2147483647 := by
    rw [ge_iff_le, not_le]
    exact_mod_cast h
  have hlow : ¬ (n : Rat) ≤ -2147483648 := by
    rw [not_le]
    have : (0 : Rat) ≤ n := Nat.cast_nonneg n
    linarith
  unfold valueint
  rw [if_neg hhigh, if_neg hlow, Rat.num_natCast, Rat.den_natCast]
  congr 1
  exact Int.tdiv_one _

theorem jsonToMyTime_tree {flag : ClFlag} {hour min sec : Nat} (h : (CoolersOp.time flag hour min sec).Small) :
    jsonToMyTime (some (CoolersOp.time flag hour min sec).tree) =
      .ok ⟨UInt32.ofNat hour, UInt32.ofNat min, UInt32.ofNat sec⟩ := by
  obtain ⟨h1, h2, h3⟩ := h
  show Except.ok (MyTime.mk (valueint hour).toUInt32 (valueint min).toUInt32 (valueint sec).toUInt32) = _
  rw [valueint_natCast (by omega), valueint_natCast (by omega), valueint_natCast (by omega),
    toUInt32_ofInt_natCast, toUInt32_ofInt_natCast, toUInt32_ofInt_natCast]

theorem toUInt8_valueint {n : Nat} (h : n < 256) : (valueint n).toUInt32.toUInt8 = UInt8.ofNat n := by
  rw [valueint_natCast (by omega), toUInt32_ofInt_natCast]
  apply UInt8.toNat_inj.mp
  rw [UInt32.toNat_toUInt8, UInt32.toNat_ofNat', UInt8.toNat_ofNat']
  omega

theorem target_tree {c : Cooler} {percent : Nat} (h : (CoolersOp.power c percent).Small) :
    ∃ p, jsonToCoolersPower (some (CoolersOp.power c percent).tree) = .ok p ∧
      p.target = (c, UInt8.ofNat percent) := by
  have hlt : percent < 256 := h
  cases c with
  | input =>
    refine ⟨⟨valueint percent, -1⟩, rfl, ?_⟩
    have hnonneg : 0 ≤ valueint percent := by
      rw [valueint_natCast (by omega), Int32.le_iff_toInt_le, Int32.toInt_ofInt_of_le (by omega) (by omega)]
      exact Int.natCast_nonneg percent
    unfold CoolersPwr.target
    rw [if_pos hnonneg, toUInt8_valueint hlt]
  | output =>
    refine ⟨⟨-1, valueint percent⟩, rfl, ?_⟩
    unfold CoolersPwr.target
    rw [if_neg (show ¬ (0 : Int32) ≤ -1 by decide), toUInt8_valueint hlt]

/-- A request writes what it asks for into memory, however its other steps come out. -/
theorem saveCoolerPower_app (dbOk i2cOk : Bool) (res0 : Int) (c : Cooler) (p : UInt8) (srv : Server) :
    (saveCoolerPower dbOk i2cOk res0 c p srv).2.app = srv.app.setClPower c p := by
  unfold saveCoolerPower
  dsimp only
  generalize srv.db.saveClPower dbOk c p = r
  obtain ⟨res, db⟩ := r
  cases res with
  | ok =>
    dsimp only
    split_ifs <;> rfl
  | _ => rfl

theorem serveOp_app {s : SentOp} (h : s.Sent) (srv : Server) :
    (∀ k, (serveOp srv s).app.cwt.get k = (s.time k).getD (srv.app.cwt.get k)) ∧
      (∀ c, (serveOp srv s).app.clPower c = (s.power c).getD (srv.app.clPower c)) ∧
      ∀ c, (serveOp srv s).app.clOn c = srv.app.clOn c := by
  obtain ⟨op, text, dbOk, i2cOk, res0⟩ := s
  obtain ⟨hmeans, hsmall⟩ := h
  dsimp only at hmeans hsmall
  cases op with
  | time flag hour min sec =>
    have happ : (serveOp srv ⟨.time flag hour min sec, text, dbOk, i2cOk, res0⟩).app =
        srv.app.setTime flag.dest.1 ⟨UInt32.ofNat hour, UInt32.ofNat min, UInt32.ofNat sec⟩ := by
      unfold serveOp appSetCoolersTime
      dsimp only
      rw [hmeans.parse, jsonToMyTime_tree hsmall]
      unfold saveNewCoolersTime
      dsimp only
      generalize srv.db.setClTime dbOk flag.dest.2 _ = r
      obtain ⟨res, db⟩ := r
      cases res <;> rfl
    rw [happ]
    refine ⟨fun k => ?_, fun c => by simp [SentOp.power], fun c => by simp⟩
    simp only [AppData.cwt_setTime, CoolersWorkTime.get_set, SentOp.time]
    split_ifs <;> rfl
  | power c percent =>
    obtain ⟨p, hp, htarget⟩ := target_tree hsmall
    have happ : (serveOp srv ⟨.power c percent, text, dbOk, i2cOk, res0⟩).app =
        srv.app.setClPower c (UInt8.ofNat percent) := by
      unfold serveOp appSaveCoolersPower
      dsimp only
      rw [hmeans.parse, hp]
      dsimp only
      rw [htarget, saveCoolerPower_app]
    rw [happ]
    refine ⟨fun k => by simp [SentOp.time], fun d => ?_, fun d => by simp⟩
    simp only [AppData.clPower_setClPower, SentOp.power]
    split_ifs <;> rfl

theorem Small_of_lt {k : CoolersRaw} {hour min sec : Nat} (h : hour < 1000 ∧ min < 1000 ∧ sec < 1000) :
    Small k ⟨UInt32.ofNat hour, UInt32.ofNat min, UInt32.ofNat sec⟩ := by
  unfold Small
  cases k <;> simp [printed] <;> omega

theorem statusFits_serveOp {s : SentOp} (h : s.Sent) {srv : Server} (hfits : StatusFits srv.app) :
    StatusFits (serveOp srv s).app := by
  rw [statusFits_iff] at hfits ⊢
  intro k
  rw [(serveOp_app h srv).1]
  obtain ⟨op, text, dbOk, i2cOk, res0⟩ := s
  cases op with
  | time flag hour min sec =>
    simp only [SentOp.time]
    split_ifs
    · exact Small_of_lt h.small
    · exact hfits k
  | power c percent => exact hfits k

/-- **The memory is what was sent last.** -/
theorem coolersReply_serveOps (srv : Server) : ∀ sent : List SentOp, (∀ s ∈ sent, s.Sent) → ∀ c,
    coolerStatus (sent.foldl serveOp srv).app c = shownStatus srv.app sent c := by
  intro sent hsent c
  induction sent generalizing srv with
  | nil => rfl
  | cons s sent ih =>
    rw [List.forall_mem_cons] at hsent
    obtain ⟨htime, hpower, hon⟩ := serveOp_app hsent.1 srv
    rw [List.foldl_cons, ih _ hsent.2]
    simp only [shownStatus, lastWritten_cons, htime, hpower, hon]

theorem nul_not_mem_dec (n : Nat) : nul ∉ dec n := fun h => absurd (isDigit_of_mem_dec n _ h) (by decide)

theorem plain_coolersReply (app : AppData) : (Document.coolersState (F := Unit) (coolersReply app)).Plain where
  texts := by
    simp only [Document.texts, coolersReply, Option.getD_some, List.flatMap_cons, List.flatMap_nil,
      CoolerStatus.texts, coolerStatus, List.forall_mem_cons, List.cons_append, List.nil_append]
    simp only [nul_not_mem_dec2, nul_not_mem_dec, List.not_mem_nil, false_imp_iff, implies_true,
      not_false_eq_true, and_true, true_and]
    exact ⟨by decide, by decide, by decide⟩
  code := isInt_zero

/-- The input cooler starts at half past eight. -/
def halfPastEight : CoolersOp := .time .startIn 8 30 0

theorem halfPastEight_printable : halfPastEight.tree.Printable := by
  refine PrintableMembers.object ?_
  simp only [printableMembers_cons, printableMembers_nil, and_true]
  exact ⟨⟨by decide, .number (isDouble_natCast (by decide))⟩, ⟨by decide, .number (isDouble_natCast (by decide))⟩,
    by decide, .number (isDouble_natCast (by decide))⟩

theorem freshServer_fits : StatusFits freshServer.app :=
  (statusFits_iff _).mpr fun k => by
    cases k <;> exact @Small_of_lt _ 0 0 0 ⟨by decide, by decide, by decide⟩

/-- Sent while the database is not written. -/
def sentHalfPastEight : SentOp := ⟨halfPastEight, render false 0 halfPastEight.tree, false, true, 0⟩

theorem sentHalfPastEight_sent : ∀ s ∈ [sentHalfPastEight], s.Sent := by
  intro s hs
  rw [List.mem_singleton.mp hs]
  exact ⟨means_render false halfPastEight_printable (by decide), by decide, by decide, by decide⟩

def readDate (item : CJson) : Option CStr :=
  match getObjectItem item "date" with
  | some (.string date) => some date
  | _ => none

/-- The dates that `gb_climate.html` lists. -/
def readDates (root : CJson) : Option (List CStr) :=
  match getObjectItem root "avail_dates" with
  | some (.array items) => items.mapM readDate
  | _ => none

def readRecord (item : CJson) : Option (CStr × Rat × Rat) :=
  match getObjectItem item "time", getObjectItem item "temp", getObjectItem item "hum" with
  | some (.string time), some (.number temp), some (.number hum) => some (time, temp, hum)
  | _, _, _ => none

/-- The points of its chart. -/
def readRecords (root : CJson) : Option (List (CStr × Rat × Rat)) :=
  match getObjectItem root "temp_hum_data" with
  | some (.array items) => items.mapM readRecord
  | _ => none

theorem mapM_map_some {α β γ : Type} {f : α → β} {g : β → Option γ} {k : α → γ} (h : ∀ a, g (f a) = some (k a))
    (l : List α) : (l.map f).mapM g = some (l.map k) := by
  induction l with
  | nil => rfl
  | cons a l ih => simp [List.mapM_cons, h, ih]

theorem filter_nonempty {α : Type} (key : α → CStr) {l : List α} (h : ∀ a ∈ l, key a ≠ []) :
    (l.filter fun a => !(key a).isEmpty) = l := by
  rw [List.filter_eq_self]
  intro a ha
  simpa using h a ha

theorem readDates_thAvailToJson {res : Res} {dates : List CStr} (h : ∀ date ∈ dates, date ≠ []) :
    readDates (thAvailToJson ⟨res, some dates⟩) = some dates := by
  have hlist := filter_nonempty id h
  show ((dates.filter fun a => !(id a).isEmpty).map fun date => CJson.object [("date", .string date)]).mapM
    readDate = _
  have hread : ∀ date, readDate (.object [("date", .string date)]) = some (id date) := fun _ => rfl
  rw [hlist, mapM_map_some hread, List.map_id]

theorem readRecords_thDataToJson {F : Type} (value : F → Rat) {res : Res} {period : Int32} {data : List (ThData F)}
    (h : ∀ d ∈ data, d.time ≠ []) : readRecords (thDataToJson value ⟨res, period, some data⟩) =
      some (data.map fun d => (d.time, value d.temp, value d.hum)) := by
  have hlist := filter_nonempty ThData.time h
  show ((data.filter fun a => !(ThData.time a).isEmpty).map (thDataElem value)).mapM readRecord = _
  have hread : ∀ d, readRecord (thDataElem value d) = some (d.time, value d.temp, value d.hum) := fun _ => rfl
  rw [hlist, mapM_map_some hread]

theorem nul_not_mem_dateText (r : ThRow) : nul ∉ r.dateText := by
  have hdot : nul ∉ ".".toList := by decide
  have hyear : nul ∉ decPad 4 r.year := fun h => absurd (isDigit_of_mem_decPad 4 _ _ h) (by decide)
  simp only [ThRow.dateText, dateText, List.mem_append, nul_not_mem_dec2, hdot, hyear, or_self, not_false_eq_true]

theorem dateText_ne_nil (r : ThRow) : r.dateText ≠ [] := by
  simp [ThRow.dateText, dateText]

theorem time_data {F : Type} (fl : FloatFmt F) (r : ThRow) : (r.data fl).time ≠ [] ∧ nul ∉ (r.data fl).time := by
  have hcolon : nul ∉ ":".toList := by decide
  simp only [ThRow.data, List.mem_append, nul_not_mem_dec2, hcolon, or_self, not_false_eq_true, and_true]
  simp

section
variable {F : Type} (fl : FloatFmt F) {value : F → Rat} (hvalue : ∀ x, IsDouble (value x))

include hvalue

end

/-- The request for the second of two new years. -/
def newYearTree : CJson := .object [("day", .number (1 : Nat)), ("month", .number (1 : Nat)), ("year", .number (2025 : Nat))]

theorem newYearTree_printable : newYearTree.Printable := by
  refine PrintableMembers.object ?_
  simp only [printableMembers_cons, printableMembers_nil, and_true]
  exact ⟨⟨by decide, .number (isDouble_natCast (by decide))⟩, ⟨by decide, .number (isDouble_natCast (by decide))⟩,
    by decide, .number (isDouble_natCast (by decide))⟩

/-- The record of its day. -/
def newYearData : List (ThData Nat) := [⟨"00:00".toList, 21, 51⟩]

end Growbox
