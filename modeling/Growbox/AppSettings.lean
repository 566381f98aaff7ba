import Growbox.TempHum
import Growbox.Lib.ShellText

/-!
# Settings of the host: `app_set_lan` and `app_set_rtc`

Network and clock are set by shell commands that `utils.c` prints the texts of a
request into.  A text is cut to its field and not looked at otherwise; only the
pages keep other characters than digits out of it.  `settings_commands_clean_iff`
says for which accepted bodies the commands carry nothing but digits of the request.
-/

namespace Growbox

open Decimal ShellText

/-! ## `utils.c` -/

/-- `system()`: whether the shell's status was 0.  With the code goes the command. -/
def system (sys : CStr → Bool) (cmd : Marked) : Int × List Marked :=
  (if sys (text cmd) then 0 else -1, [cmd])

def setDynamicIp (sys : CStr → Bool) (connName : CStr) : Int × List Marked :=
  system sys (fixed "nmcli con mod \"".toList ++ fixed connName ++
    fixed "\" ipv4.addresses \"\" ipv4.gateway \"\" ipv4.dns \"\" ".toList ++
    fixed "ipv4.dns-search \"\" ipv4.method \"auto\" ".toList)

def setStaticIp (sys : CStr → Bool) (connName : CStr) (ip gw : Marked) : Int × List Marked :=
  system sys (fixed "nmcli con mod \"".toList ++ fixed connName ++
    fixed "\" ipv4.addresses \"".toList ++ ip ++ fixed "\" ipv4.gateway \"".toList ++ gw ++
    fixed "\" ipv4.dns \"8.8.8.8, 8.8.8.4\" ipv4.method \"manual\" ".toList)

def setRtcTime (sys : CStr → Bool) (hour min sec : CStr) : Int × List Marked :=
  system sys (fixed "date --set \"".toList ++ outside hour ++ fixed ":".toList ++ outside min ++
    fixed ":".toList ++ outside sec ++ fixed "\"".toList)

/-- The time of day stays as it is. -/
def setRtcDate (sys : CStr → Bool) (ct : Option LocalTime) (mday month year : CStr) :
    Int × List Marked :=
  match ct with
  | none => (-1, [])
  | some tm =>
    system sys (fixed "date --set \"".toList ++ outside year ++ fixed "-".toList ++ outside month ++
      fixed "-".toList ++ outside mday ++
      fixed (" ".toList ++ dec2 tm.hour ++ ":".toList ++ dec2 tm.min ++ ":".toList ++ dec2 tm.sec ++
        "\"".toList))

example : (setRtcTime (fun _ => true) "7".toList "05".toList "30".toList).2.map text =
    ["date --set \"7:05:30\"".toList] := by decide

/-! ## The handlers -/

/-- What the handlers take from the host and from the configuration. -/
structure Host where
  sys : CStr → Bool
  connName : CStr
  now : Option LocalTime

structure SetReply where
  res : Res
  commands : List Marked
  nmRestartNeeded : Bool

/-- The code that the handler was given, with its text; the network manager is to be restarted
when the command worked. -/
def lanReply (nmRestartNeeded : Bool) (failed : String) (r : Int × List Marked) : SetReply :=
  if r.1 ≠ 0 then ⟨⟨r.1, failed.toList⟩, r.2, nmRestartNeeded⟩
  else ⟨⟨r.1, "OK".toList⟩, r.2, true⟩

/-- `"%s.%s.%s.%s"` -/
def dotted (a b c d : CStr) : Marked :=
  outside a ++ fixed ".".toList ++ outside b ++ fixed ".".toList ++ outside c ++ fixed ".".toList ++
    outside d

def Reply.appSetLan (host : Host) (nmRestartNeeded : Bool) (json : Body) : SetReply :=
  match jsonToLanSettings json with
  | .error e => ⟨⟨-2, jsontGetErrText e⟩, [], nmRestartNeeded⟩
  | .ok lan =>
    if lan.dhcp then
      lanReply nmRestartNeeded "set_dynamic_ip failed" (setDynamicIp host.sys host.connName)
    else
      lanReply nmRestartNeeded "set_static_ip failed"
        (setStaticIp host.sys host.connName (dotted lan.ip4 lan.ip3 lan.ip2 lan.ip1)
          (dotted lan.gw4 lan.gw3 lan.gw2 lan.gw1))

def rtcReply (failed : String) (r : Int × List Marked) : Res × List Marked :=
  (⟨r.1, if r.1 ≠ 0 then failed.toList else "OK".toList⟩, r.2)

/-- The time when it is given whole, else the date when that is. -/
def Reply.appSetRtc (host : Host) (json : Body) : Res × List Marked :=
  match jsonToRtcSettings json with
  | .error e => (⟨-2, jsontGetErrText e⟩, [])
  | .ok rtc =>
    if rtc.hour ≠ [] ∧ rtc.min ≠ [] ∧ rtc.sec ≠ [] then
      rtcReply "Set time failed" (setRtcTime host.sys rtc.hour rtc.min rtc.sec)
    else if rtc.year ≠ [] ∧ rtc.month ≠ [] ∧ rtc.mday ≠ [] then
      rtcReply "Set date failed" (setRtcDate host.sys host.now rtc.mday rtc.month rtc.year)
    else (⟨-5, "Not enough data".toList⟩, [])

/-! ## Clean commands -/

/-- Of the request there are only digits in the command, which the shell reads as it would read
it without them. -/
def Clean (cmd : Marked) : Prop :=
  OutsideAll (fun c => c.isDigit = true) cmd ∧ shellStructure (text cmd) = shellStructure (template cmd)

inductive SettingsOp where
  | lan | rtc
  deriving DecidableEq, Repr

/-- A text field of a body, with its size. -/
abbrev TextField := String × Nat

def addressFields : List TextField :=
  [("ip4", 4), ("ip3", 4), ("ip2", 4), ("ip1", 4), ("gw4", 4), ("gw3", 4), ("gw2", 4), ("gw1", 4)]

def timeFields : List TextField := [("hour", 4), ("min", 4), ("sec", 4)]

def dateFields : List TextField := [("year", 8), ("month", 4), ("mday", 4)]

/-- The text in its field; empty where there is none. -/
def fieldText (root : CJson) (f : TextField) : CStr := (getJsonObjStr root f.1 f.2).getD []

def Digits (root : CJson) (f : TextField) : Prop := ∀ c ∈ fieldText root f, c.isDigit = true

def Filled (root : CJson) (fields : List TextField) : Prop := ∀ f ∈ fields, fieldText root f ≠ []

namespace SettingsOp

def commands (host : Host) (nmRestartNeeded : Bool) (json : Body) : SettingsOp → List Marked
  | .lan => (Reply.appSetLan host nmRestartNeeded json).commands
  | .rtc => (Reply.appSetRtc host json).2

def Accepts (root : CJson) : SettingsOp → Prop
  | .lan => ∃ lan, jsonToLanSettings (some root) = .ok lan
  | .rtc => ∃ rtc, jsonToRtcSettings (some root) = .ok rtc

/-- The fields that a command is made of have only digits. -/
def DigitsOnly (host : Host) (root : CJson) : SettingsOp → Prop
  | .lan => getJsonObjBool root "dhcp" = some false → ∀ f ∈ addressFields, Digits root f
  | .rtc =>
    (Filled root timeFields → ∀ f ∈ timeFields, Digits root f) ∧
      (¬ Filled root timeFields → Filled root dateFields → host.now ≠ none →
        ∀ f ∈ dateFields, Digits root f)

end SettingsOp

/-! ## Lemmas -/

/-- Where digits cannot disturb, they are all there is to ask for. -/
theorem clean_iff {cmd : Marked} (hun : Undisturbed (.within .unquoted) cmd) :
    Clean cmd ↔ OutsideAll (fun c => c.isDigit = true) cmd :=
  ⟨And.left, fun h => ⟨h, structure_eq_template hun fun x hx ho => inert_of_isDigit (h x hx ho)⟩⟩

/-- The two commands to `date`: three values after a quotation mark and two separators. -/
theorem date_command_clean_iff {sep : CStr} {c : Char} (hsep : sep.getLast? = some c)
    (hb : c ≠ backslash) (hd : c ≠ '$') (x y z tail : CStr) :
    Clean (fixed "date --set \"".toList ++ outside x ++ fixed sep ++ outside y ++ fixed sep ++
        outside z ++ fixed tail) ↔
      ∀ s ∈ [x, y, z], ∀ c ∈ s, c.isDigit = true := by
  refine (clean_iff ?hun).trans ?digits
  case hun =>
    simp only [List.append_assoc]
    rw [undisturbed_slot rfl (by decide) (by decide), undisturbed_slot hsep hb hd,
      undisturbed_slot hsep hb hd]
    exact undisturbed_fixed _ _
  case digits =>
    simp [outsideAll_append, outsideAll_fixed, outsideAll_outside]

theorem setRtcTime_clean_iff (sys : CStr → Bool) (hour min sec : CStr) :
    (∀ cmd ∈ (setRtcTime sys hour min sec).2, Clean cmd) ↔
      ∀ s ∈ [hour, min, sec], ∀ c ∈ s, c.isDigit = true := by
  rw [setRtcTime, system, List.forall_mem_singleton]
  exact date_command_clean_iff rfl (by decide) (by decide) hour min sec _

theorem setRtcDate_clean_iff (sys : CStr → Bool) (ct : Option LocalTime) (mday month year : CStr) :
    (∀ cmd ∈ (setRtcDate sys ct mday month year).2, Clean cmd) ↔
      (ct ≠ none → ∀ s ∈ [year, month, mday], ∀ c ∈ s, c.isDigit = true) := by
  cases ct with
  | none => simp [setRtcDate]
  | some tm =>
    simp only [setRtcDate, system, ne_eq, reduceCtorEq, not_false_eq_true, true_imp_iff]
    rw [List.forall_mem_singleton]
    exact date_command_clean_iff rfl (by decide) (by decide) year month mday _

/-- The name of the connection may hold anything. -/
theorem setStaticIp_clean_iff (sys : CStr → Bool) (connName : CStr) (lan : LanSett) :
    (∀ cmd ∈ (setStaticIp sys connName (dotted lan.ip4 lan.ip3 lan.ip2 lan.ip1)
        (dotted lan.gw4 lan.gw3 lan.gw2 lan.gw1)).2, Clean cmd) ↔
      ∀ s ∈ [lan.ip4, lan.ip3, lan.ip2, lan.ip1, lan.gw4, lan.gw3, lan.gw2, lan.gw1],
        ∀ c ∈ s, c.isDigit = true := by
  rw [setStaticIp, system, List.forall_mem_singleton]
  refine (clean_iff ?hun).trans ?digits
  case hun =>
    simp only [dotted, List.append_assoc]
    rw [undisturbed_fixed_append, undisturbed_fixed_append]
    iterate 8 rw [undisturbed_slot rfl (by decide) (by decide)]
    exact undisturbed_fixed _ _
  case digits =>
    simp [dotted, outsideAll_append, outsideAll_fixed, outsideAll_outside]

theorem setDynamicIp_clean (sys : CStr → Bool) (connName : CStr) :
    ∀ cmd ∈ (setDynamicIp sys connName).2, Clean cmd := by
  rw [setDynamicIp, system, List.forall_mem_singleton]
  refine (clean_iff ?hun).mpr ?digits
  case hun =>
    simp only [List.append_assoc]
    rw [undisturbed_fixed_append, undisturbed_fixed_append, undisturbed_fixed_append]
    exact undisturbed_fixed _ _
  case digits =>
    simp [outsideAll_append, outsideAll_fixed]

theorem digits_map_iff (root : CJson) (fields : List TextField) :
    (∀ s ∈ fields.map (fieldText root), ∀ c ∈ s, c.isDigit = true) ↔ ∀ f ∈ fields, Digits root f :=
  List.forall_mem_map

theorem lanReply_commands (nmRestartNeeded : Bool) (failed : String) (r : Int × List Marked) :
    (lanReply nmRestartNeeded failed r).commands = r.2 := by
  unfold lanReply
  split <;> rfl

/-- An accepted body has every address field. -/
theorem jsonToLanSettings_ok {root : CJson} {lan : LanSett}
    (h : jsonToLanSettings (some root) = .ok lan) :
    getJsonObjBool root "dhcp" = some lan.dhcp ∧
      [lan.ip4, lan.ip3, lan.ip2, lan.ip1, lan.gw4, lan.gw3, lan.gw2, lan.gw1] =
        addressFields.map (fieldText root) := by
  simp only [jsonToLanSettings, withRoot, required_bind_ok_iff] at h
  obtain ⟨ip4, h4, ip3, h3, ip2, h2, ip1, h1, gw4, g4, gw3, g3, gw2, g2, gw1, g1, dhcp, hd, hlan⟩ := h
  cases hlan
  simp [addressFields, fieldText, h4, h3, h2, h1, g4, g3, g2, g1, hd]

theorem appSetLan_clean_iff (host : Host) (nmRestartNeeded : Bool) {root : CJson}
    (hacc : SettingsOp.lan.Accepts root) :
    (∀ cmd ∈ (Reply.appSetLan host nmRestartNeeded (some root)).commands, Clean cmd) ↔
      SettingsOp.lan.DigitsOnly host root := by
  obtain ⟨lan, hlan⟩ := hacc
  obtain ⟨hdhcp, htexts⟩ := jsonToLanSettings_ok hlan
  unfold Reply.appSetLan SettingsOp.DigitsOnly
  rw [hlan, hdhcp]
  cases hd : lan.dhcp with
  | true =>
    simp only [hd, if_true, lanReply_commands]
    exact iff_of_true (setDynamicIp_clean _ _) nofun
  | false =>
    simp only [hd, Bool.false_eq_true, if_false, lanReply_commands, true_imp_iff]
    rw [setStaticIp_clean_iff, htexts]
    exact digits_map_iff root addressFields

theorem appSetRtc_clean_iff (host : Host) (root : CJson) :
    (∀ cmd ∈ (Reply.appSetRtc host (some root)).2, Clean cmd) ↔ SettingsOp.rtc.DigitsOnly host root := by
  have htime : Filled root timeFields ↔ fieldText root ("hour", 4) ≠ [] ∧
      fieldText root ("min", 4) ≠ [] ∧ fieldText root ("sec", 4) ≠ [] := by
    simp [Filled, timeFields]
  have hdate : Filled root dateFields ↔ fieldText root ("year", 8) ≠ [] ∧
      fieldText root ("month", 4) ≠ [] ∧ fieldText root ("mday", 4) ≠ [] := by
    simp [Filled, dateFields]
  simp only [Reply.appSetRtc, jsonToRtcSettings, withRoot, SettingsOp.DigitsOnly]
  split
  · next h =>
    have hfilled : Filled root timeFields := htime.mpr h
    simp only [hfilled, true_imp_iff, not_true_eq_false, false_imp_iff, and_true]
    exact (setRtcTime_clean_iff host.sys _ _ _).trans (digits_map_iff root timeFields)
  · next h =>
    have hnot : ¬ Filled root timeFields := fun hf => h (htime.mp hf)
    simp only [hnot, false_imp_iff, not_false_eq_true, true_imp_iff, true_and]
    split
    · next h =>
      have hfilled : Filled root dateFields := hdate.mpr h
      simp only [hfilled, true_imp_iff]
      exact (setRtcDate_clean_iff host.sys host.now _ _ _).trans
        (imp_congr_right fun _ => digits_map_iff root dateFields)
    · next h =>
      have hnot : ¬ Filled root dateFields := fun hf => h (hdate.mp hf)
      exact iff_of_true (fun _ hcmd => absurd hcmd List.not_mem_nil) fun hf => absurd hf hnot

/-- **The bodies whose commands are clean**: the accepted ones that have nothing but digits in
the fields that go into the command. -/
theorem settings_commands_clean_iff (op : SettingsOp) (host : Host) (nmRestartNeeded : Bool)
    (root : CJson) (hacc : op.Accepts root) :
    (∀ cmd ∈ op.commands host nmRestartNeeded (some root), Clean cmd) ↔ op.DigitsOnly host root := by
  cases op with
  | lan => exact appSetLan_clean_iff host nmRestartNeeded hacc
  | rtc => exact appSetRtc_clean_iff host root

/-- 192.168.1.2 behind 192.168.1.1. -/
def homeLan : CJson := .object [("ip4", .string "192".toList), ("ip3", .string "168".toList),
  ("ip2", .string "1".toList), ("ip1", .string "2".toList), ("gw4", .string "192".toList),
  ("gw3", .string "168".toList), ("gw2", .string "1".toList), ("gw1", .string "1".toList),
  ("dhcp", .bool false)]

/-- A host whose commands work. -/
def lanHost : Host := ⟨fun _ => true, "eth0".toList, none⟩

theorem home_lan_command_clean :
    SettingsOp.lan.DigitsOnly lanHost homeLan ∧
      ∀ cmd ∈ SettingsOp.lan.commands lanHost false (some homeLan), Clean cmd := by
  have hall : ∀ f ∈ addressFields, (fieldText homeLan f).all Char.isDigit = true := by decide
  have hdigits : SettingsOp.lan.DigitsOnly lanHost homeLan := fun _ f hf =>
    List.all_eq_true.mp (hall f hf)
  exact ⟨hdigits, (settings_commands_clean_iff .lan lanHost false homeLan ⟨_, rfl⟩).mpr hdigits⟩

/-- A date whose year is a command to the shell. -/
def haltingYear : CJson :=
  .object [("year", .string "$(halt)".toList), ("month", .string "1".toList),
    ("mday", .string "1".toList)]

theorem year_reaches_shell : ¬ ∀ (op : SettingsOp) (host : Host) (nmRestartNeeded : Bool) (root : CJson),
    op.Accepts root → ∀ cmd ∈ op.commands host nmRestartNeeded (some root), Clean cmd := by
  intro h
  let noon : LocalTime := ⟨1, 1, 2024, 12, 0, 0, by decide, by decide, by decide, by decide, by decide⟩
  have hclean := h .rtc ⟨fun _ => true, [], some noon⟩ false haltingYear ⟨_, rfl⟩
  have hdigits := ((appSetRtc_clean_iff _ _).mp hclean).2 (by unfold Filled; decide)
    (by unfold Filled; decide) (by simp) ("year", 8) (by decide)
  exact absurd (hdigits '$' (by decide)) (by decide)

end Growbox
