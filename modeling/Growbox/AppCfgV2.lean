import Growbox.AppTypesV2

/-!
# v2 `app_cfg.cpp`: two formats of one configuration

The file may be JSON or libconfig; `write` puts one assignment of values to keys into
either.  Both readers start from the same defaults, but only `init_from_conf` derives
the numeric level from its text, in capitals, and only there are the sizes
megabytes, whose product is one of 32 bits.  `formats_agree_iff` says which assignments
mean the same in both.
-/

namespace Growbox.AppCfgV2

/-! ## Settings -/

def msgSilent : UInt8 := 0
def msgError : UInt8 := 1
def msgDebug : UInt8 := 2
def msgVerbose : UInt8 := 3
def msgTrace : UInt8 := 4
def msgOvertrace : UInt8 := 5
def logLvlDefault : UInt8 := msgError

/-- `MB_to_B`: the product is a `uint32_t`. -/
def mbToB (mbytes : UInt32) : UInt64 := (mbytes * 1048576).toUInt64

/-- `log_settings` -/
structure LogSettings where
  logLevelStr : CStr
  logLevel : UInt8
  logMaxSize : UInt64
  logBackupMaxSize : UInt64
  deriving DecidableEq

/-- `devices_settings` -/
structure DevicesSettings where
  flcDev : CStr
  i2cDev : CStr
  lanIface : CStr
  coolersPollPeriod : UInt32
  temphumPollPeriod : UInt32
  deriving DecidableEq

/-- `system_settings` -/
structure SystemSettings where
  rebootEnabled : Bool
  poweroffEnabled : Bool
  deriving DecidableEq

/-- `storage` has one field. -/
structure Settings where
  loger : LogSettings
  dbMaxSize : UInt64
  devices : DevicesSettings
  system : SystemSettings
  deriving DecidableEq

def defaultSettings : Settings where
  loger := ⟨"error".toList, 1, mbToB 8, mbToB 128⟩
  dbMaxSize := mbToB 2
  devices := ⟨"/dev/ttyUSB0".toList, "/dev/i2c-0".toList, "eth0".toList, 60, 10⟩
  system := ⟨false, false⟩

/-- `log_str_to_lvl` turns its argument to capitals, in place. -/
def logStrToLvl (str : CStr) : CStr × UInt8 :=
  let str := str.map Char.toUpper
  (str,
    if str = "SILENT".toList then msgSilent
    else if str = "DEBUG".toList then msgDebug
    else if str = "ERROR".toList then msgError
    else if str = "VERBOSE".toList then msgVerbose
    else if str = "TRACE".toList then msgTrace
    else if str = "OVERTRACE".toList then msgOvertrace
    else logLvlDefault)

/-! ## `init_from_json` -/

/-- `dest = root[name]`, to a `uint64_t`. -/
def getUint64 (v : CJson) : Option UInt64 :=
  match v with
  | .number d => some (Int64.ofInt (whole d)).toUInt64
  | _ => none

def getBool (v : CJson) : Option Bool :=
  match v with
  | .bool b => some b
  | _ => none

/-- `CHECK_AND_SET_J`; `none` is a throw. -/
def checkAndSetJ {α : Type} (get : CJson → Option α) (root : CJson) (name : String) (dest : α) :
    Option α :=
  match getObjectItem root name with
  | some v => get v
  | none => some dest

/-- `if (cfg.contains(name))` around the keys of a section. -/
def ifContains {σ : Type} (cfg : CJson) (name : String) (dest : σ) (read : CJson → Option σ) :
    Option σ :=
  match getObjectItem cfg name with
  | some group => read group
  | none => some dest

def loadLogJ (settings : LogSettings) (loger : CJson) : Option LogSettings := do
  let logLevelStr ← checkAndSetJ V2.getString loger "log_level" settings.logLevelStr
  let logMaxSize ← checkAndSetJ getUint64 loger "log_max_size" settings.logMaxSize
  let logBackupMaxSize ←
    checkAndSetJ getUint64 loger "log_backup_max_size" settings.logBackupMaxSize
  return { settings with logLevelStr, logMaxSize, logBackupMaxSize }

def loadDevicesJ (settings : DevicesSettings) (devices : CJson) : Option DevicesSettings := do
  let flcDev ← checkAndSetJ V2.getString devices "flc_dev" settings.flcDev
  let i2cDev ← checkAndSetJ V2.getString devices "i2c_dev" settings.i2cDev
  let lanIface ← checkAndSetJ V2.getString devices "lan_iface" settings.lanIface
  let coolersPollPeriod ←
    checkAndSetJ V2.getUint32 devices "coolers_poll_period" settings.coolersPollPeriod
  let temphumPollPeriod ←
    checkAndSetJ V2.getUint32 devices "temphum_poll_period" settings.temphumPollPeriod
  return ⟨flcDev, i2cDev, lanIface, coolersPollPeriod, temphumPollPeriod⟩

def loadSystemJ (settings : SystemSettings) (system : CJson) : Option SystemSettings := do
  let rebootEnabled ← checkAndSetJ getBool system "reboot_enabled" settings.rebootEnabled
  let poweroffEnabled ← checkAndSetJ getBool system "poweroff_enabled" settings.poweroffEnabled
  return ⟨rebootEnabled, poweroffEnabled⟩

/-- `log_level` is not assigned. -/
def initFromJson (cfg : CJson) (settings : Settings) : Option Settings := do
  let loger ← ifContains cfg "log_settings" settings.loger (loadLogJ settings.loger)
  let dbMaxSize ← ifContains cfg "storage_settings" settings.dbMaxSize fun storage =>
    checkAndSetJ getUint64 storage "db_max_size" settings.dbMaxSize
  let devices ← ifContains cfg "devices_settings" settings.devices (loadDevicesJ settings.devices)
  let system ← ifContains cfg "system_settings" settings.system (loadSystemJ settings.system)
  return ⟨loger, dbMaxSize, devices, system⟩

/-! ## `init_from_conf` -/

/-- A parsed libconfig setting, with its integers as they are in the file. -/
inductive ConfSetting where
  | int (n : UInt32)
  | bool (b : Bool)
  | string (s : CStr)
  | group (members : List (String × ConfSetting))

/-- `SettingNotFoundException`, `SettingTypeException` -/
inductive ConfError where
  | notFound | type

/-- `setting[name]` -/
def ConfSetting.item : ConfSetting → String → Except ConfError ConfSetting
  | .group members, name =>
    match (members.find? fun m => m.1 == name).map Prod.snd with
    | some s => .ok s
    | none => .error .notFound
  | _, _ => .error .type

/-- `root.lookupValue(name, …)` catches every error; `none` is `false`. -/
def lookupValue {α : Type} (get : ConfSetting → Option α) (root : ConfSetting) (name : String) :
    Option α :=
  match root.item name with
  | .ok s => get s
  | .error _ => none

def asString (s : ConfSetting) : Option CStr :=
  match s with
  | .string s => some s
  | _ => none

def asBool (s : ConfSetting) : Option Bool :=
  match s with
  | .bool b => some b
  | _ => none

/-- The library reads a number through an `int`. -/
def asUint (readUint : UInt32 → Option UInt32) (s : ConfSetting) : Option UInt32 :=
  match s with
  | .int n => readUint n
  | _ => none

/-- `CHECK_AND_SET` -/
def checkAndSet {α : Type} (get : ConfSetting → Option α) (root : ConfSetting) (name : String)
    (dest : α) : α :=
  (lookupValue get root name).getD dest

/-- `CHECK_AND_SET_MB` -/
def checkAndSetMb (readUint : UInt32 → Option UInt32) (root : ConfSetting) (name : String)
    (dest : UInt64) : UInt64 :=
  ((lookupValue (asUint readUint) root name).map mbToB).getD dest

/-- One of the `try` blocks: only a section that is not there is caught. -/
def trySection {σ : Type} (root : ConfSetting) (name : String) (dest : σ) (read : ConfSetting → σ) :
    Option σ :=
  match (root.item "application").bind fun app => app.item name with
  | .ok group => some (read group)
  | .error .notFound => some dest
  | .error .type => none

section
variable (readUint : UInt32 → Option UInt32)

/-- The level is derived whether the file has its text or not. -/
def loadLog (settings : LogSettings) (loger : ConfSetting) : LogSettings :=
  let lvl := logStrToLvl (checkAndSet asString loger "log_level" settings.logLevelStr)
  { logLevelStr := lvl.1
    logLevel := lvl.2
    logMaxSize := checkAndSetMb readUint loger "log_max_size" settings.logMaxSize
    logBackupMaxSize := checkAndSetMb readUint loger "log_backup_max_size" settings.logBackupMaxSize }

def loadDevices (settings : DevicesSettings) (devices : ConfSetting) : DevicesSettings where
  flcDev := checkAndSet asString devices "flc_dev" settings.flcDev
  i2cDev := checkAndSet asString devices "i2c_dev" settings.i2cDev
  lanIface := checkAndSet asString devices "lan_iface" settings.lanIface
  coolersPollPeriod :=
    checkAndSet (asUint readUint) devices "coolers_poll_period" settings.coolersPollPeriod
  temphumPollPeriod :=
    checkAndSet (asUint readUint) devices "temphum_poll_period" settings.temphumPollPeriod

def loadSystem (settings : SystemSettings) (system : ConfSetting) : SystemSettings where
  rebootEnabled := checkAndSet asBool system "reboot_enabled" settings.rebootEnabled
  poweroffEnabled := checkAndSet asBool system "poweroff_enabled" settings.poweroffEnabled

def initFromConf (root : ConfSetting) (settings : Settings) : Option Settings := do
  let loger ← trySection root "log_settings" settings.loger (loadLog readUint settings.loger)
  let dbMaxSize ← trySection root "storage_settings" settings.dbMaxSize fun storage =>
    checkAndSetMb readUint storage "db_max_size" settings.dbMaxSize
  let devices ← trySection root "devices_settings" settings.devices
    (loadDevices readUint settings.devices)
  let system ← trySection root "system_settings" settings.system (loadSystem settings.system)
  return ⟨loger, dbMaxSize, devices, system⟩

end

/-! ## One assignment, two files -/

structure LogKeys where
  logLevel : Option CStr
  logMaxSize : Option UInt32
  logBackupMaxSize : Option UInt32

structure StorageKeys where
  dbMaxSize : Option UInt32

structure DevicesKeys where
  flcDev : Option CStr
  i2cDev : Option CStr
  lanIface : Option CStr
  coolersPollPeriod : Option UInt32
  temphumPollPeriod : Option UInt32

structure SystemKeys where
  rebootEnabled : Option Bool
  poweroffEnabled : Option Bool

/-- Values for some of the keys; a section without keys may be there or not. -/
structure Assignment where
  log : Option LogKeys
  storage : Option StorageKeys
  devices : Option DevicesKeys
  system : Option SystemKeys

/-- How a file of one kind has a value. -/
structure Format (T : Type) where
  string : CStr → T
  number : UInt32 → T
  bool : Bool → T
  group : List (String × T) → T

/-- A key that is given. -/
def member {T α : Type} (name : String) (o : Option α) (f : α → T) : List (String × T) :=
  (o.map fun a => (name, f a)).toList

section
variable {T : Type} (fmt : Format T)

def LogKeys.members (l : LogKeys) : List (String × T) :=
  member "log_level" l.logLevel fmt.string ++ (member "log_max_size" l.logMaxSize fmt.number ++
    member "log_backup_max_size" l.logBackupMaxSize fmt.number)

def StorageKeys.members (s : StorageKeys) : List (String × T) :=
  member "db_max_size" s.dbMaxSize fmt.number

def DevicesKeys.members (d : DevicesKeys) : List (String × T) :=
  member "flc_dev" d.flcDev fmt.string ++ (member "i2c_dev" d.i2cDev fmt.string ++
    (member "lan_iface" d.lanIface fmt.string ++
      (member "coolers_poll_period" d.coolersPollPeriod fmt.number ++
        member "temphum_poll_period" d.temphumPollPeriod fmt.number)))

def SystemKeys.members (s : SystemKeys) : List (String × T) :=
  member "reboot_enabled" s.rebootEnabled fmt.bool ++
    member "poweroff_enabled" s.poweroffEnabled fmt.bool

def Assignment.sections (a : Assignment) : List (String × T) :=
  member "log_settings" a.log (fun l => fmt.group (l.members fmt)) ++
    (member "storage_settings" a.storage (fun s => fmt.group (s.members fmt)) ++
      (member "devices_settings" a.devices (fun d => fmt.group (d.members fmt)) ++
        member "system_settings" a.system (fun s => fmt.group (s.members fmt))))

end

def jsonFormat : Format CJson where
  string := .string
  number n := .number (n.toNat : Int)
  bool := .bool
  group := .object

def confFormat : Format ConfSetting where
  string := .string
  number := .int
  bool := .bool
  group := .group

def Assignment.json (a : Assignment) : CJson := .object (a.sections jsonFormat)

/-- Everything is in the group `application`. -/
def Assignment.conf (a : Assignment) : ConfSetting :=
  .group [("application", .group (a.sections confFormat))]

/-! ## What the two mean -/

/-- A size in bytes. -/
def megabytes (given : Option UInt32) (dflt : Nat) : Nat := given.elim dflt UInt32.toNat * 2 ^ 20

/-- The numeric level is the one of the text, and the sizes are megabytes. -/
structure Settings.Meant (s : Settings) (a : Assignment) : Prop where
  level : s.loger.logLevel = (logStrToLvl s.loger.logLevelStr).2
  logMaxSize : s.loger.logMaxSize.toNat = megabytes (a.log.bind LogKeys.logMaxSize) 8
  logBackupMaxSize :
    s.loger.logBackupMaxSize.toNat = megabytes (a.log.bind LogKeys.logBackupMaxSize) 128
  dbMaxSize : s.dbMaxSize.toNat = megabytes (a.storage.bind StorageKeys.dbMaxSize) 2

/-- The two files give the same settings, and these are the ones meant. -/
def FormatsAgree (readUint : UInt32 → Option UInt32) (a : Assignment) : Prop :=
  ∃ s, initFromJson a.json defaultSettings = some s ∧
    initFromConf readUint a.conf defaultSettings = some s ∧ s.Meant a

/-- A text whose level is the default one, and which is in capitals already. -/
def LevelText (str : CStr) : Prop :=
  str.map Char.toUpper = str ∧
    str ∉ ["SILENT".toList, "DEBUG".toList, "VERBOSE".toList, "TRACE".toList, "OVERTRACE".toList]

instance (str : CStr) : Decidable (LevelText str) := inferInstanceAs (Decidable (_ ∧ _))

/-- The log section comes with such a text, no size is given but 0, and
periods only as the library reads them. -/
structure Assignment.Neutral (readUint : UInt32 → Option UInt32) (a : Assignment) : Prop where
  level : ∀ l, a.log = some l → ∃ str, l.logLevel = some str ∧ LevelText str
  logMaxSize : ∀ n, a.log.bind LogKeys.logMaxSize = some n → n = 0
  logBackupMaxSize : ∀ n, a.log.bind LogKeys.logBackupMaxSize = some n → n = 0
  dbMaxSize : ∀ n, a.storage.bind StorageKeys.dbMaxSize = some n → n = 0
  coolersPollPeriod : ∀ n, a.devices.bind DevicesKeys.coolersPollPeriod = some n →
    readUint n = some n
  temphumPollPeriod : ∀ n, a.devices.bind DevicesKeys.temphumPollPeriod = some n →
    readUint n = some n

/-! ## Lookups -/

def lookup {T : Type} (ms : List (String × T)) (key : String) : Option T :=
  (ms.find? fun m => m.1 == key).map Prod.snd

theorem lookup_member {T α : Type} (name key : String) (o : Option α) (f : α → T) :
    lookup (member name o f) key = if name = key then o.map f else none := by
  cases o with
  | none => simp [lookup, member]
  | some a => by_cases h : name = key <;> simp [lookup, member, h]

theorem lookup_member_append {T α : Type} (name key : String) (o : Option α) (f : α → T)
    (ms : List (String × T)) :
    lookup (member name o f ++ ms) key =
      if name = key then (o.map f).or (lookup ms key) else lookup ms key := by
  cases o with
  | none => simp [member]
  | some a => by_cases h : name = key <;> simp [lookup, member, h]

section
variable {T : Type} (fmt : Format T)

theorem lookup_log (l : LogKeys) :
    lookup (l.members fmt) "log_level" = l.logLevel.map fmt.string ∧
      lookup (l.members fmt) "log_max_size" = l.logMaxSize.map fmt.number ∧
      lookup (l.members fmt) "log_backup_max_size" = l.logBackupMaxSize.map fmt.number := by
  simp [LogKeys.members, lookup_member_append, lookup_member]

theorem lookup_storage (s : StorageKeys) :
    lookup (s.members fmt) "db_max_size" = s.dbMaxSize.map fmt.number := by
  simp [StorageKeys.members, lookup_member]

theorem lookup_devices (d : DevicesKeys) :
    lookup (d.members fmt) "flc_dev" = d.flcDev.map fmt.string ∧
      lookup (d.members fmt) "i2c_dev" = d.i2cDev.map fmt.string ∧
      lookup (d.members fmt) "lan_iface" = d.lanIface.map fmt.string ∧
      lookup (d.members fmt) "coolers_poll_period" = d.coolersPollPeriod.map fmt.number ∧
      lookup (d.members fmt) "temphum_poll_period" = d.temphumPollPeriod.map fmt.number := by
  simp [DevicesKeys.members, lookup_member_append, lookup_member]

theorem lookup_system (s : SystemKeys) :
    lookup (s.members fmt) "reboot_enabled" = s.rebootEnabled.map fmt.bool ∧
      lookup (s.members fmt) "poweroff_enabled" = s.poweroffEnabled.map fmt.bool := by
  simp [SystemKeys.members, lookup_member_append, lookup_member]

theorem lookup_sections (a : Assignment) :
    lookup (a.sections fmt) "log_settings" = a.log.map (fun l => fmt.group (l.members fmt)) ∧
      lookup (a.sections fmt) "storage_settings" =
        a.storage.map (fun s => fmt.group (s.members fmt)) ∧
      lookup (a.sections fmt) "devices_settings" =
        a.devices.map (fun d => fmt.group (d.members fmt)) ∧
      lookup (a.sections fmt) "system_settings" =
        a.system.map (fun s => fmt.group (s.members fmt)) := by
  simp [Assignment.sections, lookup_member_append, lookup_member]

end

/-! ## JSON -/

theorem ifContains_object {T σ : Type} {ms : List (String × CJson)} {name : String} {o : Option T}
    {f : T → CJson} (h : lookup ms name = o.map f) {g : T → σ} {read : CJson → Option σ}
    (hread : ∀ t, read (f t) = some (g t)) (dest : σ) :
    ifContains (.object ms) name dest read = some ((o.map g).getD dest) := by
  have hitem : getObjectItem (.object ms) name = o.map f := h
  unfold ifContains
  rw [hitem]
  cases o with
  | none => rfl
  | some t => exact hread t

theorem checkAndSetJ_object {T α : Type} {ms : List (String × CJson)} {name : String}
    {o : Option T} {f : T → CJson} (h : lookup ms name = o.map f) {g : T → α}
    {get : CJson → Option α} (hget : ∀ t, get (f t) = some (g t)) (dest : α) :
    checkAndSetJ get (.object ms) name dest = some ((o.map g).getD dest) :=
  ifContains_object h hget dest

theorem getString_string (s : CStr) : V2.getString (jsonFormat.string s) = some (id s) := rfl

theorem getBool_bool (b : Bool) : getBool (jsonFormat.bool b) = some (id b) := rfl

theorem getUint64_number (n : UInt32) : getUint64 (jsonFormat.number n) = some n.toUInt64 := by
  show some (Int64.ofInt ((n.toNat : Int).tdiv 1)).toUInt64 = _
  rw [Int.tdiv_one, Option.some_inj]
  apply UInt64.toBitVec_inj.mp
  show BitVec.ofInt 64 (n.toNat : Int) = n.toUInt64.toBitVec
  rw [BitVec.ofInt_natCast]
  apply BitVec.eq_of_toNat_eq
  rw [BitVec.toNat_ofNat, UInt64.toNat_toBitVec, UInt32.toNat_toUInt64]
  exact Nat.mod_eq_of_lt (Nat.lt_trans n.toNat_lt (by decide))

theorem getUint32_number (n : UInt32) : V2.getUint32 (jsonFormat.number n) = some (id n) := by
  show some (Int32.ofInt ((n.toNat : Int).tdiv 1)).toUInt32 = _
  rw [Int.tdiv_one, toUInt32_ofInt_natCast, UInt32.ofNat_toNat]
  rfl

/-- A size of the JSON file is what the file says, megabytes or not. -/
def jsonSize (given : Option UInt32) (dflt : UInt64) : UInt64 :=
  (given.map UInt32.toUInt64).getD dflt

theorem jsonSize_none (dflt : UInt64) : jsonSize none dflt = dflt := rfl

def LogKeys.fromJson (l : LogKeys) : LogSettings where
  logLevelStr := l.logLevel.getD "error".toList
  logLevel := 1
  logMaxSize := jsonSize l.logMaxSize (mbToB 8)
  logBackupMaxSize := jsonSize l.logBackupMaxSize (mbToB 128)

def StorageKeys.fromJson (s : StorageKeys) : UInt64 := jsonSize s.dbMaxSize (mbToB 2)

def DevicesKeys.fromJson (d : DevicesKeys) : DevicesSettings where
  flcDev := d.flcDev.getD "/dev/ttyUSB0".toList
  i2cDev := d.i2cDev.getD "/dev/i2c-0".toList
  lanIface := d.lanIface.getD "eth0".toList
  coolersPollPeriod := d.coolersPollPeriod.getD 60
  temphumPollPeriod := d.temphumPollPeriod.getD 10

def SystemKeys.settings (s : SystemKeys) : SystemSettings where
  rebootEnabled := s.rebootEnabled.getD false
  poweroffEnabled := s.poweroffEnabled.getD false

/-- What the JSON file comes to. -/
def Assignment.fromJson (a : Assignment) : Settings where
  loger := (a.log.map LogKeys.fromJson).getD defaultSettings.loger
  dbMaxSize := (a.storage.map StorageKeys.fromJson).getD defaultSettings.dbMaxSize
  devices := (a.devices.map DevicesKeys.fromJson).getD defaultSettings.devices
  system := (a.system.map SystemKeys.settings).getD defaultSettings.system

theorem loadLogJ_members (l : LogKeys) :
    loadLogJ defaultSettings.loger (.object (l.members jsonFormat)) = some l.fromJson := by
  obtain ⟨h1, h2, h3⟩ := lookup_log jsonFormat l
  simp only [loadLogJ, checkAndSetJ_object h1 getString_string,
    checkAndSetJ_object h2 getUint64_number, checkAndSetJ_object h3 getUint64_number]
  simp [LogKeys.fromJson, defaultSettings, jsonSize]

theorem loadDevicesJ_members (d : DevicesKeys) :
    loadDevicesJ defaultSettings.devices (.object (d.members jsonFormat)) = some d.fromJson := by
  obtain ⟨h1, h2, h3, h4, h5⟩ := lookup_devices jsonFormat d
  simp only [loadDevicesJ, checkAndSetJ_object h1 getString_string,
    checkAndSetJ_object h2 getString_string, checkAndSetJ_object h3 getString_string,
    checkAndSetJ_object h4 getUint32_number, checkAndSetJ_object h5 getUint32_number]
  simp [DevicesKeys.fromJson, defaultSettings]

theorem loadSystemJ_members (s : SystemKeys) :
    loadSystemJ defaultSettings.system (.object (s.members jsonFormat)) = some s.settings := by
  obtain ⟨h1, h2⟩ := lookup_system jsonFormat s
  simp only [loadSystemJ, checkAndSetJ_object h1 getBool_bool, checkAndSetJ_object h2 getBool_bool]
  simp [SystemKeys.settings, defaultSettings]

theorem initFromJson_json (a : Assignment) :
    initFromJson a.json defaultSettings = some a.fromJson := by
  obtain ⟨hlog, hstorage, hdevices, hsystem⟩ := lookup_sections jsonFormat a
  have hdb (s : StorageKeys) : checkAndSetJ getUint64 (jsonFormat.group (s.members jsonFormat))
      "db_max_size" defaultSettings.dbMaxSize = some s.fromJson :=
    checkAndSetJ_object (lookup_storage jsonFormat s) getUint64_number _
  unfold initFromJson Assignment.json
  rw [ifContains_object hlog loadLogJ_members, ifContains_object hstorage hdb,
    ifContains_object hdevices loadDevicesJ_members, ifContains_object hsystem loadSystemJ_members]
  rfl

/-! ## libconfig -/

theorem item_group (ms : List (String × ConfSetting)) (name : String) :
    (ConfSetting.group ms).item name =
      match lookup ms name with
      | some s => .ok s
      | none => .error .notFound :=
  rfl

theorem lookupValue_group {T α : Type} {ms : List (String × ConfSetting)} {name : String}
    {o : Option T} {f : T → ConfSetting} (h : lookup ms name = o.map f) {g : T → Option α}
    {get : ConfSetting → Option α} (hget : ∀ t, get (f t) = g t) :
    lookupValue get (.group ms) name = o.bind g := by
  unfold lookupValue
  rw [item_group, h]
  cases o with
  | none => rfl
  | some t => exact hget t

theorem trySection_group {T σ : Type} {ms : List (String × ConfSetting)} {name : String}
    {o : Option T} {f : T → ConfSetting} (h : lookup ms name = o.map f) {g : T → σ}
    {read : ConfSetting → σ} (hread : ∀ t, read (f t) = g t) (dest : σ) :
    trySection (.group [("application", .group ms)]) name dest read =
      some ((o.map g).getD dest) := by
  have happ : ((ConfSetting.group [("application", .group ms)]).item "application").bind
      (fun app => app.item name) = (ConfSetting.group ms).item name := rfl
  unfold trySection
  rw [happ, item_group, h]
  cases o with
  | none => rfl
  | some t => exact congrArg some (hread t)

section
variable (readUint : UInt32 → Option UInt32)

theorem asString_string (s : CStr) : asString (confFormat.string s) = some s := rfl

theorem asBool_bool (b : Bool) : asBool (confFormat.bool b) = some b := rfl

theorem asUint_number (n : UInt32) : asUint readUint (confFormat.number n) = readUint n := rfl

/-- A size of the libconfig file. -/
def confSize (given : Option UInt32) (dflt : UInt64) : UInt64 :=
  ((given.bind readUint).map mbToB).getD dflt

theorem confSize_none (dflt : UInt64) : confSize readUint none dflt = dflt := rfl

def LogKeys.fromConf (l : LogKeys) : LogSettings where
  logLevelStr := (logStrToLvl (l.logLevel.getD "error".toList)).1
  logLevel := (logStrToLvl (l.logLevel.getD "error".toList)).2
  logMaxSize := confSize readUint l.logMaxSize (mbToB 8)
  logBackupMaxSize := confSize readUint l.logBackupMaxSize (mbToB 128)

def StorageKeys.fromConf (s : StorageKeys) : UInt64 := confSize readUint s.dbMaxSize (mbToB 2)

def DevicesKeys.fromConf (d : DevicesKeys) : DevicesSettings where
  flcDev := d.flcDev.getD "/dev/ttyUSB0".toList
  i2cDev := d.i2cDev.getD "/dev/i2c-0".toList
  lanIface := d.lanIface.getD "eth0".toList
  coolersPollPeriod := (d.coolersPollPeriod.bind readUint).getD 60
  temphumPollPeriod := (d.temphumPollPeriod.bind readUint).getD 10

/-- What the libconfig file comes to. -/
def Assignment.fromConf (a : Assignment) : Settings where
  loger := (a.log.map (LogKeys.fromConf readUint)).getD defaultSettings.loger
  dbMaxSize := (a.storage.map (StorageKeys.fromConf readUint)).getD defaultSettings.dbMaxSize
  devices := (a.devices.map (DevicesKeys.fromConf readUint)).getD defaultSettings.devices
  system := (a.system.map SystemKeys.settings).getD defaultSettings.system

theorem loadLog_members (l : LogKeys) :
    loadLog readUint defaultSettings.loger (.group (l.members confFormat)) = l.fromConf readUint := by
  obtain ⟨h1, h2, h3⟩ := lookup_log confFormat l
  simp only [loadLog, checkAndSet, checkAndSetMb, lookupValue_group h1 asString_string,
    lookupValue_group h2 (asUint_number readUint), lookupValue_group h3 (asUint_number readUint)]
  simp [LogKeys.fromConf, defaultSettings, confSize]

theorem loadDevices_members (d : DevicesKeys) :
    loadDevices readUint defaultSettings.devices (.group (d.members confFormat)) =
      d.fromConf readUint := by
  obtain ⟨h1, h2, h3, h4, h5⟩ := lookup_devices confFormat d
  simp only [loadDevices, checkAndSet, lookupValue_group h1 asString_string,
    lookupValue_group h2 asString_string, lookupValue_group h3 asString_string,
    lookupValue_group h4 (asUint_number readUint), lookupValue_group h5 (asUint_number readUint)]
  simp [DevicesKeys.fromConf, defaultSettings]

theorem loadSystem_members (s : SystemKeys) :
    loadSystem defaultSettings.system (.group (s.members confFormat)) = s.settings := by
  obtain ⟨h1, h2⟩ := lookup_system confFormat s
  simp only [loadSystem, checkAndSet, lookupValue_group h1 asBool_bool,
    lookupValue_group h2 asBool_bool]
  simp [SystemKeys.settings, defaultSettings]

theorem initFromConf_conf (a : Assignment) :
    initFromConf readUint a.conf defaultSettings = some (a.fromConf readUint) := by
  obtain ⟨hlog, hstorage, hdevices, hsystem⟩ := lookup_sections confFormat a
  have hdb (s : StorageKeys) : checkAndSetMb readUint (confFormat.group (s.members confFormat))
      "db_max_size" defaultSettings.dbMaxSize = s.fromConf readUint := by
    have h := lookupValue_group (lookup_storage confFormat s) (asUint_number readUint)
    exact congrArg (fun o : Option UInt32 => (o.map mbToB).getD defaultSettings.dbMaxSize) h
  unfold initFromConf Assignment.conf
  rw [trySection_group hlog (loadLog_members readUint), trySection_group hstorage hdb,
    trySection_group hdevices (loadDevices_members readUint),
    trySection_group hsystem loadSystem_members]
  rfl

end

/-! ## Where they agree -/

section
variable (readUint : UInt32 → Option UInt32)

/-- A level is the text itself and the level 1 only of a text in capitals that
names no other level. -/
theorem logStrToLvl_eq_iff (str : CStr) :
    (logStrToLvl str).1 = str ∧ (logStrToLvl str).2 = 1 ↔ LevelText str := by
  unfold LevelText
  refine and_congr_right fun hupper => ?_
  have hstr : str.map Char.toUpper = str := hupper
  simp only [logStrToLvl, hstr, List.mem_cons, List.not_mem_nil, or_false, not_or]
  split_ifs with h1 h2 h3 h4 h5 h6
  · exact iff_of_false (by decide) fun h => h.1 h1
  · exact iff_of_false (by decide) fun h => h.2.1 h2
  · subst h3
    exact iff_of_true (by decide) (by decide)
  · exact iff_of_false (by decide) fun h => h.2.2.1 h4
  · exact iff_of_false (by decide) fun h => h.2.2.2.1 h5
  · exact iff_of_false (by decide) fun h => h.2.2.2.2 h6
  · exact iff_of_true (by decide) ⟨h1, h2, h4, h5, h6⟩

/-- The level both readers leave when the log section is there. -/
def LogKeys.LevelAgrees (l : LogKeys) : Prop :=
  (logStrToLvl (l.logLevel.getD "error".toList)).1 = l.logLevel.getD "error".toList ∧
    (logStrToLvl (l.logLevel.getD "error".toList)).2 = 1

/-- Both readers leave the same size. -/
def SizeAgrees (given : Option UInt32) (dflt : UInt64) : Prop :=
  jsonSize given dflt = confSize readUint given dflt

/-- Both readers leave the same period. -/
def PeriodAgrees (given : Option UInt32) (dflt : UInt32) : Prop :=
  given.getD dflt = (given.bind readUint).getD dflt

theorem sizeAgrees_none (dflt : UInt64) : SizeAgrees readUint none dflt := by
  rw [SizeAgrees, jsonSize_none, confSize_none]

theorem loger_agrees_iff (log : Option LogKeys) :
    (log.map LogKeys.fromJson).getD defaultSettings.loger =
        (log.map (LogKeys.fromConf readUint)).getD defaultSettings.loger ↔
      (∀ l, log = some l → l.LevelAgrees) ∧
        SizeAgrees readUint (log.bind LogKeys.logMaxSize) (mbToB 8) ∧
        SizeAgrees readUint (log.bind LogKeys.logBackupMaxSize) (mbToB 128) := by
  cases log with
  | none =>
    rw [Option.map_none, Option.map_none, Option.bind_none, Option.bind_none]
    exact iff_of_true rfl ⟨fun l h => (nomatch h), sizeAgrees_none readUint _, sizeAgrees_none readUint _⟩
  | some l =>
    simp only [Option.map_some, Option.getD_some, Option.bind_some, LogKeys.fromJson,
      LogKeys.fromConf, LogSettings.mk.injEq, Option.some.injEq, forall_eq', LogKeys.LevelAgrees,
      SizeAgrees]
    rw [eq_comm, eq_comm (b := (logStrToLvl _).2), and_assoc]

theorem storage_agrees_iff (storage : Option StorageKeys) :
    (storage.map StorageKeys.fromJson).getD defaultSettings.dbMaxSize =
        (storage.map (StorageKeys.fromConf readUint)).getD defaultSettings.dbMaxSize ↔
      SizeAgrees readUint (storage.bind StorageKeys.dbMaxSize) (mbToB 2) := by
  cases storage with
  | none =>
    rw [Option.map_none, Option.map_none, Option.bind_none]
    exact iff_of_true rfl (sizeAgrees_none readUint _)
  | some s =>
    simp only [Option.map_some, Option.getD_some, Option.bind_some, StorageKeys.fromJson,
      StorageKeys.fromConf, SizeAgrees]

/-- Names are read alike. -/
theorem devices_agrees_iff (devices : Option DevicesKeys) :
    (devices.map DevicesKeys.fromJson).getD defaultSettings.devices =
        (devices.map (DevicesKeys.fromConf readUint)).getD defaultSettings.devices ↔
      PeriodAgrees readUint (devices.bind DevicesKeys.coolersPollPeriod) 60 ∧
        PeriodAgrees readUint (devices.bind DevicesKeys.temphumPollPeriod) 10 := by
  cases devices with
  | none =>
    rw [Option.map_none, Option.map_none, Option.bind_none, Option.bind_none]
    exact iff_of_true rfl ⟨rfl, rfl⟩
  | some d =>
    simp only [Option.map_some, Option.getD_some, Option.bind_some, DevicesKeys.fromJson,
      DevicesKeys.fromConf, DevicesSettings.mk.injEq, true_and, PeriodAgrees]

/-- The settings of both readers, key by key. -/
theorem fromJson_eq_fromConf_iff (a : Assignment) :
    a.fromJson = a.fromConf readUint ↔
      ((∀ l, a.log = some l → l.LevelAgrees) ∧
        SizeAgrees readUint (a.log.bind LogKeys.logMaxSize) (mbToB 8) ∧
        SizeAgrees readUint (a.log.bind LogKeys.logBackupMaxSize) (mbToB 128)) ∧
      SizeAgrees readUint (a.storage.bind StorageKeys.dbMaxSize) (mbToB 2) ∧
      PeriodAgrees readUint (a.devices.bind DevicesKeys.coolersPollPeriod) 60 ∧
      PeriodAgrees readUint (a.devices.bind DevicesKeys.temphumPollPeriod) 10 := by
  rw [← loger_agrees_iff, ← storage_agrees_iff, ← devices_agrees_iff]
  simp only [Assignment.fromJson, Assignment.fromConf, Settings.mk.injEq, and_true]

theorem formatsAgree_iff_settings (a : Assignment) :
    FormatsAgree readUint a ↔ a.fromJson = a.fromConf readUint ∧ a.fromJson.Meant a := by
  unfold FormatsAgree
  rw [initFromJson_json, initFromConf_conf]
  constructor
  · rintro ⟨s, hjson, hconf, hmeant⟩
    cases hjson
    exact ⟨(Option.some.inj hconf).symm, hmeant⟩
  · rintro ⟨heq, hmeant⟩
    exact ⟨_, rfl, congrArg some heq.symm, hmeant⟩

/-- The level is derived, so it must be the one JSON leaves, and its text be given. -/
theorem level_agrees_iff (a : Assignment) :
    (∀ l, a.log = some l → l.LevelAgrees) ↔
      ∀ l, a.log = some l → ∃ str, l.logLevel = some str ∧ LevelText str := by
  refine forall_congr' fun l => imp_congr_right fun _ => ?_
  unfold LogKeys.LevelAgrees
  cases hl : l.logLevel with
  | none =>
    refine iff_of_false (fun h => absurd h.1 (by decide)) ?_
    rintro ⟨str, h, -⟩
    cases h
  | some str =>
    rw [Option.getD_some, logStrToLvl_eq_iff]
    simp only [Option.some.injEq, exists_eq_left']

theorem fromJson_level {a : Assignment} (h : ∀ l, a.log = some l → l.LevelAgrees) :
    a.fromJson.loger.logLevel = (logStrToLvl a.fromJson.loger.logLevelStr).2 := by
  unfold Assignment.fromJson
  cases hl : a.log with
  | none => rfl
  | some l => exact (h l hl).2.symm

theorem fromJson_sizes (a : Assignment) :
    a.fromJson.loger.logMaxSize = jsonSize (a.log.bind LogKeys.logMaxSize) (mbToB 8) ∧
      a.fromJson.loger.logBackupMaxSize =
        jsonSize (a.log.bind LogKeys.logBackupMaxSize) (mbToB 128) ∧
      a.fromJson.dbMaxSize = jsonSize (a.storage.bind StorageKeys.dbMaxSize) (mbToB 2) := by
  unfold Assignment.fromJson
  refine ⟨?_, ?_, ?_⟩
  · cases a.log <;> rfl
  · cases a.log <;> rfl
  · cases a.storage <;> rfl

theorem mbToB_zero : mbToB 0 = 0 := by
  rw [mbToB, UInt32.zero_mul]
  rfl

theorem toNat_mbToB (d : UInt32) (hd : d.toNat < 4096) : (mbToB d).toNat = d.toNat * 2 ^ 20 := by
  rw [mbToB, UInt32.toNat_toUInt64, UInt32.toNat_mul]
  exact Nat.mod_eq_of_lt (show d.toNat * 1048576 < 4294967296 by omega)

variable (hread : ∀ n : UInt32, n.toNat < 2 ^ 31 → readUint n = some n)
include hread

/-- A size that is given is read alike, and as megabytes, only when it is 0. -/
theorem size_agrees_iff (given : Option UInt32) (d : UInt32) (hd : d.toNat < 4096) :
    SizeAgrees readUint given (mbToB d) ∧
        (jsonSize given (mbToB d)).toNat = megabytes given d.toNat ↔
      ∀ n, given = some n → n = 0 := by
  cases given with
  | none =>
    exact iff_of_true ⟨sizeAgrees_none readUint _, toNat_mbToB d hd⟩ (fun n h => nomatch h)
  | some n =>
    have hjson : (jsonSize (some n) (mbToB d)).toNat = n.toNat := UInt32.toNat_toUInt64 n
    rw [hjson]
    constructor
    · rintro ⟨-, hmb⟩ n' ⟨⟩
      have : n.toNat = n.toNat * 2 ^ 20 := hmb
      exact UInt32.toNat_inj.mp (show n.toNat = 0 by omega)
    · intro h
      obtain rfl := h n rfl
      refine ⟨?_, (Nat.zero_mul _).symm⟩
      rw [SizeAgrees, jsonSize, confSize, Option.bind_some, hread 0 (Nat.two_pow_pos 31), Option.map_some,
        Option.map_some, Option.getD_some, Option.getD_some, mbToB_zero]
      rfl

theorem period_agrees_iff (given : Option UInt32) (d : UInt32) (hd : d.toNat < 2 ^ 31) :
    PeriodAgrees readUint given d ↔ ∀ n, given = some n → readUint n = some n := by
  cases given with
  | none => exact iff_of_true rfl (fun n h => nomatch h)
  | some n =>
    rw [PeriodAgrees, Option.getD_some, Option.bind_some]
    constructor
    · rintro h n' ⟨⟩
      cases hn : readUint n with
      | none =>
        rw [hn] at h
        obtain rfl : n = d := h
        rw [hread n hd] at hn
        cases hn
      | some v =>
        rw [hn] at h
        exact congrArg some h.symm
    · intro h
      rw [h n rfl]
      rfl

/-- **The two formats mean the same exactly for the assignments that need no reading**: the
log section, if there, has a level text that is its own capitals and stands for the default
level, every size that is given is 0, and every period is one libconfig reads as itself. -/
theorem formats_agree_iff (a : Assignment) : FormatsAgree readUint a ↔ a.Neutral readUint := by
  have hlogMax := size_agrees_iff readUint hread (a.log.bind LogKeys.logMaxSize) 8 (by decide)
  have hbackup :=
    size_agrees_iff readUint hread (a.log.bind LogKeys.logBackupMaxSize) 128 (by decide)
  have hdb := size_agrees_iff readUint hread (a.storage.bind StorageKeys.dbMaxSize) 2 (by decide)
  have hcoolers := period_agrees_iff readUint hread (a.devices.bind DevicesKeys.coolersPollPeriod)
    60 (by decide)
  have htemphum := period_agrees_iff readUint hread (a.devices.bind DevicesKeys.temphumPollPeriod)
    10 (by decide)
  rw [formatsAgree_iff_settings, fromJson_eq_fromConf_iff, level_agrees_iff]
  constructor
  · rintro ⟨⟨⟨hlevel, h1, h2⟩, h3, h4, h5⟩, hmeant⟩
    obtain ⟨e1, e2, e3⟩ := fromJson_sizes a
    exact
      { level := hlevel
        logMaxSize := hlogMax.mp ⟨h1, e1 ▸ hmeant.logMaxSize⟩
        logBackupMaxSize := hbackup.mp ⟨h2, e2 ▸ hmeant.logBackupMaxSize⟩
        dbMaxSize := hdb.mp ⟨h3, e3 ▸ hmeant.dbMaxSize⟩
        coolersPollPeriod := hcoolers.mp h4
        temphumPollPeriod := htemphum.mp h5 }
  · intro h
    obtain ⟨e1, e2, e3⟩ := fromJson_sizes a
    obtain ⟨h1, m1⟩ := hlogMax.mpr h.logMaxSize
    obtain ⟨h2, m2⟩ := hbackup.mpr h.logBackupMaxSize
    obtain ⟨h3, m3⟩ := hdb.mpr h.dbMaxSize
    refine ⟨⟨⟨h.level, h1, h2⟩, h3, hcoolers.mpr h.coolersPollPeriod,
      htemphum.mpr h.temphumPollPeriod⟩, ?_⟩
    exact
      { level := fromJson_level ((level_agrees_iff a).mpr h.level)
        logMaxSize := e1 ▸ m1
        logBackupMaxSize := e2 ▸ m2
        dbMaxSize := e3 ▸ m3 }

end

/-- libconfig 1.5 and later: an integer above `INT_MAX` is of another type, and is not read. -/
def readInt (n : UInt32) : Option UInt32 := if n.toNat < 2 ^ 31 then some n else none

/-- The level `ERROR`, two device names and a period. -/
def neutralKeys : Assignment :=
  ⟨some ⟨some "ERROR".toList, none, none⟩, none,
    some ⟨some "/dev/ttyS1".toList, none, some "wlan0".toList, some 30, none⟩, none⟩

/-- In capitals, with no sizes, a file means the same in both formats. -/
theorem formats_agree_neutral : FormatsAgree readInt neutralKeys :=
  (formats_agree_iff readInt (fun _ h => if_pos h) neutralKeys).mpr
    { level := by
        rintro l ⟨⟩
        exact ⟨_, rfl, by decide⟩
      logMaxSize := by
        rintro n ⟨⟩
      logBackupMaxSize := by
        rintro n ⟨⟩
      dbMaxSize := by
        rintro n ⟨⟩
      coolersPollPeriod := by
        rintro n ⟨⟩
        rfl
      temphumPollPeriod := by
        rintro n ⟨⟩ }

/-- The log section of the sample files, `log_max_size` 2: two bytes from JSON, 2 MB from
libconfig, and the level text in capitals only there. -/
theorem two_megabytes_differ : ¬ FormatsAgree readInt ⟨some ⟨none, some 2, none⟩, none, none, none⟩ := by
  intro h
  have heq := ((formatsAgree_iff_settings readInt _).mp h).1
  exact absurd (congrArg (fun s => s.loger.logMaxSize) heq) (by decide)

end Growbox.AppCfgV2
