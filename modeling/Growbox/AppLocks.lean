import Growbox.AppClimate
import Growbox.AppSettings
import Growbox.FlcTimes
import Growbox.Lib.Locking

/-!
# The mutexes of the request handlers

Each `app_…` handler with what it locks and unlocks, over the outcomes of what
it calls (`Outcomes`) and the decoders of its body.  A handler that only shows
data returns nothing here, the others their reply, the same as the models of the
handlers without locks have (`takes_lockedSaveCoolersPower` and the like, and the
theorems named `_reply`).  All of them but two take one mutex after the other
(`serve_takes`), and all of them release what they take (`serve_returns`) but one:
`appSetFlcChPwr` keeps `flc_mutex` when it rejects the body, so mutexes are free
between requests exactly as long as no such body comes (`mutexes_free_iff`).
-/

namespace Growbox

open EventRun Locking ShellText

inductive Mutex where
  | flc | settings | appData | appCoolers | i2c | gpio5 | mydb | clSignal | thSignal
  deriving DecidableEq, Repr

/-- What a request finds: results of calls and of reading state. -/
structure Outcomes where
  testMode : Bool
  callocOk : Bool
  localTimeOk : Bool
  dbOpen : Bool
  sqlOk : Nat → Bool
  gpioRes : Int
  sht30WriteOk : Bool
  sht30ReadOk : Bool
  coolerReadOk : Cooler → Bool
  i2cOk : Bool
  clOn : Cooler → Bool
  res0 : Int
  flcRes : Res
  setIpRes : Int
  wifiApRes : Int
  rtcRes : Int

/-! ## The functions they call that lock something -/

/-- One call made under a mutex, which is released on either outcome. -/
def lockedCall (m : Mutex) (ok : Bool) : LockM Mutex Bool := do
  lock m
  if !ok then
    unlock m
    pure false
  else
    unlock m
    pure true

/-- `send_sql` -/
def sendSql (ok : Bool) : LockM Mutex Bool := lockedCall .mydb ok

/-- A query or an update of `mydb`; `n` counts the statements of the request. -/
def dbCall (o : Outcomes) (n : Nat) : LockM Mutex MydbRes :=
  if !o.dbOpen then pure .notOpened
  else do
    let ok ← sendSql (o.sqlOk n)
    pure (if ok then .ok else .err)

/-- `set_coolers_power` -/
def sendCoolersPower (o : Outcomes) : LockM Mutex Bool := lockedCall .i2c o.i2cOk

def getCoolersPower (o : Outcomes) (name : Cooler) : LockM Mutex Bool :=
  lockedCall .i2c (o.coolerReadOk name)

def getWaterSensor (o : Outcomes) : LockM Mutex Bool := lockedCall .gpio5 (o.gpioRes == 0)

def sht30ReadData (o : Outcomes) : LockM Mutex Bool := do
  lock .i2c
  if !o.sht30WriteOk then
    unlock .i2c
    pure false
  else if !o.sht30ReadOk then
    unlock .i2c
    pure false
  else
    unlock .i2c
    pure true

def appClWakeup : LockM Mutex Unit := do
  lock .clSignal
  unlock .clSignal

def appThWakeup : LockM Mutex Unit := do
  lock .thSignal
  unlock .thSignal

/-! ## The handlers -/

def getTempHum : Nat := 1
def getCoolers : Nat := 2
def getLight : Nat := 4
def getWater : Nat := 8

/-- `if(flags & flag)`; `false` when the sensor is not asked for or does not answer. -/
def ifAsked (flags flag : Nat) (p : LockM Mutex Bool) : LockM Mutex Bool :=
  if flags &&& flag ≠ 0 then p else pure false

def appGetSensorsData (o : Outcomes) (flags : Nat) : LockM Mutex Unit := do
  let _ ← ifAsked flags getWater (getWaterSensor o)
  let _ ← ifAsked flags getTempHum (sht30ReadData o)
  let _ ← ifAsked flags getCoolers (getCoolersPower o .input)
  let _ ← ifAsked flags getCoolers (getCoolersPower o .output)
  if flags &&& getLight ≠ 0 then
    lock .flc
    unlock .flc
  else pure ()

def appGetCurrSettings : LockM Mutex Unit := do
  lock .settings
  unlock .settings

def appGetFlcStatus (o : Outcomes) : LockM Mutex Unit :=
  if o.testMode then pure ()
  else do
    lock .flc
    unlock .flc

/-- The mutex is locked before the body is looked at. -/
def appSetFlcChPwr (o : Outcomes) (json : Body) : LockM Mutex Res := do
  lock .flc
  match jsonToFlcChPwr json with
  | .error e => pure ⟨-2, jsontGetErrText e⟩
  | .ok _ =>
    unlock .flc
    pure o.flcRes

/-- A setting for the FLC: a body that cannot be decoded is rejected before the
mutex is locked around the exchange. -/
def setFlc {α : Type} (o : Outcomes) (decoded : Except Jerr α) : LockM Mutex Res :=
  match decoded with
  | .error e => pure ⟨-2, jsontGetErrText e⟩
  | .ok _ => do
    lock .flc
    unlock .flc
    pure o.flcRes

def appSetFlcTime (o : Outcomes) (json : Body) : LockM Mutex Res :=
  if o.testMode then pure ⟨0, okText⟩ else setFlc o (jsonToMyTime json)

def appSetFlcSmooth (o : Outcomes) (json : Body) : LockM Mutex Res :=
  if o.testMode then pure ⟨0, okText⟩ else setFlc o (jsonToFlcSmooth json)

def appSetFlcSmoothValue (o : Outcomes) (json : Body) : LockM Mutex Res :=
  setFlc o (jsonToFlcSmoothValue json)

def lockedGetCoolersState (o : Outcomes) : LockM Mutex Unit :=
  if !o.callocOk then pure ()
  else do
    lock .appCoolers
    unlock .appCoolers

def lockedSaveCoolersPower (o : Outcomes) (json : Body) : LockM Mutex Res :=
  match jsonToCoolersPower json with
  | .error e => pure ⟨-2, jsontGetErrText e⟩
  | .ok p => do
    lock .appCoolers
    unlock .appCoolers
    let r ← dbCall o 0
    if r ≠ .ok then pure ⟨-5, sqliteError⟩
    else if o.clOn p.target.1 then
      let ok ← sendCoolersPower o
      pure (if ok then ⟨o.res0, okText⟩ else ⟨-13, "i2c send error".toList⟩)
    else pure ⟨o.res0, okText⟩

def lockedSetCoolersTime (o : Outcomes) (json : Body) : LockM Mutex Res :=
  match jsonToMyTime json with
  | .error e => pure ⟨-2, jsontGetErrText e⟩
  | .ok _ => do
    lock .appCoolers
    unlock .appCoolers
    let r ← dbCall o 0
    if r ≠ .ok then pure ⟨-3, sqliteError⟩
    else
      appClWakeup
      pure ⟨0, okText⟩

/-- `nm_restart_needed = true`, when the command went well. -/
def restartNetwork (res : Int) : LockM Mutex Unit :=
  if res = 0 then do
    lock .appData
    unlock .appData
  else pure ()

def appSetLan (o : Outcomes) (json : Body) : LockM Mutex Res :=
  match jsonToLanSettings json with
  | .error e => pure ⟨-2, jsontGetErrText e⟩
  | .ok lan => do
    lock .settings
    restartNetwork o.setIpRes
    unlock .settings
    pure ⟨o.setIpRes,
      if o.setIpRes = 0 then okText
      else if lan.dhcp then "set_dynamic_ip failed".toList
      else "set_static_ip failed".toList⟩

def appSetWifiAp (o : Outcomes) : LockM Mutex Res :=
  if o.testMode then pure ⟨0, okText⟩
  else do
    lock .settings
    unlock .settings
    pure ⟨o.wifiApRes, if o.wifiApRes = 0 then okText else "Internal error".toList⟩

def appSetRtc (o : Outcomes) (json : Body) : LockM Mutex Res :=
  match jsonToRtcSettings json with
  | .error e => pure ⟨-2, jsontGetErrText e⟩
  | .ok rtc => do
    lock .settings
    unlock .settings
    pure (
      if rtc.hour ≠ [] ∧ rtc.min ≠ [] ∧ rtc.sec ≠ [] then
        ⟨o.rtcRes, if o.rtcRes = 0 then okText else "Set time failed".toList⟩
      else if rtc.year ≠ [] ∧ rtc.month ≠ [] ∧ rtc.mday ≠ [] then
        ⟨o.rtcRes, if o.rtcRes = 0 then okText else "Set date failed".toList⟩
      else ⟨-5, "Not enough data".toList⟩)

/-- Sets a flag that `request_handler` acts on, if the configuration allows it. -/
def setNeeded : LockM Mutex Res := do
  lock .appData
  unlock .appData
  pure ⟨0, okText⟩

def appReboot : LockM Mutex Res := setNeeded

def appPoweroff : LockM Mutex Res := setNeeded

def appRestoreDflt : LockM Mutex Res := pure ⟨0, okText⟩

def lockedSetThPeriod (o : Outcomes) (json : Body) : LockM Mutex Res :=
  match jsonToThPeriod json with
  | .error e => pure ⟨e.code, jsontGetErrText e⟩
  | .ok newPeriodMin =>
    if thPeriodSec newPeriodMin < 180 then pure ⟨-4, "New period is too small. Min 3 min".toList⟩
    else do
      let r ← dbCall o 0
      if r ≠ .ok then pure ⟨-5, sqliteError⟩
      else
        lock .appData
        unlock .appData
        appThWakeup
        pure ⟨0, okText⟩

def appGetAvailThDates (o : Outcomes) : LockM Mutex MydbRes := dbCall o 0

def appGetThDayData (o : Outcomes) (json : Body) : LockM Mutex (Except Jerr MydbRes) :=
  match jsonToThDate json with
  | .error e => pure (.error e)
  | .ok _ => do
    let r ← dbCall o 0
    pure (.ok r)

/-- The week and the month are not implemented. -/
def appGetThData (o : Outcomes) (flag : ThFlag) : LockM Mutex Unit :=
  if !o.localTimeOk then pure ()
  else
    match flag with
    | .latest => do
      let _ ← dbCall o 0
      let _ ← dbCall o 1
      pure ()
    | .week => pure ()
    | .month => pure ()

inductive AppReq where
  | getSensorsData (flags : Nat)
  | getCurrSettings
  | getFlcStatus
  | setFlcChPwr (json : Body)
  | setFlcTime (json : Body)
  | setFlcSmooth (json : Body)
  | setFlcSmoothValue (json : Body)
  | getCoolersState
  | saveCoolersPower (json : Body)
  | setCoolersTime (json : Body)
  | setLan (json : Body)
  | setWifiAp
  | setRtc (json : Body)
  | reboot
  | poweroff
  | restoreDflt
  | setThPeriod (json : Body)
  | getAvailThDates
  | getThDayData (json : Body)
  | getThData (flag : ThFlag)

def AppReq.serve (o : Outcomes) : AppReq → LockM Mutex Unit
  | .getSensorsData flags => appGetSensorsData o flags
  | .getCurrSettings => appGetCurrSettings
  | .getFlcStatus => appGetFlcStatus o
  | .setFlcChPwr json => ignore (appSetFlcChPwr o json)
  | .setFlcTime json => ignore (appSetFlcTime o json)
  | .setFlcSmooth json => ignore (appSetFlcSmooth o json)
  | .setFlcSmoothValue json => ignore (appSetFlcSmoothValue o json)
  | .getCoolersState => lockedGetCoolersState o
  | .saveCoolersPower json => ignore (lockedSaveCoolersPower o json)
  | .setCoolersTime json => ignore (lockedSetCoolersTime o json)
  | .setLan json => ignore (appSetLan o json)
  | .setWifiAp => ignore (appSetWifiAp o)
  | .setRtc json => ignore (appSetRtc o json)
  | .reboot => ignore appReboot
  | .poweroff => ignore appPoweroff
  | .restoreDflt => ignore appRestoreDflt
  | .setThPeriod json => ignore (lockedSetThPeriod o json)
  | .getAvailThDates => ignore (appGetAvailThDates o)
  | .getThDayData json => ignore (appGetThDayData o json)
  | .getThData flag => appGetThData o flag

/-! ## What they take -/

/-- What `dbCall` returns. -/
def dbRes (o : Outcomes) (n : Nat) : MydbRes :=
  if !o.dbOpen then .notOpened else if o.sqlOk n then .ok else .err

def dbMutexes (o : Outcomes) : List Mutex := if o.dbOpen then [.mydb] else []

def askedMutexes (flags flag : Nat) (m : Mutex) : List Mutex := if flags &&& flag ≠ 0 then [m] else []

def setFlcMutexes {α : Type} (decoded : Except Jerr α) : List Mutex :=
  match decoded with
  | .error _ => []
  | .ok _ => [.flc]

def sensorMutexes (flags : Nat) : List Mutex :=
  askedMutexes flags getWater .gpio5 ++ (askedMutexes flags getTempHum .i2c ++
    (askedMutexes flags getCoolers .i2c ++ (askedMutexes flags getCoolers .i2c ++
      askedMutexes flags getLight .flc)))

def savePowerMutexes (o : Outcomes) (json : Body) : List Mutex :=
  match jsonToCoolersPower json with
  | .error _ => []
  | .ok p => .appCoolers :: (dbMutexes o ++ if dbRes o 0 = .ok ∧ o.clOn p.target.1 then [.i2c] else [])

def setTimeMutexes (o : Outcomes) (json : Body) : List Mutex :=
  match jsonToMyTime json with
  | .error _ => []
  | .ok _ => .appCoolers :: (dbMutexes o ++ if dbRes o 0 = .ok then [.clSignal] else [])

def setThPeriodMutexes (o : Outcomes) (json : Body) : List Mutex :=
  match jsonToThPeriod json with
  | .error _ => []
  | .ok newPeriodMin =>
    if thPeriodSec newPeriodMin < 180 then []
    else dbMutexes o ++ if dbRes o 0 = .ok then [.appData, .thSignal] else []

/-- The mutexes that a request takes one after the other.  `app_set_lan` takes one inside another. -/
def AppReq.mutexes (o : Outcomes) : AppReq → List Mutex
  | .getSensorsData flags => sensorMutexes flags
  | .getCurrSettings => [.settings]
  | .getFlcStatus => if o.testMode then [] else [.flc]
  | .setFlcChPwr _ => [.flc]
  | .setFlcTime json => if o.testMode then [] else setFlcMutexes (jsonToMyTime json)
  | .setFlcSmooth json => if o.testMode then [] else setFlcMutexes (jsonToFlcSmooth json)
  | .setFlcSmoothValue json => setFlcMutexes (jsonToFlcSmoothValue json)
  | .getCoolersState => if o.callocOk then [.appCoolers] else []
  | .saveCoolersPower json => savePowerMutexes o json
  | .setCoolersTime json => setTimeMutexes o json
  | .setLan _ => []
  | .setWifiAp => if o.testMode then [] else [.settings]
  | .setRtc json => if (jsonToRtcSettings json).isOk then [.settings] else []
  | .reboot | .poweroff => [.appData]
  | .restoreDflt => []
  | .setThPeriod json => setThPeriodMutexes o json
  | .getAvailThDates => dbMutexes o
  | .getThDayData json => if (jsonToThDate json).isOk then dbMutexes o else []
  | .getThData flag => if o.localTimeOk ∧ flag = .latest then dbMutexes o ++ dbMutexes o else []

section
variable (o : Outcomes)

theorem length_dbMutexes_le : (dbMutexes o).length ≤ 1 := by
  unfold dbMutexes
  split <;> simp

theorem length_setFlcMutexes_le {α : Type} (decoded : Except Jerr α) : (setFlcMutexes decoded).length ≤ 1 := by
  cases decoded <;> simp [setFlcMutexes]

theorem length_sensorMutexes_le (flags : Nat) : (sensorMutexes flags).length ≤ 5 := by
  have hasked (flag : Nat) (m : Mutex) : (askedMutexes flags flag m).length ≤ 1 := by
    unfold askedMutexes
    split <;> simp
  have h1 := hasked getWater .gpio5
  have h2 := hasked getTempHum .i2c
  have h3 := hasked getCoolers .i2c
  have h4 := hasked getLight .flc
  simp only [sensorMutexes, List.length_append]
  omega

theorem length_savePowerMutexes_le (json : Body) : (savePowerMutexes o json).length ≤ 3 := by
  have hdb := length_dbMutexes_le o
  unfold savePowerMutexes
  split
  · simp
  · simp only [List.length_cons, List.length_append]
    split <;> simp only [List.length_cons, List.length_nil] <;> omega

theorem length_setTimeMutexes_le (json : Body) : (setTimeMutexes o json).length ≤ 3 := by
  have hdb := length_dbMutexes_le o
  unfold setTimeMutexes
  split
  · simp
  · simp only [List.length_cons, List.length_append]
    split <;> simp only [List.length_cons, List.length_nil] <;> omega

theorem length_setThPeriodMutexes_le (json : Body) : (setThPeriodMutexes o json).length ≤ 3 := by
  have hdb := length_dbMutexes_le o
  unfold setThPeriodMutexes
  split
  · simp
  · split
    · simp
    · simp only [List.length_append]
      split <;> simp only [List.length_cons, List.length_nil] <;> omega

/-- No handler takes more than five mutexes one after the other. -/
theorem length_mutexes_le (r : AppReq) : (r.mutexes o).length ≤ 5 := by
  have hdb := length_dbMutexes_le o
  have hite {c : Prop} [Decidable c] {ms : List Mutex} (h : ms.length ≤ 5) :
      (if c then ms else []).length ≤ 5 := by
    split
    · exact h
    · simp
  cases r with
  | getSensorsData flags => exact length_sensorMutexes_le flags
  | saveCoolersPower json => exact (length_savePowerMutexes_le o json).trans (by omega)
  | setCoolersTime json => exact (length_setTimeMutexes_le o json).trans (by omega)
  | setThPeriod json => exact (length_setThPeriodMutexes_le o json).trans (by omega)
  | setFlcTime json | setFlcSmooth json =>
    simp only [AppReq.mutexes]
    split
    · simp
    · exact (length_setFlcMutexes_le _).trans (by omega)
  | setFlcSmoothValue json => exact (length_setFlcMutexes_le _).trans (by omega)
  | getAvailThDates => exact hdb.trans (by omega)
  | getThDayData json => exact hite (hdb.trans (by omega))
  | getThData flag => exact hite (by rw [List.length_append]; omega)
  | getFlcStatus | getCoolersState | setWifiAp | setRtc => simp only [AppReq.mutexes]; split <;> simp
  | getCurrSettings | setFlcChPwr | setLan | reboot | poweroff | restoreDflt => simp [AppReq.mutexes]

end

theorem takes_lockedCall (m : Mutex) (ok : Bool) : Takes [m] ok (lockedCall m ok) := by
  cases ok <;> exact takes_section m (takes_pure _)

theorem takes_sht30ReadData (o : Outcomes) :
    Takes [.i2c] (o.sht30WriteOk && o.sht30ReadOk) (sht30ReadData o) := by
  unfold sht30ReadData
  cases o.sht30WriteOk <;> cases o.sht30ReadOk <;> exact takes_section _ (takes_pure _)

theorem takes_dbCall (o : Outcomes) (n : Nat) : Takes (dbMutexes o) (dbRes o n) (dbCall o n) := by
  unfold dbCall dbRes dbMutexes
  cases o.dbOpen with
  | false => exact takes_pure _
  | true => exact takes_bind (takes_lockedCall .mydb (o.sqlOk n)) (takes_pure _)

theorem takes_setFlc {α : Type} (o : Outcomes) (decoded : Except Jerr α) :
    ∃ res, Takes (setFlcMutexes decoded) res (setFlc o decoded) := by
  cases decoded with
  | error e => exact ⟨_, takes_pure _⟩
  | ok a => exact ⟨_, takes_section _ (takes_pure _)⟩

theorem takes_ifAsked {flags flag : Nat} {m : Mutex} {ok : Bool} {p : LockM Mutex Bool} (hp : Takes [m] ok p) :
    Takes (askedMutexes flags flag m) (decide (flags &&& flag ≠ 0) && ok) (ifAsked flags flag p) := by
  unfold ifAsked askedMutexes
  by_cases h : flags &&& flag ≠ 0
  · simpa [h] using hp
  · simpa [h] using takes_pure false

theorem takes_appGetSensorsData (o : Outcomes) (flags : Nat) :
    Takes (sensorMutexes flags) () (appGetSensorsData o flags) := by
  refine takes_bind (takes_ifAsked (takes_lockedCall _ _)) ?_
  refine takes_bind (takes_ifAsked (takes_sht30ReadData o)) ?_
  refine takes_bind (takes_ifAsked (takes_lockedCall _ _)) (takes_bind (takes_ifAsked (takes_lockedCall _ _)) ?_)
  unfold askedMutexes
  split
  · exact takes_section _ (takes_pure ())
  · exact takes_pure ()

/-- The outcomes are those that the handler's calls have on the server. -/
structure Outcomes.Finds (o : Outcomes) (dbOk : Bool) (srv : Server) : Prop where
  update : ∀ sets, (srv.db.update dbOk sets).1 = dbRes o 0
  clOn : ∀ c, o.clOn c = srv.app.clOn c

theorem saveCoolerPower_reply (dbOk i2cOk : Bool) (res0 : Int) (c : Cooler) (power : UInt8) (srv : Server) :
    (saveCoolerPower dbOk i2cOk res0 c power srv).1 =
      if (srv.db.saveClPower dbOk c power).1 ≠ .ok then ⟨-5, sqliteError⟩
      else if srv.app.clOn c then
        if i2cOk then ⟨res0, okText⟩ else ⟨-13, "i2c send error".toList⟩
      else ⟨res0, okText⟩ := by
  unfold saveCoolerPower
  rcases hu : srv.db.saveClPower dbOk c power with ⟨r, db⟩
  cases r with
  | ok =>
    simp only [hu, AppData.clOn_setClPower, setCoolersPower_fst, ne_eq, not_true_eq_false, if_false]
    split <;> rfl
  | err | notOpened => simp [hu]

theorem takes_lockedSaveCoolersPower (o : Outcomes) (json : Body) :
    ∃ res, Takes (savePowerMutexes o json) res (lockedSaveCoolersPower o json) ∧
      ∀ dbOk srv, o.Finds dbOk srv → (appSaveCoolersPower dbOk o.i2cOk o.res0 json srv).1 = res := by
  unfold savePowerMutexes lockedSaveCoolersPower appSaveCoolersPower
  cases jsonToCoolersPower json with
  | error e => exact ⟨_, takes_pure _, fun _ _ _ => rfl⟩
  | ok p =>
    by_cases hdb : dbRes o 0 = .ok
    · by_cases hon : o.clOn p.target.1 = true
      · refine ⟨if o.i2cOk then ⟨o.res0, okText⟩ else ⟨-13, "i2c send error".toList⟩, ?_, fun dbOk srv h => ?_⟩
        · refine takes_section _ (takes_bind (takes_dbCall o 0) ?_)
          rw [if_pos ⟨hdb, hon⟩, if_neg (not_not_intro hdb), if_pos hon]
          exact takes_bind (takes_lockedCall .i2c _) (takes_pure _)
        · rw [saveCoolerPower_reply, Mydb.saveClPower, h.update, if_neg (not_not_intro hdb),
            if_pos (h.clOn _ ▸ hon)]
      · refine ⟨⟨o.res0, okText⟩, ?_, fun dbOk srv h => ?_⟩
        · refine takes_section _ (takes_bind (takes_dbCall o 0) ?_)
          rw [if_neg (fun h => hon h.2), if_neg (not_not_intro hdb), if_neg hon]
          exact takes_pure _
        · rw [saveCoolerPower_reply, Mydb.saveClPower, h.update, if_neg (not_not_intro hdb),
            if_neg (h.clOn _ ▸ hon)]
    · refine ⟨⟨-5, sqliteError⟩, ?_, fun dbOk srv h => ?_⟩
      · refine takes_section _ (takes_bind (takes_dbCall o 0) ?_)
        rw [if_neg (fun h => hdb h.1), if_pos hdb]
        exact takes_pure _
      · rw [saveCoolerPower_reply, Mydb.saveClPower, h.update, if_pos hdb]

theorem saveNewCoolersTime_fst (dbOk : Bool) (dest dbRawName : CoolersRaw) (newTime : MyTime) (srv : Server) :
    (saveNewCoolersTime dbOk dest dbRawName newTime srv).1 = (srv.db.setClTime dbOk dbRawName newTime).1 := rfl

theorem appSetCoolersTime_reply {dbOk : Bool} {json : Body} {tm : MyTime} (hjson : jsonToMyTime json = .ok tm)
    (flag : ClFlag) (srv : Server) :
    (appSetCoolersTime dbOk json flag srv).1 =
      if (srv.db.setClTime dbOk flag.dest.2 tm).1 = .ok then ⟨0, okText⟩ else ⟨-3, sqliteError⟩ := by
  rw [← saveNewCoolersTime_fst dbOk flag.dest.1]
  unfold appSetCoolersTime
  rw [hjson]
  dsimp only
  rcases saveNewCoolersTime dbOk flag.dest.1 flag.dest.2 tm srv with ⟨_ | _ | _, _⟩ <;> rfl

theorem takes_lockedSetCoolersTime (o : Outcomes) (json : Body) :
    ∃ res, Takes (setTimeMutexes o json) res (lockedSetCoolersTime o json) ∧
      ∀ dbOk flag srv, o.Finds dbOk srv → (appSetCoolersTime dbOk json flag srv).1 = res := by
  unfold setTimeMutexes lockedSetCoolersTime
  cases hjson : jsonToMyTime json with
  | error e =>
    refine ⟨_, takes_pure _, fun dbOk flag srv _ => ?_⟩
    rw [appSetCoolersTime, hjson]
  | ok tm =>
    by_cases hdb : dbRes o 0 = .ok
    · refine ⟨⟨0, okText⟩, ?_, fun dbOk flag srv h => ?_⟩
      · refine takes_section _ (takes_bind (takes_dbCall o 0) ?_)
        rw [if_pos hdb, if_neg (not_not_intro hdb)]
        exact takes_map (takes_lock_unlock Mutex.clSignal) fun _ => _
      · rw [appSetCoolersTime_reply hjson, Mydb.setClTime, h.update, if_pos hdb]
    · refine ⟨⟨-3, sqliteError⟩, ?_, fun dbOk flag srv h => ?_⟩
      · refine takes_section _ (takes_bind (takes_dbCall o 0) ?_)
        rw [if_neg hdb, if_pos hdb]
        exact takes_pure _
      · rw [appSetCoolersTime_reply hjson, Mydb.setClTime, h.update, if_neg hdb]

theorem appSetThPeriod_reply {dbOk : Bool} {json : Body} {newPeriodMin : Int32}
    (hjson : jsonToThPeriod json = .ok newPeriodMin) (srv : Server) :
    (appSetThPeriod dbOk json srv).1 =
      if thPeriodSec newPeriodMin < 180 then ⟨-4, "New period is too small. Min 3 min".toList⟩
      else if (srv.db.setThPeriod dbOk (thPeriodSec newPeriodMin)).1 = .ok then ⟨0, okText⟩
      else ⟨-5, sqliteError⟩ := by
  unfold appSetThPeriod
  rw [hjson]
  dsimp only
  split
  · rfl
  · rcases srv.db.setThPeriod dbOk (thPeriodSec newPeriodMin) with ⟨_ | _ | _, _⟩ <;> rfl

theorem takes_lockedSetThPeriod (o : Outcomes) (json : Body) :
    ∃ res, Takes (setThPeriodMutexes o json) res (lockedSetThPeriod o json) ∧
      ∀ dbOk srv, o.Finds dbOk srv → (appSetThPeriod dbOk json srv).1 = res := by
  unfold setThPeriodMutexes lockedSetThPeriod
  cases hjson : jsonToThPeriod json with
  | error e =>
    refine ⟨_, takes_pure _, fun dbOk srv _ => ?_⟩
    rw [appSetThPeriod, hjson]
  | ok newPeriodMin =>
    by_cases hsmall : thPeriodSec newPeriodMin < 180
    · refine ⟨_, ?_, fun dbOk srv h => by rw [appSetThPeriod_reply hjson, if_pos hsmall]⟩
      simp only [if_pos hsmall]
      exact takes_pure _
    · simp only [if_neg hsmall]
      by_cases hdb : dbRes o 0 = .ok
      · refine ⟨⟨0, okText⟩, takes_bind (takes_dbCall o 0) ?_, fun dbOk srv h => ?_⟩
        · rw [if_pos hdb, if_neg (not_not_intro hdb)]
          exact takes_section _ (takes_map (takes_lock_unlock Mutex.thSignal) fun _ => _)
        · rw [appSetThPeriod_reply hjson, if_neg hsmall, Mydb.setThPeriod, h.update, if_pos hdb]
      · refine ⟨⟨-5, sqliteError⟩, takes_bind (takes_dbCall o 0) ?_, fun dbOk srv h => ?_⟩
        · rw [if_neg hdb, if_pos hdb]
          exact takes_pure _
        · rw [appSetThPeriod_reply hjson, if_neg hsmall, Mydb.setThPeriod, h.update, if_neg hdb]

/-- The one nested lock: `app_data_mutex` inside `settings_mutex`. -/
theorem moves_restartNetwork (res : Int) : Moves [.settings] [.settings] (restartNetwork res) :=
  moves_ite (fun _ => moves_lock_unlock (by decide)) fun _ => moves_pure ()

theorem moves_appSetLan (o : Outcomes) (json : Body) : Moves [] [] (appSetLan o json) := by
  unfold appSetLan
  cases jsonToLanSettings json with
  | error e => exact moves_pure _
  | ok lan =>
    exact moves_bind (moves_lock List.not_mem_nil) fun _ => moves_bind (moves_restartNetwork _) fun _ =>
      moves_bind (moves_unlock List.not_mem_nil) fun _ => moves_pure _

theorem takes_appSetRtc (o : Outcomes) (json : Body) :
    ∃ res, Takes (if (jsonToRtcSettings json).isOk then [Mutex.settings] else []) res (appSetRtc o json) := by
  unfold appSetRtc
  cases jsonToRtcSettings json with
  | error e => exact ⟨_, takes_pure _⟩
  | ok rtc => exact ⟨_, takes_section _ (takes_pure _)⟩

/-- In test mode such a handler answers at once. -/
theorem takes_unlessTest (o : Outcomes) {ms : List Mutex} {res : Res} {p : LockM Mutex Res} (hp : Takes ms res p) :
    ∃ res, Takes (if o.testMode then [] else ms) res (if o.testMode then pure ⟨0, okText⟩ else p) := by
  cases o.testMode with
  | true => exact ⟨_, takes_pure _⟩
  | false => exact ⟨_, hp⟩

theorem takes_appGetThDayData (o : Outcomes) (json : Body) :
    Takes (if (jsonToThDate json).isOk then dbMutexes o else []) ((jsonToThDate json).map fun _ => dbRes o 0)
      (appGetThDayData o json) := by
  unfold appGetThDayData
  cases jsonToThDate json with
  | error e => exact takes_pure _
  | ok d => exact takes_map (takes_dbCall o 0) Except.ok

theorem takes_appGetThData (o : Outcomes) (flag : ThFlag) :
    Takes (if o.localTimeOk ∧ flag = .latest then dbMutexes o ++ dbMutexes o else []) () (appGetThData o flag) := by
  unfold appGetThData
  cases o.localTimeOk with
  | false => exact takes_pure ()
  | true =>
    cases flag with
    | latest => exact takes_bind (takes_dbCall o 0) (takes_map (takes_dbCall o 1) fun _ => ())
    | week | month => exact takes_pure ()

/-- The body of a channel power request that the parser rejects: `flc_mutex` stays locked. -/
theorem moves_appSetFlcChPwr_rejected (o : Outcomes) :
    Moves [] [.flc] (appSetFlcChPwr o none) :=
  moves_bind (moves_lock List.not_mem_nil) fun _ => moves_pure _

theorem takes_appSetFlcChPwr (o : Outcomes) (root : CJson) :
    Takes [.flc] o.flcRes (appSetFlcChPwr o (some root)) := takes_section _ (takes_pure _)

/-- The request whose handler returns too early. -/
def AppReq.KeepsFlc (r : AppReq) : Prop := r = .setFlcChPwr none

/-- **The handlers that hold one mutex at a time**, and take these. -/
theorem serve_takes (o : Outcomes) (r : AppReq) (hflc : ¬ r.KeepsFlc) (hlan : ∀ json, r ≠ .setLan json) :
    Takes (r.mutexes o) () (r.serve o) := by
  cases r with
  | getSensorsData flags => exact takes_appGetSensorsData o flags
  | getCurrSettings => exact takes_lock_unlock _
  | getFlcStatus =>
    unfold AppReq.mutexes AppReq.serve appGetFlcStatus
    cases o.testMode with
    | true => exact takes_pure ()
    | false => exact takes_lock_unlock _
  | setFlcChPwr json =>
    cases json with
    | none => exact absurd rfl hflc
    | some root => exact takes_ignore (takes_appSetFlcChPwr o root)
  | setFlcTime json | setFlcSmooth json =>
    obtain ⟨_, h⟩ := takes_setFlc o _
    obtain ⟨_, h⟩ := takes_unlessTest o h
    exact takes_ignore h
  | setFlcSmoothValue json =>
    obtain ⟨_, h⟩ := takes_setFlc o (jsonToFlcSmoothValue json)
    exact takes_ignore h
  | getCoolersState =>
    unfold AppReq.mutexes AppReq.serve lockedGetCoolersState
    cases o.callocOk with
    | true => exact takes_lock_unlock _
    | false => exact takes_pure ()
  | saveCoolersPower json =>
    obtain ⟨_, h, -⟩ := takes_lockedSaveCoolersPower o json
    exact takes_ignore h
  | setCoolersTime json =>
    obtain ⟨_, h, -⟩ := takes_lockedSetCoolersTime o json
    exact takes_ignore h
  | setLan json => exact absurd rfl (hlan json)
  | setWifiAp =>
    obtain ⟨_, h⟩ := takes_unlessTest o (takes_section _ (takes_pure _))
    exact takes_ignore h
  | setRtc json =>
    obtain ⟨_, h⟩ := takes_appSetRtc o json
    exact takes_ignore h
  | reboot | poweroff => exact takes_ignore (takes_section _ (takes_pure _))
  | restoreDflt => exact takes_ignore (takes_pure _)
  | setThPeriod json =>
    obtain ⟨_, h, -⟩ := takes_lockedSetThPeriod o json
    exact takes_ignore h
  | getAvailThDates => exact takes_ignore (takes_dbCall o 0)
  | getThDayData json => exact takes_ignore (takes_appGetThDayData o json)
  | getThData flag => exact takes_appGetThData o flag

/-- **Every handler but one returns with all mutexes free**, whatever its calls do. -/
theorem serve_returns (o : Outcomes) (r : AppReq) (hr : ¬ r.KeepsFlc) : Moves [] [] (r.serve o) := by
  by_cases hlan : ∃ json, r = .setLan json
  · obtain ⟨json, rfl⟩ := hlan
    exact moves_bind (moves_appSetLan o json) fun _ => moves_pure ()
  · exact (serve_takes o r hr fun json h => hlan ⟨json, h⟩).moves fun _ _ => List.not_mem_nil

/-! ## The same replies -/

section
variable (o : Outcomes) (first second : LineTry) (json : Body)

/-- `flcRes` is the result of the exchange with the lamp. -/
theorem appSetFlcChPwr_reply
    (hres : ∀ p, jsonToFlcChPwr json = .ok p → o.flcRes = (flcSetChpwr first second p).1) :
    Returns [] (Reply.appSetFlcChPwr first second json).1 (appSetFlcChPwr o json) := by
  refine returns_bind (moves_lock List.not_mem_nil) fun _ => ?_
  unfold Reply.appSetFlcChPwr
  cases hjson : jsonToFlcChPwr json with
  | error e => exact returns_pure _
  | ok p =>
    rw [← hres p hjson]
    exact returns_bind (moves_unlock List.not_mem_nil) fun _ => returns_pure _

theorem appSetFlcSmoothValue_reply
    (hres : ∀ v, jsonToFlcSmoothValue json = .ok v → o.flcRes = (flcSetSmoothValue first second v).1) :
    Returns [] (Reply.appSetFlcSmoothValue first second json).1 (appSetFlcSmoothValue o json) := by
  unfold Reply.appSetFlcSmoothValue appSetFlcSmoothValue
  cases hjson : jsonToFlcSmoothValue json with
  | error e => exact returns_pure _
  | ok v =>
    rw [← hres v hjson]
    exact returns_bind (moves_lock List.not_mem_nil) fun _ =>
      returns_bind (moves_unlock List.not_mem_nil) fun _ => returns_pure _

/-- Where no mutex is taken, the lamp is not asked. -/
theorem appGetFlcStatus_reply :
    Takes (AppReq.mutexes o .getFlcStatus) () (appGetFlcStatus o) ∧
      (AppReq.mutexes o .getFlcStatus = [] →
        ∀ first second, Reply.appGetFlcStatus o.testMode first second = .status createTestFlcStatus) := by
  refine ⟨serve_takes o .getFlcStatus (by simp [AppReq.KeepsFlc]) (by simp), fun h => ?_⟩
  unfold AppReq.mutexes at h
  cases htest : o.testMode with
  | true => exact fun _ _ => rfl
  | false => simp [htest] at h

theorem lanReply_res (nmRestartNeeded : Bool) (failed : String) (r : Int × List Marked) :
    (lanReply nmRestartNeeded failed r).res = ⟨r.1, if r.1 = 0 then okText else failed.toList⟩ := by
  unfold lanReply
  by_cases h : r.1 = 0
  · rw [if_neg (not_not_intro h), if_pos h]
    rfl
  · rw [if_pos h, if_neg h]

/-- `setIpRes` is the result of the command. -/
theorem appSetLan_reply (host : Host) (nmRestartNeeded : Bool)
    (hres : ∀ lan, jsonToLanSettings json = .ok lan → o.setIpRes =
      if lan.dhcp then (setDynamicIp host.sys host.connName).1
      else (setStaticIp host.sys host.connName (dotted lan.ip4 lan.ip3 lan.ip2 lan.ip1)
        (dotted lan.gw4 lan.gw3 lan.gw2 lan.gw1)).1) :
    Returns [] (Reply.appSetLan host nmRestartNeeded json).res (appSetLan o json) := by
  unfold Reply.appSetLan appSetLan
  cases hjson : jsonToLanSettings json with
  | error e => exact returns_pure _
  | ok lan =>
    refine returns_bind (moves_lock List.not_mem_nil) fun _ => returns_bind (moves_restartNetwork _) fun _ =>
      returns_bind (moves_unlock List.not_mem_nil) fun _ => ?_
    rw [hres lan hjson]
    dsimp only
    cases lan.dhcp with
    | true =>
      simp only [if_true, lanReply_res]
      exact returns_pure _
    | false =>
      simp only [Bool.false_eq_true, if_false, lanReply_res]
      exact returns_pure _

theorem rtcReply_fst (failed : String) (r : Int × List Marked) :
    (rtcReply failed r).1 = ⟨r.1, if r.1 = 0 then okText else failed.toList⟩ := by
  unfold rtcReply
  by_cases h : r.1 = 0
  · rw [if_neg (not_not_intro h), if_pos h]
    rfl
  · rw [if_pos h, if_neg h]

/-- `rtcRes` is the result of the command, if there is one. -/
theorem appSetRtc_reply (host : Host)
    (hres : ∀ rtc, jsonToRtcSettings json = .ok rtc → o.rtcRes =
      if rtc.hour ≠ [] ∧ rtc.min ≠ [] ∧ rtc.sec ≠ [] then (setRtcTime host.sys rtc.hour rtc.min rtc.sec).1
      else (setRtcDate host.sys host.now rtc.mday rtc.month rtc.year).1) :
    Returns [] (Reply.appSetRtc host json).1 (appSetRtc o json) := by
  unfold Reply.appSetRtc appSetRtc
  cases hjson : jsonToRtcSettings json with
  | error e => exact returns_pure _
  | ok rtc =>
    refine returns_bind (moves_lock List.not_mem_nil) fun _ =>
      returns_bind (moves_unlock List.not_mem_nil) fun _ => ?_
    rw [hres rtc hjson]
    dsimp only
    by_cases htime : rtc.hour ≠ [] ∧ rtc.min ≠ [] ∧ rtc.sec ≠ []
    · simp only [if_pos htime, rtcReply_fst]
      exact returns_pure _
    · by_cases hdate : rtc.year ≠ [] ∧ rtc.month ≠ [] ∧ rtc.mday ≠ []
      · simp only [if_neg htime, if_pos hdate, rtcReply_fst]
        exact returns_pure _
      · simp only [if_neg htime, if_neg hdate]
        exact returns_pure _

variable {F : Type} (fl : FloatFmt F) (q : Query) (callocOk : Bool) (db : ThDb F)

/-- The result of the climate page's dates, by what the statement returned. -/
theorem appGetAvailThDates_reply (hres : (db.getThDates q).1 = dbRes o 0) :
    ∃ ret, Takes (dbMutexes o) ret (appGetAvailThDates o) ∧
      (Reply.appGetAvailThDates q callocOk db).1.res =
        if callocOk then ⟨if ret = .ok then 0 else -1, okText⟩ else ⟨-2, memoryText⟩ := by
  refine ⟨_, takes_dbCall o 0, ?_⟩
  rw [← hres]
  unfold Reply.appGetAvailThDates
  dsimp only
  cases callocOk with
  | true =>
    simp only [if_true]
    split <;> rfl
  | false => simp only [Bool.false_eq_true, if_false]

/-- The result of a day's records, by the body and what the statement returned. -/
def dayRes (callocOk : Bool) : Except Jerr MydbRes → Res
  | .error e => ⟨e.code, jsontGetErrText e⟩
  | .ok ret =>
    if ret = .ok then
      if callocOk then ⟨0, okText⟩ else ⟨-2, memoryText⟩
    else ⟨-1, dbRequestText⟩

theorem copyRecords_res (pollPeriod : Int32) (r : MydbRes × ThDb F) :
    (copyRecords callocOk pollPeriod r).1.res = dayRes callocOk (.ok r.1) := by
  unfold copyRecords dayRes
  dsimp only
  split
  · split <;> rfl
  · rfl

theorem appGetThDayData_reply
    (hres : ∀ req, jsonToThDate json = .ok req →
      (db.getThVal fl q (reqDate req) dayStart dayEnd).1 = dbRes o 0) :
    ∃ ret, Takes (AppReq.mutexes o (.getThDayData json)) ret (appGetThDayData o json) ∧
      (Reply.appGetThDayData fl q callocOk json db).1.res = dayRes callocOk ret := by
  refine ⟨_, takes_appGetThDayData o json, ?_⟩
  unfold Reply.appGetThDayData
  cases hjson : jsonToThDate json with
  | error e => rfl
  | ok req => exact (copyRecords_res callocOk _ _).trans (by rw [hres req hjson]; rfl)

/-- The latest records are answered as those of a day. -/
theorem appGetThData_reply (ct : Option LocalTime) (period : Option UInt64) (flag : ThFlag)
    (hct : ct.isSome = o.localTimeOk)
    (hres : ∀ date start stop, (db.getThVal fl q date start stop).1 = dbRes o 0) :
    Takes (AppReq.mutexes o (.getThData flag)) () (appGetThData o flag) ∧
      (Reply.appGetThData fl ct q period callocOk flag db).1.res =
        if o.localTimeOk = false then ⟨-1, "get_local_time failed".toList⟩
        else if flag = .latest then dayRes callocOk (.ok (dbRes o 0))
        else ⟨0, okText⟩ := by
  refine ⟨takes_appGetThData o flag, ?_⟩
  rw [← hct]
  cases ct with
  | none => rfl
  | some ct =>
    cases flag with
    | latest => exact (copyRecords_res callocOk _ _).trans (by rw [hres]; rfl)
    | week | month => rfl

end

/-! ## Sequences of requests -/

/-- One request; `none` when its handler blocks. -/
def reqStep (held : Mutex → Bool) (ev : Outcomes × AppReq) : Option (Mutex → Bool) :=
  (ev.2.serve ev.1 held).map Prod.snd

/-- The request finds every mutex free, is answered, and leaves every mutex free. -/
def ReturnsFree (held : Mutex → Bool) (ev : Outcomes × AppReq) : Prop :=
  (∀ m, held m = false) ∧ ∃ held', reqStep held ev = some held' ∧ ∀ m, held' m = false

theorem reqStep_of_moves {L L' : List Mutex} {o : Outcomes} {r : AppReq}
    (h : Moves L L' (r.serve o)) : reqStep (holding L) (o, r) = some (holding L') := by
  obtain ⟨a, ha⟩ := h
  show ((r.serve o) (holding L)).map Prod.snd = _
  rw [ha]
  rfl

theorem returnsFree_iff (ev : Outcomes × AppReq) :
    ReturnsFree (holding []) ev ↔ ¬ ev.2.KeepsFlc := by
  obtain ⟨o, r⟩ := ev
  constructor
  · rintro ⟨-, held', hstep, hfree⟩ rfl
    rw [reqStep_of_moves (moves_ignore (moves_appSetFlcChPwr_rejected o)), Option.some.injEq] at hstep
    have := hfree .flc
    rw [← hstep] at this
    exact absurd this (by decide)
  · intro h
    exact ⟨fun _ => rfl, _, reqStep_of_moves (serve_returns o r h), fun _ => rfl⟩

/-- **Mutexes are free between requests**, and no request blocks, exactly as long
as no channel power request has a body that cannot be parsed. -/
theorem mutexes_free_iff (es : List (Outcomes × AppReq)) :
    Along reqStep ReturnsFree (holding []) es ↔ ∀ ev ∈ es, ¬ ev.2.KeepsFlc := by
  induction es with
  | nil => simp
  | cons ev es ih =>
    rw [List.forall_mem_cons, ← ih, ← returnsFree_iff]
    refine and_congr_right fun hr => ?_
    -- a request that is answered leaves the mutexes as it found them
    have hstep := reqStep_of_moves (serve_returns ev.1 ev.2 ((returnsFree_iff ev).mp hr))
    simp [hstep]

/-- All calls succeed, out of test mode. -/
def quietOutcomes : Outcomes where
  testMode := false
  callocOk := true
  localTimeOk := true
  dbOpen := true
  sqlOk := fun _ => true
  gpioRes := 0
  sht30WriteOk := true
  sht30ReadOk := true
  coolerReadOk := fun _ => true
  i2cOk := true
  clOn := fun _ => false
  res0 := 0
  flcRes := ⟨0, okText⟩
  setIpRes := 0
  wifiApRes := 0
  rtcRes := 0

/-- After a channel power request that is not JSON, the next request to the lamp
finds `flc_mutex` locked, and blocks. -/
theorem rejected_body_keeps_flc :
    ¬ Along reqStep ReturnsFree (holding [])
        [(quietOutcomes, .setFlcChPwr none), (quietOutcomes, .getFlcStatus)] ∧
      run reqStep (holding [])
        [(quietOutcomes, .setFlcChPwr none), (quietOutcomes, .getFlcStatus)] = none := by
  refine ⟨fun h => ?_, rfl⟩
  obtain ⟨-, held', hstep, hfree⟩ := h.1
  cases hstep
  exact absurd (hfree .flc) (by decide)

end Growbox
