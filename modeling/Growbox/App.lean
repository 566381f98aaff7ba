import Growbox.Mydb

/-!
# `app.cpp`: start-up and the three handlers that save settings

A handler takes the outcome of its database update (`dbOk`) and of its transfer
to the controller (`i2cOk`), the parsed body and the server, and returns its
reply and the server after it.  `appSetCoolersTime` and `appSaveCoolersPower`
write `app_data` before the database, `appSetThPeriod` after it; so a failed
update leaves the first two half done unless the value was already there
(`failsClean_iff`).
-/

namespace Growbox

/-- `flag` of `app_set_coolers_time`: `CL_START_IN` … `CL_WP_OUT`. -/
inductive ClFlag where
  | startIn | stopIn | wpIn | startOut | stopOut | wpOut
  deriving DecidableEq, Repr

/-- `flag` of `app_get_th_data`: `TH_LATEST`, `TH_WEEK`, `TH_MONTH`. -/
inductive ThFlag where
  | latest | week | month
  deriving DecidableEq, Repr

/-- The process: `app_data`, the database, the controller it drives, and the
wake-up flags of the two workers. -/
structure Server where
  app : AppData
  db : Mydb
  regs : CtrlRegs
  clSignal : Bool
  thSignal : Bool

def zeroCwt : CoolersWorkTime := ⟨zeroTime, zeroTime, zeroTime, zeroTime, zeroTime, zeroTime⟩

/-- Outcomes of the database operations of `app_init`, in their order. -/
structure StartOutcomes where
  openOk : Bool
  createOk : Bool
  timeOk : Bool
  powerOk : Cooler → Bool

def StartOutcomes.allOk : StartOutcomes := ⟨true, true, true, fun _ => true⟩

/-- `app_init`: the schedule and the powers come from the database, and stay zero
when they cannot be read; both on-flags start cleared.  `false` stands for the -1
after a database that could not be opened: `main` leaves only for a positive
result, so it goes on with that server, all settings zero. -/
def appInit (realText : CStr → CStr) (out : StartOutcomes) (conf : AppConfig) (file : Mydb)
    (regs : CtrlRegs) : Bool × Server :=
  let app : AppData :=
    { conf, cwt := zeroCwt, clInPower := 0, clOutPower := 0, clInOn := false, clOutOn := false }
  match Mydb.init out.openOk out.createOk { file with fd := false } with
  | (.ok, db) =>
    (true, {
      app := { app with
        cwt := (db.getClTime realText out.timeOk zeroCwt).2
        clInPower := (db.getClPower realText (out.powerOk .input) .input 0).2
        clOutPower := (db.getClPower realText (out.powerOk .output) .output 0).2 }
      db, regs
      clSignal := false
      thSignal := false })
  | (_, db) => (false, { app, db, regs, clSignal := false, thSignal := false })

def okText : CStr := "OK".toList

def sqliteError : CStr := "sqlite error".toList

/-! ## `app_set_coolers_time` -/

/-- Memory first, then the database. -/
def saveNewCoolersTime (dbOk : Bool) (dest dbRawName : CoolersRaw) (newTime : MyTime)
    (srv : Server) : MydbRes × Server :=
  let app := srv.app.setTime dest newTime
  let r := srv.db.setClTime dbOk dbRawName newTime
  (r.1, { srv with app, db := r.2 })

/-- The field of `cwt` and the database name each flag is paired with. -/
def ClFlag.dest : ClFlag → CoolersRaw × CoolersRaw
  | .startIn => (.startInTime, .startInTime)
  | .stopIn => (.stopInTime, .stopInTime)
  | .wpIn => (.wpInTime, .wpInTime)
  | .startOut => (.startOutTime, .startOutTime)
  | .stopOut => (.stopOutTime, .stopOutTime)
  | .wpOut => (.wpOutTime, .wpOutTime)

def appSetCoolersTime (dbOk : Bool) (json : Body) (flag : ClFlag) (srv : Server) : Res × Server :=
  match jsonToMyTime json with
  | .error e => (⟨-2, jsontGetErrText e⟩, srv)
  | .ok tm =>
    match saveNewCoolersTime dbOk flag.dest.1 flag.dest.2 tm srv with
    | (.ok, srv) => (⟨0, okText⟩, { srv with clSignal := true })
    | (_, srv) => (⟨-3, sqliteError⟩, srv)

/-! ## `app_save_coolers_power` -/

/-- One of the two branches.  `res0` is what the local `res`, never assigned on
the way to success, happens to hold. -/
def saveCoolerPower (dbOk i2cOk : Bool) (res0 : Int) (c : Cooler) (power : UInt8) (srv : Server) :
    Res × Server :=
  let srv := { srv with app := srv.app.setClPower c power }
  match srv.db.saveClPower dbOk c power with
  | (.ok, db) =>
    let srv := { srv with db }
    if srv.app.clOn c then
      let w := setCoolersPower i2cOk c power srv.regs
      (if w.1 then ⟨res0, okText⟩ else ⟨-13, "i2c send error".toList⟩, { srv with regs := w.2 })
    else (⟨res0, okText⟩, srv)
  | (_, db) => (⟨-5, sqliteError⟩, { srv with db })

/-- A body without a non-negative `wind_in` is taken to be about the output cooler. -/
def CoolersPwr.target (p : CoolersPwr) : Cooler × UInt8 :=
  if 0 ≤ p.in then (.input, p.in.toUInt32.toUInt8) else (.output, p.out.toUInt32.toUInt8)

def appSaveCoolersPower (dbOk i2cOk : Bool) (res0 : Int) (json : Body) (srv : Server) :
    Res × Server :=
  match jsonToCoolersPower json with
  | .error e => (⟨-2, jsontGetErrText e⟩, srv)
  | .ok p => saveCoolerPower dbOk i2cOk res0 p.target.1 p.target.2 srv

/-! ## `app_set_th_period` -/

/-- `new_period_sec = new_period_min * 60`: the product is an `int` and wraps. -/
def thPeriodSec (newPeriodMin : Int32) : UInt64 := (newPeriodMin * 60).toInt64.toUInt64

/-- The database first, then memory. -/
def appSetThPeriod (dbOk : Bool) (json : Body) (srv : Server) : Res × Server :=
  match jsonToThPeriod json with
  | .error e => (⟨e.code, jsontGetErrText e⟩, srv)
  | .ok newPeriodMin =>
    let newPeriodSec := thPeriodSec newPeriodMin
    if newPeriodSec < 180 then (⟨-4, "New period is too small. Min 3 min".toList⟩, srv)
    else
      match srv.db.setThPeriod dbOk newPeriodSec with
      | (.ok, db) =>
        (⟨0, okText⟩, { srv with
          db
          app := { srv.app with conf := { srv.app.conf with thPollPeriod := newPeriodSec } }
          thSignal := true })
      | (_, db) => (⟨-5, sqliteError⟩, { srv with db })

/-! ## Lemmas -/

theorem jsontGetErrText_ne_ok (e : Jerr) : jsontGetErrText e ≠ okText := by
  cases e <;> decide

theorem Jerr.code_ne_zero (e : Jerr) : e.code ≠ 0 := by cases e <;> decide

/-- The update cannot be made: the statement fails, the database is not open,
or its table is missing. -/
def Mydb.UpdateFails (dbOk : Bool) (db : Mydb) : Prop :=
  dbOk = false ∨ db.fd = false ∨ db.sysConfig = none

theorem Mydb.update_of_fails {dbOk : Bool} {db : Mydb} (h : db.UpdateFails dbOk)
    (sets : List (SysCol × CStr)) :
    (db.update dbOk sets).1 ≠ .ok ∧ (db.update dbOk sets).2 = db := by
  obtain ⟨fd, table⟩ := db
  unfold Mydb.update
  cases fd with
  | false => simp
  | true =>
    cases table with
    | none => simp
    | some rows =>
      have hok : dbOk = false := by simpa [Mydb.UpdateFails] using h
      simp [hok]

theorem Mydb.update_of_not_fails {dbOk : Bool} {db : Mydb} (h : ¬ db.UpdateFails dbOk)
    (sets : List (SysCol × CStr)) :
    ∃ rows, db.sysConfig = some rows ∧
      db.update dbOk sets = (.ok, { db with sysConfig := some (rows.map (setCols sets)) }) := by
  obtain ⟨fd, table⟩ := db
  cases fd with
  | false => exact absurd (.inr (.inl rfl)) h
  | true =>
    cases table with
    | none => exact absurd (.inr (.inr rfl)) h
    | some rows =>
      cases dbOk with
      | false => exact absurd (.inl rfl) h
      | true => exact ⟨rows, rfl, rfl⟩

/-- What is kept when a save goes wrong: an error is replied and neither
memory nor the database has changed. -/
def FailsClean (srv : Server) (out : Res × Server) : Prop :=
  (out.1.code ≠ 0 ∧ out.1.text ≠ okText) ∧
    out.2.app.cwt = srv.app.cwt ∧ (∀ c, out.2.app.clPower c = srv.app.clPower c) ∧
    out.2.app.conf.thPollPeriod = srv.app.conf.thPollPeriod ∧ out.2.db = srv.db

/-- The save requests, with the outcomes of what a handler does besides its update. -/
inductive SaveReq where
  | coolersTime (flag : ClFlag)
  | coolersPower (i2cOk : Bool) (res0 : Int)
  | thPeriod

def SaveReq.serve (dbOk : Bool) (json : Body) (srv : Server) : SaveReq → Res × Server
  | .coolersTime flag => appSetCoolersTime dbOk json flag srv
  | .coolersPower i2cOk res0 => appSaveCoolersPower dbOk i2cOk res0 json srv
  | .thPeriod => appSetThPeriod dbOk json srv

/-- Nothing new would be written to memory before the update: the body is
rejected, or it asks for the value memory already has, or the handler is
the one that updates the database first. -/
def SaveReq.NothingNew (json : Body) (srv : Server) : SaveReq → Prop
  | .coolersTime flag => ∀ tm, jsonToMyTime json = .ok tm → srv.app.cwt.get flag.dest.1 = tm
  | .coolersPower _ _ => ∀ p, jsonToCoolersPower json = .ok p →
      srv.app.clPower p.target.1 = p.target.2
  | .thPeriod => True

theorem failsClean_rejected (srv : Server) (code : Int) (text : CStr) (hc : code ≠ 0)
    (ht : text ≠ okText) : FailsClean srv (⟨code, text⟩, srv) :=
  ⟨⟨hc, ht⟩, rfl, fun _ => rfl, rfl, rfl⟩

theorem failsClean_sqliteError_iff {srv srv' : Server} {code : Int} (hc : code ≠ 0) :
    FailsClean srv (⟨code, sqliteError⟩, srv') ↔
      srv'.app.cwt = srv.app.cwt ∧ (∀ c, srv'.app.clPower c = srv.app.clPower c) ∧
        srv'.app.conf.thPollPeriod = srv.app.conf.thPollPeriod ∧ srv'.db = srv.db :=
  ⟨And.right, fun h => ⟨⟨hc, show sqliteError ≠ okText by decide⟩, h⟩⟩

theorem set_get_eq_self_iff (cwt : CoolersWorkTime) (k : CoolersRaw) (t : MyTime) :
    cwt.set k t = cwt ↔ cwt.get k = t := by
  constructor
  · intro h
    rw [← h, CoolersWorkTime.get_set, if_pos rfl]
  · intro h
    apply CoolersWorkTime.ext_get
    intro j
    rw [CoolersWorkTime.get_set]
    split
    · next hj => rw [hj, h]
    · rfl

theorem appSetCoolersTime_failsClean_iff {dbOk : Bool} {srv : Server}
    (hdb : srv.db.UpdateFails dbOk) (json : Body) (flag : ClFlag) :
    FailsClean srv (appSetCoolersTime dbOk json flag srv) ↔
      ∀ tm, jsonToMyTime json = .ok tm → srv.app.cwt.get flag.dest.1 = tm := by
  unfold appSetCoolersTime
  cases hj : jsonToMyTime json with
  | error e =>
    simp only [reduceCtorEq, false_imp_iff, implies_true, iff_true]
    exact failsClean_rejected srv _ _ (by decide) (jsontGetErrText_ne_ok e)
  | ok tm =>
    have hf := Mydb.update_of_fails hdb (Mydb.setClTimeSql flag.dest.2 tm)
    have hs : saveNewCoolersTime dbOk flag.dest.1 flag.dest.2 tm srv =
        ((srv.db.setClTime dbOk flag.dest.2 tm).1,
          { srv with app := srv.app.setTime flag.dest.1 tm }) := by
      simp only [saveNewCoolersTime, Mydb.setClTime, hf.2]
    have hne : (srv.db.setClTime dbOk flag.dest.2 tm).1 ≠ .ok := hf.1
    simp only [hs]
    generalize (srv.db.setClTime dbOk flag.dest.2 tm).1 = r at hne
    have hiff := set_get_eq_self_iff srv.app.cwt flag.dest.1 tm
    cases r with
    | ok => exact absurd rfl hne
    | err | notOpened =>
      constructor
      · rintro ⟨-, hc, -⟩ tm' htm
        cases htm
        exact hiff.mp hc
      · intro h
        exact (failsClean_sqliteError_iff (by decide)).mpr
          ⟨hiff.mpr (h tm rfl), fun c => by simp, rfl, rfl⟩

theorem saveCoolerPower_failsClean_iff {dbOk : Bool} {srv : Server}
    (hdb : srv.db.UpdateFails dbOk) (i2cOk : Bool) (res0 : Int) (c : Cooler) (power : UInt8) :
    FailsClean srv (saveCoolerPower dbOk i2cOk res0 c power srv) ↔ srv.app.clPower c = power := by
  have hf := Mydb.update_of_fails hdb [(Mydb.powerCol c, Decimal.dec power.toNat)]
  have hs : saveCoolerPower dbOk i2cOk res0 c power srv =
      (⟨-5, sqliteError⟩, { srv with app := srv.app.setClPower c power }) := by
    unfold saveCoolerPower
    simp only [Mydb.saveClPower]
    generalize hu : srv.db.update dbOk [(Mydb.powerCol c, Decimal.dec power.toNat)] = u at hf
    obtain ⟨r, db⟩ := u
    obtain ⟨hne, rfl⟩ := hf
    cases r with
    | ok => exact absurd rfl hne
    | err => rfl
    | notOpened => rfl
  rw [hs]
  constructor
  · rintro ⟨-, -, hp, -⟩
    have := hp c
    rw [AppData.clPower_setClPower, if_pos rfl] at this
    exact this.symm
  · intro h
    refine (failsClean_sqliteError_iff (by decide)).mpr ⟨by simp, fun d => ?_, by simp, rfl⟩
    rw [AppData.clPower_setClPower]
    split
    · next hd => rw [hd, h]
    · rfl

theorem appSetThPeriod_failsClean {dbOk : Bool} {srv : Server} (hdb : srv.db.UpdateFails dbOk)
    (json : Body) : FailsClean srv (appSetThPeriod dbOk json srv) := by
  unfold appSetThPeriod
  split
  · next e _ => exact failsClean_rejected srv _ _ e.code_ne_zero (jsontGetErrText_ne_ok e)
  · next newPeriodMin _ =>
    simp only
    split
    · exact failsClean_rejected srv _ _ (by decide) (by decide)
    · have hf := Mydb.update_of_fails hdb [(.thPollPeriod, Decimal.dec (thPeriodSec newPeriodMin).toNat)]
      simp only [Mydb.setThPeriod]
      generalize srv.db.update dbOk _ = u at hf
      obtain ⟨r, db⟩ := u
      obtain ⟨hne, rfl⟩ := hf
      cases r with
      | ok => exact absurd rfl hne
      | err => exact failsClean_rejected srv _ _ (by decide) (by decide)
      | notOpened => exact failsClean_rejected srv _ _ (by decide) (by decide)

/-- **A failed update leaves everything as it was exactly when there was
nothing new to write**, or the database comes first. -/
theorem failsClean_iff {dbOk : Bool} {srv : Server} (hdb : srv.db.UpdateFails dbOk) (json : Body)
    (r : SaveReq) : FailsClean srv (r.serve dbOk json srv) ↔ r.NothingNew json srv := by
  cases r with
  | coolersTime flag => exact appSetCoolersTime_failsClean_iff hdb json flag
  | coolersPower i2cOk res0 =>
    show FailsClean srv (appSaveCoolersPower dbOk i2cOk res0 json srv) ↔ ∀ p, _ → _
    unfold appSaveCoolersPower
    cases hj : jsonToCoolersPower json with
    | error e =>
      simp only [reduceCtorEq, false_imp_iff, implies_true, iff_true]
      exact failsClean_rejected srv _ _ (by decide) (jsontGetErrText_ne_ok e)
    | ok p =>
      simp only [Except.ok.injEq, forall_eq']
      exact saveCoolerPower_failsClean_iff hdb i2cOk res0 p.target.1 p.target.2
  | thPeriod => exact iff_true_intro (appSetThPeriod_failsClean hdb json)

/-- A server started on a fresh database file. -/
def freshServer : Server :=
  (appInit id .allOk ⟨false, 30, 600⟩ ⟨false, none⟩ fun _ => 0).2

/-- `{"hour":8,"min":0,"sec":0}` -/
def eightOClock : Body := some (.object [("hour", .number 8), ("min", .number 0), ("sec", .number 0)])

/-- On a fresh server a period request that cannot be stored changes nothing. -/
theorem failsClean_thPeriod_fresh :
    FailsClean freshServer
      (SaveReq.thPeriod.serve false (some (.object [("poll_period", .number 5)])) freshServer) :=
  (failsClean_iff (Or.inl rfl) _ _).mpr trivial

/-- A start time that cannot be stored stays in memory. -/
theorem failed_start_time_stays :
    ¬ FailsClean freshServer ((SaveReq.coolersTime .startIn).serve false eightOClock freshServer) := by
  rintro ⟨-, hcwt, -⟩
  exact absurd hcwt (by decide)

end Growbox
