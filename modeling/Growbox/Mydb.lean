import Growbox.AppData
import Growbox.Lib.Decimal
import Growbox.Lib.EventRun

/-!
# `mydb.cpp`: the one row of `SystemConfig`

Every setting is written by an `UPDATE` whose values are printed into the
statement and read back from the text of a `SELECT`, by position.  `rowOf S` is
the row that holds the settings `S`; each setter takes `rowOf S` to the row of
the changed settings, each getter reads `S` off it, and `init` keeps it.  So a
getter returns what was last written, across restarts
(`settings_survive_restarts`).
-/

namespace Growbox

open Decimal EventRun

/-! ## The table -/

inductive SysCol where
  | id | thPollPeriod
  | clStartInHour | clStartInMin | clStartInSec
  | clStopInHour | clStopInMin | clStopInSec | clWpInMin
  | clStartOutHour | clStartOutMin | clStartOutSec
  | clStopOutHour | clStopOutMin | clStopOutSec | clWpOutMin
  | clInPower | clOutPower
  deriving DecidableEq, Repr

/-- A cell of an `INTEGER` column: SQLite stores a decimal literal that does not
fit 64 signed bits as a floating point number. -/
inductive SqlVal where
  | integer (n : Nat)
  | real (literal : CStr)
  deriving DecidableEq, Repr

def SqlVal.ofLiteral (literal : CStr) : SqlVal :=
  match scanDec literal with
  | some n => if n < 2 ^ 63 then .integer n else .real literal
  | none => .real literal

/-- The text a column is returned as; `realText` is SQLite's rendering of
a floating point number. -/
def SqlVal.text (realText : CStr → CStr) : SqlVal → CStr
  | .integer n => dec n
  | .real literal => realText literal

abbrev Row := SysCol → SqlVal

/-- `fd` of the `mydb` object, and the table as the file holds it. -/
structure Mydb where
  fd : Bool
  sysConfig : Option (List Row)

/-- `MYDB_OK`, `MYDB_ERR`, `MYDB_NOT_OPENED` -/
inductive MydbRes where
  | ok | err | notOpened
  deriving DecidableEq, Repr

/-- `UPDATE SystemConfig SET …` on one row. -/
def setCols (sets : List (SysCol × CStr)) (row : Row) : Row :=
  sets.foldl (fun r s => fun c => if c = s.1 then .ofLiteral s.2 else r c) row

namespace Mydb

/-- The row of `INSERT OR IGNORE INTO SystemConfig … VALUES (1, 600, 0, …)`. -/
def insertedRow : Row
  | .id => .integer 1
  | .thPollPeriod => .integer 600
  | _ => .integer 0

/-- `CREATE TABLE IF NOT EXISTS`, then `INSERT OR IGNORE`: the row goes in only
when no row has its `id`. -/
def createSysConfig (table : Option (List Row)) : List Row :=
  let rows := table.getD []
  if rows.any fun r => r .id = insertedRow .id then rows else rows ++ [insertedRow]

/-- A failed open still sets the handle. -/
def init (openOk sqlOk : Bool) (db : Mydb) : MydbRes × Mydb :=
  if !openOk then (.notOpened, { db with fd := true })
  else if !sqlOk then (.err, { db with fd := true })
  else (.ok, { fd := true, sysConfig := some (createSysConfig db.sysConfig) })

/-- `send_sql` of an `UPDATE`; a statement that fails changes nothing. -/
def update (sqlOk : Bool) (sets : List (SysCol × CStr)) (db : Mydb) : MydbRes × Mydb :=
  if !db.fd then (.notOpened, db)
  else
    match db.sysConfig with
    | none => (.err, db)
    | some rows =>
      if sqlOk then (.ok, { db with sysConfig := some (rows.map (setCols sets)) }) else (.err, db)

/-- `send_sql` of a `SELECT`: the callback runs once for each row. -/
def select {α : Type} (realText : CStr → CStr) (sqlOk : Bool) (cols : List SysCol)
    (cb : List CStr → α → α) (db : Mydb) (param : α) : MydbRes × α :=
  if !db.fd then (.notOpened, param)
  else
    match db.sysConfig with
    | none => (.err, param)
    | some rows =>
      if sqlOk then
        (.ok, rows.foldl (fun p r => cb (cols.map fun c => (r c).text realText) p) param)
      else (.err, param)

/-! ## Setters -/

def setThPeriod (sqlOk : Bool) (period : UInt64) (db : Mydb) : MydbRes × Mydb :=
  db.update sqlOk [(.thPollPeriod, dec period.toNat)]

def setClTimeSql (rawType : CoolersRaw) (time : MyTime) : List (SysCol × CStr) :=
  match rawType with
  | .startInTime => [(.clStartInHour, dec time.hour.toNat), (.clStartInMin, dec time.min.toNat),
      (.clStartInSec, dec time.sec.toNat)]
  | .stopInTime => [(.clStopInHour, dec time.hour.toNat), (.clStopInMin, dec time.min.toNat),
      (.clStopInSec, dec time.sec.toNat)]
  | .wpInTime => [(.clWpInMin, dec time.min.toNat)]
  | .startOutTime => [(.clStartOutHour, dec time.hour.toNat), (.clStartOutMin, dec time.min.toNat),
      (.clStartOutSec, dec time.sec.toNat)]
  | .stopOutTime => [(.clStopOutHour, dec time.hour.toNat), (.clStopOutMin, dec time.min.toNat),
      (.clStopOutSec, dec time.sec.toNat)]
  | .wpOutTime => [(.clWpOutMin, dec time.min.toNat)]

def setClTime (sqlOk : Bool) (rawType : CoolersRaw) (time : MyTime) (db : Mydb) : MydbRes × Mydb :=
  db.update sqlOk (setClTimeSql rawType time)

def powerCol : Cooler → SysCol
  | .input => .clInPower
  | .output => .clOutPower

def saveClPower (sqlOk : Bool) (type : Cooler) (power : UInt8) (db : Mydb) : MydbRes × Mydb :=
  db.update sqlOk [(powerCol type, dec power.toNat)]

/-! ## Getters -/

/-- `sscanf(argv[idx], "%u", &field)`: the field keeps its value when no number is read. -/
def scanU (argv : List CStr) (idx : Nat) (field : UInt32) : UInt32 :=
  match scanDec (argv.getD idx []) with
  | some n => UInt32.ofNat n
  | none => field

def getThPeriodCb (argv : List CStr) (param : UInt64) : UInt64 :=
  match scanDec (argv.getD 0 []) with
  | some n => UInt64.ofNat n
  | none => param

def getThPeriod (realText : CStr → CStr) (sqlOk : Bool) (db : Mydb) (period : UInt64) :
    MydbRes × UInt64 :=
  db.select realText sqlOk [.thPollPeriod] getThPeriodCb period

def getClTimeCols : List SysCol :=
  [.clStartInHour, .clStartInMin, .clStartInSec, .clStopInHour,
    .clStopInMin, .clStopInSec, .clWpInMin, .clStartOutHour, .clStartOutMin, .clStartOutSec,
    .clStopOutHour, .clStopOutMin, .clStopOutSec, .clWpOutMin]

/-- The columns by position; a work period has no hour and no second. -/
def getClTimeCb (argv : List CStr) (cwt : CoolersWorkTime) : CoolersWorkTime where
  startIn := ⟨scanU argv 0 cwt.startIn.hour, scanU argv 1 cwt.startIn.min, scanU argv 2 cwt.startIn.sec⟩
  stopIn := ⟨scanU argv 3 cwt.stopIn.hour, scanU argv 4 cwt.stopIn.min, scanU argv 5 cwt.stopIn.sec⟩
  wpIn := { cwt.wpIn with min := scanU argv 6 cwt.wpIn.min }
  startOut := ⟨scanU argv 7 cwt.startOut.hour, scanU argv 8 cwt.startOut.min, scanU argv 9 cwt.startOut.sec⟩
  stopOut := ⟨scanU argv 10 cwt.stopOut.hour, scanU argv 11 cwt.stopOut.min, scanU argv 12 cwt.stopOut.sec⟩
  wpOut := { cwt.wpOut with min := scanU argv 13 cwt.wpOut.min }

def getClTime (realText : CStr → CStr) (sqlOk : Bool) (db : Mydb) (cwt : CoolersWorkTime) :
    MydbRes × CoolersWorkTime :=
  db.select realText sqlOk getClTimeCols getClTimeCb cwt

/-- Reads into a local `uint pwr = 0`; `*power` is assigned on success only. -/
def getClPower (realText : CStr → CStr) (sqlOk : Bool) (db : Mydb) (type : Cooler) (power : UInt8) :
    MydbRes × UInt8 :=
  match db.select realText sqlOk [powerCol type] (fun argv pwr => scanU argv 0 pwr) 0 with
  | (.ok, pwr) => (.ok, pwr.toUInt8)
  | (res, _) => (res, power)

end Mydb

/-! ## The settings a row holds -/

/-- The settings, without their places in the table. -/
structure Settings where
  time : CoolersRaw → MyTime
  power : Cooler → UInt8
  period : UInt64
  period_lt : period.toNat < 2 ^ 63

namespace Settings

def setTime (S : Settings) (k : CoolersRaw) (t : MyTime) : Settings :=
  { S with time := fun j => if j = k then t else S.time j }

def setPower (S : Settings) (c : Cooler) (p : UInt8) : Settings :=
  { S with power := fun d => if d = c then p else S.power d }

def setPeriod (S : Settings) (v : UInt64) (h : v.toNat < 2 ^ 63) : Settings :=
  { S with period := v, period_lt := h }

/-- The settings of a fresh database: ten minutes, everything else zero. -/
def dflt : Settings := ⟨fun _ => zeroTime, fun _ => 0, 600, by decide⟩

end Settings

/-- The row that holds the settings. -/
def rowOf (S : Settings) : Row
  | .id => .integer 1
  | .thPollPeriod => .integer S.period.toNat
  | .clStartInHour => .integer (S.time .startInTime).hour.toNat
  | .clStartInMin => .integer (S.time .startInTime).min.toNat
  | .clStartInSec => .integer (S.time .startInTime).sec.toNat
  | .clStopInHour => .integer (S.time .stopInTime).hour.toNat
  | .clStopInMin => .integer (S.time .stopInTime).min.toNat
  | .clStopInSec => .integer (S.time .stopInTime).sec.toNat
  | .clWpInMin => .integer (S.time .wpInTime).min.toNat
  | .clStartOutHour => .integer (S.time .startOutTime).hour.toNat
  | .clStartOutMin => .integer (S.time .startOutTime).min.toNat
  | .clStartOutSec => .integer (S.time .startOutTime).sec.toNat
  | .clStopOutHour => .integer (S.time .stopOutTime).hour.toNat
  | .clStopOutMin => .integer (S.time .stopOutTime).min.toNat
  | .clStopOutSec => .integer (S.time .stopOutTime).sec.toNat
  | .clWpOutMin => .integer (S.time .wpOutTime).min.toNat
  | .clInPower => .integer (S.power .input).toNat
  | .clOutPower => .integer (S.power .output).toNat

theorem ofLiteral_dec {n : Nat} (h : n < 2 ^ 63) : SqlVal.ofLiteral (dec n) = .integer n := by
  unfold SqlVal.ofLiteral
  rw [scanDec_dec]
  exact if_pos h

theorem ofLiteral_dec_u32 (n : UInt32) : SqlVal.ofLiteral (dec n.toNat) = .integer n.toNat :=
  ofLiteral_dec (Nat.lt_trans n.toNat_lt (by decide))

theorem ofLiteral_dec_u8 (n : UInt8) : SqlVal.ofLiteral (dec n.toNat) = .integer n.toNat :=
  ofLiteral_dec (Nat.lt_trans n.toNat_lt (by decide))

theorem rowOf_dflt : rowOf .dflt = Mydb.insertedRow := by
  funext c
  cases c <;> rfl

/-- Each `UPDATE` of a time writes the columns of that time and no others. -/
theorem setCols_setClTimeSql (S : Settings) (k : CoolersRaw) (t : MyTime) :
    setCols (Mydb.setClTimeSql k t) (rowOf S) = rowOf (S.setTime k t) := by
  funext c
  -- a column that is not written is the same on both sides
  cases k <;> cases c <;> first | rfl | exact ofLiteral_dec_u32 _

theorem setCols_power (S : Settings) (d : Cooler) (p : UInt8) :
    setCols [(Mydb.powerCol d, dec p.toNat)] (rowOf S) = rowOf (S.setPower d p) := by
  funext c
  cases d <;> cases c <;> first | rfl | exact ofLiteral_dec_u8 p

theorem setCols_period (S : Settings) (v : UInt64) (h : v.toNat < 2 ^ 63) :
    setCols [(.thPollPeriod, dec v.toNat)] (rowOf S) = rowOf (S.setPeriod v h) := by
  funext c
  cases c <;> first | rfl | exact ofLiteral_dec h

/-! ## The getters read the settings off the row -/

theorem scanU_dec (argv : List CStr) (idx : Nat) (field n : UInt32)
    (h : argv.getD idx [] = dec n.toNat) : Mydb.scanU argv idx field = n := by
  unfold Mydb.scanU
  rw [h, scanDec_dec]
  exact UInt32.ofNat_toNat

/-- What `get_cl_time` leaves in `cwt`: it does not touch hour and second of a work period. -/
def Settings.readInto (S : Settings) (cwt : CoolersWorkTime) : CoolersWorkTime where
  startIn := S.time .startInTime
  stopIn := S.time .stopInTime
  wpIn := { cwt.wpIn with min := (S.time .wpInTime).min }
  startOut := S.time .startOutTime
  stopOut := S.time .stopOutTime
  wpOut := { cwt.wpOut with min := (S.time .wpOutTime).min }

theorem getClTimeCb_rowOf (realText : CStr → CStr) (S : Settings) (cwt : CoolersWorkTime) :
    Mydb.getClTimeCb (Mydb.getClTimeCols.map fun c => (rowOf S c).text realText) cwt =
      S.readInto cwt := by
  -- the value found at a position is the one of the column selected there
  have at_pos (idx : Nat) (n : UInt32)
      (h : (Mydb.getClTimeCols.map fun c => (rowOf S c).text realText).getD idx [] = dec n.toNat)
      (field : UInt32) := scanU_dec _ idx field n h
  unfold Mydb.getClTimeCb Settings.readInto
  simp only [at_pos 0 (S.time .startInTime).hour rfl, at_pos 1 (S.time .startInTime).min rfl,
    at_pos 2 (S.time .startInTime).sec rfl, at_pos 3 (S.time .stopInTime).hour rfl,
    at_pos 4 (S.time .stopInTime).min rfl, at_pos 5 (S.time .stopInTime).sec rfl,
    at_pos 6 (S.time .wpInTime).min rfl, at_pos 7 (S.time .startOutTime).hour rfl,
    at_pos 8 (S.time .startOutTime).min rfl, at_pos 9 (S.time .startOutTime).sec rfl,
    at_pos 10 (S.time .stopOutTime).hour rfl, at_pos 11 (S.time .stopOutTime).min rfl,
    at_pos 12 (S.time .stopOutTime).sec rfl, at_pos 13 (S.time .wpOutTime).min rfl]

namespace Mydb

/-- An open database whose table is the one row of `S`. -/
def holding (S : Settings) : Mydb := ⟨true, some [rowOf S]⟩

theorem getClTime_holding (realText : CStr → CStr) (S : Settings) (cwt : CoolersWorkTime) :
    getClTime realText true (holding S) cwt = (.ok, S.readInto cwt) := by
  rw [← getClTimeCb_rowOf realText S cwt]
  rfl

theorem getClPower_holding (realText : CStr → CStr) (S : Settings) (c : Cooler) (power : UInt8) :
    getClPower realText true (holding S) c power = (.ok, S.power c) := by
  have hs : (holding S).select realText true [powerCol c] (fun argv pwr => scanU argv 0 pwr) 0 =
      (.ok, (S.power c).toUInt32) := by
    have hr : scanU [(rowOf S (powerCol c)).text realText] 0 0 = (S.power c).toUInt32 :=
      scanU_dec _ _ _ _ (by cases c <;> simp [powerCol, rowOf, SqlVal.text])
    rw [← hr]
    rfl
  unfold getClPower
  rw [hs]
  simp

theorem getThPeriod_holding (realText : CStr → CStr) (S : Settings) (period : UInt64) :
    getThPeriod realText true (holding S) period = (.ok, S.period) := by
  have hr : getThPeriodCb [(rowOf S .thPollPeriod).text realText] period = S.period := by
    unfold getThPeriodCb
    simp [rowOf, SqlVal.text]
  rw [← hr]
  rfl

/-! ## Runs of calls -/

theorem setClTime_holding (S : Settings) (k : CoolersRaw) (t : MyTime) :
    setClTime true k t (holding S) = (.ok, holding (S.setTime k t)) := by
  simp [setClTime, update, holding, setCols_setClTimeSql]

theorem saveClPower_holding (S : Settings) (c : Cooler) (p : UInt8) :
    saveClPower true c p (holding S) = (.ok, holding (S.setPower c p)) := by
  simp [saveClPower, update, holding, setCols_power]

theorem setThPeriod_holding (S : Settings) (v : UInt64) (h : v.toNat < 2 ^ 63) :
    setThPeriod true v (holding S) = (.ok, holding (S.setPeriod v h)) := by
  simp [setThPeriod, update, holding, setCols_period S v h]

/-- A restart opens the same file with a new object; the row with `id = 1` is
there already, so `INSERT OR IGNORE` leaves it alone. -/
theorem init_holding (S : Settings) (fd : Bool) :
    init true true ⟨fd, some [rowOf S]⟩ = (.ok, holding S) := by
  simp [init, createSysConfig, holding, rowOf, insertedRow]

theorem init_fresh (fd : Bool) : init true true ⟨fd, none⟩ = (.ok, holding .dflt) := by
  simp [init, createSysConfig, holding, rowOf_dflt]

end Mydb

/-- Calls on the database of a server; `restart` is a new process: a new
`mydb` object, then `init`. -/
inductive DbCall where
  | restart
  | setClTime (k : CoolersRaw) (t : MyTime)
  | saveClPower (c : Cooler) (p : UInt8)
  | setThPeriod (v : UInt64) (h : v.toNat < 2 ^ 63)

/-- A call whose database operations succeed. -/
def call (db : Mydb) : DbCall → Mydb
  | .restart => (Mydb.init true true { db with fd := false }).2
  | .setClTime k t => (db.setClTime true k t).2
  | .saveClPower c p => (db.saveClPower true c p).2
  | .setThPeriod v _ => (db.setThPeriod true v).2

def Settings.apply (S : Settings) : DbCall → Settings
  | .restart => S
  | .setClTime k t => S.setTime k t
  | .saveClPower c p => S.setPower c p
  | .setThPeriod v h => S.setPeriod v h

/-- Each call on the table is the call on the settings. -/
theorem call_holding (S : Settings) (e : DbCall) :
    call (Mydb.holding S) e = Mydb.holding (S.apply e) := by
  cases e with
  | restart => exact congrArg Prod.snd (Mydb.init_holding S false)
  | setClTime k t => exact congrArg Prod.snd (Mydb.setClTime_holding S k t)
  | saveClPower c p => exact congrArg Prod.snd (Mydb.saveClPower_holding S c p)
  | setThPeriod v h => exact congrArg Prod.snd (Mydb.setThPeriod_holding S v h)

theorem calls_holding (S : Settings) (es : List DbCall) :
    es.foldl call (Mydb.holding S) = Mydb.holding (es.foldl Settings.apply S) := by
  induction es generalizing S with
  | nil => rfl
  | cons e es ih => rw [List.foldl_cons, call_holding, ih, List.foldl_cons]

def timeWritten (k : CoolersRaw) : DbCall → Option MyTime
  | .setClTime j t => if j = k then some t else none
  | _ => none

def powerWritten (c : Cooler) : DbCall → Option UInt8
  | .saveClPower d p => if d = c then some p else none
  | _ => none

def periodWritten : DbCall → Option UInt64
  | .setThPeriod v _ => some v
  | _ => none

theorem apply_time (k : CoolersRaw) (S : Settings) (e : DbCall) :
    (S.apply e).time k = (timeWritten k e).getD (S.time k) := by
  cases e with
  | setClTime j t =>
    by_cases h : k = j
    · subst h; simp [Settings.apply, Settings.setTime, timeWritten]
    · simp [Settings.apply, Settings.setTime, timeWritten, h, Ne.symm h]
  | _ => rfl

theorem apply_power (c : Cooler) (S : Settings) (e : DbCall) :
    (S.apply e).power c = (powerWritten c e).getD (S.power c) := by
  cases e with
  | saveClPower d p =>
    by_cases h : c = d
    · subst h; simp [Settings.apply, Settings.setPower, powerWritten]
    · simp [Settings.apply, Settings.setPower, powerWritten, h, Ne.symm h]
  | _ => rfl

theorem apply_period (S : Settings) (e : DbCall) :
    (S.apply e).period = (periodWritten e).getD S.period := by
  cases e <;> rfl

/-- **Settings survive restarts.**  Whatever calls and restarts follow the first
opening of a fresh file, each getter returns the value last written to its
setting, the default of the inserted row if none was. -/
theorem settings_survive_restarts (realText : CStr → CStr) (es : List DbCall)
    (cwt : CoolersWorkTime) (power : UInt8) (period : UInt64) :
    let db := es.foldl call (Mydb.init true true ⟨false, none⟩).2
    let time := fun k => lastWritten (timeWritten k) zeroTime es
    db.getClTime realText true cwt =
        (.ok, { startIn := time .startInTime
                stopIn := time .stopInTime
                wpIn := { cwt.wpIn with min := (time .wpInTime).min }
                startOut := time .startOutTime
                stopOut := time .stopOutTime
                wpOut := { cwt.wpOut with min := (time .wpOutTime).min } }) ∧
      (∀ c, db.getClPower realText true c power = (.ok, lastWritten (powerWritten c) 0 es)) ∧
      db.getThPeriod realText true period = (.ok, lastWritten periodWritten 600 es) := by
  intro db time
  have hdb : db = Mydb.holding (es.foldl Settings.apply .dflt) := by
    rw [← calls_holding]
    exact congrArg (fun r : MydbRes × Mydb => es.foldl call r.2) (Mydb.init_fresh false)
  have htime : ∀ k, (es.foldl Settings.apply .dflt).time k = time k := fun k =>
    foldl_eq_lastWritten (fun S : Settings => S.time k) (timeWritten k) (apply_time k) .dflt es
  refine ⟨?_, fun c => ?_, ?_⟩
  · rw [hdb, Mydb.getClTime_holding]
    simp only [Settings.readInto, htime]
  · rw [hdb, Mydb.getClPower_holding]
    exact congrArg (Prod.mk _)
      (foldl_eq_lastWritten (fun S : Settings => S.power c) (powerWritten c) (apply_power c) .dflt es)
  · rw [hdb, Mydb.getThPeriod_holding]
    exact congrArg (Prod.mk _)
      (foldl_eq_lastWritten Settings.period periodWritten apply_period .dflt es)

end Growbox
