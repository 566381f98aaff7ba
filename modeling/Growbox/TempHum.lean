import Growbox.Mydb
import Growbox.Lib.RowTable

/-!
# `mydb.cpp`: the table `TempHum`

The sampler inserts a row for each measurement and lets `check_size` delete the
oldest when the file has grown; the handlers read the dates there are and the
rows of one day.  `only_oldest_dropped` says that deletions only ever take from the
front.
-/

namespace Growbox

open Decimal EventRun

/-! ## Types -/

/-- What `get_local_time` fills in: `tm_mon` from 1 and `tm_year` with the 1900 added. -/
structure LocalTime where
  mday : Nat
  month : Nat
  year : Int32
  hour : Nat
  min : Nat
  sec : Nat
  mday_le : mday ≤ 31
  month_le : month ≤ 12
  hour_lt : hour < 24
  min_lt : min < 60
  sec_le : sec ≤ 60

/-- `float`, with its `"%.2f"` and its `sscanf("%f")`. -/
structure FloatFmt (F : Type) where
  print2 : F → CStr
  scan : CStr → F

/-- The columns of a row besides its id. -/
structure ThRow where
  date : Nat
  month : Nat
  year : Nat
  hour : Nat
  min : Nat
  sec : Nat
  temp : CStr
  hum : CStr
  stampMin : Nat
  deriving DecidableEq, Repr

structure ThDate where
  date : UInt32
  month : UInt32
  year : UInt32
  fullDateStr : CStr
  dateStr : CStr
  deriving DecidableEq, Repr

structure ThTime where
  min : UInt32
  hour : UInt32
  sec : UInt32
  deriving DecidableEq, Repr

/-- `th_table_t` -/
structure ThTable (F : Type) where
  fullTimeStr : CStr
  timeStr : CStr
  tstamp : ThTime
  temp : F
  hum : F
  stampMin : UInt32

/-- `fd`, the table as the file holds it, and the two vectors the queries fill. -/
structure ThDb (F : Type) where
  fd : Bool
  tempHum : RowTable ThRow
  thRecords : List (ThTable F)
  thDates : List ThDate

/-- The outcome of `sqlite3_exec` on a `SELECT`: it can fail when the callback has
run for some of the rows. -/
inductive Query where
  | ok
  | failed (after : Nat)

def Query.rows {α : Type} : Query → List α → List α
  | .ok, l => l
  | .failed n, l => l.take n

def Query.res : Query → MydbRes
  | .ok => .ok
  | .failed _ => .err

/-- The number a literal stands for in a statement. -/
def sqlInteger (literal : CStr) : Nat := (scanDec literal).getD 0

namespace ThDb

section
variable {F : Type} (fl : FloatFmt F) (db : ThDb F)

/-! ## Writing -/

/-- The row of `INSERT INTO TempHum … VALUES (%02u, %02u, %04u, …, "%.2f", "%.2f", %u)`. -/
def insertedRow (ct : LocalTime) (temp hum : F) : ThRow where
  date := sqlInteger (dec2 ct.mday)
  month := sqlInteger (dec2 ct.month)
  year := sqlInteger (decPad 4 ct.year.toUInt32.toNat)
  hour := sqlInteger (dec2 ct.hour)
  min := sqlInteger (dec2 ct.min)
  sec := sqlInteger (dec2 ct.sec)
  temp := fl.print2 temp
  hum := fl.print2 hum
  stampMin := sqlInteger (dec (ct.hour * 60 + ct.min))

/-- `ct` is what `get_local_time` answers, `none` when it fails. -/
def putThVal (ct : Option LocalTime) (sqlOk : Bool) (temp hum : F) : MydbRes × ThDb F :=
  if !db.fd then (.notOpened, db)
  else
    match ct with
    | none => (.err, db)
    | some ct =>
      if sqlOk then (.ok, { db with tempHum := db.tempHum.insert (insertedRow fl ct temp hum) })
      else (.err, db)

/-- `MYDB_CLEANED_UP` besides the results of the other functions. -/
inductive CheckRes where
  | res (r : MydbRes)
  | cleanedUp
  deriving DecidableEq, Repr

/-- `currSize` is the size the file system reports; `VACUUM` leaves the rows as they are. -/
def checkSize (deleteOk vacuumOk : Bool) (currSize maxSize : UInt64) : CheckRes × ThDb F :=
  if !db.fd then (.res .notOpened, db)
  else if maxSize ≤ currSize then
    if !deleteOk then (.res .err, db)
    else
      let db := { db with tempHum := db.tempHum.deleteBelow (db.tempHum.nthId 300) }
      if vacuumOk then (.cleanedUp, db) else (.res .err, db)
  else (.res .ok, db)

/-! ## Reading -/

/-- The texts a callback is handed for a row of `SELECT *`. -/
def argv (r : Nat × ThRow) : List CStr :=
  [dec r.1, dec r.2.date, dec r.2.month, dec r.2.year, dec r.2.hour, dec r.2.min, dec r.2.sec,
    r.2.temp, r.2.hum, dec r.2.stampMin]

/-- `get_th_dates_cb`, on a row of three columns. -/
def getThDatesCb (argv : List CStr) : ThDate :=
  let date := Mydb.scanU argv 0 0
  let month := Mydb.scanU argv 1 0
  let year := Mydb.scanU argv 2 0
  { date, month, year
    dateStr := dec2 date.toNat ++ ".".toList ++ dec2 month.toNat
    fullDateStr := dec2 date.toNat ++ ".".toList ++ dec2 month.toNat ++ ".".toList ++
      decPad 4 year.toNat }

/-- `SELECT DISTINCT date, month, year FROM TempHum` -/
def selectDates (rows : List (Nat × ThRow)) : List (Nat × Nat × Nat) :=
  (rows.map fun r => (r.2.date, r.2.month, r.2.year)).eraseDups

def getThDates (q : Query) : MydbRes × ThDb F :=
  if !db.fd then (.notOpened, db)
  else (q.res, { db with
    thDates := (q.rows (selectDates db.tempHum.rows)).map fun d =>
      getThDatesCb [dec d.1, dec d.2.1, dec d.2.2] })

/-- `get_th_val_cb` reads from the fourth column on. -/
def getThValCb (argv : List CStr) : ThTable F :=
  let hour := Mydb.scanU argv 4 0
  let min := Mydb.scanU argv 5 0
  let sec := Mydb.scanU argv 6 0
  { tstamp := ⟨min, hour, sec⟩
    temp := fl.scan (argv.getD 7 [])
    hum := fl.scan (argv.getD 8 [])
    stampMin := Mydb.scanU argv 9 0
    fullTimeStr := dec2 hour.toNat ++ ":".toList ++ dec2 min.toNat ++ ":".toList ++ dec2 sec.toNat
    timeStr := dec2 hour.toNat ++ ":".toList ++ dec2 min.toNat }

/-- The `WHERE` of `get_th_val`: a year before 2020 is not asked for. -/
def whereThVal (date : ThDate) (start stop : ThTime) (r : Nat × ThRow) : Bool :=
  decide (r.2.date = sqlInteger (dec date.date.toNat)) &&
    decide (r.2.month = sqlInteger (dec date.month.toNat)) &&
    (decide (date.year < 2020) || decide (r.2.year = sqlInteger (dec date.year.toNat))) &&
    decide (sqlInteger (dec (start.hour * 60 + start.min).toNat) ≤ r.2.stampMin) &&
    decide (r.2.stampMin ≤ sqlInteger (dec (stop.hour * 60 + stop.min).toNat))

def getThVal (q : Query) (date : ThDate) (start stop : ThTime) : MydbRes × ThDb F :=
  if !db.fd then (.notOpened, db)
  else (q.res, { db with
    thRecords := (q.rows (db.tempHum.rows.filter (whereThVal date start stop))).map fun r =>
      getThValCb fl (argv r) })

end

end ThDb

/-! ## Only the oldest rows are dropped -/

/-- The calls that write the table, each with its outcomes. -/
inductive ThCall (F : Type) where
  | putThVal (ct : Option LocalTime) (sqlOk : Bool) (temp hum : F)
  | checkSize (deleteOk vacuumOk : Bool) (currSize maxSize : UInt64)

section
variable {F : Type} (fl : FloatFmt F)

def ThDb.call (db : ThDb F) : ThCall F → ThDb F
  | .putThVal ct sqlOk temp hum => (db.putThVal fl ct sqlOk temp hum).2
  | .checkSize deleteOk vacuumOk currSize maxSize =>
    (db.checkSize deleteOk vacuumOk currSize maxSize).2

/-- The record a call inserts. -/
def ThCall.inserted : ThCall F → Option ThRow
  | .putThVal (some ct) true temp hum => some (ThDb.insertedRow fl ct temp hum)
  | _ => none

/-- An open database with the table. -/
def ThDb.opened (tempHum : RowTable ThRow) : ThDb F := ⟨true, tempHum, [], []⟩

theorem fd_call (db : ThDb F) (e : ThCall F) : (db.call fl e).fd = db.fd := by
  cases e with
  | putThVal ct sqlOk temp hum =>
    simp only [ThDb.call, ThDb.putThVal]
    split
    · rfl
    · cases ct with
      | none => rfl
      | some ct => cases sqlOk <;> rfl
  | checkSize deleteOk vacuumOk currSize maxSize =>
    simp only [ThDb.call, ThDb.checkSize]
    split
    · rfl
    · split
      · cases deleteOk <;> cases vacuumOk <;> rfl
      · rfl

/-- `check_size` leaves the table or drops its 300 oldest rows. -/
theorem checkSize_tempHum (db : ThDb F) (deleteOk vacuumOk : Bool) (currSize maxSize : UInt64) :
    (db.checkSize deleteOk vacuumOk currSize maxSize).2.tempHum =
      if db.fd = true ∧ maxSize ≤ currSize ∧ deleteOk = true then
        db.tempHum.deleteBelow (db.tempHum.nthId 300)
      else db.tempHum := by
  unfold ThDb.checkSize
  cases db.fd with
  | false => rfl
  | true =>
    by_cases h : maxSize ≤ currSize
    · cases deleteOk <;> cases vacuumOk <;> simp [h]
    · simp [h]

theorem suffix_call {db : ThDb F} (hfd : db.fd = true) {log : List ThRow}
    (h : db.tempHum.values <:+ log) (e : ThCall F) :
    (db.call fl e).tempHum.values <:+ log ++ (e.inserted fl).toList := by
  cases e with
  | putThVal ct sqlOk temp hum =>
    simp only [ThDb.call, ThDb.putThVal, hfd, Bool.not_true, Bool.false_eq_true, if_false]
    cases ct with
    | none => simpa [ThCall.inserted] using h
    | some ct =>
      cases sqlOk with
      | false => simpa [ThCall.inserted] using h
      | true => exact db.tempHum.suffix_insert h _
  | checkSize deleteOk vacuumOk currSize maxSize =>
    show (db.checkSize deleteOk vacuumOk currSize maxSize).2.tempHum.values <:+ log ++ []
    rw [checkSize_tempHum, List.append_nil]
    split
    · exact db.tempHum.suffix_deleteBelow_nthId h 300
    · exact h

theorem suffix_calls {db : ThDb F} (hfd : db.fd = true) {log : List ThRow}
    (h : db.tempHum.values <:+ log) (es : List (ThCall F)) :
    (es.foldl (ThDb.call fl) db).tempHum.values <:+ log ++ es.filterMap (ThCall.inserted fl) := by
  induction es generalizing db log with
  | nil => simpa using h
  | cons e es ih =>
    have hrest := ih ((fd_call fl db e).trans hfd) (suffix_call fl hfd h e)
    rw [List.append_assoc] at hrest
    have hcons : (e.inserted fl).toList ++ es.filterMap (ThCall.inserted fl) =
        (e :: es).filterMap (ThCall.inserted fl) := by
      rw [List.filterMap_cons]
      cases e.inserted fl <;> rfl
    rw [hcons] at hrest
    exact hrest

theorem fd_calls (db : ThDb F) (es : List (ThCall F)) :
    (es.foldl (ThDb.call fl) db).fd = db.fd := by
  induction es generalizing db with
  | nil => rfl
  | cons e es ih => exact (ih (db.call fl e)).trans (fd_call fl db e)

/-- **Only the oldest rows are dropped.**  After any calls the table holds the
newest part of what was there and what was inserted, in that order; a
`check_size` at or above its limit then removes the 300 oldest rows when
there are more, and nothing in every other case. -/
theorem only_oldest_dropped (tempHum : RowTable ThRow) (es : List (ThCall F)) (vacuumOk : Bool)
    (currSize maxSize : UInt64) :
    let db := es.foldl (ThDb.call fl) (ThDb.opened tempHum)
    let rows := db.tempHum.rows
    db.tempHum.values <:+ tempHum.values ++ es.filterMap (ThCall.inserted fl) ∧
      (db.checkSize true vacuumOk currSize maxSize).2.tempHum.rows =
        if maxSize ≤ currSize ∧ 300 < rows.length then rows.drop 300 else rows := by
  intro db rows
  refine ⟨suffix_calls fl rfl List.suffix_rfl es, ?_⟩
  have hfd : db.fd = true := fd_calls fl _ es
  rw [checkSize_tempHum]
  by_cases h : maxSize ≤ currSize
  · rw [if_pos ⟨hfd, h, rfl⟩, RowTable.rows_deleteBelow_nthId]
    simp only [h, true_and]
    rfl
  · rw [if_neg fun hh => h hh.2.1, if_neg fun hh => h hh.1]

end

end Growbox
