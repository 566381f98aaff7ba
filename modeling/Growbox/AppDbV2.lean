import Growbox.ListedDates

/-!
# v2 `app_db.cpp`: the records of `TempHum` as texts

`get_record` and `get_record_dates` run the statements of `get_th_val` and
`get_th_dates`, but put the texts together with `std::to_string`, which does not
pad, and assign `date_str` twice, `full_date_str` never.  So the times agree with
those of the first version from ten on, in each of their parts, and the dates never
do (`rendersAsV1_never`); what ends in `date_str` is the full date.
-/

namespace Growbox.TempHumTable

open Decimal

/-! ## The class -/

/-- `date_t` -/
structure DateT where
  date : UInt32
  month : UInt32
  year : UInt32
  fullDateStr : CStr
  dateStr : CStr

/-- `record_t` -/
structure RecordT (F : Type) where
  fullTimeStr : CStr
  timeStr : CStr
  tstamp : ThTime
  temp : F
  hum : F
  stampMin : UInt32

/-- `std::to_string` -/
def toS (x : UInt32) : CStr := dec x.toNat

section
variable {F : Type} (fl : FloatFmt F)

/-- The callback of `get_record`. -/
def getRecordCb (argv : List CStr) : RecordT F :=
  let hour := Mydb.scanU argv 4 0
  let min := Mydb.scanU argv 5 0
  let sec := Mydb.scanU argv 6 0
  { tstamp := ⟨min, hour, sec⟩
    temp := fl.scan (argv.getD 7 [])
    hum := fl.scan (argv.getD 8 [])
    stampMin := Mydb.scanU argv 9 0
    fullTimeStr := toS hour ++ ":".toList ++ toS min ++ ":".toList ++ toS sec
    timeStr := toS hour ++ ":".toList ++ toS min }

/-- The callback of `get_record_dates`: both assignments are to `date_str`. -/
def getRecordDatesCb (argv : List CStr) : DateT :=
  let date := Mydb.scanU argv 0 0
  let month := Mydb.scanU argv 1 0
  let year := Mydb.scanU argv 2 0
  let tmp : DateT := ⟨date, month, year, [], []⟩
  let tmp := { tmp with dateStr := toS date ++ ".".toList ++ toS month }
  { tmp with dateStr := toS date ++ ".".toList ++ toS month ++ ".".toList ++ toS year }

/-- The statement of `get_th_val`; a year before 2020 is not asked for. -/
def whereRecord (d : DateT) (start stop : ThTime) (r : Nat × ThRow) : Bool :=
  ThDb.whereThVal ⟨d.date, d.month, d.year, d.fullDateStr, d.dateStr⟩ start stop r

/-- `false` when it throws; what the callback has pushed stays in `vec`. -/
def getRecord (fd : Bool) (rows : List (Nat × ThRow)) (q : Query) (d : DateT) (start stop : ThTime)
    (vec : List (RecordT F)) : Bool × List (RecordT F) :=
  if !fd then (false, vec)
  else (decide (q.res = .ok), vec ++ (q.rows (rows.filter (whereRecord d start stop))).map fun r =>
    getRecordCb fl (ThDb.argv r))

def getRecordDates (fd : Bool) (rows : List (Nat × ThRow)) (q : Query) (vec : List DateT) :
    Bool × List DateT :=
  if !fd then (false, vec)
  else (decide (q.res = .ok), vec ++ (q.rows (ThDb.selectDates rows)).map fun d =>
    getRecordDatesCb [dec d.1, dec d.2.1, dec d.2.2])

/-! ## The same rows and the same numbers -/

/-- The columns a date is selected from. -/
def dateArgv (r : ThRow) : List CStr := [dec r.date, dec r.month, dec r.year]

/-- **Only the texts can differ**: the records of a query have the numbers of the first
version's, one for one. -/
theorem getRecord_numbers (db : ThDb F) (q : Query) (d : DateT) (start stop : ThTime)
    (hfd : db.fd = true) :
    (getRecord fl db.fd db.tempHum.rows q d start stop []).2.map
        (fun r => (r.tstamp, r.temp, r.hum, r.stampMin)) =
      (db.getThVal fl q ⟨d.date, d.month, d.year, d.fullDateStr, d.dateStr⟩ start stop).2.thRecords.map
        (fun r => (r.tstamp, r.temp, r.hum, r.stampMin)) := by
  simp only [getRecord, ThDb.getThVal, hfd, Bool.not_true, Bool.false_eq_true, if_false,
    List.nil_append, List.map_map]
  rfl

/-! ## The texts of one row -/

/-- The four texts of a row are those of `get_th_val_cb` and `get_th_dates_cb`. -/
structure RendersAsV1 (r : Nat × ThRow) : Prop where
  timeStr : (getRecordCb fl (ThDb.argv r)).timeStr = (ThDb.getThValCb fl (ThDb.argv r)).timeStr
  fullTimeStr :
    (getRecordCb fl (ThDb.argv r)).fullTimeStr = (ThDb.getThValCb fl (ThDb.argv r)).fullTimeStr
  dateStr : (getRecordDatesCb (dateArgv r.2)).dateStr = (ThDb.getThDatesCb (dateArgv r.2)).dateStr
  fullDateStr :
    (getRecordDatesCb (dateArgv r.2)).fullDateStr = (ThDb.getThDatesCb (dateArgv r.2)).fullDateStr

theorem timeStr_eq_iff (argv : List CStr) :
    (getRecordCb fl argv).timeStr = (ThDb.getThValCb fl argv).timeStr ↔
      10 ≤ (Mydb.scanU argv 4 0).toNat ∧ 10 ≤ (Mydb.scanU argv 5 0).toNat := by
  simp only [getRecordCb, ThDb.getThValCb, toS, List.append_assoc, dec2_eq_decPad]
  rw [dec_append_eq_iff (Nat.le_refl 2) _ _ (length_dec_le_decPad _ _), eq_comm (a := dec _),
    decPad_eq_dec_iff _ _ (Nat.le_refl 2)]
  exact Iff.rfl

theorem fullTimeStr_eq_iff (argv : List CStr) :
    (getRecordCb fl argv).fullTimeStr = (ThDb.getThValCb fl argv).fullTimeStr ↔
      10 ≤ (Mydb.scanU argv 4 0).toNat ∧ 10 ≤ (Mydb.scanU argv 5 0).toNat ∧
        10 ≤ (Mydb.scanU argv 6 0).toNat := by
  have hmin := length_dec_le_decPad 2 (Mydb.scanU argv 5 0).toNat
  have hsec := length_dec_le_decPad 2 (Mydb.scanU argv 6 0).toNat
  simp only [getRecordCb, ThDb.getThValCb, toS, List.append_assoc, dec2_eq_decPad]
  rw [dec_append_eq_iff (Nat.le_refl 2) _ _ (by simp only [List.length_append]; omega),
    dec_append_eq_iff (Nat.le_refl 2) _ _ hsec, eq_comm (a := dec _),
    decPad_eq_dec_iff _ _ (Nat.le_refl 2)]
  exact Iff.rfl

end

theorem count_dot_dec (n : Nat) : (dec n).count '.' = 0 := by
  refine List.count_eq_zero.mpr fun h => ?_
  exact absurd (isDigit_of_mem_dec n '.' h) (by decide)

theorem count_dot_decPad (w n : Nat) : (decPad w n).count '.' = 0 := by
  refine List.count_eq_zero.mpr fun h => ?_
  exact absurd (isDigit_of_mem_decPad w n '.' h) (by decide)

/-- A text with two dots is not one with one. -/
theorem dateStr_ne (argv : List CStr) :
    (getRecordDatesCb argv).dateStr ≠ (ThDb.getThDatesCb argv).dateStr := by
  intro h
  have hcount := congrArg (List.count '.') h
  simp only [getRecordDatesCb, ThDb.getThDatesCb, toS, dec2_eq_decPad, List.count_append,
    count_dot_dec, count_dot_decPad] at hcount
  exact absurd hcount (by decide)

/-- `full_date_str` is never assigned. -/
theorem fullDateStr_ne (argv : List CStr) :
    (getRecordDatesCb argv).fullDateStr ≠ (ThDb.getThDatesCb argv).fullDateStr := by
  intro h
  have hnil := List.append_eq_nil_iff.mp h.symm
  exact absurd (List.append_eq_nil_iff.mp hnil.2).2 (dec_ne_nil _)

/-- What ends in `date_str` is the full date, without its zeros. -/
theorem dateStr_eq_fullDateStr_iff (argv : List CStr) :
    (getRecordDatesCb argv).dateStr = (ThDb.getThDatesCb argv).fullDateStr ↔
      10 ≤ (Mydb.scanU argv 0 0).toNat ∧ 10 ≤ (Mydb.scanU argv 1 0).toNat ∧
        1000 ≤ (Mydb.scanU argv 2 0).toNat := by
  have hmonth := length_dec_le_decPad 2 (Mydb.scanU argv 1 0).toNat
  have hyear := length_dec_le_decPad 4 (Mydb.scanU argv 2 0).toNat
  simp only [getRecordDatesCb, ThDb.getThDatesCb, toS, List.append_assoc, dec2_eq_decPad]
  rw [dec_append_eq_iff (Nat.le_refl 2) _ _ (by simp only [List.length_append]; omega),
    dec_append_eq_iff (Nat.le_refl 2) _ _ hyear, eq_comm (a := dec _),
    decPad_eq_dec_iff _ _ (by decide)]
  exact Iff.rfl

/-! ## Stored rows -/

section
variable {F : Type} (fl : FloatFmt F)

/-- The numbers a callback reads are those of the clock when the row was stored. -/
theorem scanU_insertedRow (id : Nat) (ct : LocalTime) (temp hum : F) :
    (Mydb.scanU (ThDb.argv (id, ThDb.insertedRow fl ct temp hum)) 4 0).toNat = ct.hour ∧
      (Mydb.scanU (ThDb.argv (id, ThDb.insertedRow fl ct temp hum)) 5 0).toNat = ct.min ∧
      (Mydb.scanU (ThDb.argv (id, ThDb.insertedRow fl ct temp hum)) 6 0).toNat = ct.sec := by
  have hh := ct.hour_lt
  have hm := ct.min_lt
  have hs := ct.sec_le
  refine ⟨?_, ?_, ?_⟩
  all_goals
    simp only [Mydb.scanU, ThDb.argv, ThDb.insertedRow, List.getD_cons_succ, List.getD_cons_zero,
      sqlInteger_dec2, scanDec_dec, UInt32.toNat_ofNat']
    omega

/-- **No stored row has the texts of the first version.**  Its times have, exactly when hour,
minute and second are at least 10; its two dates never. -/
theorem rendersAsV1_never (id : Nat) (ct : LocalTime) (temp hum : F) :
    let r := (id, ThDb.insertedRow fl ct temp hum)
    ¬ RendersAsV1 fl r ∧
      ((getRecordCb fl (ThDb.argv r)).timeStr = (ThDb.getThValCb fl (ThDb.argv r)).timeStr ↔
        10 ≤ ct.hour ∧ 10 ≤ ct.min) ∧
      ((getRecordCb fl (ThDb.argv r)).fullTimeStr =
          (ThDb.getThValCb fl (ThDb.argv r)).fullTimeStr ↔
        10 ≤ ct.hour ∧ 10 ≤ ct.min ∧ 10 ≤ ct.sec) ∧
      (getRecordDatesCb (dateArgv r.2)).dateStr ≠ (ThDb.getThDatesCb (dateArgv r.2)).dateStr ∧
      (getRecordDatesCb (dateArgv r.2)).fullDateStr ≠
        (ThDb.getThDatesCb (dateArgv r.2)).fullDateStr := by
  intro r
  obtain ⟨hhour, hmin, hsec⟩ := scanU_insertedRow fl id ct temp hum
  refine ⟨fun h => dateStr_ne _ h.dateStr, ?_, ?_, dateStr_ne _, fullDateStr_ne _⟩
  · rw [timeStr_eq_iff, hhour, hmin]
  · rw [fullTimeStr_eq_iff, hhour, hmin, hsec]

end

/-- A morning in May 2021. -/
def nineOFive : LocalTime :=
  ⟨7, 5, 2021, 9, 5, 3, by decide, by decide, by decide, by decide, by decide⟩

/-- `9:5`, `9:5:3`, `7.5.2021` and an empty text stand for `09:05`, `09:05:03`, `07.05` and
`07.05.2021`. -/
theorem nineOFive_differs : ¬ RendersAsV1 natFmt (1, ThDb.insertedRow natFmt nineOFive 20 50) := by
  intro h
  exact absurd h.timeStr (by decide)

end Growbox.TempHumTable
