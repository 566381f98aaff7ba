import Growbox.App
import Growbox.TempHum

/-!
# `app.cpp`: the climate page

The three handlers that read the table: the dates there are, the rows of one day,
the rows of the last half hour.  With the handlers that save settings they are
the ones whose reply is built from several results, and `reply_real_iff` says when
a reply of code 0 is the truth.  The dates are listed with their year, but one
before 2020 is not asked for again: `listed_dates_lead_to_records`.  `Reply` sets a
handler that computes its reply apart from its locking in `AppLocks`.
-/

namespace Growbox

open Decimal EventRun

/-! ## The handlers -/

/-- `th_data_t` -/
structure ThData (F : Type) where
  time : CStr
  temp : F
  hum : F

structure ThDataResp (F : Type) where
  res : Res
  pollPeriod : Int32
  arr : Option (List (ThData F))

structure ThAvailResp where
  res : Res
  arr : Option (List CStr)

section
variable {F : Type} (fl : FloatFmt F)

def memoryText : CStr := "memory allocation failed".toList

def dbRequestText : CStr := "db request failed".toList

/-- The constructor has zeroed the result, so its code is 0 until a failure sets it;
the text of a failed request is overwritten. -/
def Reply.appGetAvailThDates (q : Query) (callocOk : Bool) (db : ThDb F) : ThAvailResp × ThDb F :=
  let (ret, db) := db.getThDates q
  let res : Res := if ret = .ok then ⟨0, []⟩ else ⟨-1, dbRequestText⟩
  let resp : ThAvailResp :=
    if callocOk then ⟨{ res with text := okText }, some (db.thDates.map ThDate.fullDateStr)⟩
    else ⟨⟨-2, memoryText⟩, none⟩
  (resp, { db with thDates := [] })

/-- One element of the copy loop. -/
def ThTable.data (r : ThTable F) : ThData F := ⟨r.timeStr, r.temp, r.hum⟩

/-- The end of both handlers that copy records; the vector is cleared on success only. -/
def copyRecords (callocOk : Bool) (pollPeriod : Int32) (r : MydbRes × ThDb F) :
    ThDataResp F × ThDb F :=
  if r.1 = .ok then
    if callocOk then
      (⟨⟨0, okText⟩, pollPeriod, some (r.2.thRecords.map ThTable.data)⟩, { r.2 with thRecords := [] })
    else (⟨⟨-2, memoryText⟩, pollPeriod, none⟩, r.2)
  else (⟨⟨-1, dbRequestText⟩, pollPeriod, none⟩, r.2)

/-- `req_date`: a year before 2020 counts as none. -/
def reqDate (req : ThDateReq) : ThDate :=
  ⟨req.day, req.month, if 2020 ≤ req.year then req.year else 0, [], []⟩

def dayStart : ThTime := ⟨0, 0, 0⟩

def dayEnd : ThTime := ⟨59, 23, 0⟩

def Reply.appGetThDayData (q : Query) (callocOk : Bool) (json : Body) (db : ThDb F) :
    ThDataResp F × ThDb F :=
  match jsonToThDate json with
  | .error e => (⟨⟨e.code, jsontGetErrText e⟩, -1, none⟩, db)
  | .ok req => copyRecords callocOk (-1) (db.getThVal fl q (reqDate req) dayStart dayEnd)

/-- From half an hour ago to now; in the first half hour of a day the hour wraps. -/
def latestTimes (ct : LocalTime) : ThTime × ThTime :=
  let hour := UInt32.ofNat ct.hour
  let min := UInt32.ofNat ct.min
  (if 30 < ct.min then ⟨min - 30, hour, 0⟩ else ⟨30 + min, hour - 1, 0⟩, ⟨min, hour, 0⟩)

/-- `period` is what `get_th_period` reads, `none` when it fails; the reply then keeps
the `-1` of the constructor. -/
def Reply.appGetThData (ct : Option LocalTime) (q : Query) (period : Option UInt64) (callocOk : Bool)
    (flag : ThFlag) (db : ThDb F) : ThDataResp F × ThDb F :=
  match ct with
  | none => (⟨⟨-1, "get_local_time failed".toList⟩, -1, none⟩, db)
  | some ct =>
    match flag with
    | .latest =>
      let date : ThDate :=
        ⟨UInt32.ofNat ct.mday, UInt32.ofNat ct.month, ct.year.toUInt32, [], []⟩
      let r := db.getThVal fl q date (latestTimes ct).1 (latestTimes ct).2
      let pollPeriod : Int32 :=
        match period with
        | some tmp => (tmp / 60).toUInt32.toInt32
        | none => -1
      copyRecords callocOk pollPeriod r
    | .week | .month => (⟨⟨0, okText⟩, -1, none⟩, db)

/-! ## When success is real -/

/-- The handlers whose reply is put together from several results, with the outcomes of
what they call. -/
inductive Handler where
  | setCoolersTime (dbOk : Bool) (json : Body) (flag : ClFlag)
  | saveCoolersPower (dbOk i2cOk : Bool) (res0 : Int) (json : Body)
  | setThPeriod (dbOk : Bool) (json : Body)
  | getAvailThDates (q : Query) (callocOk : Bool)
  | getThDayData (q : Query) (callocOk : Bool) (json : Body)
  | getLatest (ct : Option LocalTime) (q : Query) (period : Option UInt64) (callocOk : Bool)

namespace Handler

/-- The result part of the reply. -/
def reply (srv : Server) (db : ThDb F) : Handler → Res
  | .setCoolersTime dbOk json flag => (appSetCoolersTime dbOk json flag srv).1
  | .saveCoolersPower dbOk i2cOk res0 json => (appSaveCoolersPower dbOk i2cOk res0 json srv).1
  | .setThPeriod dbOk json => (appSetThPeriod dbOk json srv).1
  | .getAvailThDates q callocOk => (Reply.appGetAvailThDates q callocOk db).1.res
  | .getThDayData q callocOk json => (Reply.appGetThDayData fl q callocOk json db).1.res
  | .getLatest ct q period callocOk => (Reply.appGetThData fl ct q period callocOk .latest db).1.res

/-- The query can be sent and is answered. -/
def QueryDone (q : Query) (db : ThDb F) : Prop := db.fd = true ∧ q = .ok

/-- The body is decoded, the update made, and a cooler that is on gets its power. -/
def PowerSaved (dbOk i2cOk : Bool) (json : Body) (srv : Server) : Prop :=
  ∃ p, jsonToCoolersPower json = .ok p ∧ ¬ srv.db.UpdateFails dbOk ∧
    (srv.app.clOn p.target.1 = true → i2cOk = true)

/-- What the last half hour takes besides the poll period. -/
def LatestCopied (ct : Option LocalTime) (q : Query) (callocOk : Bool) (db : ThDb F) : Prop :=
  ct.isSome = true ∧ QueryDone q db ∧ callocOk = true

/-- Every step of the operation succeeded. -/
def StepsOk (srv : Server) (db : ThDb F) : Handler → Prop
  | .setCoolersTime dbOk json _ =>
    (∃ tm, jsonToMyTime json = .ok tm) ∧ ¬ srv.db.UpdateFails dbOk
  | .saveCoolersPower dbOk i2cOk _ json => PowerSaved dbOk i2cOk json srv
  | .setThPeriod dbOk json =>
    (∃ m, jsonToThPeriod json = .ok m ∧ 180 ≤ thPeriodSec m) ∧ ¬ srv.db.UpdateFails dbOk
  | .getAvailThDates q callocOk => QueryDone q db ∧ callocOk = true
  | .getThDayData q callocOk json =>
    (∃ req, jsonToThDate json = .ok req) ∧ QueryDone q db ∧ callocOk = true
  | .getLatest ct q period callocOk => LatestCopied ct q callocOk db ∧ period.isSome = true

/-- Code 0, the text `OK` and success of every step go together. -/
def RepliesTruly (srv : Server) (db : ThDb F) (h : Handler) : Prop :=
  ((h.reply fl srv db).code = 0 ↔ (h.reply fl srv db).text = okText) ∧
    ((h.reply fl srv db).code = 0 ↔ h.StepsOk srv db)

/-- A saved power finds 0 in the local that was never set; a failed query for the dates
fails in memory too; the poll period is read when everything else goes well. -/
def Truthful (srv : Server) (db : ThDb F) : Handler → Prop
  | .saveCoolersPower dbOk i2cOk res0 json => PowerSaved dbOk i2cOk json srv → res0 = 0
  | .getAvailThDates q callocOk => QueryDone q db ∨ callocOk = false
  | .getLatest ct q period callocOk => LatestCopied ct q callocOk db → period.isSome = true
  | _ => True

end Handler

/-- An error in the code and in the text. -/
structure Res.IsError (r : Res) : Prop where
  code : r.code ≠ 0
  text : r.text ≠ okText

/-- The reply is `good` when the steps succeed, and an error otherwise. -/
def Answers (steps : Prop) (good r : Res) : Prop := (steps ∧ r = good) ∨ (¬ steps ∧ r.IsError)

theorem isError_of {code : Int} {text : CStr} (hc : code ≠ 0) (ht : text ≠ okText) :
    Res.IsError ⟨code, text⟩ := ⟨hc, ht⟩

theorem isError_jerr (e : Jerr) {code : Int} (h : code ≠ 0) :
    Res.IsError ⟨code, jsontGetErrText e⟩ := isError_of h (jsontGetErrText_ne_ok e)

/-- Where the steps that the reply depends on succeed, its code must be 0 and the rest must
have succeeded too. -/
theorem Answers.truly_iff {steps all : Prop} {good r : Res} (h : Answers steps good r)
    (hgood : good.text = okText) (hall : all → steps) :
    ((r.code = 0 ↔ r.text = okText) ∧ (r.code = 0 ↔ all)) ↔ (steps → good.code = 0 ∧ all) := by
  rcases h with ⟨hs, rfl⟩ | ⟨hs, hr⟩
  · constructor
    · rintro ⟨h1, h2⟩ _
      have hc := h1.mpr hgood
      exact ⟨hc, h2.mp hc⟩
    · intro h
      obtain ⟨hc, ha⟩ := h hs
      exact ⟨iff_of_true hc hgood, iff_of_true hc ha⟩
  · constructor
    · exact fun _ h => absurd h hs
    · exact fun _ => ⟨iff_of_false hr.code hr.text, iff_of_false hr.code fun h => hs (hall h)⟩

/-- The body is decoded, then the database is updated: the shape of the three that save. -/
theorem Mydb.update_ok_iff (dbOk : Bool) (db : Mydb) (sets : List (SysCol × CStr)) :
    (db.update dbOk sets).1 = .ok ↔ ¬ db.UpdateFails dbOk := by
  constructor
  · exact fun h hf => (Mydb.update_of_fails hf sets).1 h
  · intro h
    obtain ⟨rows, -, hu⟩ := Mydb.update_of_not_fails h sets
    rw [hu]

theorem appSetCoolersTime_answers (dbOk : Bool) (json : Body) (flag : ClFlag) (srv : Server) :
    Answers ((∃ tm, jsonToMyTime json = .ok tm) ∧ ¬ srv.db.UpdateFails dbOk) ⟨0, okText⟩
      (appSetCoolersTime dbOk json flag srv).1 := by
  unfold appSetCoolersTime
  cases jsonToMyTime json with
  | error e =>
    refine .inr ⟨?_, isError_jerr e (by decide)⟩
    rintro ⟨⟨tm, htm⟩, -⟩
    cases htm
  | ok tm =>
    have hiff := Mydb.update_ok_iff dbOk srv.db (Mydb.setClTimeSql flag.dest.2 tm)
    simp only [saveNewCoolersTime, Mydb.setClTime]
    generalize srv.db.update dbOk (Mydb.setClTimeSql flag.dest.2 tm) = u at hiff
    obtain ⟨r, db⟩ := u
    cases r with
    | ok => exact .inl ⟨⟨⟨tm, rfl⟩, hiff.mp rfl⟩, rfl⟩
    | err | notOpened =>
      refine .inr ⟨fun h => ?_, isError_of (by decide) (by decide)⟩
      cases hiff.mpr h.2

theorem saveCoolerPower_answers (dbOk i2cOk : Bool) (res0 : Int) (c : Cooler) (power : UInt8)
    (srv : Server) :
    Answers (¬ srv.db.UpdateFails dbOk ∧ (srv.app.clOn c = true → i2cOk = true)) ⟨res0, okText⟩
      (saveCoolerPower dbOk i2cOk res0 c power srv).1 := by
  have hiff := Mydb.update_ok_iff dbOk srv.db [(Mydb.powerCol c, dec power.toNat)]
  simp only [saveCoolerPower, Mydb.saveClPower]
  generalize srv.db.update dbOk [(Mydb.powerCol c, dec power.toNat)] = u at hiff
  obtain ⟨r, db⟩ := u
  cases r with
  | ok =>
    have hdb := hiff.mp rfl
    simp only [AppData.clOn_setClPower, setCoolersPower_fst]
    cases srv.app.clOn c with
    | false => exact .inl ⟨⟨hdb, fun h => absurd h Bool.false_ne_true⟩, rfl⟩
    | true =>
      cases i2cOk with
      | true => exact .inl ⟨⟨hdb, fun _ => rfl⟩, rfl⟩
      | false =>
        exact .inr ⟨fun h => absurd (h.2 rfl) Bool.false_ne_true, isError_of (by decide) (by decide)⟩
  | err | notOpened =>
    refine .inr ⟨fun h => ?_, isError_of (by decide) (by decide)⟩
    cases hiff.mpr h.1

theorem appSaveCoolersPower_answers (dbOk i2cOk : Bool) (res0 : Int) (json : Body) (srv : Server) :
    Answers (Handler.PowerSaved dbOk i2cOk json srv) ⟨res0, okText⟩
      (appSaveCoolersPower dbOk i2cOk res0 json srv).1 := by
  unfold appSaveCoolersPower Handler.PowerSaved
  cases jsonToCoolersPower json with
  | error e =>
    refine .inr ⟨?_, isError_jerr e (by decide)⟩
    rintro ⟨p, hp, -⟩
    cases hp
  | ok p =>
    rcases saveCoolerPower_answers dbOk i2cOk res0 p.target.1 p.target.2 srv with ⟨h, hr⟩ | ⟨h, hr⟩
    · exact .inl ⟨⟨p, rfl, h⟩, hr⟩
    · refine .inr ⟨?_, hr⟩
      rintro ⟨p', hp, h'⟩
      cases hp
      exact h h'

theorem appSetThPeriod_answers (dbOk : Bool) (json : Body) (srv : Server) :
    Answers ((∃ m, jsonToThPeriod json = .ok m ∧ 180 ≤ thPeriodSec m) ∧ ¬ srv.db.UpdateFails dbOk)
      ⟨0, okText⟩ (appSetThPeriod dbOk json srv).1 := by
  unfold appSetThPeriod
  cases jsonToThPeriod json with
  | error e =>
    refine .inr ⟨?_, isError_jerr e e.code_ne_zero⟩
    rintro ⟨⟨m, hm, -⟩, -⟩
    cases hm
  | ok m =>
    simp only
    by_cases hmin : thPeriodSec m < 180
    · rw [if_pos hmin]
      refine .inr ⟨?_, isError_of (by decide) (by decide)⟩
      rintro ⟨⟨m', hm, hle⟩, -⟩
      cases hm
      exact absurd hmin (UInt64.not_lt.mpr hle)
    · rw [if_neg hmin]
      have hiff := Mydb.update_ok_iff dbOk srv.db [(.thPollPeriod, dec (thPeriodSec m).toNat)]
      simp only [Mydb.setThPeriod]
      generalize srv.db.update dbOk _ = u at hiff
      obtain ⟨r, db⟩ := u
      cases r with
      | ok => exact .inl ⟨⟨⟨m, rfl, UInt64.not_lt.mp hmin⟩, hiff.mp rfl⟩, rfl⟩
      | err | notOpened =>
        refine .inr ⟨fun h => ?_, isError_of (by decide) (by decide)⟩
        cases hiff.mpr h.2

theorem getThVal_ok_iff (q : Query) (date : ThDate) (start stop : ThTime) (db : ThDb F) :
    (db.getThVal fl q date start stop).1 = .ok ↔ Handler.QueryDone q db := by
  unfold ThDb.getThVal Handler.QueryDone
  cases db.fd <;> cases q <;> simp [Query.res]

theorem getThDates_ok_iff (q : Query) (db : ThDb F) :
    (db.getThDates q).1 = .ok ↔ Handler.QueryDone q db := by
  unfold ThDb.getThDates Handler.QueryDone
  cases db.fd <;> cases q <;> simp [Query.res]

theorem copyRecords_answers (callocOk : Bool) (pollPeriod : Int32) (r : MydbRes × ThDb F) :
    Answers (r.1 = .ok ∧ callocOk = true) ⟨0, okText⟩ (copyRecords callocOk pollPeriod r).1.res := by
  unfold copyRecords
  by_cases h : r.1 = .ok
  · rw [if_pos h]
    cases callocOk with
    | true => exact .inl ⟨⟨h, rfl⟩, rfl⟩
    | false => exact .inr ⟨fun hh => Bool.false_ne_true hh.2, isError_of (by decide) (by decide)⟩
  · rw [if_neg h]
    exact .inr ⟨fun hh => h hh.1, isError_of (by decide) (by decide)⟩

theorem appGetThDayData_answers (q : Query) (callocOk : Bool) (json : Body) (db : ThDb F) :
    Answers ((∃ req, jsonToThDate json = .ok req) ∧ Handler.QueryDone q db ∧ callocOk = true)
      ⟨0, okText⟩ (Reply.appGetThDayData fl q callocOk json db).1.res := by
  unfold Reply.appGetThDayData
  cases jsonToThDate json with
  | error e =>
    refine .inr ⟨?_, isError_jerr e e.code_ne_zero⟩
    rintro ⟨⟨req, hreq⟩, -⟩
    cases hreq
  | ok req =>
    have hiff := getThVal_ok_iff fl q (reqDate req) dayStart dayEnd db
    rcases copyRecords_answers callocOk (-1) (db.getThVal fl q (reqDate req) dayStart dayEnd) with
      ⟨⟨h, hc⟩, hr⟩ | ⟨h, hr⟩
    · exact .inl ⟨⟨⟨req, rfl⟩, hiff.mp h, hc⟩, hr⟩
    · exact .inr ⟨fun hh => h ⟨hiff.mpr hh.2.1, hh.2.2⟩, hr⟩

theorem appGetThData_latest_answers (ct : Option LocalTime) (q : Query) (period : Option UInt64)
    (callocOk : Bool) (db : ThDb F) :
    Answers (Handler.LatestCopied ct q callocOk db) ⟨0, okText⟩
      (Reply.appGetThData fl ct q period callocOk .latest db).1.res := by
  unfold Reply.appGetThData Handler.LatestCopied
  cases ct with
  | none =>
    exact .inr ⟨fun h => Bool.false_ne_true h.1, isError_of (by decide) (by decide)⟩
  | some ct =>
    simp only
    generalize hr : db.getThVal fl q _ _ _ = r
    have hiff : r.1 = .ok ↔ Handler.QueryDone q db := hr ▸ getThVal_ok_iff fl q _ _ _ db
    rw [← hiff]
    rcases copyRecords_answers callocOk _ r with ⟨h, hres⟩ | ⟨h, hres⟩
    · exact .inl ⟨⟨rfl, h⟩, hres⟩
    · exact .inr ⟨fun hh => h hh.2, hres⟩

/-- The text is `OK` whenever the memory for the dates is there. -/
theorem appGetAvailThDates_res (q : Query) (callocOk : Bool) (db : ThDb F) :
    (Handler.QueryDone q db → callocOk = true →
        (Reply.appGetAvailThDates q callocOk db).1.res = ⟨0, okText⟩) ∧
      (¬ Handler.QueryDone q db → callocOk = true →
        (Reply.appGetAvailThDates q callocOk db).1.res = ⟨-1, okText⟩) ∧
      (callocOk = false → (Reply.appGetAvailThDates q callocOk db).1.res = ⟨-2, memoryText⟩) := by
  have hiff := getThDates_ok_iff q db
  unfold Reply.appGetAvailThDates
  generalize db.getThDates q = r at hiff
  obtain ⟨ret, db'⟩ := r
  refine ⟨fun hq hc => ?_, fun hq hc => ?_, fun hc => ?_⟩
  · simp only [show ret = .ok from hiff.mpr hq, hc, if_true]
  · simp only [show ret ≠ .ok from fun h => hq (hiff.mp h), hc, if_true, if_false]
  · simp only [hc, Bool.false_eq_true, if_false]

theorem appGetAvailThDates_truly_iff (q : Query) (callocOk : Bool) (srv : Server) (db : ThDb F) :
    (Handler.getAvailThDates q callocOk).RepliesTruly fl srv db ↔
      Handler.QueryDone q db ∨ callocOk = false := by
  obtain ⟨hdone, hfailed, hmemory⟩ := appGetAvailThDates_res q callocOk db
  show ((Reply.appGetAvailThDates q callocOk db).1.res.code = 0 ↔
      (Reply.appGetAvailThDates q callocOk db).1.res.text = okText) ∧
    ((Reply.appGetAvailThDates q callocOk db).1.res.code = 0 ↔ _ ∧ _) ↔ _
  cases callocOk with
  | false =>
    rw [hmemory rfl]
    refine iff_of_true ⟨iff_of_false (by decide) (by decide), ?_⟩ (.inr rfl)
    exact iff_of_false (by decide) fun h => Bool.false_ne_true h.2
  | true =>
    by_cases hq : Handler.QueryDone q db
    · rw [hdone hq rfl]
      exact iff_of_true ⟨iff_of_true rfl rfl, iff_of_true rfl ⟨hq, rfl⟩⟩ (.inl hq)
    · rw [hfailed hq rfl]
      refine iff_of_false (fun h => ?_) fun h => h.elim hq Bool.noConfusion
      exact absurd (h.1.mpr rfl) (by decide)

/-- **A reply tells the truth exactly when the handler is `Truthful`.** -/
theorem reply_real_iff (srv : Server) (db : ThDb F) (h : Handler) :
    h.RepliesTruly fl srv db ↔ h.Truthful srv db := by
  cases h with
  | setCoolersTime dbOk json flag =>
    refine ((appSetCoolersTime_answers dbOk json flag srv).truly_iff rfl id).trans ?_
    exact iff_true_intro fun hs => ⟨rfl, hs⟩
  | saveCoolersPower dbOk i2cOk res0 json =>
    refine ((appSaveCoolersPower_answers dbOk i2cOk res0 json srv).truly_iff rfl id).trans ?_
    exact ⟨fun h hs => (h hs).1, fun h hs => ⟨h hs, hs⟩⟩
  | setThPeriod dbOk json =>
    refine ((appSetThPeriod_answers dbOk json srv).truly_iff rfl id).trans ?_
    exact iff_true_intro fun hs => ⟨rfl, hs⟩
  | getAvailThDates q callocOk => exact appGetAvailThDates_truly_iff fl q callocOk srv db
  | getThDayData q callocOk json =>
    refine ((appGetThDayData_answers fl q callocOk json db).truly_iff rfl id).trans ?_
    exact iff_true_intro fun hs => ⟨rfl, hs⟩
  | getLatest ct q period callocOk =>
    refine ((appGetThData_latest_answers fl ct q period callocOk db).truly_iff rfl
      And.left).trans ?_
    exact ⟨fun h hs => (h hs).2.2, fun h hs => ⟨rfl, hs, h hs⟩⟩

end

/-- Numbers in place of `float`, printed without a fraction. -/
def natFmt : FloatFmt Nat := ⟨dec, fun s => (scanDec s).getD 0⟩

/-- A power saved without trouble is answered with the text `OK` and whatever the local
held; a failed query for the dates with `OK` and code -1. -/
theorem success_not_real :
    ¬ (Handler.saveCoolersPower true true 1
        (some (.object [("wind_in", .number 80)]))).RepliesTruly natFmt freshServer (.opened .empty) ∧
      ¬ (Handler.getAvailThDates (.failed 0) true).RepliesTruly natFmt freshServer (.opened .empty) := by
  constructor
  · rintro ⟨h, -⟩
    exact absurd (h.mpr rfl) (by decide)
  · rintro ⟨h, -⟩
    exact absurd (h.mpr rfl) (by decide)

end Growbox
