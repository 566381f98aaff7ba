import Growbox.AppClimate
import Mathlib.Data.List.Nodup

/-!
# From the list of dates to the records of one

A recorded date is stored as three numbers, listed as one text, cut apart again by
the page, sent as three numbers and asked of the table.  `dateText` is the text of
a date, `select_days_req` undoes it (`selectDaysReq_dateText`), and
`listed_dates_lead_to_records` puts the stages together.
-/

namespace Growbox

open Decimal EventRun

/-! ## The page -/

/-- `Number(text)` of a text of digits, as `JSON.stringify` writes it; `NaN` is `null` there. -/
def jsNumber (text : CStr) : CJson :=
  match scanDec text with
  | some n => .number n
  | none => .null

/-- `select_days_req` of `gb_climate.html`: `slice(0, 2)`, `slice(3, 5)` and `slice(6)`. -/
def selectDaysReq (val : CStr) : Body :=
  some (.object [("day", jsNumber (val.take 2)), ("month", jsNumber ((val.drop 3).take 2)),
    ("year", jsNumber (val.drop 6))])

/-- The size of the field of `th_adate_t` the text is copied to. -/
def thAdateSize : Nat := 16

/-! ## What is stored and what is asked for -/

/-- The text of a date, `"%02u.%02u.%04u"`. -/
def dateText (date month year : Nat) : CStr :=
  dec2 date ++ ".".toList ++ dec2 month ++ ".".toList ++ decPad 4 year

namespace ThRow

/-- The text its date is listed as. -/
def dateText (r : ThRow) : CStr := Growbox.dateText r.date r.month r.year

/-- What a handler copies of a row. -/
def data {F : Type} (fl : FloatFmt F) (r : ThRow) : ThData F :=
  ⟨dec2 r.hour ++ ":".toList ++ dec2 r.min, fl.scan r.temp, fl.scan r.hum⟩

/-- The same day and month, and from 2020 on the same year. -/
def sameDay (r s : ThRow) : Bool :=
  decide (s.date = r.date) && decide (s.month = r.month) &&
    (decide (r.year < 2020) || decide (s.year = r.year))

/-- What is known of a row that `put_th_val` has stored. -/
structure Stored (r : ThRow) : Prop where
  date_le : r.date ≤ 31
  month_le : r.month ≤ 12
  year_lt : r.year < 2 ^ 32
  hour_lt : r.hour < 24
  min_lt : r.min < 60
  stampMin_eq : r.stampMin = r.hour * 60 + r.min

end ThRow

@[simp] theorem sqlInteger_decPad (w n : Nat) : sqlInteger (decPad w n) = n := by
  rw [sqlInteger, scanDec_decPad, Option.getD_some]

@[simp] theorem sqlInteger_dec (n : Nat) : sqlInteger (dec n) = n := by
  rw [← decPad_zero, sqlInteger_decPad]

@[simp] theorem sqlInteger_dec2 (n : Nat) : sqlInteger (dec2 n) = n := by
  rw [dec2_eq_decPad, sqlInteger_decPad]

theorem insertedRow_stored {F : Type} (fl : FloatFmt F) (ct : LocalTime) (temp hum : F) :
    (ThDb.insertedRow fl ct temp hum).Stored := by
  constructor <;> simp only [ThDb.insertedRow, sqlInteger_dec, sqlInteger_dec2, sqlInteger_decPad]
  · exact ct.mday_le
  · exact ct.month_le
  · exact ct.year.toUInt32.toNat_lt
  · exact ct.hour_lt
  · exact ct.min_lt

/-! ## The text and back -/

theorem length_dec2_small {n : Nat} (h : n < 100) : (dec2 n).length = 2 := by
  have hle := (length_dec2_le_iff n 2 (by decide)).mpr h
  have := length_dec2 n
  omega

/-- The three slices of the page are the three printed numbers. -/
theorem dateText_slices {date month : Nat} (hd : date < 100) (hm : month < 100) (year : Nat) :
    (dateText date month year).take 2 = dec2 date ∧
      ((dateText date month year).drop 3).take 2 = dec2 month ∧
      (dateText date month year).drop 6 = decPad 4 year := by
  have h1 := length_dec2_small hd
  have h2 := length_dec2_small hm
  have htext : dateText date month year =
      dec2 date ++ '.' :: (dec2 month ++ '.' :: decPad 4 year) := by
    simp [dateText]
  rw [htext]
  refine ⟨?_, ?_, ?_⟩
  · rw [List.take_append_of_le_length (Nat.le_of_eq h1.symm), List.take_of_length_le (Nat.le_of_eq h1)]
  · rw [List.drop_append, h1]
    have : (dec2 date).drop 3 = [] := List.drop_eq_nil_of_le (by omega)
    rw [this, List.nil_append]
    show (dec2 month ++ _).take 2 = _
    rw [List.take_append_of_le_length (Nat.le_of_eq h2.symm), List.take_of_length_le (Nat.le_of_eq h2)]
  · rw [List.drop_append, h1]
    have : (dec2 date).drop 6 = [] := List.drop_eq_nil_of_le (by omega)
    rw [this, List.nil_append]
    show (dec2 month ++ _).drop 3 = _
    rw [List.drop_append, h2]
    have : (dec2 month).drop 3 = [] := List.drop_eq_nil_of_le (by omega)
    rw [this, List.nil_append]
    rfl

theorem jsNumber_dec2 (n : Nat) : jsNumber (dec2 n) = .number n := by
  rw [jsNumber, scanDec_dec2]

theorem jsNumber_decPad (w n : Nat) : jsNumber (decPad w n) = .number n := by
  rw [jsNumber, scanDec_decPad]

/-- The request made from a listed text names its date. -/
theorem selectDaysReq_dateText {date month : Nat} (hd : date < 100) (hm : month < 100) (year : Nat) :
    selectDaysReq (dateText date month year) =
      some (.object [("day", .number date), ("month", .number month), ("year", .number year)]) := by
  obtain ⟨h1, h2, h3⟩ := dateText_slices hd hm year
  rw [selectDaysReq, h1, h2, h3, jsNumber_dec2, jsNumber_dec2, jsNumber_decPad]

theorem getJsonObjUint32_natCast {root : CJson} {name : String} {n : Nat}
    (h : getObjectItem root name = some (.number n)) :
    getJsonObjUint32 root name = some (UInt32.ofNat n) := by
  unfold getJsonObjUint32
  rw [h]
  show some (Int32.ofInt ((n : Int).tdiv 1)).toUInt32 = _
  rw [Int.tdiv_one, toUInt32_ofInt_natCast]

theorem jsonToThDate_numbers (date month year : Nat) :
    jsonToThDate (some (.object [("day", .number date), ("month", .number month),
        ("year", .number year)])) =
      .ok ⟨UInt32.ofNat date, UInt32.ofNat month, UInt32.ofNat year⟩ := by
  unfold jsonToThDate withRoot
  simp only
  rw [getJsonObjUint32_natCast (n := date) rfl, getJsonObjUint32_natCast (n := month) rfl,
    getJsonObjUint32_natCast (n := year) rfl]
  rfl

/-- Different dates have different texts. -/
theorem dateText_inj {d m y d' m' y' : Nat} (hd : d < 100) (hm : m < 100) (hd' : d' < 100)
    (hm' : m' < 100) (h : dateText d m y = dateText d' m' y') : d = d' ∧ m = m' ∧ y = y' := by
  obtain ⟨h1, h2, h3⟩ := dateText_slices hd hm y
  obtain ⟨h1', h2', h3'⟩ := dateText_slices hd' hm' y'
  rw [h] at h1 h2 h3
  have e1 := congrArg scanDec (h1.symm.trans h1')
  have e2 := congrArg scanDec (h2.symm.trans h2')
  have e3 := congrArg scanDec (h3.symm.trans h3')
  rw [scanDec_dec2, scanDec_dec2] at e1 e2
  rw [scanDec_decPad, scanDec_decPad] at e3
  exact ⟨Option.some.inj e1, Option.some.inj e2, Option.some.inj e3⟩

/-- A text is one byte too long for its field from ten digits of the year on. -/
theorem dateText_fits_iff {date month : Nat} (hd : date < 100) (hm : month < 100) (year : Nat) :
    (dateText date month year).length + 1 ≤ thAdateSize ↔ year < 10 ^ 9 := by
  have h1 := length_dec2_small hd
  have h2 := length_dec2_small hm
  have h3 := length_decPad 4 year
  have h4 := length_dec_le_iff year 9 (by decide)
  have hlen : (dateText date month year).length = 6 + (decPad 4 year).length := by
    simp only [dateText, List.length_append, h1, h2]
    show 2 + 1 + 2 + 1 + _ = _
    omega
  rw [hlen, h3, thAdateSize, ← h4]
  omega

/-! ## The queries -/

theorem scanU_dec_nat (argv : List CStr) (idx : Nat) (field : UInt32) (n : Nat)
    (h : argv.getD idx [] = dec n) : Mydb.scanU argv idx field = UInt32.ofNat n := by
  unfold Mydb.scanU
  rw [h, scanDec_dec]

theorem toNat_ofNat_lt {n : Nat} (h : n < 2 ^ 32) : (UInt32.ofNat n).toNat = n :=
  UInt32.toNat_ofNat_of_lt' h

theorem getThDatesCb_fullDateStr {date month year : Nat} (hd : date < 2 ^ 32) (hm : month < 2 ^ 32)
    (hy : year < 2 ^ 32) :
    (ThDb.getThDatesCb [dec date, dec month, dec year]).fullDateStr = dateText date month year := by
  have h0 := scanU_dec_nat [dec date, dec month, dec year] 0 0 date rfl
  have h1 := scanU_dec_nat [dec date, dec month, dec year] 1 0 month rfl
  have h2 := scanU_dec_nat [dec date, dec month, dec year] 2 0 year rfl
  simp only [ThDb.getThDatesCb, h0, h1, h2, toNat_ofNat_lt hd, toNat_ofNat_lt hm, toNat_ofNat_lt hy]
  rfl

/-- The whole day is asked for, so only the date is left of the condition. -/
theorem whereThVal_eq_sameDay {r s : ThRow} (hr : r.Stored) (hs : s.Stored) (id : Nat) :
    ThDb.whereThVal (reqDate ⟨UInt32.ofNat r.date, UInt32.ofNat r.month, UInt32.ofNat r.year⟩)
      dayStart dayEnd (id, s) = r.sameDay s := by
  have hstart : sqlInteger (dec (dayStart.hour * 60 + dayStart.min).toNat) = 0 := sqlInteger_dec _
  have hend : sqlInteger (dec (dayEnd.hour * 60 + dayEnd.min).toNat) = 1439 := sqlInteger_dec _
  have hday : decide (0 ≤ s.stampMin) = true ∧ decide (s.stampMin ≤ 1439) = true := by
    have := hs.stampMin_eq
    have := hs.hour_lt
    have := hs.min_lt
    refine ⟨decide_eq_true (Nat.zero_le _), decide_eq_true ?_⟩
    omega
  have hd : (UInt32.ofNat r.date).toNat = r.date := toNat_ofNat_lt (by have := hr.date_le; omega)
  have hm : (UInt32.ofNat r.month).toNat = r.month := toNat_ofNat_lt (by have := hr.month_le; omega)
  have hy : (UInt32.ofNat r.year).toNat = r.year := toNat_ofNat_lt hr.year_lt
  simp only [ThDb.whereThVal, reqDate, hstart, hend, hday.1, hday.2, sqlInteger_dec, hd, hm,
    Bool.and_true, ThRow.sameDay]
  by_cases h : r.year < 2020
  · have hlt : ¬ 2020 ≤ UInt32.ofNat r.year := by
      rw [UInt32.le_iff_toNat_le, hy]
      exact Nat.not_le_of_lt h
    simp [hlt, h]
  · have hle : 2020 ≤ UInt32.ofNat r.year := by
      rw [UInt32.le_iff_toNat_le, hy]
      exact Nat.le_of_not_lt h
    have hnot : ¬ UInt32.ofNat r.year < 2020 := UInt32.not_lt.mpr hle
    simp only [if_pos hle, hy, h, hnot, decide_false, Bool.false_or]

/-- A copied record is what the row says. -/
theorem getThValCb_data {F : Type} (fl : FloatFmt F) {r : ThRow} (hhour : r.hour < 24) (hmin : r.min < 60)
    (id : Nat) :
    (ThDb.getThValCb fl (ThDb.argv (id, r))).data = r.data fl := by
  have h4 := scanU_dec_nat (ThDb.argv (id, r)) 4 0 r.hour rfl
  have h5 := scanU_dec_nat (ThDb.argv (id, r)) 5 0 r.min rfl
  have hh : (UInt32.ofNat r.hour).toNat = r.hour := toNat_ofNat_lt (by omega)
  have hm : (UInt32.ofNat r.min).toNat = r.min := toNat_ofNat_lt (by omega)
  simp only [ThDb.getThValCb, ThTable.data, ThRow.data, h4, h5, hh, hm]
  rfl

section
variable {F : Type} (fl : FloatFmt F) {db : ThDb F}

/-- Every row of the table has been stored by `put_th_val`, and the table is open. -/
structure ThDb.Filled (db : ThDb F) : Prop where
  fd : db.fd = true
  stored : ∀ r ∈ db.tempHum.values, r.Stored

theorem appGetThDayData_filled (h : db.Filled) {r : ThRow} (hr : r.Stored) :
    (Reply.appGetThDayData fl .ok true (selectDaysReq r.dateText) db).1 =
      ⟨⟨0, okText⟩, -1, some ((db.tempHum.values.filter r.sameDay).map (ThRow.data fl))⟩ := by
  have hd : r.date < 100 := by have := hr.date_le; omega
  have hm : r.month < 100 := by have := hr.month_le; omega
  have hmem {s : Nat × ThRow} (hs : s ∈ db.tempHum.rows) : s.2.Stored :=
    h.stored _ (List.mem_map.mpr ⟨s, hs, rfl⟩)
  have hfilter : db.tempHum.rows.filter (ThDb.whereThVal
        (reqDate ⟨UInt32.ofNat r.date, UInt32.ofNat r.month, UInt32.ofNat r.year⟩) dayStart dayEnd) =
      db.tempHum.rows.filter (r.sameDay ∘ Prod.snd) :=
    List.filter_congr fun s hs => whereThVal_eq_sameDay hr (hmem hs) s.1
  have hval : db.getThVal fl .ok
        (reqDate ⟨UInt32.ofNat r.date, UInt32.ofNat r.month, UInt32.ofNat r.year⟩) dayStart dayEnd =
      (.ok, { db with thRecords := (db.tempHum.rows.filter (r.sameDay ∘ Prod.snd)).map fun s =>
        ThDb.getThValCb fl (ThDb.argv s) }) := by
    rw [← hfilter]
    simp only [ThDb.getThVal, h.fd, Bool.not_true, Bool.false_eq_true, if_false, Query.res, Query.rows]
  unfold Reply.appGetThDayData ThRow.dateText
  rw [selectDaysReq_dateText hd hm, jsonToThDate_numbers]
  simp only [hval, copyRecords, if_true, List.map_map]
  rw [RowTable.values, List.filter_map, List.map_map]
  refine congrArg (fun l => (⟨⟨0, okText⟩, -1, some l⟩ : ThDataResp F)) (List.map_congr_left ?_)
  intro s hs
  have hstored := hmem (List.mem_filter.mp hs).1
  exact getThValCb_data fl hstored.hour_lt hstored.min_lt s.1

/-- The listed texts are those of the dates there are, each once. -/
theorem appGetAvailThDates_filled (h : db.Filled) :
    ∃ dates, (Reply.appGetAvailThDates .ok true db).1 = ⟨⟨0, okText⟩, some dates⟩ ∧ dates.Nodup ∧
      ∀ date, date ∈ dates ↔ ∃ r ∈ db.tempHum.values, r.dateText = date := by
  have hbound {d : Nat × Nat × Nat} (hd : d ∈ ThDb.selectDates db.tempHum.rows) :
      d.1 < 100 ∧ d.2.1 < 100 ∧ d.2.2 < 2 ^ 32 := by
    obtain ⟨r, hr, rfl⟩ := List.mem_map.mp (List.mem_eraseDups.mp hd)
    have hs : r.2.Stored := h.stored _ (List.mem_map.mpr ⟨r, hr, rfl⟩)
    exact ⟨Nat.lt_of_le_of_lt hs.date_le (by decide), Nat.lt_of_le_of_lt hs.month_le (by decide),
      hs.year_lt⟩
  have htext {d : Nat × Nat × Nat} (hd : d ∈ ThDb.selectDates db.tempHum.rows) :
      (ThDb.getThDatesCb [dec d.1, dec d.2.1, dec d.2.2]).fullDateStr = dateText d.1 d.2.1 d.2.2 := by
    obtain ⟨h1, h2, h3⟩ := hbound hd
    exact getThDatesCb_fullDateStr (by omega) (by omega) h3
  refine ⟨(ThDb.selectDates db.tempHum.rows).map fun d => dateText d.1 d.2.1 d.2.2, ?_, ?_, ?_⟩
  · simp only [Reply.appGetAvailThDates, ThDb.getThDates, h.fd, Bool.not_true, Bool.false_eq_true, if_false,
      Query.res, Query.rows, if_true, List.map_map]
    exact congrArg (fun l => (⟨⟨0, okText⟩, some l⟩ : ThAvailResp))
      (List.map_congr_left fun d hd => htext hd)
  · refine List.Nodup.map_on ?_ (RowTable.nodup_eraseDups _)
    intro d hd d' hd' he
    obtain ⟨h1, h2, -⟩ := hbound hd
    obtain ⟨h1', h2', -⟩ := hbound hd'
    obtain ⟨e1, e2, e3⟩ := dateText_inj h1 h2 h1' h2' he
    exact Prod.ext e1 (Prod.ext e2 e3)
  · intro date
    simp only [List.mem_map, ThDb.selectDates, List.mem_eraseDups, RowTable.values]
    constructor
    · rintro ⟨_, ⟨r, hr, rfl⟩, rfl⟩
      exact ⟨r.2, ⟨r, hr, rfl⟩, rfl⟩
    · rintro ⟨_, ⟨r, hr, rfl⟩, rfl⟩
      exact ⟨_, ⟨r, hr, rfl⟩, rfl⟩

/-! ## Sequences of measurements -/

/-- A call of `put_th_val`, with the time it finds and its outcome. -/
structure Put (F : Type) where
  ct : Option LocalTime
  sqlOk : Bool
  temp : F
  hum : F

def Put.call (p : Put F) : ThCall F := .putThVal p.ct p.sqlOk p.temp p.hum

/-- The database after the calls, on a table that is empty at first. -/
def afterPuts (puts : List (Put F)) : ThDb F :=
  puts.foldl (fun db p => db.call fl p.call) (.opened .empty)

/-- The records the calls have stored, in their order. -/
def recorded (puts : List (Put F)) : List ThRow := puts.filterMap fun p => p.call.inserted fl

theorem call_put {db : ThDb F} (hfd : db.fd = true) (p : Put F) :
    (db.call fl p.call).fd = true ∧
      (db.call fl p.call).tempHum.values = db.tempHum.values ++ (p.call.inserted fl).toList := by
  refine ⟨(fd_call fl db _).trans hfd, ?_⟩
  obtain ⟨ct, sqlOk, temp, hum⟩ := p
  simp only [Put.call, ThDb.call, ThDb.putThVal, hfd, Bool.not_true, Bool.false_eq_true, if_false]
  cases ct with
  | none => simp [ThCall.inserted]
  | some ct => cases sqlOk <;> simp [ThCall.inserted]

theorem foldl_puts {db : ThDb F} (hfd : db.fd = true) (puts : List (Put F)) :
    (puts.foldl (fun db p => db.call fl p.call) db).fd = true ∧
      (puts.foldl (fun db p => db.call fl p.call) db).tempHum.values =
        db.tempHum.values ++ recorded fl puts := by
  induction puts generalizing db with
  | nil => exact ⟨hfd, (List.append_nil _).symm⟩
  | cons p puts ih =>
    obtain ⟨h1, h2⟩ := call_put fl hfd p
    obtain ⟨i1, i2⟩ := ih h1
    refine ⟨i1, ?_⟩
    rw [List.foldl_cons, i2, h2, List.append_assoc]
    congr 1
    unfold recorded
    rw [List.filterMap_cons]
    cases p.call.inserted fl <;> rfl

/-- A stored record comes from a call that found a time. -/
theorem mem_recorded {puts : List (Put F)} {r : ThRow} (h : r ∈ recorded fl puts) :
    ∃ p ∈ puts, ∃ ct, p.ct = some ct ∧ r = ThDb.insertedRow fl ct p.temp p.hum := by
  obtain ⟨p, hp, hr⟩ := List.mem_filterMap.mp h
  obtain ⟨ct, sqlOk, temp, hum⟩ := p
  refine ⟨_, hp, ?_⟩
  cases ct with
  | none => cases hr
  | some ct =>
    cases sqlOk with
    | false => cases hr
    | true => exact ⟨ct, rfl, (Option.some.inj hr).symm⟩

theorem afterPuts_values (puts : List (Put F)) :
    (afterPuts fl puts).tempHum.values = recorded fl puts := (foldl_puts fl rfl puts).2

theorem afterPuts_filled (puts : List (Put F)) : (afterPuts fl puts).Filled where
  fd := (foldl_puts fl rfl puts).1
  stored r hr := by
    rw [afterPuts_values] at hr
    obtain ⟨p, -, ct, -, rfl⟩ := mem_recorded fl hr
    exact insertedRow_stored fl ct p.temp p.hum

/-- **Every recorded date is listed once, and leads to the records of its day and month**:
from 2020 on to those of its year, before to those of every year.  The years have at most
nine digits, so that the texts fit. -/
theorem listed_dates_lead_to_records (puts : List (Put F))
    (hyear : ∀ p ∈ puts, ∀ ct, p.ct = some ct → ct.year.toUInt32.toNat < 10 ^ 9) :
    let db := afterPuts fl puts
    let records := recorded fl puts
    (∃ dates, (Reply.appGetAvailThDates .ok true db).1 = ⟨⟨0, okText⟩, some dates⟩ ∧ dates.Nodup ∧
        (∀ date, date ∈ dates ↔ ∃ r ∈ records, r.dateText = date) ∧
        ∀ date ∈ dates, date.length + 1 ≤ thAdateSize) ∧
      ∀ r ∈ records, (Reply.appGetThDayData fl .ok true (selectDaysReq r.dateText) db).1 =
        ⟨⟨0, okText⟩, -1, some ((records.filter r.sameDay).map (ThRow.data fl))⟩ := by
  intro db records
  have hfilled : db.Filled := afterPuts_filled fl puts
  have hvalues : db.tempHum.values = records := afterPuts_values fl puts
  have hstored {r : ThRow} (hr : r ∈ records) : r.Stored := hfilled.stored r (hvalues ▸ hr)
  constructor
  · obtain ⟨dates, hres, hnodup, hmem⟩ := appGetAvailThDates_filled hfilled
    rw [hvalues] at hmem
    refine ⟨dates, hres, hnodup, hmem, fun date hdate => ?_⟩
    obtain ⟨r, hr, rfl⟩ := (hmem date).mp hdate
    obtain ⟨p, hp, ct, hct, rfl⟩ := mem_recorded fl hr
    refine (dateText_fits_iff ?_ ?_ _).mpr ?_
    · exact Nat.lt_of_le_of_lt (hstored hr).date_le (by decide)
    · exact Nat.lt_of_le_of_lt (hstored hr).month_le (by decide)
    · have := hyear p hp ct hct
      rwa [ThDb.insertedRow, sqlInteger_decPad]
  · intro r hr
    rw [appGetThDayData_filled fl hfilled (hstored hr), hvalues]

end

/-- Midnight of the first of January. -/
def newYear (year : Int32) : LocalTime :=
  ⟨1, 1, year, 0, 0, 0, by decide, by decide, by decide, by decide, by decide⟩

/-- Measurements at two midnights. -/
def newYears (year year' : Int32) : List (Put Nat) :=
  [⟨some (newYear year), true, 20, 50⟩, ⟨some (newYear year'), true, 21, 51⟩]

/-- Of two new years from 2020 on each leads to its own record. -/
theorem listed_dates_2024_2025 :
    (recorded natFmt (newYears 2024 2025)).map (fun r =>
        ((Reply.appGetThDayData natFmt .ok true (selectDaysReq r.dateText)
          (afterPuts natFmt (newYears 2024 2025))).1.arr.getD []).map ThData.temp) = [[20], [21]] := by
  have h := (listed_dates_lead_to_records natFmt (newYears 2024 2025) (by decide)).2
  rw [List.map_congr_left fun r hr => by rw [h r hr]]
  decide

/-- A clock that starts in 1970 and again in 1971: the first date leads to both records. -/
theorem date_before_2020_mixes_years :
    ¬ ∀ r ∈ recorded natFmt (newYears 1970 1971),
      (Reply.appGetThDayData natFmt .ok true (selectDaysReq r.dateText)
          (afterPuts natFmt (newYears 1970 1971))).1.arr =
        some (((recorded natFmt (newYears 1970 1971)).filter fun s =>
          decide (s.dateText = r.dateText)).map (ThRow.data natFmt)) := by
  intro h
  have hfirst := h _ List.mem_cons_self
  exact absurd (congrArg (fun arr => (arr.getD []).length) hfirst) (by decide)

end Growbox
