import Growbox.ListedDates

/-!
# The records of the last half hour

`app_get_th_data` asks for the rows from half an hour ago to now.  Up to the half hour it
takes one from the hour and adds 30 to the minutes; in the hour after midnight the hour wraps,
and the sum that is printed into the statement is right again only from the 30th minute on
(`startMin_eq`).  Before, no row is found: `latest_records_iff`.
-/

namespace Growbox

open Decimal

/-! ## What the last half hour is -/

namespace ThRow

/-- The columns of the time are one. -/
structure Stamped (r : ThRow) : Prop where
  hour_lt : r.hour < 24
  min_lt : r.min < 60
  stampMin_eq : r.stampMin = 60 * r.hour + r.min

theorem Stored.stamped {r : ThRow} (h : r.Stored) : r.Stamped :=
  ⟨h.hour_lt, h.min_lt, by rw [h.stampMin_eq, Nat.mul_comm]⟩

/-- Of the date, and of its last 30 minutes; the subtraction is at least 0. -/
def inLastHalfHour (ct : LocalTime) (r : ThRow) : Bool :=
  decide (r.date = ct.mday) && decide (r.month = ct.month) && decide ((r.year : Int) = ct.year.toInt) &&
    decide (60 * ct.hour + ct.min - 30 ≤ r.stampMin) && decide (r.stampMin ≤ 60 * ct.hour + ct.min)

end ThRow

/-- The minutes of a time, as they are printed into the statement. -/
def stampOf (t : ThTime) : Nat := sqlInteger (dec (t.hour * 60 + t.min).toNat)

/-! ## The bounds in the statement -/

theorem endMin_eq (ct : LocalTime) : stampOf (latestTimes ct).2 = 60 * ct.hour + ct.min := by
  have hh := ct.hour_lt
  have hm := ct.min_lt
  rw [stampOf, sqlInteger_dec]
  show (UInt32.ofNat ct.hour * 60 + UInt32.ofNat ct.min).toNat = _
  rw [UInt32.toNat_add, UInt32.toNat_mul, toNat_ofNat_lt (by omega), toNat_ofNat_lt (by omega)]
  show (ct.hour * 60 % 4294967296 + ct.min) % 4294967296 = _
  omega

/-- **The lower bound**: half an hour less, and for less than half an hour what is left of
`2 ^ 32`. -/
theorem startMin_eq (ct : LocalTime) :
    stampOf (latestTimes ct).1 =
      if 30 ≤ 60 * ct.hour + ct.min then 60 * ct.hour + ct.min - 30
      else 60 * ct.hour + ct.min + 4294967266 := by
  have hh := ct.hour_lt
  have hm := ct.min_lt
  have hhour : (UInt32.ofNat ct.hour).toNat = ct.hour := toNat_ofNat_lt (by omega)
  have hmin : (UInt32.ofNat ct.min).toNat = ct.min := toNat_ofNat_lt (by omega)
  rw [stampOf, sqlInteger_dec]
  unfold latestTimes
  by_cases h : 30 < ct.min
  · simp only [if_pos h, UInt32.toNat_add, UInt32.toNat_mul, UInt32.toNat_sub, hhour, hmin]
    show (ct.hour * 60 % 4294967296 + (4294967296 - 30 + ct.min) % 4294967296) % 4294967296 = _
    rw [if_pos (by omega)]
    omega
  · simp only [if_neg h, UInt32.toNat_add, UInt32.toNat_mul, UInt32.toNat_sub, hhour, hmin]
    show ((4294967296 - 1 + ct.hour) % 4294967296 * 60 % 4294967296 +
      (30 + ct.min) % 4294967296) % 4294967296 = _
    split <;> omega

/-! ## The handler -/

/-- A current year is one the statement asks for, as the number it is. -/
theorem current_year {year : Int32} (h : 2020 ≤ year) :
    ¬ year.toUInt32 < 2020 ∧ (year.toUInt32.toNat : Int) = year.toInt := by
  have hle : (2020 : Int) ≤ year.toInt := Int32.le_iff_toInt_le.mp h
  have hlt := year.toInt_lt
  have hnat : year.toUInt32 = UInt32.ofNat year.toInt.toNat := by
    rw [← toUInt32_ofInt_natCast, Int.toNat_of_nonneg (by omega), Int32.ofInt_toInt]
  have htoNat : (UInt32.ofNat year.toInt.toNat).toNat = year.toInt.toNat := toNat_ofNat_lt (by omega)
  constructor
  · rw [hnat, UInt32.lt_iff_toNat_lt, htoNat]
    show ¬ year.toInt.toNat < 2020
    omega
  · rw [hnat, htoNat]
    omega

/-- The statement asks for the current date, and for the minutes from the lower bound on. -/
theorem whereThVal_latest {ct : LocalTime} (hyear : 2020 ≤ ct.year) (r : Nat × ThRow) :
    ThDb.whereThVal ⟨UInt32.ofNat ct.mday, UInt32.ofNat ct.month, ct.year.toUInt32, [], []⟩
        (latestTimes ct).1 (latestTimes ct).2 r =
      (decide (r.2.date = ct.mday) && decide (r.2.month = ct.month) &&
        decide ((r.2.year : Int) = ct.year.toInt) && decide (stampOf (latestTimes ct).1 ≤ r.2.stampMin) &&
        decide (r.2.stampMin ≤ 60 * ct.hour + ct.min)) := by
  obtain ⟨hnot, hyear⟩ := current_year hyear
  have hday : (UInt32.ofNat ct.mday).toNat = ct.mday :=
    toNat_ofNat_lt (by have := ct.mday_le; omega)
  have hmonth : (UInt32.ofNat ct.month).toNat = ct.month :=
    toNat_ofNat_lt (by have := ct.month_le; omega)
  have hyears : decide (r.2.year = ct.year.toUInt32.toNat) = decide ((r.2.year : Int) = ct.year.toInt) := by
    rw [← hyear, decide_eq_decide]
    exact Int.ofNat_inj.symm
  rw [← endMin_eq]
  simp only [ThDb.whereThVal, sqlInteger_dec, hday, hmonth, decide_eq_false hnot, Bool.false_or, hyears,
    stampOf]

/-- From half past midnight on the statement finds the last half hour, before it nothing. -/
theorem filter_latest {ct : LocalTime} (hyear : 2020 ≤ ct.year) (rows : List (Nat × ThRow)) :
    rows.filter (ThDb.whereThVal ⟨UInt32.ofNat ct.mday, UInt32.ofNat ct.month, ct.year.toUInt32, [], []⟩
        (latestTimes ct).1 (latestTimes ct).2) =
      if 30 ≤ 60 * ct.hour + ct.min then rows.filter (ThRow.inLastHalfHour ct ∘ Prod.snd) else [] := by
  have hstart := startMin_eq ct
  by_cases h : 30 ≤ 60 * ct.hour + ct.min
  · rw [if_pos h] at hstart ⊢
    refine List.filter_congr fun r _ => ?_
    rw [whereThVal_latest hyear, hstart]
    rfl
  · rw [if_neg h] at hstart ⊢
    refine List.filter_eq_nil_iff.mpr fun r _ => ?_
    rw [whereThVal_latest hyear, hstart]
    simp only [Bool.and_eq_true, decide_eq_true_eq, not_and]
    intro _ hle
    omega

section
variable {F : Type} (fl : FloatFmt F)

/-- The reply is a success with these rows, in their order. -/
def LatestAre (ct : LocalTime) (period : Option UInt64) (db : ThDb F) (rows : List ThRow) : Prop :=
  (Reply.appGetThData fl (some ct) .ok period true .latest db).1.res = ⟨0, okText⟩ ∧
    (Reply.appGetThData fl (some ct) .ok period true .latest db).1.arr = some (rows.map (ThRow.data fl))

/-- What the handler answers when everything it calls succeeds. -/
theorem appGetThData_latest {ct : LocalTime} (hyear : 2020 ≤ ct.year) (period : Option UInt64) {db : ThDb F}
    (hfd : db.fd = true) (hrows : ∀ r ∈ db.tempHum.values, r.Stamped) :
    LatestAre fl ct period db (if 30 ≤ 60 * ct.hour + ct.min then
      db.tempHum.values.filter (ThRow.inLastHalfHour ct) else []) := by
  have hfilter := filter_latest hyear db.tempHum.rows
  have hdata {s : Nat × ThRow} (hs : s ∈ db.tempHum.rows) :
      (ThDb.getThValCb fl (ThDb.argv s)).data = s.2.data fl := by
    have hstamped := hrows s.2 (List.mem_map.mpr ⟨s, hs, rfl⟩)
    exact getThValCb_data fl hstamped.hour_lt hstamped.min_lt s.1
  simp only [LatestAre, Reply.appGetThData, ThDb.getThVal, hfd, Bool.not_true, Bool.false_eq_true, if_false,
    Query.res, Query.rows, copyRecords, if_true, hfilter, true_and, List.map_map]
  refine congrArg some ?_
  split
  · rw [RowTable.values, List.filter_map, List.map_map]
    exact List.map_congr_left fun s hs => hdata (List.mem_filter.mp hs).1
  · rfl

/-- **The latest records are those of the last half hour, unless it began yesterday and a
record is in it.** -/
theorem latest_records_iff (ct : LocalTime) (period : Option UInt64) (db : ThDb F) (hfd : db.fd = true)
    (hyear : 2020 ≤ ct.year) (hrows : ∀ r ∈ db.tempHum.values, r.Stamped) :
    LatestAre fl ct period db (db.tempHum.values.filter (ThRow.inLastHalfHour ct)) ↔
      (30 ≤ 60 * ct.hour + ct.min ∨ ∀ r ∈ db.tempHum.values, ¬ r.inLastHalfHour ct) := by
  have hlatest := appGetThData_latest fl hyear period hfd hrows
  by_cases h : 30 ≤ 60 * ct.hour + ct.min
  · rw [if_pos h] at hlatest
    exact iff_of_true hlatest (.inl h)
  · rw [if_neg h] at hlatest
    constructor
    · rintro ⟨-, harr⟩
      have hnil : [] = (db.tempHum.values.filter (ThRow.inLastHalfHour ct)).map (ThRow.data fl) :=
        Option.some.inj (hlatest.2.symm.trans harr)
      exact .inr (List.filter_eq_nil_iff.mp (List.map_eq_nil_iff.mp hnil.symm))
    · rintro (h' | hnone)
      · exact absurd h' h
      · rwa [List.filter_eq_nil_iff.mpr hnone]

end

/-- A time of the first of January 2024. -/
def newYearAt (hour min : Nat) (hour_lt : hour < 24) (min_lt : min < 60) : LocalTime :=
  { newYear 2024 with hour, min, hour_lt, min_lt }

/-- The table after a measurement at each of the times. -/
def measuredAt (times : List LocalTime) : ThDb Nat :=
  afterPuts natFmt (times.map fun ct => ⟨some ct, true, 20, 50⟩)

/-- The table at twenty past twelve: a measurement 31, one 30 and one 0 minutes ago. -/
def measuredToNoon : ThDb Nat :=
  measuredAt [newYearAt 11 49 (by decide) (by decide), newYearAt 11 50 (by decide) (by decide),
    newYearAt 12 20 (by decide) (by decide)]

theorem latest_records_at_noon :
    LatestAre natFmt (newYearAt 12 20 (by decide) (by decide)) none measuredToNoon
      (measuredToNoon.tempHum.values.filter
        (ThRow.inLastHalfHour (newYearAt 12 20 (by decide) (by decide)))) :=
  (latest_records_iff natFmt (newYearAt 12 20 (by decide) (by decide)) none measuredToNoon
    (afterPuts_filled natFmt _).fd (by decide)
    fun r hr => ((afterPuts_filled natFmt _).stored r hr).stamped).mpr (.inl (by decide))

example : (measuredToNoon.tempHum.values.filter
    (ThRow.inLastHalfHour (newYearAt 12 20 (by decide) (by decide)))).map ThRow.stampMin = [710, 740] := by
  decide

/-- At ten past midnight the measurement five minutes ago is not there. -/
theorem latest_records_missing_at_night :
    let ct := newYearAt 0 10 (by decide) (by decide)
    let db := measuredAt [newYearAt 0 5 (by decide) (by decide)]
    (db.tempHum.values.filter (ThRow.inLastHalfHour ct)).map ThRow.stampMin = [5] ∧
      (Reply.appGetThData natFmt (some ct) .ok none true .latest db).1.arr.map List.length = some 0 ∧
      ¬ LatestAre natFmt ct none db (db.tempHum.values.filter (ThRow.inLastHalfHour ct)) := by
  intro ct db
  have hrows : (db.tempHum.values.filter (ThRow.inLastHalfHour ct)).map ThRow.stampMin = [5] := by decide
  have harr : (Reply.appGetThData natFmt (some ct) .ok none true .latest db).1.arr.map List.length =
      some 0 := by decide
  refine ⟨hrows, harr, fun h => ?_⟩
  have hlen := congrArg List.length hrows
  rw [h.2, Option.map_some, List.length_map] at harr
  rw [List.length_map, Option.some.inj harr] at hlen
  exact absurd hlen (by decide)

end Growbox
