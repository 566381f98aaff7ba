import Growbox.AppTh
import Growbox.AppClimate

/-!
# The sampling period of a request (`app_set_th_period`)

The minutes of the body are an `int`.  The product with 60 is an `int` too and
wraps around, and only then becomes a `uint64_t`, where a negative number is a
large one: so the check for a minimum lets negative periods pass, and large
ones whatever they wrap to (`periodRequest_exact_iff`).
-/

namespace Growbox

open Decimal

/-- A body whose `poll_period` is the number `d`. -/
def pollPeriodBody (root : CJson) (d : Rat) : Prop :=
  getObjectItem root "poll_period" = some (.number d)

/-- The seconds fit the counter of `th_sleep` and are at least 180. -/
def PeriodFits (m : Int32) : Prop := 3 ≤ m.toInt ∧ 60 * m.toInt ≤ 2147483647

/-- The rows of the database and `app_data.conf` both hold the period. -/
def BothHold (srv : Server) (sec : Int) : Prop :=
  (srv.app.conf.thPollPeriod.toNat : Int) = sec ∧
    ∃ rows, srv.db.sysConfig = some rows ∧ ∀ row ∈ rows, row .thPollPeriod = .integer sec.toNat

/-- The request is taken exactly when its period fits; taken and written, it
leaves 60 times its minutes in both places, and any other reply leaves both alone. -/
structure PeriodRequestExact (dbOk : Bool) (root : CJson) (m : Int32) (srv : Server) : Prop where
  accepts_iff : (appSetThPeriod dbOk (some root) srv).1.code ≠ -4 ↔ PeriodFits m
  stores : (appSetThPeriod dbOk (some root) srv).1.code ≠ -4 → ¬ srv.db.UpdateFails dbOk →
    BothHold (appSetThPeriod dbOk (some root) srv).2 (60 * m.toInt)
  refuses : (appSetThPeriod dbOk (some root) srv).1.code ≠ 0 →
    (appSetThPeriod dbOk (some root) srv).2.db = srv.db ∧
      (appSetThPeriod dbOk (some root) srv).2.app.conf.thPollPeriod = srv.app.conf.thPollPeriod

/-! ## The product -/

theorem toInt_product (m : Int32) : (m * 60).toInt = (60 * m.toInt).bmod (2 ^ 32) := by
  rw [Int32.toInt_mul, Int.mul_comm]
  rfl

/-- An `int` that becomes a `uint64_t` is below 180 when it is not negative and below 180. -/
theorem signExtended_lt_iff (x : Int32) :
    x.toInt64.toUInt64.toNat < 180 ↔ 0 ≤ x.toInt ∧ x.toInt < 180 := by
  have hlo : -2147483648 ≤ x.toInt := x.le_toInt
  rcases Int.lt_or_le x.toInt 0 with hneg | hpos
  · have hwrap : x.toInt % 18446744073709551616 = x.toInt + 18446744073709551616 := by
      rw [← Int.add_emod_right, Int.emod_eq_of_lt] <;> omega
    rw [toNat_signExtended, hwrap]
    omega
  · rw [toNat_signExtended_of_nonneg hpos]
    omega

/-- The check for the minimum is on the product modulo `2 ^ 32`, a negative one passes. -/
theorem thPeriodSec_lt_iff (m : Int32) : thPeriodSec m < 180 ↔ (60 * m.toInt) % 4294967296 < 180 := by
  have hp := toInt_product m
  rw [UInt64.lt_iff_toNat_lt, thPeriodSec, show (180 : UInt64).toNat = 180 from rfl,
    signExtended_lt_iff, hp]
  rw [Int.bmod_eq_emod]
  split <;> omega

/-- A product that is an `int` is stored as it is. -/
theorem toNat_thPeriodSec {m : Int32} (h0 : 0 ≤ m.toInt) (h : 60 * m.toInt ≤ 2147483647) :
    (thPeriodSec m).toNat = (60 * m.toInt).toNat := by
  have hp : (m * 60).toInt = 60 * m.toInt := by
    rw [toInt_product, Int.bmod_eq_of_le] <;> omega
  rw [thPeriodSec, toNat_signExtended_of_nonneg (by omega), hp]

/-! ## The request -/

theorem jsonToThPeriod_of_body {root : CJson} {d : Rat} (hb : pollPeriodBody root d) :
    jsonToThPeriod (some root) = .ok (valueint d) := by
  unfold pollPeriodBody at hb
  simp only [jsonToThPeriod, withRoot, getJsonObjInt, hb, required]

/-- Too small: neither place is written. -/
theorem appSetThPeriod_small (dbOk : Bool) {root : CJson} {d : Rat} (hb : pollPeriodBody root d)
    (srv : Server) (h : thPeriodSec (valueint d) < 180) :
    appSetThPeriod dbOk (some root) srv =
      (⟨-4, "New period is too small. Min 3 min".toList⟩, srv) := by
  unfold appSetThPeriod
  rw [jsonToThPeriod_of_body hb]
  exact if_pos h

/-- Otherwise the database decides, and memory follows it. -/
theorem appSetThPeriod_large (dbOk : Bool) {root : CJson} {d : Rat} (hb : pollPeriodBody root d)
    (srv : Server) (h : ¬ thPeriodSec (valueint d) < 180) :
    (srv.db.UpdateFails dbOk ∧
        (appSetThPeriod dbOk (some root) srv) = (⟨-5, sqliteError⟩, srv)) ∨
      (¬ srv.db.UpdateFails dbOk ∧ ∃ rows, srv.db.sysConfig = some rows ∧
        (appSetThPeriod dbOk (some root) srv).1 = ⟨0, okText⟩ ∧
        (appSetThPeriod dbOk (some root) srv).2.db.sysConfig =
          some (rows.map (setCols [(.thPollPeriod, dec (thPeriodSec (valueint d)).toNat)])) ∧
        (appSetThPeriod dbOk (some root) srv).2.app.conf.thPollPeriod =
          thPeriodSec (valueint d)) := by
  unfold appSetThPeriod
  rw [jsonToThPeriod_of_body hb]
  simp only [if_neg h, Mydb.setThPeriod]
  by_cases hf : srv.db.UpdateFails dbOk
  · have hu := Mydb.update_of_fails hf [(.thPollPeriod, dec (thPeriodSec (valueint d)).toNat)]
    refine .inl ⟨hf, ?_⟩
    generalize srv.db.update dbOk _ = u at hu
    obtain ⟨r, db⟩ := u
    obtain ⟨hne, rfl⟩ := hu
    cases r with
    | ok => exact absurd rfl hne
    | err | notOpened => rfl
  · obtain ⟨rows, hrows, hu⟩ := Mydb.update_of_not_fails hf
      [(.thPollPeriod, dec (thPeriodSec (valueint d)).toNat)]
    refine .inr ⟨hf, rows, hrows, ?_⟩
    rw [hu]
    exact ⟨rfl, rfl, rfl⟩

theorem setCols_thPollPeriod (n : Nat) (h : n < 2 ^ 63) (row : Row) :
    setCols [(.thPollPeriod, dec n)] row .thPollPeriod = .integer n :=
  ofLiteral_dec h

theorem periodFits_iff (m : Int32) :
    PeriodFits m ↔ ¬ thPeriodSec m < 180 ∧ 0 ≤ m.toInt ∧ m.toInt ≤ 35791394 := by
  have hnowrap : 0 ≤ m.toInt → m.toInt ≤ 35791394 → (60 * m.toInt) % 4294967296 = 60 * m.toInt :=
    fun h0 h1 => Int.emod_eq_of_lt (by omega) (by omega)
  rw [thPeriodSec_lt_iff]
  unfold PeriodFits
  constructor
  · rintro ⟨h3, hmax⟩
    rw [hnowrap (by omega) (by omega)]
    omega
  · rintro ⟨hmin, h0, hmax⟩
    rw [hnowrap h0 hmax] at hmin
    omega

/-- A product below the minimum is refused, and that is right. -/
theorem exact_of_small (dbOk : Bool) {root : CJson} {d : Rat} (hb : pollPeriodBody root d)
    (srv : Server) (h : thPeriodSec (valueint d) < 180) :
    PeriodRequestExact dbOk root (valueint d) srv := by
  have hsmall := appSetThPeriod_small dbOk hb srv h
  have hno : ¬ PeriodFits (valueint d) := fun hp => ((periodFits_iff _).mp hp).1 h
  constructor
  · rw [hsmall]
    exact iff_of_false (fun hne => hne rfl) hno
  · rw [hsmall]
    exact fun hne => absurd rfl hne
  · rw [hsmall]
    exact fun _ => ⟨rfl, rfl⟩

/-- Any other product is taken. -/
theorem appSetThPeriod_taken (dbOk : Bool) {root : CJson} {d : Rat} (hb : pollPeriodBody root d)
    (srv : Server) (h : ¬ thPeriodSec (valueint d) < 180) :
    (appSetThPeriod dbOk (some root) srv).1.code ≠ -4 := by
  rcases appSetThPeriod_large dbOk hb srv h with ⟨-, he⟩ | ⟨-, rows, -, he, -⟩
  · rw [he]
    exact show (-5 : Int) ≠ -4 by decide
  · rw [he]
    exact show (0 : Int) ≠ -4 by decide

/-- A period that fits is taken, and written as it is. -/
theorem exact_of_fits (dbOk : Bool) {root : CJson} {d : Rat} (hb : pollPeriodBody root d)
    (srv : Server) (hp : PeriodFits (valueint d)) :
    PeriodRequestExact dbOk root (valueint d) srv := by
  obtain ⟨h, h0, -⟩ := (periodFits_iff _).mp hp
  have hsec := toNat_thPeriodSec h0 hp.2
  refine ⟨iff_of_true (appSetThPeriod_taken dbOk hb srv h) hp, fun _ hdb => ?_, fun hne => ?_⟩
  · rcases appSetThPeriod_large dbOk hb srv h with ⟨hf, -⟩ | ⟨-, rows, -, -, hdb', hmem⟩
    · exact absurd hf hdb
    · refine ⟨?_, _, hdb', ?_⟩
      · rw [hmem, hsec]
        omega
      · intro row hrow
        obtain ⟨row0, -, rfl⟩ := List.mem_map.mp hrow
        rw [hsec, setCols_thPollPeriod _ (by unfold PeriodFits at hp; omega)]
  · rcases appSetThPeriod_large dbOk hb srv h with ⟨-, he⟩ | ⟨-, rows, -, he, -⟩
    · rw [he]
      exact ⟨rfl, rfl⟩
    · rw [he] at hne
      exact absurd rfl hne

/-- **The request is exact when its minutes are between 0 and 35791394, or when the
wrapped product is below 180.**  Between 0 and 35791394 nothing wraps; outside, the
request is wrong unless the wrapped product is refused by chance. -/
theorem periodRequest_exact_iff (dbOk : Bool) (root : CJson) (d : Rat)
    (hb : pollPeriodBody root d) (srv : Server) :
    PeriodRequestExact dbOk root (valueint d) srv ↔
      (0 ≤ (valueint d).toInt ∧ (valueint d).toInt ≤ 35791394) ∨
        (60 * (valueint d).toInt) % 4294967296 < 180 := by
  rw [← thPeriodSec_lt_iff]
  constructor
  · intro hx
    by_cases h : thPeriodSec (valueint d) < 180
    · exact .inr h
    · have hp := hx.accepts_iff.mp (appSetThPeriod_taken dbOk hb srv h)
      exact .inl ((periodFits_iff _).mp hp).2
  · intro hc
    by_cases h : thPeriodSec (valueint d) < 180
    · exact exact_of_small dbOk hb srv h
    · exact exact_of_fits dbOk hb srv ((periodFits_iff _).mpr ⟨h, hc.resolve_right h⟩)

def minutesBody (min : Rat) : CJson := .object [("poll_period", .number min)]

/-- Ten minutes. -/
theorem periodRequest_exact_ten :
    pollPeriodBody (minutesBody 10) 10 ∧
      PeriodRequestExact true (minutesBody 10) (valueint 10) freshServer :=
  ⟨rfl, (periodRequest_exact_iff true (minutesBody 10) 10 rfl freshServer).mpr (.inl (by decide))⟩

/-- Minus one minute is taken: `-60` is 18446744073709551556 seconds. -/
theorem negative_period_taken :
    ¬ PeriodRequestExact true (minutesBody (-1)) (valueint (-1)) freshServer := by
  intro h
  have hfits := h.accepts_iff.mp (by decide)
  exact absurd hfits.1 (by decide)

end Growbox
