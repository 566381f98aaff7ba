import Growbox.AppCl
import Growbox.CoolersController

/-!
# One check of a schedule and the messages it sends

`check_cooler_schedule` has a branch for a cooler that is on and one for a cooler that is off,
each with its own search for the hour the minute `t` is in.  Both come to one
formula, `onAt`: a command goes out exactly when the flag differs from it, and
the flag follows when the command is acknowledged (`schedule_check_exact`).
The world of a check is here the list of the messages on the bus.
-/

namespace Growbox

open CoolersController

/-! ## The formula -/

/-- At minute `t` the cooler should run. -/
def ClTime.onAt (cl : ClTime) (t : UInt32) : Bool :=
  decide (t.toNat < cl.stopTimeMin.toNat ∧
    (t.toNat - cl.startTimeMin.toNat) % 60 < cl.wpTimeMin.toNat)

/-- No sum of minutes wraps around. -/
structure ClTime.Small (cl : ClTime) (t : UInt32) : Prop where
  start_lt : cl.startTimeMin.toNat < 2 ^ 30
  stop_lt : cl.stopTimeMin.toNat < 2 ^ 30
  wp_lt : cl.wpTimeMin.toNat < 2 ^ 30
  time_lt : t.toNat < 2 ^ 30

/-- `set_coolers_power` on the bus: the message is sent whether the controller
acknowledges it or not. -/
def busCoolersPower (acked : Bool) (type : Cooler) (power : UInt8) (bus : List I2cMsg) :
    Bool × List I2cMsg :=
  (acked, bus ++ setCoolersPowerMsgs type power)

/-- Hour `i` of the schedule holds minute `t`. -/
def ClTime.HourHolds (cl : ClTime) (t : UInt32) (i : Nat) : Prop :=
  cl.startTimeMin.toNat + 60 * i ≤ t.toNat ∧ t.toNat < cl.startTimeMin.toNat + 60 * i + 60

/-! ## The two branches -/

/-- The comparisons of both branches say that the formula does not hold. -/
theorem workOver_iff {cl : ClTime} {t : UInt32} (hs : cl.Small t) (hst : cl.startTimeMin ≤ t) :
    cl.WorkOver t ↔ cl.onAt t = false := by
  obtain ⟨h1, h2, h3, h4⟩ := hs
  have hle : cl.startTimeMin.toNat ≤ t.toNat := hst
  have hsum : (cl.startTimeMin + 60 * ((t - cl.startTimeMin) / 60) + cl.wpTimeMin).toNat =
      cl.startTimeMin.toNat + 60 * ((t.toNat - cl.startTimeMin.toNat) / 60) +
        cl.wpTimeMin.toNat := by
    rw [UInt32.toNat_add, UInt32.toNat_add, UInt32.toNat_mul, UInt32.toNat_div,
      UInt32.toNat_sub_of_le _ _ hst]
    simp only [UInt32.reduceToNat]
    omega
  unfold ClTime.WorkOver ClTime.onAt
  rw [UInt32.le_iff_toNat_le, UInt32.le_iff_toNat_le, hsum, decide_eq_false_iff_not]
  omega

/-- **The search finds the one hour that holds the minute.** -/
theorem findInterval_unique {cl : ClTime} {t : UInt32} (hs : cl.Small t)
    (hst : cl.startTimeMin ≤ t) (hstop : t < cl.stopTimeMin) :
    ∃ i, findInterval t cl.startTimeMin ((cl.stopTimeMin - cl.startTimeMin) / 60).toNat = some i ∧
      ∀ j, cl.HourHolds t j ↔ j = i := by
  have ht : t.toNat + 60 < 2 ^ 32 := by
    have := hs.time_lt
    omega
  refine ⟨_, findInterval_of_lt ht hst hstop, fun j => ?_⟩
  have hle : cl.startTimeMin.toNat ≤ t.toNat := hst
  rw [UInt32.toNat_div, UInt32.toNat_sub_of_le _ _ hst]
  unfold ClTime.HourHolds
  simp only [UInt32.reduceToNat]
  omega

/-- A schedule in force switches a cooler when its flag differs from the formula. -/
theorem switches_iff {cl : ClTime} {t : UInt32} (hs : cl.Small t)
    (hwin : cl.startTimeMin < cl.stopTimeMin) (hst : cl.startTimeMin ≤ t) :
    cl.Switches t ↔ cl.onAt t ≠ cl.isOn := by
  have hforce : cl.InForce t := ⟨hwin, hst⟩
  unfold ClTime.Switches
  rw [and_iff_right hforce, workOver_iff hs hst]
  cases cl.onAt t <;> cases cl.isOn <;> decide

/-- Both branches in one. -/
theorem checkCoolerScheduleBy_bus (type : Cooler) {cl : ClTime} {t : UInt32} (acked : Bool)
    (bus : List I2cMsg) (hs : cl.Small t) (hwin : cl.startTimeMin < cl.stopTimeMin)
    (hst : cl.startTimeMin ≤ t) :
    checkCoolerScheduleBy (busCoolersPower acked) false t type cl bus =
      if cl.onAt t = cl.isOn then (cl, bus)
      else ({ cl with isOn := if acked then cl.onAt t else cl.isOn },
        bus ++ setCoolersPowerMsgs type (if cl.onAt t then cl.power else 0)) := by
  have ht : t.toNat + 60 < 2 ^ 32 := by
    have := hs.time_lt
    omega
  rw [checkCoolerScheduleBy_eq _ _ _ _ _ ht, if_congr (switches_iff hs hwin hst) rfl rfl]
  by_cases h : cl.onAt t = cl.isOn
  · rw [if_neg (not_not_intro h), if_pos h]
  · rw [if_pos h, if_neg h]
    -- the flag is the opposite of the formula
    have hflip : (!cl.isOn) = cl.onAt t := by
      revert h
      cases cl.onAt t <;> cases cl.isOn <;> decide
    have hpower : (if cl.isOn then 0 else cl.power) = if cl.onAt t then cl.power else 0 := by
      rw [← hflip]
      cases cl.isOn <;> rfl
    rw [hflip, hpower]
    cases acked <;> rfl

/-- **One check is exact inside a valid window.**  With `on` the formula, the
message goes out exactly when `on` differs from the flag, and the flag is `on`
afterwards unless the message was needed and not acknowledged. -/
theorem schedule_check_exact (type : Cooler) (cl : ClTime) (t : UInt32) (acked : Bool)
    (bus : List I2cMsg) (hs : cl.Small t) (hwin : cl.startTimeMin < cl.stopTimeMin)
    (hst : cl.startTimeMin ≤ t) :
    let r := checkCoolerScheduleBy (busCoolersPower acked) false t type cl bus
    r.2 = bus ++ (if cl.onAt t = cl.isOn then []
      else setCoolersPowerMsgs type (if cl.onAt t then cl.power else 0)) ∧
    r.1 = { cl with isOn := if cl.onAt t = cl.isOn ∨ acked = true then cl.onAt t else cl.isOn } ∧
    (t < cl.stopTimeMin →
      ∃ i, findInterval t cl.startTimeMin ((cl.stopTimeMin - cl.startTimeMin) / 60).toNat = some i ∧
        ∀ j, cl.HourHolds t j ↔ j = i) := by
  intro r
  have hr : r = _ := checkCoolerScheduleBy_bus type acked bus hs hwin hst
  refine ⟨?_, ?_, findInterval_unique hs hst⟩
  · rw [hr]
    by_cases h : cl.onAt t = cl.isOn
    · rw [if_pos h, if_pos h, List.append_nil]
    · rw [if_neg h, if_neg h]
  · rw [hr]
    by_cases h : cl.onAt t = cl.isOn
    · rw [if_pos h, if_pos (.inl h), h]
    · rw [if_neg h]
      simp only [h, false_or]

/-- Hourly half hours from 08:00 to 20:00, at power 50. -/
def halfHoursTime (isOn : Bool) : ClTime := ⟨50, 480, 1200, 30, isOn⟩

/-- At 08:10 a cooler that is off is told to run, and believed to run when it answers. -/
theorem schedule_check_exact_morning :
    checkCoolerScheduleBy (busCoolersPower true) false 490 .input (halfHoursTime false) [] =
      (halfHoursTime true, setCoolersPowerMsgs .input 50) := by
  have hs : (halfHoursTime false).Small 490 := ⟨by decide, by decide, by decide, by decide⟩
  have h := schedule_check_exact .input (halfHoursTime false) 490 true [] hs (by decide) (by decide)
  exact Prod.ext (h.2.1.trans (by decide)) (h.1.trans (by decide))

end Growbox
