import Growbox.App

/-!
# `app_cl.cpp`: the cooler worker

`check_cooler_schedule` looks at one cooler's record, and switches the cooler
when its on-flag and the schedule disagree (`checkCoolerSchedule_eq`).  It looks
at nothing when the schedule is empty or has not begun, so a cooler that runs
when its settings change, or when the server is started again, runs on.  Apart
from that a cooler stands still unless a worker of this process has switched it
on or an earlier process left it on, over starts, edits and polls (`still_step`);
`off_polls_safe` reads off it which runs keep to the schedule.
-/

namespace Growbox

open EventRun

/-! ## Minutes of the day -/

/-- What `get_local_time` fills in, as far as the worker reads it. -/
structure Tm where
  hour : Nat
  min : Nat
  hour_lt : hour < 24
  min_lt : min < 60
  deriving DecidableEq

/-- Both within their bounds. -/
def Tm.of (hour : Fin 24) (min : Fin 60) : Tm := ⟨hour, min, hour.isLt, min.isLt⟩

def Tm.minutes (tm : Tm) : Nat := tm.hour * 60 + tm.min

def Tm.currTimeMin (tm : Tm) : UInt32 := UInt32.ofNat (tm.hour * 60 + tm.min)

/-- `hour*60 + min`, in `uint`. -/
def MyTime.minutes (t : MyTime) : UInt32 := t.hour * 60 + t.min

theorem Tm.minutes_lt (tm : Tm) : tm.minutes < 1440 := by
  have := tm.hour_lt
  have := tm.min_lt
  unfold Tm.minutes
  omega

theorem Tm.toNat_currTimeMin (tm : Tm) : tm.currTimeMin.toNat = tm.minutes :=
  Nat.mod_eq_of_lt (Nat.lt_trans tm.minutes_lt (by decide))

theorem Tm.currTimeMin_add_lt (tm : Tm) : tm.currTimeMin.toNat + 60 < 2 ^ 32 := by
  have := tm.minutes_lt
  rw [tm.toNat_currTimeMin]
  omega

/-! ## `check_cooler_schedule` -/

/-- `cl_time_t`; its `type` is the cooler the record is kept for. -/
structure ClTime where
  power : UInt8
  startTimeMin : UInt32
  stopTimeMin : UInt32
  wpTimeMin : UInt32
  isOn : Bool
  deriving DecidableEq, Repr

/-- The first of the hours counted from the start time that holds the current time. -/
def findInterval (currTimeMin startTimeMin : UInt32) (intervalsNum : Nat) : Option Nat :=
  (List.range (intervalsNum + 1)).find? fun i =>
    decide (startTimeMin + 60 * UInt32.ofNat i ≤ currTimeMin) &&
      decide (currTimeMin < startTimeMin + 60 * UInt32.ofNat i + 60)

section
variable {W : Type} (send : Cooler → UInt8 → W → Bool × W)

/-- Commands a power and, when that went well, records the new state; in test
mode only records it.  `send` is `set_coolers_power`: what it answers, and what
it leaves of the world. -/
def switchCoolerBy (testMode : Bool) (type : Cooler) (power : UInt8) (on : Bool) (cl : ClTime)
    (world : W) : ClTime × W :=
  if testMode then ({ cl with isOn := on }, world)
  else
    let w := send type power world
    (if w.1 then { cl with isOn := on } else cl, w.2)

def checkCoolerScheduleBy (testMode : Bool) (currTimeMin : UInt32) (type : Cooler) (cl : ClTime)
    (world : W) : ClTime × W :=
  if cl.stopTimeMin > cl.startTimeMin then
    let intervalsNum := ((cl.stopTimeMin - cl.startTimeMin) / 60).toNat
    if currTimeMin < cl.startTimeMin then (cl, world)
    else if cl.isOn then
      let powerOff :=
        if currTimeMin ≥ cl.stopTimeMin then true
        else
          match findInterval currTimeMin cl.startTimeMin intervalsNum with
          | some i => decide (currTimeMin ≥ cl.startTimeMin + 60 * UInt32.ofNat i + cl.wpTimeMin)
          | none => false
      if powerOff then switchCoolerBy send testMode type 0 false cl world else (cl, world)
    else if currTimeMin ≥ cl.stopTimeMin then (cl, world)
    else
      match findInterval currTimeMin cl.startTimeMin intervalsNum with
      | some i =>
        if currTimeMin < cl.startTimeMin + 60 * UInt32.ofNat i + cl.wpTimeMin then
          switchCoolerBy send testMode type cl.power true cl world
        else (cl, world)
      | none => (cl, world)
  else (cl, world)

end

/-- The command of the worker is a write to the controller's registers. -/
def switchCooler (testMode ioctlOk : Bool) (type : Cooler) (power : UInt8) (on : Bool) (cl : ClTime)
    (regs : CtrlRegs) : ClTime × CtrlRegs :=
  switchCoolerBy (setCoolersPower ioctlOk) testMode type power on cl regs

def checkCoolerSchedule (testMode : Bool) (currTimeMin : UInt32) (ioctlOk : Bool) (type : Cooler)
    (cl : ClTime) (regs : CtrlRegs) : ClTime × CtrlRegs :=
  checkCoolerScheduleBy (setCoolersPower ioctlOk) testMode currTimeMin type cl regs

/-- The current time lies in interval `(t - start) / 60`, and the search gets there. -/
theorem findInterval_eq {t start : UInt32} {n : Nat} (hstart : start ≤ t)
    (ht : t.toNat + 60 < 2 ^ 32) (hn : ((t - start) / 60).toNat ≤ n) :
    findInterval t start n = some ((t - start) / 60).toNat := by
  have hle : start.toNat ≤ t.toNat := hstart
  have hi : ((t - start) / 60).toNat = (t.toNat - start.toNat) / 60 := by
    rw [UInt32.toNat_div, UInt32.toNat_sub_of_le _ _ hstart]
    rfl
  -- below the current time nothing wraps around
  have hsum : ∀ j, start.toNat + 60 * j ≤ t.toNat →
      (start + 60 * UInt32.ofNat j).toNat = start.toNat + 60 * j := by
    intro j hj
    rw [UInt32.toNat_add, UInt32.toNat_mul, UInt32.toNat_ofNat']
    simp only [UInt32.reduceToNat]
    omega
  have hnext : ∀ j, start.toNat + 60 * j ≤ t.toNat →
      (start + 60 * UInt32.ofNat j + 60).toNat = start.toNat + 60 * j + 60 := by
    intro j hj
    rw [UInt32.toNat_add, hsum j hj]
    simp only [UInt32.reduceToNat]
    omega
  unfold findInterval
  rw [List.find?_range_eq_some]
  generalize ((t - start) / 60).toNat = i at hi hn ⊢
  refine ⟨?_, List.mem_range.mpr (by omega), fun j hj => ?_⟩
  · rw [Bool.and_eq_true, decide_eq_true_eq, decide_eq_true_eq, UInt32.le_iff_toNat_le,
      UInt32.lt_iff_toNat_lt, hsum i (by omega), hnext i (by omega)]
    omega
  · rw [Bool.not_eq_true', Bool.and_eq_false_iff, decide_eq_false_iff_not, decide_eq_false_iff_not,
      UInt32.lt_iff_toNat_lt, hnext j (by omega)]
    right
    omega

namespace ClTime

/-- The schedule is not empty and has begun at `t`. -/
def InForce (cl : ClTime) (t : UInt32) : Prop :=
  cl.startTimeMin < cl.stopTimeMin ∧ cl.startTimeMin ≤ t

/-- At `t` the schedule has ended, or the work period of the current hour has. -/
def WorkOver (cl : ClTime) (t : UInt32) : Prop :=
  cl.stopTimeMin ≤ t ∨
    cl.startTimeMin + 60 * ((t - cl.startTimeMin) / 60) + cl.wpTimeMin ≤ t

/-- A check at `t` switches the cooler: the schedule is in force and disagrees with the on-flag. -/
def Switches (cl : ClTime) (t : UInt32) : Prop :=
  cl.InForce t ∧ (cl.isOn = true ↔ cl.WorkOver t)

instance (cl : ClTime) (t : UInt32) : Decidable (cl.InForce t) :=
  inferInstanceAs (Decidable (_ ∧ _))

instance (cl : ClTime) (t : UInt32) : Decidable (cl.WorkOver t) :=
  inferInstanceAs (Decidable (_ ∨ _))

instance (cl : ClTime) (t : UInt32) : Decidable (cl.Switches t) :=
  inferInstanceAs (Decidable (_ ∧ _))

end ClTime

/-- The search of a schedule in force: it finds the hour of `t` whenever `t` is before the stop time. -/
theorem findInterval_of_lt {t start stop : UInt32} (ht : t.toNat + 60 < 2 ^ 32) (hstart : start ≤ t)
    (hstop : t < stop) :
    findInterval t start ((stop - start) / 60).toNat = some ((t - start) / 60).toNat := by
  have hle : start.toNat ≤ t.toNat := hstart
  have hlt : t.toNat < stop.toNat := hstop
  apply findInterval_eq hstart ht
  rw [UInt32.toNat_div, UInt32.toNat_div, UInt32.toNat_sub_of_le _ _ hstart,
    UInt32.toNat_sub_of_le _ _ (UInt32.le_iff_toNat_le.mpr (by omega))]
  exact Nat.div_le_div_right (by omega)

/-- What a check does, with any command. -/
theorem checkCoolerScheduleBy_eq {W : Type} (send : Cooler → UInt8 → W → Bool × W) (testMode : Bool)
    (type : Cooler) (cl : ClTime) (world : W) {t : UInt32} (ht : t.toNat + 60 < 2 ^ 32) :
    checkCoolerScheduleBy send testMode t type cl world =
      if cl.Switches t then
        switchCoolerBy send testMode type (if cl.isOn then 0 else cl.power) (!cl.isOn) cl world
      else (cl, world) := by
  have hsw : cl.Switches t ↔ cl.InForce t ∧ (cl.isOn = true ↔ cl.WorkOver t) := Iff.rfl
  simp only [hsw]
  unfold checkCoolerScheduleBy ClTime.InForce ClTime.WorkOver
  by_cases hss : cl.startTimeMin < cl.stopTimeMin
  · by_cases hst : cl.startTimeMin ≤ t
    · have hnst : ¬ t < cl.startTimeMin := UInt32.not_lt.mpr hst
      by_cases hstop : cl.stopTimeMin ≤ t
      · cases hon : cl.isOn <;> simp [hss, hst, hnst, hstop]
      · have hlt : t < cl.stopTimeMin := UInt32.not_le.mp hstop
        simp only [findInterval_of_lt ht hst hlt, UInt32.ofNat_toNat]
        by_cases hw : cl.startTimeMin + 60 * ((t - cl.startTimeMin) / 60) + cl.wpTimeMin ≤ t
        · have hw' := UInt32.not_lt.mpr hw
          cases hon : cl.isOn <;> simp [hss, hst, hnst, hstop, hw, hw']
        · have hw' := UInt32.not_le.mp hw
          cases hon : cl.isOn <;> simp [hss, hst, hnst, hstop, hw, hw']
    · have hlt := UInt32.not_le.mp hst
      simp [hss, hst, hlt]
  · simp [hss]

/-- **What a check does**: a cooler whose flag and schedule disagree is switched,
as long as the schedule is in force; else nothing happens. -/
theorem checkCoolerSchedule_eq (testMode ioctlOk : Bool) (type : Cooler) (cl : ClTime)
    (regs : CtrlRegs) {t : UInt32} (ht : t.toNat + 60 < 2 ^ 32) :
    checkCoolerSchedule testMode t ioctlOk type cl regs =
      if cl.Switches t then
        switchCooler testMode ioctlOk type (if cl.isOn then 0 else cl.power) (!cl.isOn) cl regs
      else (cl, regs) :=
  checkCoolerScheduleBy_eq (setCoolersPower ioctlOk) testMode type cl regs ht

/-! ## `coolers_worker` -/

/-- The worker's locals: what it reads at its start, and `cl_input` and `cl_output`. -/
structure Worker where
  testMode : Bool
  period : Int32
  cl : Cooler → ClTime

/-- The records start zeroed; without a period the thread ends. -/
def coolersWorkerInit (conf : AppConfig) : Option Worker :=
  if conf.clPollPeriod = 0 then none
  else some ⟨conf.testMode, conf.clPollPeriod, fun _ => ⟨0, 0, 0, 0, false⟩⟩

/-- A cooler without a work period keeps the record it has. -/
def takeSnapshot (app : AppData) (c : Cooler) (cl : ClTime) : ClTime :=
  if (app.cwt.get (wpRaw c)).min ≠ 0 then
    { cl with
      startTimeMin := (app.cwt.get (startRaw c)).minutes
      stopTimeMin := (app.cwt.get (stopRaw c)).minutes
      wpTimeMin := (app.cwt.get (wpRaw c)).min
      power := app.clPower c }
  else cl

/-- `check_schedule` after the snapshot. -/
def hasWorkPeriod (app : AppData) : Bool :=
  (app.cwt.get (wpRaw .input)).min != 0 || (app.cwt.get (wpRaw .output)).min != 0

namespace Worker

def snapshot (app : AppData) (w : Worker) : Worker :=
  { w with cl := fun c => takeSnapshot app c (w.cl c) }

/-- Checks the schedule of one cooler. -/
def check (t : UInt32) (ioctlOk : Bool) (c : Cooler) (s : Worker × CtrlRegs) : Worker × CtrlRegs :=
  let r := checkCoolerSchedule s.1.testMode t ioctlOk c (s.1.cl c) s.2
  ({ s.1 with cl := fun d => if d = c then r.1 else s.1.cl d }, r.2)

/-- `app_data.cl_…_on = cl_….is_on` -/
def publish (w : Worker) (app : AppData) : AppData :=
  { app with clInOn := (w.cl .input).isOn, clOutOn := (w.cl .output).isOn }

/-- One round of the loop, up to its sleep. -/
def poll (clock : Option Tm) (ioctlOk : Cooler → Bool) (w : Worker) (srv : Server) :
    Worker × Server :=
  let w := w.snapshot srv.app
  if hasWorkPeriod srv.app then
    match clock with
    | none => (w, srv)
    | some tm =>
      let rIn := check tm.currTimeMin (ioctlOk .input) .input (w, srv.regs)
      let r := check tm.currTimeMin (ioctlOk .output) .output rIn
      (r.1, { srv with regs := r.2, app := r.1.publish srv.app })
  else (w, srv)

end Worker

theorem duty_switchCooler (testMode ioctlOk : Bool) (c d : Cooler) (power : UInt8) (on : Bool)
    (cl : ClTime) (regs : CtrlRegs) :
    duty (switchCooler testMode ioctlOk c power on cl regs).2 d =
      if testMode = false ∧ ioctlOk = true ∧ d = c then sat power else duty regs d := by
  unfold switchCooler switchCoolerBy
  cases testMode <;> cases ioctlOk <;> simp

theorem duty_check_self {t : UInt32} (ht : t.toNat + 60 < 2 ^ 32) (c : Cooler)
    (s : Worker × CtrlRegs) :
    duty (Worker.check t true c s).2 c =
      if s.1.testMode = false ∧ (s.1.cl c).Switches t then
        (if (s.1.cl c).isOn then 0 else sat (s.1.cl c).power)
      else duty s.2 c := by
  unfold Worker.check
  simp only [checkCoolerSchedule_eq _ _ _ _ _ ht]
  by_cases h : (s.1.cl c).Switches t
  · rw [if_pos h, duty_switchCooler]
    simp only [h, and_true]
    split
    · split <;> rfl
    · rfl
  · rw [if_neg h, if_neg fun h' => h h'.2]

theorem duty_check_other {t : UInt32} (ht : t.toNat + 60 < 2 ^ 32) (ioctlOk : Bool) {c d : Cooler}
    (hd : d ≠ c) (s : Worker × CtrlRegs) :
    duty (Worker.check t ioctlOk c s).2 d = duty s.2 d := by
  unfold Worker.check
  simp only [checkCoolerSchedule_eq _ _ _ _ _ ht]
  split
  · rw [duty_switchCooler, if_neg fun h => hd h.2.2]
  · rfl

/-- The flag after a check that the controller obeyed. -/
theorem isOn_check_self {t : UInt32} (ht : t.toNat + 60 < 2 ^ 32) (c : Cooler)
    (s : Worker × CtrlRegs) :
    ((Worker.check t true c s).1.cl c).isOn =
      if (s.1.cl c).Switches t then !(s.1.cl c).isOn else (s.1.cl c).isOn := by
  unfold Worker.check
  simp only [checkCoolerSchedule_eq _ _ _ _ _ ht, if_true]
  by_cases h : (s.1.cl c).Switches t
  · rw [if_pos h, if_pos h]
    unfold switchCooler switchCoolerBy
    cases s.1.testMode <;> rfl
  · rw [if_neg h, if_neg h]

/-- A check of one cooler leaves the other's record alone. -/
theorem check_cl_other (t : UInt32) (ioctlOk : Bool) {c d : Cooler} (hd : d ≠ c)
    (s : Worker × CtrlRegs) : (Worker.check t ioctlOk c s).1.cl d = s.1.cl d :=
  if_neg hd

/-- **What a poll commands**: with the clock and the controller answering, a
cooler's duty changes when its check switches it. -/
theorem duty_poll (tm : Tm) (w : Worker) (srv : Server) (c : Cooler) :
    duty (w.poll (some tm) (fun _ => true) srv).2.regs c =
      let cl := takeSnapshot srv.app c (w.cl c)
      if hasWorkPeriod srv.app = true ∧ w.testMode = false ∧ cl.Switches tm.currTimeMin then
        (if cl.isOn then 0 else sat cl.power)
      else duty srv.regs c := by
  have ht := tm.currTimeMin_add_lt
  unfold Worker.poll
  cases hasWorkPeriod srv.app with
  | false => simp
  | true =>
    simp only [if_true, true_and]
    cases c with
    | input =>
      rw [duty_check_other ht true (by decide), duty_check_self ht]
      rfl
    | output =>
      rw [duty_check_self ht, check_cl_other _ _ (by decide), duty_check_other ht true (by decide)]
      rfl

@[simp] theorem takeSnapshot_isOn (app : AppData) (c : Cooler) (cl : ClTime) :
    (takeSnapshot app c cl).isOn = cl.isOn := by
  unfold takeSnapshot
  split <;> rfl

/-- The on-flag after such a poll: it follows the same switch, in test mode as well. -/
theorem isOn_poll (tm : Tm) (w : Worker) (srv : Server) (c : Cooler) :
    ((w.poll (some tm) (fun _ => true) srv).1.cl c).isOn =
      if hasWorkPeriod srv.app = true ∧ (takeSnapshot srv.app c (w.cl c)).Switches tm.currTimeMin then
        !(w.cl c).isOn
      else (w.cl c).isOn := by
  have ht := tm.currTimeMin_add_lt
  rw [← takeSnapshot_isOn srv.app c (w.cl c)]
  unfold Worker.poll
  cases hasWorkPeriod srv.app with
  | false => simp [Worker.snapshot]
  | true =>
    simp only [if_true, true_and]
    cases c with
    | input =>
      rw [check_cl_other _ _ (by decide), isOn_check_self ht]
      rfl
    | output =>
      rw [isOn_check_self ht, check_cl_other _ _ (by decide)]
      rfl

theorem testMode_poll (clock : Option Tm) (ioctlOk : Cooler → Bool) (w : Worker) (srv : Server) :
    (w.poll clock ioctlOk srv).1.testMode = w.testMode := by
  unfold Worker.poll
  cases clock <;> cases hasWorkPeriod srv.app <;> rfl

/-- The worker has switched the cooler on, and not only in test mode. -/
def Worker.runs (w : Worker) (c : Cooler) : Bool := !w.testMode && (w.cl c).isOn

/-- **A poll leaves a cooler still** that it does not leave running: it switches
it off, or finds it off. -/
theorem duty_poll_of_not_runs (tm : Tm) (w : Worker) (srv : Server) (c : Cooler)
    (hstill : w.runs c = false → duty srv.regs c = 0)
    (hruns : (w.poll (some tm) (fun _ => true) srv).1.runs c = false) :
    duty (w.poll (some tm) (fun _ => true) srv).2.regs c = 0 := by
  unfold Worker.runs at hstill hruns
  rw [testMode_poll, isOn_poll] at hruns
  rw [duty_poll]
  simp only [takeSnapshot_isOn]
  cases htest : w.testMode with
  | true =>
    simp only [htest, Bool.not_true, Bool.false_and, true_imp_iff] at hstill
    simp [hstill]
  | false =>
    simp only [htest, Bool.not_false, Bool.true_and] at hstill hruns
    by_cases hs : hasWorkPeriod srv.app = true ∧
        (takeSnapshot srv.app c (w.cl c)).Switches tm.currTimeMin
    · rw [if_pos hs, Bool.not_eq_false'] at hruns
      rw [if_pos ⟨hs.1, rfl, hs.2⟩, if_pos hruns]
    · rw [if_neg hs] at hruns
      rw [if_neg fun h => hs ⟨h.1, h.2.2⟩, hstill hruns]

/-! ## Runs: starts, saved times and polls -/

/-- The running process, its worker, and the coolers that an earlier process
left on and this one has not switched on since (`leftOn`, which no step reads).
The controller keeps its registers and the file its rows when a process ends. -/
structure Box where
  srv : Server
  worker : Option Worker
  leftOn : Cooler → Bool

/-- Before the first start: a file, and a controller that was not commanded yet. -/
def Box.unstarted (file : Mydb) : Box where
  srv :=
    { app := ⟨⟨false, 0, 0⟩, zeroCwt, 0, 0, false, false⟩
      db := file
      regs := fun _ => 0
      clSignal := false
      thSignal := false }
  worker := none
  leftOn := fun _ => false

/-- The worker of this process has switched the cooler on. -/
def Box.running (b : Box) (c : Cooler) : Bool := b.worker.any (·.runs c)

inductive BoxEv where
  | start (out : StartOutcomes) (conf : AppConfig)
  | setTime (dbOk : Bool) (json : Body) (flag : ClFlag)
  | poll (tm : Tm)

/-- A start whose database cannot be opened serves on, without a worker. -/
def boxStep (realText : CStr → CStr) (b : Box) : BoxEv → Option Box
  | .start out conf =>
    let r := appInit realText out conf b.srv.db b.srv.regs
    some ⟨r.2, if r.1 then coolersWorkerInit conf else none, fun c => b.leftOn c || b.running c⟩
  | .setTime dbOk json flag => some { b with srv := (appSetCoolersTime dbOk json flag b.srv).2 }
  | .poll tm =>
    b.worker.map fun w =>
      let r := w.poll (some tm) (fun _ => true) b.srv
      ⟨r.2, some r.1, fun c => b.leftOn c && !r.1.runs c⟩

/-- The saved settings of a cooler say OFF at minute `t` of the day. -/
def SaysOff (cwt : CoolersWorkTime) (c : Cooler) (t : Nat) : Prop :=
  let start := (cwt.get (startRaw c)).minutes.toNat
  let stop := (cwt.get (stopRaw c)).minutes.toNat
  let wp := (cwt.get (wpRaw c)).min.toNat
  wp = 0 ∨ stop ≤ start ∨ t < start ∨ stop ≤ t ∨ wp ≤ (t - start) % 60

instance (cwt : CoolersWorkTime) (c : Cooler) (t : Nat) : Decidable (SaysOff cwt c t) :=
  inferInstanceAs (Decidable (_ ∨ _))

/-- After a poll the coolers whose settings say OFF stand still. -/
def OffPollSafe (realText : CStr → CStr) (b : Box) (e : BoxEv) : Prop :=
  ∀ tm, e = .poll tm → ∀ b', boxStep realText b e = some b' →
    ∀ c, SaysOff b.srv.app.cwt c tm.minutes → duty b'.srv.regs c = 0

/-- A poll at which the settings of `c` say OFF.  A cooler that this worker runs is
switched off: some work period is set, and the schedule of its record is in force
and its work over.  Any other was not left on, and is not switched on from a record
that was kept because the cooler's own work period has become 0. -/
def PollEndsWork (app : AppData) (leftOn : Bool) (w : Worker) (tm : Tm) (c : Cooler) : Prop :=
  let cl := takeSnapshot app c (w.cl c)
  let t := tm.currTimeMin
  (w.runs c = true → hasWorkPeriod app = true ∧ cl.InForce t ∧ cl.WorkOver t) ∧
  (w.runs c = false → leftOn = false ∧
    (w.testMode = false ∧ hasWorkPeriod app = true ∧ (app.cwt.get (wpRaw c)).min = 0 ∧ cl.InForce t →
      cl.WorkOver t ∨ cl.power = 0))

/-- No start and no edit is restricted, only the polls at which some settings say OFF. -/
def OffPollsEndWork (b : Box) : BoxEv → Prop
  | .poll tm => ∀ w ∈ b.worker, ∀ c, SaysOff b.srv.app.cwt c tm.minutes →
      PollEndsWork b.srv.app (b.leftOn c) w tm c
  | _ => True

instance (app : AppData) (leftOn : Bool) (w : Worker) (tm : Tm) (c : Cooler) :
    Decidable (PollEndsWork app leftOn w tm c) :=
  inferInstanceAs (Decidable (_ ∧ _))

instance (b : Box) (e : BoxEv) : Decidable (OffPollsEndWork b e) :=
  match e with
  | .poll tm => inferInstanceAs (Decidable (∀ w ∈ b.worker, ∀ c,
      SaysOff b.srv.app.cwt c tm.minutes → PollEndsWork b.srv.app (b.leftOn c) w tm c))
  | .start _ _ | .setTime _ _ _ => isTrue trivial

/-- With a work period, the record is the settings: a schedule in force that
says OFF is over. -/
theorem workOver_of_saysOff (app : AppData) (c : Cooler) (cl : ClTime) (tm : Tm)
    (hoff : SaysOff app.cwt c tm.minutes) (hwp : (app.cwt.get (wpRaw c)).min ≠ 0)
    (hf : (takeSnapshot app c cl).InForce tm.currTimeMin) :
    (takeSnapshot app c cl).WorkOver tm.currTimeMin := by
  have ht := tm.toNat_currTimeMin
  have hlt := tm.minutes_lt
  unfold SaysOff at hoff
  unfold takeSnapshot ClTime.InForce at hf
  unfold takeSnapshot ClTime.WorkOver
  rw [if_pos hwp] at hf ⊢
  have hwp' : (app.cwt.get (wpRaw c)).min.toNat ≠ 0 := fun h => hwp (UInt32.toNat_inj.mp h)
  generalize (app.cwt.get (startRaw c)).minutes = start at *
  generalize (app.cwt.get (stopRaw c)).minutes = stop at *
  generalize (app.cwt.get (wpRaw c)).min = wp at *
  simp only at hf hoff ⊢
  have h1 : start.toNat < stop.toNat := hf.1
  have h2 : start.toNat ≤ tm.minutes := by rw [← ht]; exact hf.2
  rcases hoff with h | h | h | h | h
  · omega
  · omega
  · omega
  · left
    rw [UInt32.le_iff_toNat_le, ht]
    exact h
  · right
    rw [UInt32.le_iff_toNat_le, UInt32.toNat_add, UInt32.toNat_add, UInt32.toNat_mul,
      UInt32.toNat_div, UInt32.toNat_sub_of_le _ _ hf.2, ht]
    simp only [UInt32.reduceToNat]
    omega

/-- A cooler stands still unless this process has switched it on or an earlier one
left it on. -/
def Box.Still (b : Box) : Prop :=
  ∀ c, b.leftOn c = false → b.running c = false → duty b.srv.regs c = 0

theorem still_unstarted (file : Mydb) : (Box.unstarted file).Still := fun c _ _ => by
  cases c <;> rfl

theorem appInit_regs (realText : CStr → CStr) (out : StartOutcomes) (conf : AppConfig) (file : Mydb)
    (regs : CtrlRegs) : (appInit realText out conf file regs).2.regs = regs := by
  unfold appInit
  split <;> rfl

theorem appSetCoolersTime_regs (dbOk : Bool) (json : Body) (flag : ClFlag) (srv : Server) :
    (appSetCoolersTime dbOk json flag srv).2.regs = srv.regs := by
  unfold appSetCoolersTime saveNewCoolersTime
  split
  · rfl
  · split <;> next h => exact (congrArg (fun r => r.2.regs) h).symm

/-- A start finds running what its predecessor ran, an edit commands nothing, and
a poll keeps the two in step. -/
theorem still_step (realText : CStr → CStr) (b : Box) (e : BoxEv) (b' : Box) (hb : b.Still)
    (h : boxStep realText b e = some b') : b'.Still := by
  cases e with
  | start out conf =>
    cases h
    intro c hleft _
    obtain ⟨hl, hr⟩ := Bool.or_eq_false_iff.mp hleft
    show duty (appInit realText out conf b.srv.db b.srv.regs).2.regs c = 0
    rw [appInit_regs]
    exact hb c hl hr
  | setTime dbOk json flag =>
    cases h
    intro c hleft hrun
    show duty (appSetCoolersTime dbOk json flag b.srv).2.regs c = 0
    rw [appSetCoolersTime_regs]
    exact hb c hleft hrun
  | poll tm =>
    obtain ⟨w, hw, rfl⟩ := Option.map_eq_some_iff.mp h
    intro c hleft hrun
    have hruns : (w.poll (some tm) (fun _ => true) b.srv).1.runs c = false := hrun
    have hl : b.leftOn c = false := by simpa [hruns] using hleft
    refine duty_poll_of_not_runs tm w b.srv c (fun h0 => hb c hl ?_) hruns
    rw [Box.running, hw]
    exact h0

/-- **Off means off**: a poll that ends the work of a cooler whose settings say OFF
leaves it at duty 0. -/
theorem offPollSafe_of_still (realText : CStr → CStr) (b : Box) (e : BoxEv) (hb : b.Still)
    (he : OffPollsEndWork b e) : OffPollSafe realText b e := by
  rintro tm rfl b' h c hoff
  obtain ⟨w, hw, rfl⟩ := Option.map_eq_some_iff.mp h
  have hends := he w hw c hoff
  have hover := workOver_of_saysOff b.srv.app c (w.cl c) tm hoff
  have hon := takeSnapshot_isOn b.srv.app c (w.cl c)
  have hrunning : b.running c = w.runs c := by rw [Box.running, hw]; rfl
  unfold PollEndsWork at hends
  show duty (w.poll (some tm) (fun _ => true) b.srv).2.regs c = 0
  rw [duty_poll]
  generalize takeSnapshot b.srv.app c (w.cl c) = cl at hends hover hon
  cases hr : w.runs c with
  | true =>
    obtain ⟨htest, hflag⟩ := Bool.and_eq_true_iff.mp hr
    obtain ⟨hwork, hf, hw⟩ := hends.1 hr
    rw [Bool.not_eq_true'] at htest
    rw [hflag] at hon
    have hs : cl.Switches tm.currTimeMin := ⟨hf, iff_of_true hon hw⟩
    simp only [hwork, htest, hs, hon, and_self, if_true]
  | false =>
    obtain ⟨hleft, hkept⟩ := hends.2 hr
    dsimp only
    split
    · next hact =>
      obtain ⟨hwork, htest, hf, hiff⟩ := hact
      have hoff : cl.isOn = false := by
        unfold Worker.runs at hr
        rw [hon]
        simpa [htest] using hr
      have hnw : ¬ cl.WorkOver tm.currTimeMin := fun h => by simpa [hoff] using hiff.mpr h
      have hwp : (b.srv.app.cwt.get (wpRaw c)).min = 0 := by
        by_contra h
        exact hnw (hover h hf)
      have hpow : cl.power = 0 := (hkept ⟨htest, hwork, hwp, hf⟩).resolve_left hnw
      simp [hpow, sat]
    · exact hb c hleft (hrunning.trans hr)

/-- **Coolers stand still outside their schedule** in every run of starts, edits and
polls in which each poll that finds settings saying OFF ends the cooler's work. -/
theorem off_polls_safe (realText : CStr → CStr) (file : Mydb) (es : List BoxEv)
    (h : Along (boxStep realText) OffPollsEndWork (Box.unstarted file) es) :
    Along (boxStep realText) (OffPollSafe realText) (Box.unstarted file) es :=
  along_of_inv (fun b e b' hb _ => still_step realText b e b' hb)
    (offPollSafe_of_still realText) _ es (still_unstarted file) h

/-- Input cooler: 08:00 to 20:00, the first half of every hour, at power 50. -/
def halfHours : Settings :=
  ((((Settings.dflt.setTime .startInTime ⟨8, 0, 0⟩).setTime .stopInTime ⟨20, 0, 0⟩).setTime
    .wpInTime ⟨0, 30, 0⟩).setPower .input 50)

def workMode : AppConfig := ⟨false, 60, 600⟩

def halfHoursServer : Server := (appInit id .allOk workMode (.holding halfHours) fun _ => 0).2

/-- `{"hour":19,"min":0,"sec":0}` -/
def nineteenOClock : Body :=
  some (.object [("hour", .number 19), ("min", .number 0), ("sec", .number 0)])

/-- Started again at 08:20, the server has the cooler switched on once more, so it
is off at 08:40; the stop time is moved to 19:00, and it is off then too. -/
def restartInWork : List BoxEv :=
  [.start .allOk workMode, .poll (.of 8 10), .start .allOk workMode, .poll (.of 8 25),
    .poll (.of 8 40), .poll (.of 18 10), .setTime true nineteenOClock .stopIn, .poll (.of 19 0)]

theorem off_polls_safe_restart :
    Along (boxStep id) (OffPollSafe id) (Box.unstarted (.holding halfHours)) restartInWork :=
  off_polls_safe id (.holding halfHours) restartInWork (by decide +kernel)

/-- A server that is started again at 08:20 has forgotten at 08:40 that the cooler runs. -/
theorem restart_leaves_cooler_running :
    ¬ Along (boxStep id) (OffPollSafe id) (Box.unstarted (.holding halfHours))
      [.start .allOk workMode, .poll (.of 8 10), .start .allOk workMode, .poll (.of 8 40)] := by
  intro h
  have h4 := (((h.2 _ rfl).2 _ rfl).2 _ rfl).1 _ rfl _ rfl .input (by decide)
  exact absurd h4 (by decide)

end Growbox
