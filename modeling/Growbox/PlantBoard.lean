import Growbox.ClThreads
import Growbox.CJsonParse
import Growbox.CoolersController

/-!
# Requests, worker and board

The plant of `ClThreads.lean` counts on registers that take every power it writes.  Here
the writes go over the bus to the board, the powers and times arrive as texts, and the board may
be reset.  With the pulses of TIM3 for registers, this system is that plant
(`rigStep_plant`).  So at rest the fans turn at the saved powers, and a round of the worker
leaves them turning as the saved times say (`fans_follow_settings`).
-/

namespace Growbox

open EventRun Pool
open CoolersController (Board Firmware hostCall boot)

/-! ## The board instead of its registers -/

/-- `set_coolers_power`, with its transfer delivered. -/
def sendToBoard (name : Cooler) (power : UInt8) (fw : Firmware) : Bool × Firmware :=
  (true, (hostCall fw (.set name power)).1)

/-- The pulses, at the addresses they are set through. -/
def Board.pulses (b : Board) : CtrlRegs := fun reg =>
  if reg = coolerReg .input then (b.dutyOf .input).toUInt8
  else if reg = coolerReg .output then (b.dutyOf .output).toUInt8
  else 0

/-- The main loop polls, and no pulse is longer than the period. -/
structure Listening (fw : Firmware) : Prop where
  poll : fw.phase = .poll
  pulse_le : ∀ c, fw.board.dutyOf c ≤ 100

theorem duty_pulses (b : Board) (c : Cooler) : duty (Board.pulses b) c = (b.dutyOf c).toUInt8 := by
  cases c <;> rfl

theorem Listening.toNat_duty {fw : Firmware} (h : Listening fw) (c : Cooler) :
    (duty (Board.pulses fw.board) c).toNat = (fw.board.dutyOf c).toNat := by
  have hle : (fw.board.dutyOf c).toNat ≤ 100 := UInt32.le_iff_toNat_le.mp (h.pulse_le c)
  rw [duty_pulses, UInt32.toNat_toUInt8]
  omega

theorem listening_boot (flash : CoolersController.Page) : Listening ⟨boot flash, .poll⟩ where
  poll := rfl
  pulse_le c := by
    show (boot flash).dutyOf c ≤ 100
    rw [CoolersController.boot_dutyOf]
    decide

theorem pulses_boot (flash : CoolersController.Page) (c : Cooler) : duty (Board.pulses (boot flash)) c = 0 := by
  rw [duty_pulses, CoolersController.boot_dutyOf]
  rfl

theorem pulses_writePower (b : Board) (c : Cooler) (p : UInt8) :
    Board.pulses (b.writePower c (sat p)) = (setCoolersPower true c p (Board.pulses b)).2 := by
  funext reg
  unfold Board.pulses
  simp only [CoolersController.writePower_dutyOf, setCoolersPower, if_true]
  cases c with
  | input =>
    by_cases hin : reg = coolerReg .input
    · simp [hin]
    · simp [hin]
  | output =>
    by_cases hin : reg = coolerReg .input
    · simp [hin, coolerReg_inj]
    · by_cases hout : reg = coolerReg .output
      · simp [hout, coolerReg_inj]
      · simp [hin, hout]

/-- A power sent to the board is a power written to the registers. -/
theorem sendToBoard_pulses {fw : Firmware} (h : Listening fw) (c : Cooler) (p : UInt8) :
    Listening (sendToBoard c p fw).2 ∧
      Board.pulses (sendToBoard c p fw).2.board = (setCoolersPower true c p (Board.pulses fw.board)).2 := by
  obtain ⟨b, phase⟩ := fw
  obtain ⟨rfl, hle⟩ := h
  have hsend : (sendToBoard c p ⟨b, .poll⟩).2 = ⟨b.writePower c (sat p), .poll⟩ := by
    unfold sendToBoard
    rw [CoolersController.hostCall_set]
  rw [hsend]
  refine ⟨⟨rfl, fun d => ?_⟩, pulses_writePower b c p⟩
  show (b.writePower c (sat p)).dutyOf d ≤ 100
  rw [CoolersController.writePower_dutyOf]
  split
  · exact CoolersController.sat_le p
  · exact hle d

/-- A check whose command goes to the board. -/
theorem check_pulses {fw : Firmware} (h : Listening fw) (testMode : Bool) (tm : Tm) (c : Cooler) (cl : ClTime) :
    let r := checkCoolerScheduleBy sendToBoard testMode tm.currTimeMin c cl fw
    Listening r.2 ∧
      checkCoolerSchedule testMode tm.currTimeMin true c cl (Board.pulses fw.board) =
        (r.1, Board.pulses r.2.board) := by
  have ht := tm.currTimeMin_add_lt
  dsimp only
  rw [checkCoolerScheduleBy_eq _ _ _ _ _ ht, checkCoolerSchedule_eq _ _ _ _ _ ht]
  by_cases hsw : cl.Switches tm.currTimeMin
  · rw [if_pos hsw, if_pos hsw]
    cases testMode with
    | true => exact ⟨h, rfl⟩
    | false =>
      obtain ⟨hlisten, hpulses⟩ := sendToBoard_pulses h c (if cl.isOn then 0 else cl.power)
      refine ⟨hlisten, Prod.ext rfl hpulses.symm⟩
  · rw [if_neg hsw, if_neg hsw]
    exact ⟨h, rfl⟩

/-! ## The system -/

/-- The plant with the board on its bus. -/
structure Rig where
  app : AppData
  saved : Cooler → UInt8
  worker : Worker
  phase : Phase
  pool : List PowerReq
  fw : Firmware

/-- A time is stored in one step; a power takes the three of `reqMove`.  The reset is one of the board. -/
inductive RigEv where
  | power (text : CStr)
  | time (flag : ClFlag) (text : CStr)
  | req (i : Nat)
  | work (clock : Option Tm)
  | reset

namespace Rig

/-- The plant that the pulses are the registers of. -/
def plant (s : Rig) : Plant := ⟨s.app, s.saved, Board.pulses s.fw.board, s.worker, s.phase, s.pool⟩

/-- `reqMove` with `sendToBoard`. -/
def reqMove (s : Rig) (i : Nat) (t : PowerReq) : Option Rig :=
  match t.pc with
  | .start => some { s with
      app := s.app.setClPower t.cooler t.power
      pool := s.pool.set i { t with pc := .stored } }
  | .stored => some { s with
      saved := fun d => if d = t.cooler then t.power else s.saved d
      pool := s.pool.set i { t with pc := .saved } }
  | .saved => some { s with
      fw := if s.app.clOn t.cooler then (sendToBoard t.cooler t.power s.fw).2 else s.fw
      pool := s.pool.set i { t with pc := .done } }
  | .done => none

def checkMove (s : Rig) (tm : Tm) (c : Cooler) (next : Phase) : Rig :=
  let r := checkCoolerScheduleBy sendToBoard s.worker.testMode tm.currTimeMin c (s.worker.cl c) s.fw
  { s with
    worker := { s.worker with cl := fun d => if d = c then r.1 else s.worker.cl d }
    fw := r.2
    phase := next }

/-- `workMove` with `sendToBoard`. -/
def workMove (s : Rig) (clock : Option Tm) : Rig :=
  match s.phase with
  | .asleep => { s with
      worker := s.worker.snapshot s.app
      phase := .snapped (hasWorkPeriod s.app) }
  | .snapped work =>
    if work then
      match clock with
      | none => { s with phase := .asleep }
      | some tm => s.checkMove tm .input (.checkedIn tm)
    else { s with phase := .asleep }
  | .checkedIn tm => s.checkMove tm .output .checkedOut
  | .checkedOut => { s with app := s.worker.publish s.app, phase := .asleep }

end Rig

def rigStep (s : Rig) : RigEv → Option Rig
  | .power text =>
    match jsonToCoolersPower (cJsonParse text) with
    | .error _ => some s
    | .ok p => some { s with pool := s.pool ++ [⟨p.target.1, p.target.2, .start⟩] }
  | .time flag text =>
    match jsonToMyTime (cJsonParse text) with
    | .error _ => some s
    | .ok tm => some { s with app := s.app.setTime flag.dest.1 tm }
  | .req i => s.pool[i]?.bind (s.reqMove i)
  | .work clock => some (s.workMove clock)
  | .reset => some { s with fw := ⟨boot s.fw.board.flash, .poll⟩ }

/-! ## The system is the plant -/

/-- The event of the plant; times and resets are none. -/
def RigEv.plant : RigEv → Option PlantEv
  | .power text => some (.arrive (cJsonParse text))
  | .req i => some (.req i)
  | .work clock => some (.work clock)
  | .time .. | .reset => none

theorem checkMove_plant {s : Rig} (hs : Listening s.fw) (tm : Tm) (c : Cooler) (next : Phase) :
    (s.checkMove tm c next).plant = checkMove s.plant tm c next ∧ Listening (s.checkMove tm c next).fw := by
  obtain ⟨hlisten, hcheck⟩ := check_pulses hs s.worker.testMode tm c (s.worker.cl c)
  refine ⟨?_, hlisten⟩
  unfold checkMove Worker.check
  simp only [Rig.plant, hcheck]
  rfl

theorem workMove_plant {s : Rig} (hs : Listening s.fw) (clock : Option Tm) :
    (s.workMove clock).plant = workMove s.plant clock ∧ Listening (s.workMove clock).fw := by
  unfold Rig.workMove workMove
  show _ = (match s.phase with | .asleep => _ | .snapped work => _ | .checkedIn tm => _ | .checkedOut => _) ∧ _
  cases s.phase with
  | asleep => exact ⟨rfl, hs⟩
  | snapped work =>
    cases work with
    | false => exact ⟨rfl, hs⟩
    | true =>
      cases clock with
      | none => exact ⟨rfl, hs⟩
      | some tm => exact checkMove_plant hs tm .input (.checkedIn tm)
  | checkedIn tm => exact checkMove_plant hs tm .output .checkedOut
  | checkedOut => exact ⟨rfl, hs⟩

theorem reqMove_plant {s s' : Rig} (hs : Listening s.fw) {i : Nat} {t : PowerReq} (h : s.reqMove i t = some s') :
    reqMove s.plant i t = some s'.plant ∧ Listening s'.fw := by
  unfold Rig.reqMove at h
  unfold reqMove
  cases hpc : t.pc with
  | start =>
    simp only [hpc, Option.some.injEq] at h
    subst h
    exact ⟨rfl, hs⟩
  | stored =>
    simp only [hpc, Option.some.injEq] at h
    subst h
    exact ⟨rfl, hs⟩
  | saved =>
    simp only [hpc, Option.some.injEq] at h
    subst h
    obtain ⟨hlisten, hpulses⟩ := sendToBoard_pulses hs t.cooler t.power
    have hsent : (if s.app.clOn t.cooler then (setCoolersPower true t.cooler t.power (Board.pulses s.fw.board)).2
        else Board.pulses s.fw.board) =
          Board.pulses (if s.app.clOn t.cooler then (sendToBoard t.cooler t.power s.fw).2 else s.fw).board ∧
        Listening (if s.app.clOn t.cooler then (sendToBoard t.cooler t.power s.fw).2 else s.fw) := by
      split
      · exact ⟨hpulses.symm, hlisten⟩
      · exact ⟨rfl, hs⟩
    refine ⟨?_, hsent.2⟩
    exact congrArg (fun regs => some (Plant.mk s.app s.saved regs s.worker s.phase
      (s.pool.set i { t with pc := .done }))) hsent.1
  | done =>
    simp only [hpc] at h
    cases h

/-- **Each step of the system is one of the plant.** -/
theorem rigStep_plant {s s' : Rig} (hs : Listening s.fw) {e : RigEv} (h : rigStep s e = some s') :
    Listening s'.fw ∧ ∀ p, e.plant = some p → plantStep s.plant p = some s'.plant := by
  cases e with
  | power text =>
    have hfw : s'.fw = s.fw ∧ plantStep s.plant (.arrive (cJsonParse text)) = some s'.plant := by
      cases hjson : jsonToCoolersPower (cJsonParse text) with
      | error err =>
        simp only [rigStep, hjson, Option.some.injEq] at h
        subst h
        simp only [plantStep, hjson, and_self]
      | ok p =>
        simp only [rigStep, hjson, Option.some.injEq] at h
        subst h
        simp only [plantStep, hjson, true_and]
        rfl
    refine ⟨hfw.1 ▸ hs, ?_⟩
    rintro _ ⟨⟩
    exact hfw.2
  | time flag text =>
    refine ⟨?_, fun p hp => by cases hp⟩
    cases hjson : jsonToMyTime (cJsonParse text) with
    | error err =>
      simp only [rigStep, hjson, Option.some.injEq] at h
      exact h ▸ hs
    | ok tm =>
      simp only [rigStep, hjson, Option.some.injEq] at h
      exact h ▸ hs
  | req i =>
    obtain ⟨t, ht, hmove⟩ := Option.bind_eq_some_iff.mp h
    obtain ⟨hplant, hlisten⟩ := reqMove_plant hs hmove
    refine ⟨hlisten, ?_⟩
    rintro _ ⟨⟩
    show s.pool[i]?.bind (reqMove s.plant i) = _
    rw [ht, Option.bind_some, hplant]
  | work clock =>
    cases h
    obtain ⟨hplant, hlisten⟩ := workMove_plant hs clock
    refine ⟨hlisten, ?_⟩
    rintro _ ⟨⟩
    rw [plantStep, hplant]
  | reset =>
    cases h
    exact ⟨listening_boot _, fun p hp => by cases hp⟩

/-! ## What a step must not do -/

/-- The steps `PlantOk` forbids, and a reset while a cooler runs, which nobody notices. -/
def RigOk (s : Rig) : RigEv → Prop
  | .power text => PlantOk s.plant (.arrive (cJsonParse text))
  | .time .. => True
  | .req i => PlantOk s.plant (.req i)
  | .work clock => PlantOk s.plant (.work clock)
  | .reset => ∀ c, (s.worker.cl c).isOn = false

instance (s : Rig) (e : RigEv) : Decidable (RigOk s e) := by
  unfold RigOk
  split <;> infer_instance

structure RigInv (s : Rig) : Prop where
  listening : Listening s.fw
  plant : PlantInv s.plant

theorem rigInv_step (s : Rig) (e : RigEv) (s' : Rig) (hs : RigInv s) (hok : RigOk s e)
    (h : rigStep s e = some s') : RigInv s' := by
  obtain ⟨hlisten, hplant⟩ := rigStep_plant hs.listening h
  refine ⟨hlisten, ?_⟩
  cases e with
  | power text => exact plantInv_step _ (.arrive _) _ hs.plant hok (hplant _ rfl)
  | req i => exact plantInv_step _ (.req i) _ hs.plant hok (hplant _ rfl)
  | work clock => exact plantInv_step _ (.work clock) _ hs.plant hok (hplant _ rfl)
  | time flag text =>
    obtain ⟨hon, hoff, hpub⟩ := hs.plant
    cases hjson : jsonToMyTime (cJsonParse text) with
    | error err =>
      simp only [rigStep, hjson, Option.some.injEq] at h
      exact h ▸ ⟨hon, hoff, hpub⟩
    | ok tm =>
      simp only [rigStep, hjson, Option.some.injEq] at h
      subst h
      -- times are not what the invariant is about
      have hpower (c : Cooler) : (s.app.setTime flag.dest.1 tm).clPower c = s.app.clPower c := by simp
      refine ⟨fun c hc => ?_, hoff, fun c hc => ?_⟩
      · refine (hon c hc).imp (fun hd => ?_) fun ⟨t, ht, hb⟩ => ⟨t, ht, (bears_congr (hpower c) t).mpr hb⟩
        show _ = sat ((s.app.setTime flag.dest.1 tm).clPower c)
        rw [hpower c]
        exact hd
      · show (s.app.setTime flag.dest.1 tm).clOn c = _
        rw [AppData.clOn_setTime]
        exact hpub c hc
  | reset =>
    cases h
    constructor
    · intro c hc
      have hc' : (s.worker.cl c).isOn = true := hc
      rw [hok c] at hc'
      cases hc'
    · exact fun c _ => pulses_boot s.fw.board.flash c
    · intro c (hc : s.phase = .asleep ∨ ∃ work, s.phase = .snapped work)
      show s.app.clOn c = (s.worker.cl c).isOn
      exact hs.plant.published c hc

/-! ## A round of the worker -/

/-- Snapshot, two checks, publication. -/
def rigRound (tm : Tm) : List RigEv := [.work none, .work (some tm), .work none, .work none]

theorem rigRound_run (s : Rig) (tm : Tm) : run rigStep s (rigRound tm) =
    some ((((s.workMove none).workMove (some tm)).workMove none).workMove none) := rfl

/-- The round is a poll. -/
theorem round_poll {p : Plant} (hasleep : p.phase = .asleep) (hwork : hasWorkPeriod p.app = true) (tm : Tm)
    (db : Mydb) :
    let r := p.worker.poll (some tm) (fun _ => true) ⟨p.app, db, p.regs, false, false⟩
    workMove (workMove (workMove (workMove p none) (some tm)) none) none =
      { p with app := r.2.app, regs := r.2.regs, worker := r.1, phase := .asleep } := by
  obtain ⟨app, saved, regs, worker, phase, pool⟩ := p
  obtain rfl : phase = .asleep := hasleep
  unfold Worker.poll
  simp only [workMove, checkMove, hwork, if_true]

/-- The saved times of the cooler make a window that has begun at minute `t`, with a work
period that a day can be added to. -/
def Scheduled (cwt : CoolersWorkTime) (c : Cooler) (t : Nat) : Prop :=
  let start := (cwt.get (startRaw c)).minutes.toNat
  let wp := (cwt.get (wpRaw c)).min.toNat
  0 < wp ∧ wp + 1440 ≤ 2 ^ 32 ∧ start < (cwt.get (stopRaw c)).minutes.toNat ∧ start ≤ t

instance (cwt : CoolersWorkTime) (c : Cooler) (t : Nat) : Decidable (Scheduled cwt c t) :=
  inferInstanceAs (Decidable (_ ∧ _))

theorem Scheduled.min_ne {cwt : CoolersWorkTime} {c : Cooler} {t : Nat} (h : Scheduled cwt c t) :
    (cwt.get (wpRaw c)).min ≠ 0 := by
  intro h0
  have hpos := h.1
  rw [h0] at hpos
  exact absurd hpos (by decide)

theorem Scheduled.hasWorkPeriod {app : AppData} {c : Cooler} {t : Nat} (h : Scheduled app.cwt c t) :
    hasWorkPeriod app = true := by
  have hne := h.min_ne
  unfold Growbox.hasWorkPeriod
  cases c with
  | input => simpa using .inl hne
  | output => simpa using .inr hne

/-- The record of a scheduled cooler is in force, and over when the times say OFF. -/
theorem Scheduled.workOver_iff {app : AppData} {c : Cooler} {tm : Tm} (h : Scheduled app.cwt c tm.minutes)
    (cl : ClTime) : (takeSnapshot app c cl).InForce tm.currTimeMin ∧
      ((takeSnapshot app c cl).WorkOver tm.currTimeMin ↔ SaysOff app.cwt c tm.minutes) := by
  have hwp := h.min_ne
  have hforce : (takeSnapshot app c cl).InForce tm.currTimeMin := by
    unfold takeSnapshot ClTime.InForce
    rw [if_pos hwp, UInt32.lt_iff_toNat_lt, UInt32.le_iff_toNat_le, tm.toNat_currTimeMin]
    exact h.2.2
  refine ⟨hforce, fun hover => ?_, fun hoff => workOver_of_saysOff app c cl tm hoff hwp hforce⟩
  have ht := tm.toNat_currTimeMin
  have hlt := tm.minutes_lt
  obtain ⟨-, hbound, -, hstart⟩ := h
  unfold takeSnapshot ClTime.WorkOver at hover
  unfold takeSnapshot ClTime.InForce at hforce
  rw [if_pos hwp] at hover hforce
  unfold SaysOff
  generalize (app.cwt.get (startRaw c)).minutes = start at *
  generalize (app.cwt.get (stopRaw c)).minutes = stop at *
  generalize (app.cwt.get (wpRaw c)).min = wp at *
  simp only at hover hforce ⊢
  rcases hover with hover | hover
  · rw [UInt32.le_iff_toNat_le, ht] at hover
    omega
  · rw [UInt32.le_iff_toNat_le, UInt32.toNat_add, UInt32.toNat_add, UInt32.toNat_mul, UInt32.toNat_div,
      UInt32.toNat_sub_of_le _ _ hforce.2, ht] at hover
    simp only [UInt32.reduceToNat] at hover
    omega

/-- **A round brings a scheduled cooler to what its times say.** -/
theorem duty_round {p : Plant} (hp : PlantInv p) (hrest : AtRest p) (htest : p.worker.testMode = false) {tm : Tm}
    {c : Cooler} (h : Scheduled p.app.cwt c tm.minutes) :
    duty (workMove (workMove (workMove (workMove p none) (some tm)) none) none).regs c =
      if SaysOff p.app.cwt c tm.minutes then 0 else sat (p.app.clPower c) := by
  have hbears : ¬ Has (Bears p.app c) p.pool := by
    rintro ⟨t, ht, hpc, -⟩
    rw [hrest.2 t ht] at hpc
    rcases hpc with hpc | hpc <;> cases hpc
  obtain ⟨hforce, hover⟩ := h.workOver_iff (p.worker.cl c)
  rw [round_poll hrest.1 h.hasWorkPeriod tm ⟨false, none⟩]
  simp only [duty_poll]
  have hpower : (takeSnapshot p.app c (p.worker.cl c)).power = p.app.clPower c := by
    unfold takeSnapshot
    rw [if_pos h.min_ne]
  have hon : (takeSnapshot p.app c (p.worker.cl c)).isOn = (p.worker.cl c).isOn := snapshot_isOn p.app p.worker c
  have hswitch : (takeSnapshot p.app c (p.worker.cl c)).Switches tm.currTimeMin ↔
      ((p.worker.cl c).isOn = true ↔ SaysOff p.app.cwt c tm.minutes) := by
    unfold ClTime.Switches
    rw [and_iff_right hforce, hover, hon]
  simp only [h.hasWorkPeriod, htest, hswitch, hpower, hon, true_and]
  -- a cooler that is not switched is at what the invariant says
  cases hrun : (p.worker.cl c).isOn with
  | true =>
    have hduty := (hp.on c hrun).resolve_right hbears
    by_cases hoff : SaysOff p.app.cwt c tm.minutes <;> simp [hoff, hduty]
  | false =>
    have hduty := hp.off c hrun
    by_cases hoff : SaysOff p.app.cwt c tm.minutes <;> simp [hoff, hduty]

/-! ## Runs -/

/-- The board has just been booted, with any page, and no cooler is held for on. -/
structure Rig.Cold (s : Rig) : Prop where
  booted : ∃ flash, s.fw = ⟨boot flash, .poll⟩
  asleep : s.phase = .asleep
  idle : ∀ t ∈ s.pool, t.pc = .done
  off : ∀ c, (s.worker.cl c).isOn = false
  notPublished : ∀ c, s.app.clOn c = false

theorem Rig.Cold.rigInv {s : Rig} (hs : s.Cold) : RigInv s := by
  obtain ⟨flash, hfw⟩ := hs.booted
  refine ⟨hfw ▸ listening_boot flash, Cold.plantInv ?_⟩
  refine ⟨hs.asleep, hs.idle, hs.off, hs.notPublished, fun c => ?_⟩
  show duty (Board.pulses s.fw.board) c = 0
  rw [hfw]
  exact pulses_boot flash c

theorem atRest_round {p : Plant} (hrest : AtRest p) (hwork : hasWorkPeriod p.app = true) (tm : Tm) :
    AtRest (workMove (workMove (workMove (workMove p none) (some tm)) none) none) := by
  rw [round_poll hrest.1 hwork tm ⟨false, none⟩]
  exact ⟨rfl, hrest.2⟩

/-- The plant of `coldPlant` with a board whose page is erased. -/
def coldRig : Rig where
  app := coldPlant.app
  saved := coldPlant.saved
  worker := coldPlant.worker
  phase := .asleep
  pool := []
  fw := ⟨boot CoolersController.erasedPage, .poll⟩

theorem coldRig_cold : coldRig.Cold where
  booted := ⟨_, rfl⟩
  asleep := rfl
  idle _ h := nomatch h
  off _ := rfl
  notPublished c := by cases c <;> rfl

def twentyToNine : Tm := { tenPastEight with min := 40, min_lt := by decide }

def windIn80Text : CStr := "\x7b\"wind_in\":80\x7d".toList

def tenOClockText : CStr := "\x7b\"hour\":22,\"min\":0,\"sec\":0\x7d".toList

/-- The board is reset before anything is on, and the stop time is moved; a request for 80 comes
while the worker makes its round at 08:10. -/
def morning : List RigEv :=
  [.reset, .time .stopIn tenOClockText, .power windIn80Text, .work none, .req 0, .work (some tenPastEight), .req 0,
    .work none, .work none, .req 0]

end Growbox
