import Growbox.AppCl
import Growbox.Lib.Pool

/-!
# The cooler worker among power requests

The worker takes its snapshot, checks the two coolers and publishes their
on-flags; a power request stores the power, saves it, and then writes it to the
controller if the published flag is set.  Each of these is one step, and they
interleave.  A power is lost when a request looks at the flag between a check
and its publication, or when the worker switches a cooler on with an older
snapshot.  `PlantOk` rules out just these, and then whenever everybody rests
the duties are what the published flags and the powers say
(`duty_agrees_at_rest`).
-/

namespace Growbox

open EventRun Pool

/-! ## The threads -/

/-- Where a power request is: nothing done, power stored, power saved, finished. -/
inductive PowerPc where
  | start | stored | saved | done
  deriving DecidableEq, Repr

structure PowerReq where
  cooler : Cooler
  power : UInt8
  pc : PowerPc
  deriving DecidableEq, Repr

/-- Where the worker is; `work` is its `check_schedule`. -/
inductive Phase where
  | asleep
  | snapped (work : Bool)
  | checkedIn (tm : Tm)
  | checkedOut
  deriving DecidableEq

/-- `saved` is the row of the database, as far as the powers go. -/
structure Plant where
  app : AppData
  saved : Cooler → UInt8
  regs : CtrlRegs
  worker : Worker
  phase : Phase
  pool : List PowerReq

inductive PlantEv where
  | arrive (json : Body)
  | req (i : Nat)
  | work (clock : Option Tm)

/-- The next action of request `i`, which is `t`. -/
def reqMove (s : Plant) (i : Nat) (t : PowerReq) : Option Plant :=
  match t.pc with
  | .start => some { s with
      app := s.app.setClPower t.cooler t.power
      pool := s.pool.set i { t with pc := .stored } }
  | .stored => some { s with
      saved := fun d => if d = t.cooler then t.power else s.saved d
      pool := s.pool.set i { t with pc := .saved } }
  | .saved => some { s with
      regs :=
        if s.app.clOn t.cooler then (setCoolersPower true t.cooler t.power s.regs).2 else s.regs
      pool := s.pool.set i { t with pc := .done } }
  | .done => none

/-- The check of one cooler, its I2C write included. -/
def checkMove (s : Plant) (tm : Tm) (c : Cooler) (next : Phase) : Plant :=
  let r := Worker.check tm.currTimeMin true c (s.worker, s.regs)
  { s with worker := r.1, regs := r.2, phase := next }

/-- The next action of the worker. -/
def workMove (s : Plant) (clock : Option Tm) : Plant :=
  match s.phase with
  | .asleep => { s with
      worker := s.worker.snapshot s.app
      phase := .snapped (hasWorkPeriod s.app) }
  | .snapped work =>
    if work then
      match clock with
      | none => { s with phase := .asleep }
      | some tm => checkMove s tm .input (.checkedIn tm)
    else { s with phase := .asleep }
  | .checkedIn tm => checkMove s tm .output .checkedOut
  | .checkedOut => { s with app := s.worker.publish s.app, phase := .asleep }

/-- A body that cannot be decoded is answered at once. -/
def plantStep (s : Plant) : PlantEv → Option Plant
  | .arrive json =>
    match jsonToCoolersPower json with
    | .error _ => some s
    | .ok p => some { s with pool := s.pool ++ [⟨p.target.1, p.target.2, .start⟩] }
  | .req i => s.pool[i]?.bind (reqMove s i)
  | .work clock => some (workMove s clock)

/-! ## What a step must not do -/

/-- A request on its way to the controller whose power is the stored one. -/
def Bears (app : AppData) (c : Cooler) (t : PowerReq) : Prop :=
  (t.pc = .stored ∨ t.pc = .saved) ∧ t.cooler = c ∧ sat t.power = sat (app.clPower c)

/-- Request `i` looks at the flag.  Cooler on and known to be: it writes the stored
power, or another will.  On but not yet known to be: the power it skips is set,
or another will set it.  Off but not yet known to be: it writes 0. -/
def FlagReadOk (s : Plant) (i : Nat) (t : PowerReq) : Prop :=
  let c := t.cooler
  let others := HasBut i (Bears s.app c) s.pool
  if (s.worker.cl c).isOn then
    (if s.app.clOn c then sat t.power else duty s.regs c) = sat (s.app.clPower c) ∨ others
  else s.app.clOn c = true → sat t.power = 0

/-- The worker switches a cooler: off to 0, on to the stored power or with a
request to come that brings it. -/
def SwitchOk (s : Plant) (t : UInt32) (c : Cooler) : Prop :=
  let cl := s.worker.cl c
  cl.Switches t →
    if cl.isOn then s.worker.testMode = true → duty s.regs c = 0
    else
      (if s.worker.testMode then duty s.regs c else sat cl.power) = sat (s.app.clPower c) ∨
        Has (Bears s.app c) s.pool

def PlantOk (s : Plant) : PlantEv → Prop
  | .arrive _ => True
  | .req i => ∀ t, s.pool[i]? = some t → t.pc = .saved → FlagReadOk s i t
  | .work clock =>
    match s.phase with
    | .snapped true => ∀ tm, clock = some tm → SwitchOk s tm.currTimeMin .input
    | .checkedIn tm => SwitchOk s tm.currTimeMin .output
    | _ => True

instance (app : AppData) (c : Cooler) (t : PowerReq) : Decidable (Bears app c t) :=
  inferInstanceAs (Decidable (_ ∧ _))

instance (s : Plant) (i : Nat) (t : PowerReq) : Decidable (FlagReadOk s i t) := by
  unfold FlagReadOk
  infer_instance

instance (s : Plant) (t : UInt32) (c : Cooler) : Decidable (SwitchOk s t c) := by
  unfold SwitchOk
  infer_instance

instance (s : Plant) (e : PlantEv) : Decidable (PlantOk s e) := by
  unfold PlantOk
  split
  · infer_instance
  · infer_instance
  · split <;> infer_instance

/-! ## The invariant -/

/-- A cooler the worker holds for on has the stored power, or a request brings
it; one it holds for off is at 0; and what it holds is published, except
between a check and the publication. -/
structure PlantInv (s : Plant) : Prop where
  on : ∀ c, (s.worker.cl c).isOn = true →
    duty s.regs c = sat (s.app.clPower c) ∨ Has (Bears s.app c) s.pool
  off : ∀ c, (s.worker.cl c).isOn = false → duty s.regs c = 0
  published : ∀ c, (s.phase = .asleep ∨ ∃ work, s.phase = .snapped work) →
    s.app.clOn c = (s.worker.cl c).isOn

theorem bears_congr {app app' : AppData} {c : Cooler} (h : app'.clPower c = app.clPower c)
    (t : PowerReq) : Bears app' c t ↔ Bears app c t := by
  unfold Bears
  rw [h]

theorem not_bears {app : AppData} {c : Cooler} {t : PowerReq} (h : t.pc = .start ∨ t.cooler ≠ c) :
    ¬ Bears app c t := by
  rintro ⟨hpc, hc, -⟩
  rcases h with h | h
  · rw [h] at hpc
    rcases hpc with h | h <;> cases h
  · exact h hc

/-- A store makes its request the bearer of the new power. -/
theorem plantInv_store {s : Plant} (hs : PlantInv s) {i : Nat} {t : PowerReq}
    (hi : s.pool[i]? = some t) (hpc : t.pc = .start) :
    PlantInv { s with
      app := s.app.setClPower t.cooler t.power
      pool := s.pool.set i { t with pc := .stored } } where
  on c hon := by
    by_cases hc : c = t.cooler
    · subst hc
      exact .inr ((has_set hi).mpr (.inr ⟨.inl rfl, rfl, by simp⟩))
    · have hp : (s.app.setClPower t.cooler t.power).clPower c = s.app.clPower c := by simp [hc]
      refine (hs.on c hon).imp (fun h => by rw [hp]; exact h) fun h => ?_
      have hbut := ((has_iff hi).mp h).resolve_right (not_bears (.inl hpc))
      exact (has_set hi).mpr (.inl ((hasBut_congr (bears_congr hp)).mpr hbut))
  off := hs.off
  published c h := by
    rw [AppData.clOn_setClPower]
    exact hs.published c h

theorem plantInv_save {s : Plant} (hs : PlantInv s) {i : Nat} {t : PowerReq}
    (hi : s.pool[i]? = some t) (saved : Cooler → UInt8) :
    PlantInv { s with saved, pool := s.pool.set i { t with pc := .saved } } where
  on c hon := (hs.on c hon).imp_right fun h =>
    (has_set hi).mpr (((has_iff hi).mp h).imp_right fun h => ⟨.inr rfl, h.2⟩)
  off := hs.off
  published := hs.published

theorem plantInv_apply {s : Plant} (hs : PlantInv s) {i : Nat} {t : PowerReq}
    (hi : s.pool[i]? = some t) (hok : FlagReadOk s i t) :
    PlantInv { s with
      regs :=
        if s.app.clOn t.cooler then (setCoolersPower true t.cooler t.power s.regs).2 else s.regs
      pool := s.pool.set i { t with pc := .done } } := by
  have hduty (c : Cooler) :
      duty (if s.app.clOn t.cooler then (setCoolersPower true t.cooler t.power s.regs).2
        else s.regs) c =
      if c = t.cooler ∧ s.app.clOn t.cooler = true then sat t.power else duty s.regs c := by
    cases s.app.clOn t.cooler <;> simp
  unfold FlagReadOk at hok
  constructor
  · intro c hon
    simp only [hduty]
    by_cases hc : c = t.cooler
    · subst hc
      rw [if_pos hon] at hok
      simp only [true_and]
      exact hok.imp_right fun h => (has_set hi).mpr (.inl h)
    · rw [if_neg fun h => hc h.1]
      refine (hs.on c hon).imp_right fun h => (has_set hi).mpr (.inl ?_)
      exact ((has_iff hi).mp h).resolve_right (not_bears (.inr (Ne.symm hc)))
  · intro c hoff
    simp only [hduty]
    split
    · next h =>
      obtain ⟨rfl, hflag⟩ := h
      rw [if_neg (by rw [hoff]; exact Bool.false_ne_true)] at hok
      exact hok hflag
    · exact hs.off c hoff
  · exact hs.published

theorem snapshot_isOn (app : AppData) (w : Worker) (c : Cooler) :
    ((w.snapshot app).cl c).isOn = (w.cl c).isOn := by
  show (takeSnapshot app c (w.cl c)).isOn = _
  unfold takeSnapshot
  split <;> rfl

/-- After a check, a cooler that the worker has on has the stored power, or will have it. -/
theorem check_on_duty {s : Plant} (hs : PlantInv s) {tm : Tm} {c : Cooler}
    (hok : SwitchOk s tm.currTimeMin c) {d : Cooler}
    (hon : ((Worker.check tm.currTimeMin true c (s.worker, s.regs)).1.cl d).isOn = true) :
    duty (Worker.check tm.currTimeMin true c (s.worker, s.regs)).2 d = sat (s.app.clPower d) ∨
      Has (Bears s.app d) s.pool := by
  have ht := tm.currTimeMin_add_lt
  by_cases hd : d = c
  · subst hd
    rw [isOn_check_self ht] at hon
    rw [duty_check_self ht]
    by_cases hsw : (s.worker.cl d).Switches tm.currTimeMin
    · have hoff : (s.worker.cl d).isOn = false := by simpa [hsw] using hon
      have h := hok hsw
      simp only [hoff] at h
      cases htest : s.worker.testMode <;> simpa [htest, hsw, hoff] using h
    · rw [if_neg hsw] at hon
      rw [if_neg fun h => hsw h.2]
      exact hs.on d hon
  · rw [check_cl_other tm.currTimeMin true hd] at hon
    rw [duty_check_other ht true hd]
    exact hs.on d hon

/-- After a check, a cooler that the worker has off stands still. -/
theorem check_off_duty {s : Plant} (hs : PlantInv s) {tm : Tm} {c : Cooler}
    (hok : SwitchOk s tm.currTimeMin c) {d : Cooler}
    (hoff : ((Worker.check tm.currTimeMin true c (s.worker, s.regs)).1.cl d).isOn = false) :
    duty (Worker.check tm.currTimeMin true c (s.worker, s.regs)).2 d = 0 := by
  have ht := tm.currTimeMin_add_lt
  by_cases hd : d = c
  · subst hd
    rw [isOn_check_self ht] at hoff
    rw [duty_check_self ht]
    by_cases hsw : (s.worker.cl d).Switches tm.currTimeMin
    · have hon : (s.worker.cl d).isOn = true := by simpa [hsw] using hoff
      have h := hok hsw
      simp only [hon, if_true] at h
      cases htest : s.worker.testMode with
      | false => simp [hsw, hon]
      | true => simpa using h htest
    · rw [if_neg hsw] at hoff
      rw [if_neg fun h => hsw h.2]
      exact hs.off d hoff
  · rw [check_cl_other tm.currTimeMin true hd] at hoff
    rw [duty_check_other ht true hd]
    exact hs.off d hoff

theorem plantInv_check {s : Plant} (hs : PlantInv s) {tm : Tm} {c : Cooler} {next : Phase}
    (hok : SwitchOk s tm.currTimeMin c)
    (hnext : next ≠ .asleep ∧ ∀ work, next ≠ .snapped work) : PlantInv (checkMove s tm c next) := by
  constructor
  · exact fun d hon => check_on_duty hs hok hon
  · exact fun d hoff => check_off_duty hs hok hoff
  · rintro d (h | ⟨work, h⟩)
    · exact absurd h hnext.1
    · exact absurd h (hnext.2 work)

theorem plantInv_work {s : Plant} (hs : PlantInv s) (clock : Option Tm)
    (hok : PlantOk s (.work clock)) : PlantInv (workMove s clock) := by
  unfold workMove
  cases hph : s.phase with
  | asleep =>
    constructor
    · intro c hon
      rw [snapshot_isOn] at hon
      exact hs.on c hon
    · intro c hoff
      rw [snapshot_isOn] at hoff
      exact hs.off c hoff
    · intro c _
      rw [snapshot_isOn]
      exact hs.published c (.inl hph)
  | snapped work =>
    have hrest : PlantInv { s with phase := .asleep } :=
      ⟨hs.on, hs.off, fun c _ => hs.published c (.inr ⟨work, hph⟩)⟩
    cases work with
    | false => exact hrest
    | true =>
      cases clock with
      | none => exact hrest
      | some tm =>
        simp only [PlantOk, hph] at hok
        exact plantInv_check hs (hok tm rfl) ⟨by simp, by simp⟩
  | checkedIn tm =>
    simp only [PlantOk, hph] at hok
    exact plantInv_check hs hok ⟨by simp, by simp⟩
  | checkedOut =>
    refine ⟨fun c hon => ?_, hs.off, fun c _ => ?_⟩
    · have hp : (s.worker.publish s.app).clPower c = s.app.clPower c := by cases c <;> rfl
      refine (hs.on c hon).imp (fun h => by rw [hp]; exact h) fun ⟨t, ht, hb⟩ => ?_
      exact ⟨t, ht, (bears_congr hp t).mpr hb⟩
    · cases c <;> rfl

/-- **Each step that is `PlantOk` keeps the invariant.** -/
theorem plantInv_step (s : Plant) (e : PlantEv) (s' : Plant) (hs : PlantInv s) (hok : PlantOk s e)
    (h : plantStep s e = some s') : PlantInv s' := by
  cases e with
  | arrive json =>
    cases hj : jsonToCoolersPower json with
    | error err =>
      simp only [plantStep, hj, Option.some.injEq] at h
      exact h ▸ hs
    | ok p =>
      simp only [plantStep, hj, Option.some.injEq] at h
      subst h
      refine ⟨fun c hon => ?_, hs.off, hs.published⟩
      exact (hs.on c hon).imp_right fun h => has_append_singleton.mpr (.inl h)
  | req i =>
    obtain ⟨t, hi, ht⟩ := Option.bind_eq_some_iff.mp h
    unfold reqMove at ht
    split at ht
    · next hpc =>
      cases ht
      exact plantInv_store hs hi hpc
    · cases ht
      exact plantInv_save hs hi _
    · next hpc =>
      cases ht
      exact plantInv_apply hs hi (hok t hi hpc)
    · cases ht
  | work clock =>
    cases h
    exact plantInv_work hs clock hok

/-! ## Runs -/

/-- Both coolers off: nothing runs, no flag is set, both duties are 0. -/
structure Cold (s : Plant) : Prop where
  asleep : s.phase = .asleep
  idle : ∀ t ∈ s.pool, t.pc = .done
  off : ∀ c, (s.worker.cl c).isOn = false
  notPublished : ∀ c, s.app.clOn c = false
  duty : ∀ c, duty s.regs c = 0

theorem Cold.plantInv {s : Plant} (hs : Cold s) : PlantInv s where
  on c hon := by
    rw [hs.off c] at hon
    cases hon
  off c _ := hs.duty c
  published c _ := by rw [hs.off c, hs.notPublished c]

/-- The worker sleeps and no request is in progress. -/
def AtRest (s : Plant) : Prop := s.phase = .asleep ∧ ∀ t ∈ s.pool, t.pc = .done

/-- The duty of a cooler is its power when its published flag is set, else 0. -/
def DutyAgrees (s : Plant) (c : Cooler) : Prop :=
  (duty s.regs c).toNat = if s.app.clOn c then min 100 (s.app.clPower c).toNat else 0

theorem PlantInv.dutyAgrees {s : Plant} (hs : PlantInv s) (hrest : AtRest s) (c : Cooler) :
    DutyAgrees s c := by
  unfold DutyAgrees
  rw [hs.published c (.inl hrest.1)]
  cases hon : (s.worker.cl c).isOn with
  | false =>
    rw [hs.off c hon]
    rfl
  | true =>
    rcases hs.on c hon with h | ⟨t, ht, hpc, -⟩
    · rw [h, sat_toNat]
      rfl
    · rw [hrest.2 t ht] at hpc
      rcases hpc with h | h <;> cases h

/-- **Duties agree with the published flags at rest**, in every state a run of
`PlantOk` steps reaches from a cold start. -/
theorem duty_agrees_at_rest (s : Plant) (hs : Cold s) (es : List PlantEv)
    (hok : Along plantStep PlantOk s es) (s' : Plant) (hrun : run plantStep s es = some s')
    (hrest : AtRest s') (c : Cooler) : DutyAgrees s' c :=
  (run_inv plantInv_step s s' es hs.plantInv hok hrun).dutyAgrees hrest c

/-- Both coolers off, with the input cooler's schedule `halfHours` at power 50. -/
def coldPlant : Plant where
  app := halfHoursServer.app
  saved := fun c => halfHours.power c
  regs := fun _ => 0
  worker := ⟨false, 60, fun _ => ⟨0, 0, 0, 0, false⟩⟩
  phase := .asleep
  pool := []

theorem coldPlant_cold : Cold coldPlant where
  asleep := rfl
  idle _ h := nomatch h
  off _ := rfl
  notPublished c := by cases c <;> rfl
  duty _ := rfl

def tenPastEight : Tm := ⟨8, 10, by decide, by decide⟩

/-- `{"wind_in":80}` -/
def windIn80 : Body := some (.object [("wind_in", .number 80)])

/-- The request stores 80 after the snapshot and saves it after the check, and looks at the
flag after the publication: the cooler was switched on at 50, and runs at 80 in the end. -/
def requestInRound : List PlantEv :=
  [.arrive windIn80, .work none, .req 0, .work (some tenPastEight), .req 0, .work none, .work none,
    .req 0]

theorem duty_agrees_after_requestInRound :
    ∃ s', run plantStep coldPlant requestInRound = some s' ∧ duty s'.regs .input = 80 ∧
      ∀ c, DutyAgrees s' c := by
  refine ⟨_, rfl, rfl, duty_agrees_at_rest coldPlant coldPlant_cold requestInRound
    (by decide +kernel) _ rfl ⟨rfl, ?_⟩⟩
  intro t ht
  rw [List.mem_singleton.mp ht]

/-- A power stored after the snapshot, whose request looks at the flag before it is
published, stays in memory: the cooler runs at 50 with 80 saved. -/
theorem power_lost_in_between :
    ∃ s', run plantStep coldPlant [.work none, .arrive windIn80, .req 0, .req 0,
        .work (some tenPastEight), .req 0, .work none, .work none] = some s' ∧
      AtRest s' ∧ ¬ DutyAgrees s' .input := by
  refine ⟨_, rfl, ⟨rfl, ?_⟩, ?_⟩
  · intro t ht
    cases ht with
    | head => rfl
    | tail _ h => cases h
  · show (50 : Nat) ≠ 80
    decide

end Growbox
