import Growbox.AppCl

/-!
# The poll periods of the two workers

Three things set the period of the sampler: the configuration file, read at
start-up and again on `SIGHUP`; the database, which the thread asks once, when
it starts with 0; and accepted requests.  Each round of the sampler reads the
period afresh, so a configuration without one stops its pauses.  The cooler
worker reads its period once.  `workers_pause_iff` traces each round's sleep to
where its period came from.
-/

namespace Growbox

open EventRun

/-! ## Configuration -/

/-- The keys of the file that are modelled; `none` for one that is absent. -/
structure ConfFile where
  testMode : Option Bool
  thPollPeriod : Option Int32
  clPollPeriod : Option Int32

/-- `app_read_config`: everything is zeroed first, and stays so when the file cannot be read. -/
def appReadConfig : Option ConfFile → AppConfig
  | none => ⟨false, 0, 0⟩
  | some file =>
    { testMode := file.testMode.getD false
      thPollPeriod := (file.thPollPeriod.getD 0).toInt64.toUInt64 * 60
      clPollPeriod := file.clPollPeriod.getD 60 }

/-- The `uint64_t` period becomes the `int` parameter of `th_sleep`. -/
def thSleepArg (period : UInt64) : Int32 := period.toUInt32.toInt32

/-! ## The two threads -/

/-- `restoring` is between the two reads of `temp_hum_worker`. -/
inductive ThStage where
  | notStarted | restoring | running | ended
  deriving DecidableEq, Repr

inductive ClStage where
  | notStarted
  | running (period : Int32)
  | ended
  deriving DecidableEq, Repr

structure Workers where
  conf : AppConfig
  th : ThStage
  cl : ClStage

inductive WorkersEv where
  | readConfig (file : Option ConfFile)
  | setThPeriod (newPeriodMin : Int32) (h : 3 ≤ newPeriodMin ∧ newPeriodMin ≤ 35791394)
  | thStart
  | thRestore (db : Option UInt64)
  | thRound
  | clStart
  | clRound

def WorkersEv.isClStart : WorkersEv → Bool
  | .clStart => true
  | _ => false

def confAfter (conf : AppConfig) : WorkersEv → AppConfig
  | .readConfig file => appReadConfig file
  | .setThPeriod newPeriodMin _ => { conf with thPollPeriod := thPeriodSec newPeriodMin }
  | .thRestore (some period) => { conf with thPollPeriod := period }
  | _ => conf

/-- A period of 0 sends the sampler to the database; a 0 found there ends it, an
answer that fails does not. -/
def thAfter (conf : AppConfig) (th : ThStage) : WorkersEv → Option ThStage
  | .thStart =>
    if th = .notStarted then some (if conf.thPollPeriod = 0 then .restoring else .running) else none
  | .thRestore db =>
    if th = .restoring then some (if db = some 0 then .ended else .running) else none
  | .thRound => if th = .running then some th else none
  | _ => some th

def clAfter (conf : AppConfig) (cl : ClStage) : WorkersEv → Option ClStage
  | .clStart =>
    if cl = .notStarted then
      match coolersWorkerInit conf with
      | some w => some (.running w.period)
      | none => some .ended
    else none
  | .clRound =>
    match cl with
    | .running period => some (.running period)
    | _ => none
  | _ => some cl

/-- An event that its thread is not ready for does not happen. -/
def workersStep (s : Workers) (e : WorkersEv) : Option Workers :=
  (thAfter s.conf s.th e).bind fun th =>
    (clAfter s.conf s.cl e).map fun cl => ⟨confAfter s.conf e, th, cl⟩

/-- After `app_read_config` at start-up. -/
def startUp (file : Option ConfFile) : Workers := ⟨appReadConfig file, .notStarted, .notStarted⟩

/-- A round that happens calls its sleep with at least one second. -/
def Pauses (s : Workers) (e : WorkersEv) : Prop :=
  match e with
  | .thRound => s.th = .running → 1 ≤ thSleepArg s.conf.thPollPeriod
  | .clRound => ∀ period, s.cl = .running period → 1 ≤ period
  | _ => True

/-! ## Where a period comes from -/

/-- The sampler's period as an event sets it: `some (some v)` from a file or the
database, `some none` from a request. -/
def thSource : WorkersEv → Option (Option UInt64)
  | .readConfig file => some (some (appReadConfig file).thPollPeriod)
  | .setThPeriod _ _ => some none
  | .thRestore db => db.map some
  | _ => none

def clSource : WorkersEv → Option Int32
  | .readConfig file => some (appReadConfig file).clPollPeriod
  | _ => none

/-- The periods behind the round `e`, with `past` before it: the sampler's, if it
is from a file or the database, gives at least a second; the cooler worker's, as
the file had it when the thread started, is not negative. -/
def SourceGood (file : Option ConfFile) (past : List WorkersEv) (e : WorkersEv) : Prop :=
  match e with
  | .thRound =>
    ∀ v, lastWritten thSource (some (appReadConfig file).thPollPeriod) past = some v →
      1 ≤ thSleepArg v
  | .clRound =>
    0 ≤ lastWritten clSource (appReadConfig file).clPollPeriod
      (past.takeWhile fun e => !e.isClStart)
  | _ => True

theorem thSleepArg_signExtended (x : Int32) : thSleepArg x.toInt64.toUInt64 = x := by
  unfold thSleepArg
  apply Int32.toBitVec_inj.mp
  show BitVec.setWidth 32 (BitVec.signExtend 64 x.toBitVec) = x.toBitVec
  apply BitVec.eq_of_getLsbD_eq
  intro i hi
  have h64 : i < 64 := by omega
  simp only [BitVec.getLsbD_setWidth, BitVec.getLsbD_signExtend, hi, h64, decide_true,
    Bool.true_and, if_true]

/-- An `int` that becomes a `uint64_t` is taken modulo `2 ^ 64`. -/
theorem toNat_signExtended (x : Int32) :
    x.toInt64.toUInt64.toNat = (x.toInt % 18446744073709551616).toNat := by
  show (BitVec.signExtend 64 x.toBitVec).toNat = _
  rw [BitVec.signExtend, BitVec.toNat_ofInt]
  rfl

theorem toNat_signExtended_of_nonneg {x : Int32} (h : 0 ≤ x.toInt) :
    x.toInt64.toUInt64.toNat = x.toInt.toNat := by
  have hlt : x.toInt < 2 ^ 31 := x.toInt_lt
  rw [toNat_signExtended, Int.emod_eq_of_lt h (by omega)]

/-- Up to 35791394 minutes the seconds fit an `int`. -/
theorem one_le_thSleepArg_request {newPeriodMin : Int32}
    (h : 3 ≤ newPeriodMin ∧ newPeriodMin ≤ 35791394) : 1 ≤ thSleepArg (thPeriodSec newPeriodMin) := by
  have h1 : (3 : Int) ≤ newPeriodMin.toInt := Int32.le_iff_toInt_le.mp h.1
  have h2 : newPeriodMin.toInt ≤ 35791394 := Int32.le_iff_toInt_le.mp h.2
  unfold thPeriodSec
  rw [thSleepArg_signExtended, Int32.le_iff_toInt_le, Int32.toInt_mul, Int.bmod_eq_of_le]
  · show (1 : Int) ≤ newPeriodMin.toInt * 60
    omega
  · show (-(4294967296 / 2) : Int) ≤ newPeriodMin.toInt * 60
    omega
  · show newPeriodMin.toInt * 60 < (4294967296 + 1) / 2
    omega

/-- The period in memory is the last one from a file or the database, or a request's. -/
def ThTied (src : Option UInt64) (s : Workers) : Prop :=
  match src with
  | some v => s.conf.thPollPeriod = v
  | none => 1 ≤ thSleepArg s.conf.thPollPeriod

theorem workersStep_some {s s' : Workers} {e : WorkersEv} (h : workersStep s e = some s') :
    s'.conf = confAfter s.conf e ∧ thAfter s.conf s.th e = some s'.th ∧
      clAfter s.conf s.cl e = some s'.cl := by
  obtain ⟨th, hth, hrest⟩ := Option.bind_eq_some_iff.mp h
  obtain ⟨cl, hcl, rfl⟩ := Option.map_eq_some_iff.mp hrest
  exact ⟨rfl, hth, hcl⟩

theorem thTied_step (src : Option UInt64) (s : Workers) (e : WorkersEv) (s' : Workers)
    (hs : ThTied src s) (h : workersStep s e = some s') : ThTied ((thSource e).getD src) s' := by
  obtain ⟨hconf, -, -⟩ := workersStep_some h
  unfold ThTied at hs ⊢
  rw [hconf]
  cases e with
  | readConfig file => exact rfl
  | setThPeriod newPeriodMin hm => exact one_le_thSleepArg_request hm
  | thRestore db =>
    cases db with
    | none => exact hs
    | some period => exact rfl
  | thStart | thRound | clStart | clRound => exact hs

theorem cl_running_step {period : Int32} (s : Workers) (e : WorkersEv) (s' : Workers)
    (hs : s.cl = .running period) (h : workersStep s e = some s') : s'.cl = .running period := by
  obtain ⟨-, -, hcl⟩ := workersStep_some h
  rw [hs] at hcl
  cases e with
  | clStart => cases hcl
  | readConfig | setThPeriod | thStart | thRestore | thRound | clRound =>
    exact (Option.some.inj hcl).symm

theorem cl_ended_step (s : Workers) (e : WorkersEv) (s' : Workers)
    (hs : s.cl = .ended) (h : workersStep s e = some s') : s'.cl = .ended := by
  obtain ⟨-, -, hcl⟩ := workersStep_some h
  rw [hs] at hcl
  cases e with
  | clStart | clRound => cases hcl
  | readConfig | setThPeriod | thStart | thRestore | thRound => exact (Option.some.inj hcl).symm

theorem clSource_step {s s' : Workers} {e : WorkersEv} (h : workersStep s e = some s') :
    s'.conf.clPollPeriod = (clSource e).getD s.conf.clPollPeriod := by
  obtain ⟨hconf, -, -⟩ := workersStep_some h
  rw [hconf]
  cases e with
  | thRestore db => cases db <;> rfl
  | readConfig | setThPeriod | thStart | thRound | clStart | clRound => rfl

/-- Once started, the worker has the period it read then, unless that was 0. -/
theorem cl_period_of_start {s t s' : Workers} {es : List WorkersEv} (hs : s.cl = .notStarted)
    (ht : workersStep s .clStart = some t) (hrun : run workersStep t es = some s') {period : Int32}
    (hp : s'.cl = .running period) : period ≠ 0 ∧ period = s.conf.clPollPeriod := by
  obtain ⟨-, -, hcl⟩ := workersStep_some ht
  rw [hs] at hcl
  simp only [clAfter, if_true, coolersWorkerInit] at hcl
  by_cases hz : s.conf.clPollPeriod = 0
  · rw [if_pos hz] at hcl
    have := run_keeps cl_ended_step t s' es (Option.some.inj hcl).symm hrun
    rw [this] at hp
    cases hp
  · rw [if_neg hz] at hcl
    have := run_keeps cl_running_step t s' es (Option.some.inj hcl).symm hrun
    rw [this] at hp
    cases hp
    exact ⟨hz, rfl⟩

/-- The cooler worker's period is the one the configuration had when it started. -/
theorem cl_period_eq {s s' : Workers} (es : List WorkersEv) (hs : s.cl = .notStarted)
    (hr : run workersStep s es = some s') {period : Int32} (hp : s'.cl = .running period) :
    period ≠ 0 ∧ period =
      lastWritten clSource s.conf.clPollPeriod (es.takeWhile fun e => !e.isClStart) := by
  induction es generalizing s with
  | nil =>
    cases hr
    rw [hs] at hp
    cases hp
  | cons e es ih =>
    obtain ⟨t, ht, hrun⟩ := Option.bind_eq_some_iff.mp hr
    cases e with
    | clStart => exact cl_period_of_start hs ht hrun hp
    | clRound =>
      obtain ⟨-, -, hcl⟩ := workersStep_some ht
      rw [hs] at hcl
      cases hcl
    | readConfig | setThPeriod | thStart | thRestore | thRound =>
      obtain ⟨-, -, hcl⟩ := workersStep_some ht
      rw [hs] at hcl
      have := ih (Option.some.inj hcl).symm hrun
      rw [clSource_step ht] at this
      show _ ∧ _ = lastWritten clSource _ (_ :: es.takeWhile fun e => !e.isClStart)
      rw [lastWritten_cons]
      exact this

/-! ## Runs -/

theorem thRound_happens_iff (s : Workers) :
    (workersStep s .thRound).isSome = true ↔ s.th = .running := by
  simp only [workersStep, thAfter, clAfter]
  split
  · next h => simp [h]
  · next h => simp [h]

theorem clRound_happens_iff (s : Workers) :
    (workersStep s .clRound).isSome = true ↔ ∃ period, s.cl = .running period := by
  simp only [workersStep, thAfter, clAfter]
  cases s.cl <;> simp

theorem one_le_iff_of_ne_zero {x : Int32} (h : x ≠ 0) : 1 ≤ x ↔ 0 ≤ x := by
  have hne : x.toInt ≠ 0 := fun h0 => h (Int32.toInt_inj.mp h0)
  rw [Int32.le_iff_toInt_le, Int32.le_iff_toInt_le]
  simp only [Int32.reduceToInt]
  omega

/-- A round of the sampler: its period is tied to where it came from. -/
theorem thRound_pauses_iff (file : Option ConfFile) (past : List WorkersEv) (s : Workers)
    (hr : run workersStep (startUp file) past = some s) :
    1 ≤ thSleepArg s.conf.thPollPeriod ↔ SourceGood file past .thRound := by
  have htied : ThTied (lastWritten thSource (some (appReadConfig file).thPollPeriod) past) s :=
    run_lastWritten thSource ThTied thTied_step _ (startUp file) s past rfl hr
  unfold SourceGood
  cases hsrc : lastWritten thSource (some (appReadConfig file).thPollPeriod) past with
  | none =>
    rw [hsrc] at htied
    exact ⟨fun _ _ h => (nomatch h), fun _ => htied⟩
  | some v =>
    rw [hsrc] at htied
    obtain rfl : s.conf.thPollPeriod = v := htied
    simp

/-- A round of the cooler worker. -/
theorem clRound_pauses_iff (file : Option ConfFile) (past : List WorkersEv) {s : Workers}
    (hr : run workersStep (startUp file) past = some s) {period : Int32}
    (hp : s.cl = .running period) : 1 ≤ period ↔ SourceGood file past .clRound := by
  obtain ⟨hne, heq⟩ := cl_period_eq past rfl hr hp
  rw [one_le_iff_of_ne_zero hne, heq]
  exact Iff.rfl

theorem pauses_iff (file : Option ConfFile) (past : List WorkersEv) (s : Workers) (e : WorkersEv)
    (hr : run workersStep (startUp file) past = some s) :
    Pauses s e ↔ ((workersStep s e).isSome = true → SourceGood file past e) := by
  cases e with
  | thRound =>
    rw [thRound_happens_iff]
    exact imp_congr_right fun _ => thRound_pauses_iff file past s hr
  | clRound =>
    rw [clRound_happens_iff]
    constructor
    · rintro h ⟨period, hp⟩
      exact (clRound_pauses_iff file past hr hp).mp (h period hp)
    · intro h period hp
      exact (clRound_pauses_iff file past hr hp).mpr (h ⟨period, hp⟩)
  | readConfig | setThPeriod | thStart | thRestore | clStart =>
    exact ⟨fun _ _ => trivial, fun _ => trivial⟩

/-- **The workers pause in every round exactly when every round's period has a good
source**, whatever is read, asked for and restored in between. -/
theorem workers_pause_iff (file : Option ConfFile) (es : List WorkersEv) :
    Along workersStep Pauses (startUp file) es ↔
      ∀ past e rest, es = past ++ e :: rest →
        (run workersStep (startUp file) (past ++ [e])).isSome → SourceGood file past e := by
  rw [along_iff]
  constructor
  · intro h past e rest he hsome
    rw [run_snoc] at hsome
    cases hr : run workersStep (startUp file) past with
    | none =>
      rw [hr] at hsome
      cases hsome
    | some s =>
      rw [hr] at hsome
      exact (pauses_iff file past s e hr).mp (h past e rest s he hr) hsome
  · intro h past e rest s he hr
    refine (pauses_iff file past s e hr).mpr fun hsome => h past e rest he ?_
    rw [run_snoc, hr]
    exact hsome

/-- Reading a file without `TH_poll_period` again, while the sampler runs, takes its
pause away: `th_sleep(0)`. -/
theorem reread_stops_pauses :
    ¬ Along workersStep Pauses (startUp (some ⟨none, some 10, none⟩))
      [.thStart, .readConfig (some ⟨none, none, none⟩), .thRound] := by
  intro h
  have := ((h.2 _ rfl).2 _ rfl).1 rfl
  exact absurd this (by decide)

end Growbox
