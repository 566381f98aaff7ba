import Growbox.AppTh
import Growbox.Lib.Pool

/-!
# The wake-up of the sampler

A request for a new period stores it and then sets `th_signal`, under two mutexes;
the sampler reads the period, sleeps in ticks of a second, and a tick that finds the
signal clears it and ends the sleep.  Whatever the order of these steps, a sampler
that sleeps on an outdated period has its wake-up set or still to come
(`no_lost_wakeup`).
-/

namespace Growbox

open EventRun Pool

/-! ## The threads -/

/-- Where a request is: saved in the database, stored in `app_data.conf`, `app_th_wakeup` done. -/
inductive PeriodPc where
  | start | saved | stored | woken
  deriving DecidableEq, Repr

structure PeriodReq where
  newPeriodSec : UInt64
  pc : PeriodPc
  deriving DecidableEq, Repr

/-- Where `temp_hum_worker` is; `asleep` has the seconds that are left. -/
inductive SamplerPc where
  | start | restoring | restored | sampling | sampled
  | asleep (periodSec : Int32)
  | ended
  deriving DecidableEq, Repr

/-- `confPeriod` is `app_data.conf.th_poll_period`, `period` the local of the sampler. -/
structure Sampling where
  confPeriod : UInt64
  dbPeriod : UInt64
  thSignal : Bool
  period : UInt64
  pc : SamplerPc
  pool : List PeriodReq

inductive SamplingEv where
  | arrive (json : Body)
  | req (i : Nat)
  | work (dbOk : Bool)

/-- The next step of request `i`; its database write succeeds. -/
def periodMove (s : Sampling) (i : Nat) (r : PeriodReq) : Sampling :=
  match r.pc with
  | .start => { s with
      dbPeriod := r.newPeriodSec
      pool := s.pool.set i { r with pc := .saved } }
  | .saved => { s with
      confPeriod := r.newPeriodSec
      pool := s.pool.set i { r with pc := .stored } }
  | .stored => { s with
      thSignal := true
      pool := s.pool.set i { r with pc := .woken } }
  | .woken => s

/-- One turn of `while(period_sec--)`: a second passes, then the signal is looked at. -/
def thSleepTick (s : Sampling) (periodSec : Int32) : Sampling :=
  if periodSec = 0 then { s with pc := .sampling }
  else if s.thSignal then { s with thSignal := false, pc := .sampling }
  else { s with pc := .asleep (periodSec - 1) }

/-- The next step of the sampler; `dbOk` is the outcome of `get_th_period`. -/
def samplerMove (dbOk : Bool) (s : Sampling) : Sampling :=
  match s.pc with
  | .start => { s with
      period := s.confPeriod
      pc := if s.confPeriod = 0 then .restoring else .sampling }
  | .restoring =>
    if dbOk then { s with period := s.dbPeriod, pc := .restored } else { s with pc := .sampling }
  | .restored => { s with
      confPeriod := s.period
      pc := if s.period = 0 then .ended else .sampling }
  | .sampling => { s with pc := .sampled }
  | .sampled => { s with period := s.confPeriod, pc := .asleep (thSleepArg s.confPeriod) }
  | .asleep periodSec => thSleepTick s periodSec
  | .ended => s

/-- A body that is not accepted is answered at once, and so is a period below three minutes. -/
def samplingStep (s : Sampling) : SamplingEv → Sampling
  | .arrive json =>
    match jsonToThPeriod json with
    | .error _ => s
    | .ok newPeriodMin =>
      if thPeriodSec newPeriodMin < 180 then s
      else { s with pool := s.pool ++ [⟨thPeriodSec newPeriodMin, .start⟩] }
  | .req i =>
    match s.pool[i]? with
    | some r => periodMove s i r
    | none => s
  | .work dbOk => samplerMove dbOk s

/-- The sampler is about to start and no request has come. -/
def Sampling.init (confPeriod dbPeriod : UInt64) : Sampling :=
  ⟨confPeriod, dbPeriod, false, 0, .start, []⟩

/-! ## The wake-up -/

/-- A request that has stored its period and not yet set the signal. -/
def Waking (r : PeriodReq) : Prop := r.pc = .stored

/-- Asleep on an outdated period: the signal is set, or a request is about to set it. -/
def WakeupComing (s : Sampling) : Prop :=
  ∀ periodSec, s.pc = .asleep periodSec → s.period ≠ s.confPeriod →
    s.thSignal = true ∨ Has Waking s.pool

theorem wakeupComing_awake {s : Sampling} (h : ∀ periodSec, s.pc ≠ .asleep periodSec) :
    WakeupComing s := fun periodSec hpc _ => absurd hpc (h periodSec)

/-- A request that was not about to set the signal takes nothing away by moving on. -/
theorem has_waking_set {pool : List PeriodReq} {i : Nat} {r : PeriodReq} (hi : pool[i]? = some r)
    (hr : ¬ Waking r) (r' : PeriodReq) (h : Has Waking pool) : Has Waking (pool.set i r') :=
  (has_set hi).mpr (.inl (((has_iff hi).mp h).resolve_right hr))

theorem wakeupComing_arrive {s : Sampling} (hs : WakeupComing s) (json : Body) :
    WakeupComing (samplingStep s (.arrive json)) := by
  simp only [samplingStep]
  cases jsonToThPeriod json with
  | error e => exact hs
  | ok newPeriodMin =>
    simp only
    by_cases hmin : thPeriodSec newPeriodMin < 180
    · rw [if_pos hmin]
      exact hs
    · rw [if_neg hmin]
      intro periodSec hpc hne
      exact (hs periodSec hpc hne).imp_right fun h => has_append_singleton.mpr (.inl h)

theorem wakeupComing_req {s : Sampling} (hs : WakeupComing s) {i : Nat} {r : PeriodReq}
    (hi : s.pool[i]? = some r) : WakeupComing (periodMove s i r) := by
  obtain ⟨newPeriodSec, pc⟩ := r
  intro periodSec hpc hne
  cases pc with
  | start =>
    refine (hs periodSec hpc hne).imp_right (has_waking_set hi ?_ _)
    exact fun h => nomatch h
  | saved => exact .inr ((has_set hi).mpr (.inr rfl))
  | stored => exact .inl rfl
  | woken => exact hs periodSec hpc hne

theorem wakeupComing_tick {s : Sampling} (hs : WakeupComing s) {periodSec : Int32}
    (hpc : s.pc = .asleep periodSec) : WakeupComing (thSleepTick s periodSec) := by
  unfold thSleepTick
  split
  · exact wakeupComing_awake fun _ h => nomatch h
  · split
    · exact wakeupComing_awake fun _ h => nomatch h
    · intro _ _ hne
      exact hs periodSec hpc hne

theorem wakeupComing_work {s : Sampling} (hs : WakeupComing s) (dbOk : Bool) :
    WakeupComing (samplerMove dbOk s) := by
  unfold samplerMove
  cases hpc : s.pc with
  | start =>
    refine wakeupComing_awake fun _ => ?_
    show (if _ then _ else _) ≠ _
    split <;> exact SamplerPc.noConfusion
  | restoring =>
    refine wakeupComing_awake fun _ => ?_
    cases dbOk <;> exact SamplerPc.noConfusion
  | restored =>
    refine wakeupComing_awake fun _ => ?_
    show (if _ then _ else _) ≠ _
    split <;> exact SamplerPc.noConfusion
  | sampling => exact wakeupComing_awake fun _ h => nomatch h
  -- the period is read and slept on in one step, so it is up to date
  | sampled => exact fun _ _ hne => absurd rfl hne
  | asleep periodSec => exact wakeupComing_tick hs hpc
  | ended => exact wakeupComing_awake fun _ h => nomatch hpc.symm.trans h

theorem wakeupComing_step (s : Sampling) (e : SamplingEv) (hs : WakeupComing s) :
    WakeupComing (samplingStep s e) := by
  cases e with
  | arrive json => exact wakeupComing_arrive hs json
  | req i =>
    show WakeupComing (match s.pool[i]? with | some r => periodMove s i r | none => s)
    cases hi : s.pool[i]? with
    | none => exact hs
    | some r => exact wakeupComing_req hs hi
  | work dbOk => exact wakeupComing_work hs dbOk

/-- **No wake-up is lost**, whatever requests come and however their steps and those of
the sampler fall. -/
theorem no_lost_wakeup (confPeriod dbPeriod : UInt64) (es : List SamplingEv) :
    WakeupComing (es.foldl samplingStep (.init confPeriod dbPeriod)) := by
  refine run_keeps (fun s e s' hs h => ?_) (Sampling.init confPeriod dbPeriod) _ es ?_
    (run_total _ es)
  · cases h
    exact wakeupComing_step s e hs
  · exact wakeupComing_awake fun _ h => nomatch h

/-- The signal ends the sleep at the next tick, and the sampler then sleeps on the period
it finds after its sample. -/
theorem signal_ends_sleep (s : Sampling) (periodSec : Int32) (hpc : s.pc = .asleep periodSec)
    (hsig : s.thSignal = true) (dbOk : Bool) :
    let s' := [.work dbOk, .work dbOk, .work dbOk].foldl samplingStep s
    s'.period = s.confPeriod ∧ s'.pc = .asleep (thSleepArg s.confPeriod) := by
  have htick : (samplerMove dbOk s).pc = .sampling ∧ (samplerMove dbOk s).confPeriod = s.confPeriod := by
    simp only [samplerMove, hpc, thSleepTick, hsig, if_true]
    split <;> exact ⟨rfl, rfl⟩
  obtain ⟨h1, h2⟩ := htick
  simp only [List.foldl_cons, List.foldl_nil, samplingStep]
  generalize samplerMove dbOk s = t at h1 h2
  simp only [samplerMove, h1, h2]
  exact ⟨trivial, trivial⟩

end Growbox
