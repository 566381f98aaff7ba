import Growbox.ListedDates
import Growbox.Lib.SharedVec

/-!
# Climate requests side by side

The request threads share one `mydb` object, and with it the vectors `th_records`
and `th_dates`: `app_get_th_day_data` and the latest data go through the first,
`app_get_avail_th_dates` through the second, each as a reader of `SharedVec`, while
the sampler writes the table.  `climate_requests_do_not_mix` is the run theorem for
steps that leave the other readers alone; `climate_requests_mix` a run without.
-/

namespace Growbox

open EventRun Pool SharedVec

/-! ## The threads -/

/-- The arguments of `get_th_val`. -/
structure ThQuery where
  date : ThDate
  start : ThTime
  stop : ThTime

def dayQuery (req : ThDateReq) : ThQuery := ⟨reqDate req, dayStart, dayEnd⟩

def latestQuery (ct : LocalTime) : ThQuery :=
  ⟨⟨UInt32.ofNat ct.mday, UInt32.ofNat ct.month, ct.year.toUInt32, [], []⟩, (latestTimes ct).1,
    (latestTimes ct).2⟩

structure Climate (F : Type) where
  tempHum : RowTable ThRow
  records : Shared ThQuery (ThTable F)
  dates : Shared Unit ThDate

/-- Writes of the sampler, arrivals of requests, and their steps with the outcomes of the query
and of `calloc`. -/
inductive ClimateEv (F : Type) where
  | write (e : ThCall F)
  | dayData (json : Body)
  | latest (ct : Option LocalTime)
  | availDates
  | record (i : Nat) (q : Query) (callocOk : Bool)
  | date (i : Nat) (q : Query) (callocOk : Bool)

section
variable {F : Type} (fl : FloatFmt F)

/-- The rows a query of `get_th_val` hands to its callback. -/
def selectRecords (table : RowTable ThRow) (q : Query) (arg : ThQuery) : List (ThTable F) :=
  (q.rows (table.rows.filter (ThDb.whereThVal arg.date arg.start arg.stop))).map fun r =>
    ThDb.getThValCb fl (ThDb.argv r)

def selectThDates (table : RowTable ThRow) (q : Query) : List ThDate :=
  (q.rows (ThDb.selectDates table.rows)).map fun d =>
    ThDb.getThDatesCb [Decimal.dec d.1, Decimal.dec d.2.1, Decimal.dec d.2.2]

/-- A request whose body is not accepted, or that finds no time, is answered at once. -/
def climateStep (s : Climate F) : ClimateEv F → Option (Climate F)
  | .write e => some { s with tempHum := ((ThDb.opened s.tempHum).call fl e).tempHum }
  | .dayData json =>
    match jsonToThDate json with
    | .error _ => some s
    | .ok req => some { s with
        records := ⟨s.records.vec, s.records.pool ++ [⟨dayQuery req, .start, []⟩]⟩ }
  | .latest ct =>
    match ct with
    | none => some s
    | some ct => some { s with
        records := ⟨s.records.vec, s.records.pool ++ [⟨latestQuery ct, .start, []⟩]⟩ }
  | .availDates => some { s with
      dates := ⟨s.dates.vec, s.dates.pool ++ [⟨(), .start, []⟩]⟩ }
  | .record i q callocOk =>
    s.records.pool[i]?.map fun t => { s with
      records := move false (selectRecords fl s.tempHum q t.arg) (q.res = .ok) callocOk s.records i t }
  | .date i q callocOk =>
    s.dates.pool[i]?.map fun t => { s with
      dates := move true (selectThDates s.tempHum q) (q.res = .ok) callocOk s.dates i t }

/-- A step changes a vector only while no other request relies on it, and a query finds its
vector empty. -/
def ClimateOk (s : Climate F) : ClimateEv F → Prop
  | .record i q _ => ∀ t, s.records.pool[i]? = some t →
      StepOk s.records i t (selectRecords fl s.tempHum q t.arg)
  | .date i q _ => ∀ t, s.dates.pool[i]? = some t → StepOk s.dates i t (selectThDates s.tempHum q)
  | _ => True

instance (s : Climate F) (e : ClimateEv F) : Decidable (ClimateOk fl s e) := by
  unfold ClimateOk
  split <;> infer_instance

/-- Every request so far has returned the rows of its own query, and none has looked past the
end of its vector. -/
def Unmixed (s : Climate F) : Prop :=
  (∀ t ∈ s.records.pool, Right t) ∧ ∀ t ∈ s.dates.pool, Right t

def ClimateSound (s : Climate F) : Prop := AllSound s.records ∧ AllSound s.dates

/-- What a day's request answers are the rows its query selects. -/
theorem appGetThDayData_selectRecords {db : ThDb F} (hfd : db.fd = true) {json : Body}
    {req : ThDateReq} (hreq : jsonToThDate json = .ok req) :
    (Reply.appGetThDayData fl .ok true json db).1.arr =
      some ((selectRecords fl db.tempHum .ok (dayQuery req)).map ThTable.data) := by
  simp only [Reply.appGetThDayData, hreq, copyRecords, ThDb.getThVal, hfd]
  rfl

theorem climateSound_step (s : Climate F) (e : ClimateEv F) (s' : Climate F) (hs : ClimateSound s)
    (hok : ClimateOk fl s e) (h : climateStep fl s e = some s') : ClimateSound s' := by
  cases e with
  | write e =>
    cases h
    exact hs
  | dayData json =>
    cases hj : jsonToThDate json with
    | error err =>
      simp only [climateStep, hj, Option.some.injEq] at h
      exact h ▸ hs
    | ok req =>
      simp only [climateStep, hj, Option.some.injEq] at h
      exact h ▸ ⟨allSound_arrive hs.1 _, hs.2⟩
  | latest ct =>
    cases ct with
    | none =>
      cases h
      exact hs
    | some ct =>
      cases h
      exact ⟨allSound_arrive hs.1 _, hs.2⟩
  | availDates =>
    cases h
    exact ⟨hs.1, allSound_arrive hs.2 _⟩
  | record i q callocOk =>
    obtain ⟨t, hi, rfl⟩ := Option.map_eq_some_iff.mp h
    exact ⟨allSound_move hs.1 hi _ _ _ _ (hok t hi), hs.2⟩
  | date i q callocOk =>
    obtain ⟨t, hi, rfl⟩ := Option.map_eq_some_iff.mp h
    exact ⟨hs.1, allSound_move hs.2 hi _ _ _ _ (hok t hi)⟩

/-- No request has come yet, whatever is left in the vectors. -/
def Climate.Idle (s : Climate F) : Prop := s.records.pool = [] ∧ s.dates.pool = []

/-- **Climate requests do not mix** in a run whose steps leave the other readers of their vector
alone. -/
theorem climate_requests_do_not_mix (s : Climate F) (hs : s.Idle) (es : List (ClimateEv F))
    (hok : Along (climateStep fl) (ClimateOk fl) s es) (s' : Climate F)
    (hrun : run (climateStep fl) s es = some s') : Unmixed s' := by
  have hstart : ClimateSound s := by
    constructor
    · intro t ht
      rw [hs.1] at ht
      cases ht
    · intro t ht
      rw [hs.2] at ht
      cases ht
  obtain ⟨h1, h2⟩ := run_inv (climateSound_step fl) s s' es hstart hok hrun
  exact ⟨fun t ht => (h1 t ht).right, fun t ht => (h2 t ht).right⟩

end

/-! ## Runs -/

/-- The first of January of 2024 and of 2025 have one record each. -/
def newYearsClimate : Climate Nat :=
  ⟨(afterPuts natFmt (newYears 2024 2025)).tempHum, ⟨[], []⟩, ⟨[], []⟩⟩

def newYearsDay (year : Rat) : ClimateEv Nat :=
  .dayData (some (.object [("day", .number 1), ("month", .number 1), ("year", .number year)]))

/-- `n` steps of request `i`, with every call succeeding. -/
def steps (i n : Nat) : List (ClimateEv Nat) := List.replicate n (.record i .ok true)

/-- `n` steps of the request for the dates. -/
def dateSteps (n : Nat) : List (ClimateEv Nat) := List.replicate n (.date 0 .ok true)

/-- Two days' requests and one for the dates: the second day's clears the vector before the
first queries, and queries once the first has its rows; the dates are read among them. -/
def threeRequests : List (ClimateEv Nat) :=
  [newYearsDay 2024, newYearsDay 2025, .availDates] ++ steps 0 1 ++ steps 1 1 ++
    dateSteps 3 ++ steps 0 4 ++ dateSteps 4 ++ steps 0 3 ++ steps 1 5 ++ dateSteps 6 ++ steps 1 2

theorem threeRequests_unmixed :
    ∃ s', run (climateStep natFmt) newYearsClimate threeRequests = some s' ∧ Unmixed s' ∧
      (∃ rows rows', s'.records.pool.map Reader.pc = [.done (some rows), .done (some rows')] ∧
        rows.map ThTable.temp = [20] ∧ rows'.map ThTable.temp = [21]) ∧
      ∃ dates, s'.dates.pool.map Reader.pc = [.done (some dates)] ∧ dates.length = 2 :=
  ⟨_, rfl, climate_requests_do_not_mix natFmt newYearsClimate ⟨rfl, rfl⟩ threeRequests
    (by decide +kernel) _ rfl, ⟨_, _, rfl, rfl, rfl⟩, _, rfl, rfl⟩

/-- A second request clears and queries after the first has queried: the first returns the
second's rows.  When it clears after the first has read the size, the first looks past
the end. -/
theorem climate_requests_mix :
    (∃ s', run (climateStep natFmt) newYearsClimate
        ([newYearsDay 2024, newYearsDay 2025] ++ steps 0 2 ++ steps 1 2 ++ steps 0 6) = some s' ∧
      ¬ Unmixed s') ∧
    ∃ s', run (climateStep natFmt) newYearsClimate
        ([newYearsDay 2024, newYearsDay 2025] ++ steps 0 6 ++ steps 1 1 ++ steps 0 1) = some s' ∧
      ¬ Unmixed s' := by
  constructor
  · refine ⟨_, rfl, fun h => ?_⟩
    have hfirst := h.1 _ List.mem_cons_self
    exact absurd (congrArg (List.map ThTable.temp) hfirst) (by decide)
  · refine ⟨_, rfl, fun h => ?_⟩
    exact h.1 _ List.mem_cons_self

end Growbox
