import Growbox.App
import Growbox.Lib.TwoStore

/-!
# Concurrent saves: memory and the row of the database

A request to save writes `app_data` under its mutex and the row by one `UPDATE`,
each at once; times and powers go to memory first, the period to the database
first.  So each setting is kept in two stores in the sense of `TwoStore`, and
two requests for one setting can finish their second writes in the other order
than their first.  Without that, and with periods the row can hold, memory and
row agree whenever no request is in progress (`saves_agree_at_rest`).
-/

namespace Growbox

open EventRun Pool Decimal

/-! ## Settings and their cells -/

inductive Setting where
  | time (k : CoolersRaw)
  | power (c : Cooler)
  | period
  deriving DecidableEq, Repr

/-- The columns of a setting; a work period is its minutes. -/
def Setting.cols : Setting → List SysCol
  | .time .startInTime => [.clStartInHour, .clStartInMin, .clStartInSec]
  | .time .stopInTime => [.clStopInHour, .clStopInMin, .clStopInSec]
  | .time .wpInTime => [.clWpInMin]
  | .time .startOutTime => [.clStartOutHour, .clStartOutMin, .clStartOutSec]
  | .time .stopOutTime => [.clStopOutHour, .clStopOutMin, .clStopOutSec]
  | .time .wpOutTime => [.clWpOutMin]
  | .power .input => [.clInPower]
  | .power .output => [.clOutPower]
  | .period => [.thPollPeriod]

def timeCells (k : CoolersRaw) (t : MyTime) : List SqlVal :=
  match k with
  | .wpInTime | .wpOutTime => [.integer t.min.toNat]
  | _ => [.integer t.hour.toNat, .integer t.min.toNat, .integer t.sec.toNat]

/-- What `app_data` holds for a setting, as the row would hold it. -/
def memCells (app : AppData) : Setting → List SqlVal
  | .time k => timeCells k (app.cwt.get k)
  | .power c => [.integer (app.clPower c).toNat]
  | .period => [.integer app.conf.thPollPeriod.toNat]

/-- What the table holds for a setting, over all of its rows. -/
def dbCells (db : Mydb) (k : Setting) : List SqlVal :=
  (db.sysConfig.getD []).flatMap fun row => k.cols.map row

/-- Every setting in memory equals its value in the row. -/
def MemDbAgree (app : AppData) (db : Mydb) : Prop := ∀ k, memCells app k = dbCells db k

/-! ## Requests as threads -/

/-- What an accepted request saves. -/
inductive Save where
  | time (flag : ClFlag) (tm : MyTime)
  | power (c : Cooler) (p : UInt8)
  | period (v : UInt64)

/-- The decoding and the checks before anything is saved. -/
def SaveReq.decode (json : Body) : SaveReq → Option Save
  | .coolersTime flag =>
    match jsonToMyTime json with
    | .error _ => none
    | .ok tm => some (.time flag tm)
  | .coolersPower _ _ =>
    match jsonToCoolersPower json with
    | .error _ => none
    | .ok p => some (.power p.target.1 p.target.2)
  | .thPeriod =>
    match jsonToThPeriod json with
    | .error _ => none
    | .ok newPeriodMin =>
      let newPeriodSec := thPeriodSec newPeriodMin
      if newPeriodSec < 180 then none else some (.period newPeriodSec)

namespace Save

def toMem (app : AppData) : Save → AppData
  | .time flag tm => app.setTime flag.dest.1 tm
  | .power c p => app.setClPower c p
  | .period v => { app with conf := { app.conf with thPollPeriod := v } }

/-- An `UPDATE` that succeeds. -/
def toDb (db : Mydb) : Save → Mydb
  | .time flag tm => (db.setClTime true flag.dest.2 tm).2
  | .power c p => (db.saveClPower true c p).2
  | .period v => (db.setThPeriod true v).2

/-- `app_set_th_period` updates the database before memory, the others after it. -/
def dbFirst : Save → Bool
  | .period _ => true
  | _ => false

def setting : Save → Setting
  | .time flag _ => .time flag.dest.1
  | .power c _ => .power c
  | .period _ => .period

def cells : Save → List SqlVal
  | .time flag tm => timeCells flag.dest.1 tm
  | .power _ p => [.integer p.toNat]
  | .period v => [.integer v.toNat]

/-- The row can hold the value as an integer. -/
def Fits : Save → Prop
  | .period v => v.toNat < 2 ^ 63
  | _ => True

end Save

structure SaveThread where
  save : Save
  pc : TwoStore.Pc

structure Saving where
  app : AppData
  db : Mydb
  pool : List SaveThread

inductive SavingEv where
  | arrive (r : SaveReq) (json : Body)
  | run (i : Nat)

def Saving.write (s : Saving) (toDb : Bool) (save : Save) : Saving :=
  if toDb then { s with db := save.toDb s.db } else { s with app := save.toMem s.app }

/-- The next write of request `i`, which is `t`. -/
def saveMove (s : Saving) (i : Nat) (t : SaveThread) : Option Saving :=
  match t.pc with
  | .start =>
    some { s.write t.save.dbFirst t.save with pool := s.pool.set i { t with pc := .half } }
  | .half =>
    some { s.write (!t.save.dbFirst) t.save with pool := s.pool.set i { t with pc := .done } }
  | .done => none

def saveStep (s : Saving) : SavingEv → Option Saving
  | .arrive r json =>
    match r.decode json with
    | none => some s
    | some save => some { s with pool := s.pool ++ [⟨save, .start⟩] }
  | .run i => s.pool[i]?.bind (saveMove s i)

/-! ## Each write stores the cells of its setting -/

theorem setCols_of_notMem (sets : List (SysCol × CStr)) (row : Row) {c : SysCol}
    (h : c ∉ sets.map Prod.fst) : setCols sets row c = row c := by
  induction sets generalizing row with
  | nil => rfl
  | cons s sets ih =>
    rw [List.map_cons, List.mem_cons, not_or] at h
    show setCols sets (fun d => if d = s.1 then .ofLiteral s.2 else row d) c = row c
    rw [ih _ h.2]
    exact if_neg h.1

/-- The statement that saves a setting. -/
def Save.sql : Save → List (SysCol × CStr)
  | .time flag tm => Mydb.setClTimeSql flag.dest.2 tm
  | .power c p => [(Mydb.powerCol c, dec p.toNat)]
  | .period v => [(.thPollPeriod, dec v.toNat)]

theorem Save.toDb_open (save : Save) (row : Row) :
    save.toDb ⟨true, some [row]⟩ = ⟨true, some [setCols save.sql row]⟩ := by
  cases save <;> rfl

theorem Save.sql_cols (save : Save) : save.sql.map Prod.fst = save.setting.cols := by
  cases save with
  | time flag tm => cases flag <;> rfl
  | power c p => cases c <;> rfl
  | period v => rfl

/-- The setting a column belongs to. -/
def SysCol.owner : SysCol → Option Setting
  | .id => none
  | .thPollPeriod => some .period
  | .clStartInHour | .clStartInMin | .clStartInSec => some (.time .startInTime)
  | .clStopInHour | .clStopInMin | .clStopInSec => some (.time .stopInTime)
  | .clWpInMin => some (.time .wpInTime)
  | .clStartOutHour | .clStartOutMin | .clStartOutSec => some (.time .startOutTime)
  | .clStopOutHour | .clStopOutMin | .clStopOutSec => some (.time .stopOutTime)
  | .clWpOutMin => some (.time .wpOutTime)
  | .clInPower => some (.power .input)
  | .clOutPower => some (.power .output)

theorem owner_of_mem (k : Setting) : ∀ c ∈ k.cols, c.owner = some k := by
  cases k with
  | time k => cases k <;> decide
  | power c => cases c <;> decide
  | period => decide

/-- Settings share no column. -/
theorem cols_disjoint {k j : Setting} (h : j ≠ k) {c : SysCol} (hc : c ∈ j.cols) : c ∉ k.cols := by
  intro hk
  have := (owner_of_mem j c hc).symm.trans (owner_of_mem k c hk)
  exact h (Option.some.inj this)

theorem setCols_cells (save : Save) (hfit : save.Fits) (row : Row) :
    save.setting.cols.map (setCols save.sql row) = save.cells := by
  cases save with
  | time flag tm =>
    cases flag <;>
      simp [Save.setting, Save.sql, Save.cells, ClFlag.dest, Setting.cols, Mydb.setClTimeSql, setCols,
        timeCells, ofLiteral_dec_u32]
  | power c p =>
    cases c <;>
      simp [Save.setting, Save.sql, Save.cells, Setting.cols, Mydb.powerCol, setCols, ofLiteral_dec_u8]
  | period v =>
    simp [Save.setting, Save.sql, Save.cells, Setting.cols, setCols, ofLiteral_dec hfit]

theorem dbCells_open (row : Row) (k : Setting) : dbCells ⟨true, some [row]⟩ k = k.cols.map row :=
  List.append_nil _

theorem dbCells_toDb (save : Save) (hfit : save.Fits) (row : Row) :
    dbCells (save.toDb ⟨true, some [row]⟩) =
      TwoStore.store (dbCells ⟨true, some [row]⟩) save.setting save.cells := by
  funext k
  rw [save.toDb_open, dbCells_open, TwoStore.store]
  split
  · next hk =>
    subst hk
    exact setCols_cells save hfit row
  · next hk =>
    rw [dbCells_open]
    refine List.map_congr_left fun c hc => setCols_of_notMem _ _ ?_
    rw [save.sql_cols]
    exact cols_disjoint hk hc

theorem memCells_toMem (save : Save) (app : AppData) :
    memCells (save.toMem app) = TwoStore.store (memCells app) save.setting save.cells := by
  funext k
  unfold TwoStore.store
  cases save with
  | time flag tm =>
    cases k with
    | time j =>
      simp only [memCells, Save.toMem, Save.setting, Save.cells, AppData.cwt_setTime,
        CoolersWorkTime.get_set, Setting.time.injEq]
      split
      · next h => rw [h]
      · rfl
    | power c => simp [memCells, Save.toMem, Save.setting]
    | period => simp [memCells, Save.toMem, Save.setting]
  | power d p =>
    cases k with
    | time j => simp [memCells, Save.toMem, Save.setting]
    | power c =>
      simp only [memCells, Save.toMem, Save.setting, Save.cells, AppData.clPower_setClPower,
        Setting.power.injEq]
      split <;> rfl
    | period => simp [memCells, Save.toMem, Save.setting]
  | period v =>
    cases k with
    | time j => rfl
    | power c => cases c <;> rfl
    | period => rfl

/-! ## Two stores -/

/-- The store a setting is written to first. -/
def Saving.fst (s : Saving) : Setting → List SqlVal :=
  TwoStore.pick .period (dbCells s.db) (memCells s.app)

def Saving.snd (s : Saving) : Setting → List SqlVal :=
  TwoStore.pick .period (memCells s.app) (dbCells s.db)

def SaveThread.writer (t : SaveThread) : TwoStore.Writer Setting (List SqlVal) :=
  ⟨t.save.setting, t.save.cells, t.pc⟩

def Saving.stores (s : Saving) : TwoStore.State Setting (List SqlVal) :=
  ⟨s.fst, s.snd, s.pool.map SaveThread.writer⟩

/-- Only the period goes to the database first. -/
theorem setting_of_dbFirst (save : Save) :
    if save.dbFirst then save.setting = .period else save.setting ≠ .period := by
  cases save <;> simp [Save.dbFirst, Save.setting]

theorem stores_first (s : Saving) (save : Save) (hfit : save.Fits) {row : Row}
    (hrow : s.db = ⟨true, some [row]⟩) :
    (s.write save.dbFirst save).fst = TwoStore.store s.fst save.setting save.cells ∧
      (s.write save.dbFirst save).snd = s.snd := by
  obtain ⟨app, db, pool⟩ := s
  subst hrow
  have hset := setting_of_dbFirst save
  unfold Saving.write Saving.fst Saving.snd
  cases hd : save.dbFirst with
  | true =>
    rw [hd, if_pos rfl] at hset
    simp only [if_true, dbCells_toDb save hfit row, hset]
    exact TwoStore.pick_store_here _ _ _ _
  | false =>
    rw [hd, if_neg Bool.false_ne_true] at hset
    simp only [Bool.false_eq_true, if_false, memCells_toMem]
    exact TwoStore.pick_store_there hset _ _ _

theorem stores_second (s : Saving) (save : Save) (hfit : save.Fits) {row : Row}
    (hrow : s.db = ⟨true, some [row]⟩) :
    (s.write (!save.dbFirst) save).fst = s.fst ∧
      (s.write (!save.dbFirst) save).snd = TwoStore.store s.snd save.setting save.cells := by
  obtain ⟨app, db, pool⟩ := s
  subst hrow
  have hset := setting_of_dbFirst save
  unfold Saving.write Saving.fst Saving.snd
  cases hd : save.dbFirst with
  | true =>
    rw [hd, if_pos rfl] at hset
    simp only [Bool.not_true, Bool.false_eq_true, if_false, memCells_toMem, hset]
    exact (TwoStore.pick_store_here _ _ _ _).symm
  | false =>
    rw [hd, if_neg Bool.false_ne_true] at hset
    simp only [Bool.not_false, if_true, dbCells_toDb save hfit row]
    exact (TwoStore.pick_store_there hset _ _ _).symm

/-- The table is there and has one row, so every update succeeds on it. -/
def OneRow (db : Mydb) : Prop := ∃ row, db = ⟨true, some [row]⟩

theorem oneRow_write {s : Saving} (h : OneRow s.db) (toDb : Bool) (save : Save) :
    OneRow (s.write toDb save).db := by
  obtain ⟨row, hrow⟩ := h
  cases toDb with
  | false => exact ⟨row, hrow⟩
  | true =>
    refine ⟨setCols save.sql row, ?_⟩
    show save.toDb s.db = _
    rw [hrow, save.toDb_open]

/-- A handler that is not interrupted leaves what its two writes leave. -/
theorem serve_writes {srv : Server} (hone : OneRow srv.db) (json : Body) (r : SaveReq) :
    match r.decode json with
    | none => (r.serve true json srv).2.app = srv.app ∧ (r.serve true json srv).2.db = srv.db
    | some save => (r.serve true json srv).2.app = save.toMem srv.app ∧
        (r.serve true json srv).2.db = save.toDb srv.db := by
  obtain ⟨row, hrow⟩ := hone
  obtain ⟨app, db, regs, clSignal, thSignal⟩ := srv
  subst hrow
  cases r with
  | coolersTime flag =>
    simp only [SaveReq.serve, SaveReq.decode, appSetCoolersTime]
    cases jsonToMyTime json with
    | error e => exact ⟨rfl, rfl⟩
    | ok tm => exact ⟨rfl, rfl⟩
  | coolersPower i2cOk res0 =>
    simp only [SaveReq.serve, SaveReq.decode, appSaveCoolersPower]
    cases jsonToCoolersPower json with
    | error e => exact ⟨rfl, rfl⟩
    | ok p =>
      simp only [saveCoolerPower, Mydb.saveClPower, Mydb.update]
      simp only [Bool.not_true, Bool.false_eq_true, if_false, if_true]
      split <;> exact ⟨rfl, rfl⟩
  | thPeriod =>
    simp only [SaveReq.serve, SaveReq.decode, appSetThPeriod]
    cases jsonToThPeriod json with
    | error e => exact ⟨rfl, rfl⟩
    | ok newPeriodMin =>
      simp only
      by_cases h : thPeriodSec newPeriodMin < 180
      · simp only [if_pos h]
        exact ⟨trivial, trivial⟩
      · simp only [if_neg h]
        exact ⟨rfl, rfl⟩

/-! ## What a step must not do -/

/-- A request between its writes whose value is the one its first store holds. -/
def Carries (s : Saving) (k : Setting) (t : SaveThread) : Prop :=
  t.pc = .half ∧ t.save.setting = k ∧ t.save.cells = s.fst k

/-- A period is one the row can hold; and a second write repeats what the first
store holds by then, or leaves that to another request. -/
def SaveOk (s : Saving) : SavingEv → Prop
  | .arrive r json => ∀ save, r.decode json = some save → save.Fits
  | .run i => ∀ t, s.pool[i]? = some t → t.pc = .half →
      t.save.cells = s.fst t.save.setting ∨ HasBut i (Carries s t.save.setting) s.pool

instance (save : Save) : Decidable save.Fits :=
  match save with
  | .period v => inferInstanceAs (Decidable (v.toNat < 2 ^ 63))
  | .time _ _ | .power _ _ => isTrue trivial

instance (s : Saving) (k : Setting) (t : SaveThread) : Decidable (Carries s k t) :=
  inferInstanceAs (Decidable (_ ∧ _))

instance (s : Saving) (e : SavingEv) : Decidable (SaveOk s e) :=
  match e with
  | .arrive r json => inferInstanceAs (Decidable (∀ save, r.decode json = some save → save.Fits))
  | .run i => inferInstanceAs (Decidable (∀ t, s.pool[i]? = some t → t.pc = .half →
      t.save.cells = s.fst t.save.setting ∨ HasBut i (Carries s t.save.setting) s.pool))

theorem pool_set_writer (s : Saving) (i : Nat) (save : Save) (pc : TwoStore.Pc) :
    s.stores.pool.set i ⟨save.setting, save.cells, pc⟩ =
      (s.pool.set i ⟨save, pc⟩).map SaveThread.writer := by
  rw [List.map_set]
  rfl

/-- Each of the two moves of a thread is the write of that store. -/
theorem stores_saveMove {s s' : Saving} {row : Row} (hrow : s.db = ⟨true, some [row]⟩) {i : Nat}
    {t : SaveThread} (hf : t.save.Fits) (ht : saveMove s i t = some s') :
    TwoStore.write s.stores i t.writer = some s'.stores := by
  unfold saveMove at ht
  split at ht
  · next hpc =>
    cases ht
    obtain ⟨h1, h2⟩ := stores_first s t.save hf hrow
    simp only [TwoStore.write, SaveThread.writer, hpc, Option.some.injEq]
    exact TwoStore.State.ext h1.symm h2.symm (pool_set_writer s i t.save _)
  · next hpc =>
    cases ht
    obtain ⟨h1, h2⟩ := stores_second s t.save hf hrow
    simp only [TwoStore.write, SaveThread.writer, hpc, Option.some.injEq]
    exact TwoStore.State.ext h1.symm h2.symm (pool_set_writer s i t.save _)
  · cases ht

/-- Every step is a step of the two stores, or answers a request at once. -/
theorem stores_step {s s' : Saving} {e : SavingEv} (hone : OneRow s.db)
    (hfit : ∀ t ∈ s.pool, t.save.Fits) (hok : SaveOk s e) (h : saveStep s e = some s') :
    s' = s ∨ ∃ l, TwoStore.Keeps s.stores l ∧ TwoStore.step s.stores l = some s'.stores := by
  obtain ⟨row, hrow⟩ := hone
  cases e with
  | arrive r json =>
    cases hd : r.decode json with
    | none =>
      simp only [saveStep, hd, Option.some.injEq] at h
      exact .inl h.symm
    | some save =>
      simp only [saveStep, hd, Option.some.injEq] at h
      subst h
      refine .inr ⟨.arrive save.setting save.cells, trivial, ?_⟩
      simp [TwoStore.step, Saving.stores, Saving.fst, Saving.snd, SaveThread.writer]
  | run i =>
    obtain ⟨t, hi, ht⟩ := Option.bind_eq_some_iff.mp h
    have hf := hfit t (List.mem_of_getElem? hi)
    have hi' : s.stores.pool[i]? = some t.writer := by
      show (s.pool.map SaveThread.writer)[i]? = _
      rw [List.getElem?_map, hi]
      rfl
    refine .inr ⟨.run i, ?_, ?_⟩
    · intro w hw hhalf
      obtain rfl : t.writer = w := Option.some.inj (hi'.symm.trans hw)
      exact (hok t hi hhalf).imp_right fun hb => (hasBut_map _ _ _).mpr hb
    · show s.stores.pool[i]?.bind (TwoStore.write s.stores i) = _
      rw [hi', Option.bind_some]
      exact stores_saveMove hrow hf ht

/-! ## The invariant -/

structure SavingInv (s : Saving) : Prop where
  oneRow : OneRow s.db
  fits : ∀ t ∈ s.pool, t.save.Fits
  inStep : TwoStore.InStep s.stores

theorem savingInv_step (s : Saving) (e : SavingEv) (s' : Saving) (hs : SavingInv s)
    (hok : SaveOk s e) (h : saveStep s e = some s') : SavingInv s' := by
  have hstep : TwoStore.InStep s'.stores := by
    rcases stores_step hs.oneRow hs.fits hok h with rfl | ⟨l, hk, hl⟩
    · exact hs.inStep
    · exact TwoStore.inStep_step hs.inStep hk hl
  cases e with
  | arrive r json =>
    cases hd : r.decode json with
    | none =>
      simp only [saveStep, hd, Option.some.injEq] at h
      exact h ▸ hs
    | some save =>
      simp only [saveStep, hd, Option.some.injEq] at h
      subst h
      exact ⟨hs.oneRow, forall_append_singleton.mpr ⟨hs.fits, hok save hd⟩, hstep⟩
  | run i =>
    obtain ⟨t, hi, ht⟩ := Option.bind_eq_some_iff.mp h
    have hf := hs.fits t (List.mem_of_getElem? hi)
    have hset (pc : TwoStore.Pc) : ∀ u ∈ s.pool.set i { t with pc }, u.save.Fits := by
      intro u hu
      rcases List.mem_or_eq_of_mem_set hu with h | rfl
      · exact hs.fits u h
      · exact hf
    unfold saveMove at ht
    split at ht
    · cases ht
      exact ⟨oneRow_write hs.oneRow _ _, hset _, hstep⟩
    · cases ht
      exact ⟨oneRow_write hs.oneRow _ _, hset _, hstep⟩
    · cases ht

/-! ## Runs -/

/-- The database is open, memory and row agree, and no request is in progress. -/
structure Saving.Settled (s : Saving) : Prop where
  open_ : s.db.fd = true
  agree : MemDbAgree s.app s.db
  idle : s.pool = []

/-- A table that agrees with memory has one row. -/
theorem oneRow_of_agree {app : AppData} {db : Mydb} (hfd : db.fd = true)
    (h : MemDbAgree app db) : OneRow db := by
  obtain ⟨fd, table⟩ := db
  obtain rfl : fd = true := hfd
  have hlen := congrArg List.length (h .period)
  cases table with
  | none => simp [memCells, dbCells] at hlen
  | some rows =>
    match rows with
    | [] => simp [memCells, dbCells] at hlen
    | [row] => exact ⟨row, rfl⟩
    | _ :: _ :: _ => simp [memCells, dbCells, Setting.cols] at hlen

theorem agree_iff_stores (s : Saving) :
    MemDbAgree s.app s.db ↔ ∀ k, s.stores.fst k = s.stores.snd k := by
  refine forall_congr' fun k => ?_
  show _ ↔ TwoStore.pick .period _ _ k = TwoStore.pick .period _ _ k
  unfold TwoStore.pick
  split
  · exact eq_comm
  · exact Iff.rfl

theorem Saving.Settled.savingInv {s : Saving} (hs : s.Settled) : SavingInv s where
  oneRow := oneRow_of_agree hs.open_ hs.agree
  fits t ht := by
    rw [hs.idle] at ht
    cases ht
  inStep k := .inl ((agree_iff_stores s).mp hs.agree k)

/-- **Memory and row agree when all requests have finished**, in every state that a
run of `SaveOk` steps reaches from a settled one. -/
theorem saves_agree_at_rest (s : Saving) (hs : s.Settled) (es : List SavingEv)
    (hok : Along saveStep SaveOk s es) (s' : Saving) (hrun : run saveStep s es = some s')
    (hdone : ∀ t ∈ s'.pool, t.pc = .done) : MemDbAgree s'.app s'.db := by
  have hinv := run_inv savingInv_step s s' es hs.savingInv hok hrun
  refine (agree_iff_stores s').mpr (TwoStore.stores_agree hinv.inStep fun w hw => ?_)
  obtain ⟨t, ht, rfl⟩ := List.mem_map.mp hw
  exact hdone t ht

/-- A fresh server whose configuration has the period of the inserted row. -/
def freshSaving : Saving := ⟨freshServer.app, freshServer.db, []⟩

theorem freshSaving_settled : freshSaving.Settled where
  open_ := rfl
  agree k := by
    cases k with
    | time k => cases k <;> rfl
    | power c => cases c <;> rfl
    | period => rfl
  idle := rfl

/-- `{"wind_in":n}` -/
def windIn (n : Rat) : Body := some (.object [("wind_in", .number n)])

/-- `{"poll_period":5}` -/
def pollPeriod5 : Body := some (.object [("poll_period", .number 5)])

/-- Two powers for one cooler and a period side by side: 20 overtakes 10 in memory, and
comes after it in the row. -/
def savesSideBySide : List SavingEv :=
  [.arrive (.coolersPower true 0) (windIn 10), .arrive (.coolersPower true 0) (windIn 20), .run 0,
    .arrive .thPeriod pollPeriod5, .run 1, .run 2, .run 0, .run 2, .run 1]

theorem saves_agree_sideBySide :
    ∃ s', run saveStep freshSaving savesSideBySide = some s' ∧ s'.app.clInPower = 20 ∧
      s'.app.conf.thPollPeriod = 300 ∧ MemDbAgree s'.app s'.db :=
  ⟨_, rfl, rfl, rfl, saves_agree_at_rest freshSaving freshSaving_settled savesSideBySide
    (by decide +kernel) _ rfl (by decide +kernel)⟩

/-- Two powers that reach memory in one order and the row in the other. -/
theorem saves_cross :
    ∃ s', run saveStep freshSaving [.arrive (.coolersPower true 0) (windIn 10),
        .arrive (.coolersPower true 0) (windIn 20), .run 0, .run 1, .run 1, .run 0] = some s' ∧
      (∀ t ∈ s'.pool, t.pc = .done) ∧ ¬ MemDbAgree s'.app s'.db := by
  refine ⟨_, rfl, ?_, fun h => ?_⟩
  · intro t ht
    cases ht with
    | head => rfl
    | tail _ h =>
      cases h with
      | head => rfl
      | tail _ h => cases h
  · exact absurd (h (.power .input)) (by decide)

end Growbox
