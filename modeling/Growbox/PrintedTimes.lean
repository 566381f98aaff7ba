import Growbox.App

/-!
# Times in text: `app_get_coolers_state` and `flc_set_time`

An accepted time is any three 32-bit numbers.  It is printed into one 32-byte
field for the lamp controller, and field by field into 4 bytes each for the
state of the coolers.  `printed_times_fit_iff` says which accepted bodies fit.
-/

namespace Growbox

open Decimal

/-! ## `flc_set_time` -/

/-- `flc_time_t` -/
inductive FlcTime where
  | current | start | stop

/-- `flc_req_t`: each of the three times is text. -/
structure FlcReq where
  currTime : CStr
  startTime : CStr
  stopTime : CStr
  chPwr : FlcChPwr
  smooth : Int32
  smoothValue : Int32

/-- The size of each text field of `flc_req_t`. -/
def flcTimeSize : Nat := 32

/-- The constructor: no value is given. -/
def FlcReq.blank : FlcReq := ⟨[], [], [], ⟨-1, -1, -1⟩, -1, -1⟩

/-- `"%02u:%02u:%02u"` -/
def flcTimeText (tm : MyTime) : CStr :=
  dec2 tm.hour.toNat ++ ":".toList ++ dec2 tm.min.toNat ++ ":".toList ++ dec2 tm.sec.toNat

/-- The request that `flc_set_time` sends. -/
def flcSetTime (type : FlcTime) (tm : MyTime) : FlcReq :=
  match type with
  | .current => { FlcReq.blank with currTime := flcTimeText tm }
  | .start => { FlcReq.blank with startTime := flcTimeText tm }
  | .stop => { FlcReq.blank with stopTime := flcTimeText tm }

/-- Every text, with its terminator, fits its field. -/
def FlcReq.Fits (req : FlcReq) : Prop :=
  ∀ text ∈ [req.currTime, req.startTime, req.stopTime], text.length + 1 ≤ flcTimeSize

/-! ## `app_get_coolers_state` -/

structure CoolerStatus where
  power : UInt8
  startHour : CStr
  startMin : CStr
  startSec : CStr
  stopHour : CStr
  stopMin : CStr
  stopSec : CStr
  wpMin : CStr
  isOn : Bool

def coolerStatus (app : AppData) (c : Cooler) : CoolerStatus where
  power := app.clPower c
  startHour := dec2 (app.cwt.get (startRaw c)).hour.toNat
  startMin := dec2 (app.cwt.get (startRaw c)).min.toNat
  startSec := dec2 (app.cwt.get (startRaw c)).sec.toNat
  stopHour := dec2 (app.cwt.get (stopRaw c)).hour.toNat
  stopMin := dec2 (app.cwt.get (stopRaw c)).min.toNat
  stopSec := dec2 (app.cwt.get (stopRaw c)).sec.toNat
  wpMin := dec (app.cwt.get (wpRaw c)).min.toNat
  isOn := app.clOn c

/-- `st.arr` -/
def appGetCoolersState (app : AppData) : List CoolerStatus :=
  [coolerStatus app .input, coolerStatus app .output]

/-- The size of each text field of `cooler_status_t`. -/
def statusFieldSize : Nat := 4

def CoolerStatus.texts (st : CoolerStatus) : List CStr :=
  [st.startHour, st.startMin, st.startSec, st.stopHour, st.stopMin, st.stopSec, st.wpMin]

def StatusFits (app : AppData) : Prop :=
  ∀ st ∈ appGetCoolersState app, ∀ text ∈ st.texts, text.length + 1 ≤ statusFieldSize

/-! ## What fits -/

/-- A text of the lamp controller is too long by one byte, for three numbers of
ten digits. -/
theorem flcTimeText_fits_iff (tm : MyTime) :
    (flcTimeText tm).length + 1 ≤ flcTimeSize ↔
      ¬ (10 ^ 9 ≤ tm.hour.toNat ∧ 10 ^ 9 ≤ tm.min.toNat ∧ 10 ^ 9 ≤ tm.sec.toNat) := by
  have hten (n : UInt32) : (dec2 n.toNat).length ≤ 10 :=
    (length_dec2_le_iff _ 10 (by decide)).mpr (Nat.lt_trans n.toNat_lt (by decide))
  have hnine (n : UInt32) : (dec2 n.toNat).length ≤ 9 ↔ n.toNat < 10 ^ 9 :=
    length_dec2_le_iff _ 9 (by decide)
  have hlen : (flcTimeText tm).length =
      (dec2 tm.hour.toNat).length + (dec2 tm.min.toNat).length + (dec2 tm.sec.toNat).length + 2 := by
    simp only [flcTimeText, List.length_append]
    show _ + 1 + _ + 1 + _ = _
    omega
  have := hten tm.hour
  have := hten tm.min
  have := hten tm.sec
  have := hnine tm.hour
  have := hnine tm.min
  have := hnine tm.sec
  rw [hlen, flcTimeSize]
  omega

theorem flcSetTime_fits_iff (type : FlcTime) (tm : MyTime) :
    (flcSetTime type tm).Fits ↔
      ¬ (10 ^ 9 ≤ tm.hour.toNat ∧ 10 ^ 9 ≤ tm.min.toNat ∧ 10 ^ 9 ≤ tm.sec.toNat) := by
  rw [← flcTimeText_fits_iff]
  have hblank : ([] : CStr).length + 1 ≤ flcTimeSize := by decide
  have hnil : ∀ text ∈ ([] : List CStr), text.length + 1 ≤ flcTimeSize :=
    fun _ h => absurd h List.not_mem_nil
  simp only [FlcReq.Fits, List.forall_mem_cons]
  -- the two other fields stay as the constructor left them
  cases type with
  | current => exact ⟨fun h => h.1, fun h => ⟨h, hblank, hblank, hnil⟩⟩
  | start => exact ⟨fun h => h.2.1, fun h => ⟨hblank, h, hblank, hnil⟩⟩
  | stop => exact ⟨fun h => h.2.2.1, fun h => ⟨hblank, hblank, h, hnil⟩⟩

/-- The numbers of a time that are printed: of a work period only the minutes. -/
def printed (k : CoolersRaw) (t : MyTime) : List UInt32 :=
  match k with
  | .wpInTime | .wpOutTime => [t.min]
  | _ => [t.hour, t.min, t.sec]

/-- They have at most three digits. -/
def Small (k : CoolersRaw) (t : MyTime) : Prop := ∀ n ∈ printed k t, n.toNat < 1000

theorem dec_fits_iff (n : UInt32) : (dec n.toNat).length + 1 ≤ statusFieldSize ↔ n.toNat < 1000 := by
  have h : (dec n.toNat).length ≤ 3 ↔ n.toNat < 1000 := length_dec_le_iff n.toNat 3 (by decide)
  rw [statusFieldSize]
  omega

theorem dec2_fits_iff (n : UInt32) :
    (dec2 n.toNat).length + 1 ≤ statusFieldSize ↔ n.toNat < 1000 := by
  have h : (dec2 n.toNat).length ≤ 3 ↔ n.toNat < 1000 := length_dec2_le_iff n.toNat 3 (by decide)
  rw [statusFieldSize]
  omega

theorem texts_fit_iff (app : AppData) (c : Cooler) :
    (∀ text ∈ (coolerStatus app c).texts, text.length + 1 ≤ statusFieldSize) ↔
      Small (startRaw c) (app.cwt.get (startRaw c)) ∧ Small (stopRaw c) (app.cwt.get (stopRaw c)) ∧
        Small (wpRaw c) (app.cwt.get (wpRaw c)) := by
  simp only [CoolerStatus.texts, coolerStatus, List.forall_mem_cons, dec2_fits_iff, dec_fits_iff]
  cases c <;> simp [Small, printed, startRaw, stopRaw, wpRaw, and_assoc]

theorem statusFits_iff (app : AppData) : StatusFits app ↔ ∀ k, Small k (app.cwt.get k) := by
  simp only [StatusFits, appGetCoolersState, List.forall_mem_cons, texts_fit_iff]
  constructor
  · rintro ⟨⟨h1, h2, h3⟩, ⟨h4, h5, h6⟩, -⟩ k
    cases k with
    | startInTime => exact h1
    | stopInTime => exact h2
    | wpInTime => exact h3
    | startOutTime => exact h4
    | stopOutTime => exact h5
    | wpOutTime => exact h6
  · intro h
    exact ⟨⟨h _, h _, h _⟩, ⟨h _, h _, h _⟩, fun _ hx => absurd hx List.not_mem_nil⟩

/-! ## Sequences of requests -/

/-- A request to `app_set_coolers_time` and the outcome of its update. -/
structure TimeReq where
  dbOk : Bool
  json : Body
  flag : ClFlag

def setTimeStep (srv : Server) (r : TimeReq) : Server :=
  (appSetCoolersTime r.dbOk r.json r.flag srv).2

/-- If the body is accepted, the numbers printed of it are small. -/
def TimeReq.IsSmall (r : TimeReq) : Prop :=
  ∀ tm, jsonToMyTime r.json = .ok tm → Small r.flag.dest.1 tm

/-- The time is in memory whatever becomes of the update. -/
theorem setTimeStep_cwt (srv : Server) (r : TimeReq) :
    (setTimeStep srv r).app.cwt =
      match jsonToMyTime r.json with
      | .error _ => srv.app.cwt
      | .ok tm => srv.app.cwt.set r.flag.dest.1 tm := by
  unfold setTimeStep appSetCoolersTime
  cases jsonToMyTime r.json with
  | error e => rfl
  | ok tm =>
    unfold saveNewCoolersTime
    simp only
    generalize srv.db.setClTime r.dbOk r.flag.dest.2 tm = u
    obtain ⟨res, db⟩ := u
    cases res <;> rfl

theorem statusFits_setTimeStep_iff {srv : Server} (hs : StatusFits srv.app) (r : TimeReq) :
    StatusFits (setTimeStep srv r).app ↔ r.IsSmall := by
  rw [statusFits_iff] at hs ⊢
  rw [setTimeStep_cwt]
  unfold TimeReq.IsSmall
  cases jsonToMyTime r.json with
  | error e => simpa using hs
  | ok tm =>
    simp only [CoolersWorkTime.get_set, Except.ok.injEq, forall_eq']
    constructor
    · intro h
      have := h r.flag.dest.1
      rwa [if_pos rfl] at this
    · intro h k
      split
      · next hk => exact hk ▸ h
      · exact hs k

/-- After every request of a sequence the texts fit, as long as they fit at first
and what is accepted is small. -/
theorem statusFits_prefixes_iff (srv : Server) (rs : List TimeReq) :
    (∀ past, past <+: rs → StatusFits (past.foldl setTimeStep srv).app) ↔
      StatusFits srv.app ∧ ∀ r ∈ rs, r.IsSmall := by
  induction rs generalizing srv with
  | nil =>
    constructor
    · intro h
      exact ⟨h [] (List.nil_prefix), fun _ hr => absurd hr List.not_mem_nil⟩
    · rintro ⟨h, -⟩ past hp
      rw [List.prefix_nil.mp hp]
      exact h
  | cons r rs ih =>
    rw [List.forall_mem_cons]
    constructor
    · intro h
      have h0 : StatusFits srv.app := h [] List.nil_prefix
      have hrest := (ih (setTimeStep srv r)).mp fun past hp =>
        h (r :: past) (List.cons_prefix_cons.mpr ⟨rfl, hp⟩)
      exact ⟨h0, (statusFits_setTimeStep_iff h0 r).mp hrest.1, hrest.2⟩
    · rintro ⟨h0, hr, hrs⟩ past hp
      cases past with
      | nil => exact h0
      | cons r' past =>
        obtain ⟨rfl, hpast⟩ := List.cons_prefix_cons.mp hp
        exact (ih (setTimeStep srv r')).mpr
          ⟨(statusFits_setTimeStep_iff h0 r').mpr hr, hrs⟩ past hpast

/-- **What is printed fits exactly when what is accepted is small.**  The lamp
controller's text fits unless all three numbers have ten digits; the state of
the coolers fits after every request exactly when it fits at first and no
accepted body has a printed number of four digits. -/
theorem printed_times_fit_iff (type : FlcTime) (json : Body) (srv : Server) (rs : List TimeReq) :
    ((∀ tm, jsonToMyTime json = .ok tm → (flcSetTime type tm).Fits) ↔
      ∀ tm, jsonToMyTime json = .ok tm →
        ¬ (10 ^ 9 ≤ tm.hour.toNat ∧ 10 ^ 9 ≤ tm.min.toNat ∧ 10 ^ 9 ≤ tm.sec.toNat)) ∧
    ((∀ past, past <+: rs → StatusFits (past.foldl setTimeStep srv).app) ↔
      (∀ k, Small k (srv.app.cwt.get k)) ∧ ∀ r ∈ rs, r.IsSmall) := by
  constructor
  · exact forall_congr' fun tm => imp_congr_right fun _ => flcSetTime_fits_iff type tm
  · rw [statusFits_prefixes_iff, statusFits_iff]

/-- A body with one number in all three fields. -/
def timeOf (n : Rat) : Body := some (.object [("hour", .number n), ("min", .number n), ("sec", .number n)])

/-- Three times `-1` is one byte too long for the lamp controller; a work period of
1000 minutes is one byte too long for the state of the coolers. -/
theorem printed_times_overflow :
    (∃ tm, jsonToMyTime (timeOf (-1)) = .ok tm ∧ ¬ (flcSetTime .current tm).Fits) ∧
      ¬ StatusFits (setTimeStep freshServer ⟨true, timeOf 1000, .wpIn⟩).app := by
  refine ⟨⟨_, rfl, fun h => ?_⟩, fun h => ?_⟩
  · exact absurd (h _ List.mem_cons_self) (by decide)
  · have hsmall := (statusFits_iff _).mp h .wpInTime 1000 (List.mem_singleton.mpr rfl)
    exact absurd hsmall (by decide)

end Growbox
