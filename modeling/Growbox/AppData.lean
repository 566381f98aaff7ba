import Growbox.Jsont

/-!
# The server's data: `app_data`, and the registers of the cooler controller

The types of `sensors.h`, `mydb.h` and `app.h` that the handlers and the two
worker threads share, with a reader and a writer per cooler (`clPower`,
`setClPower`, …) over the paired fields `cl_in_…` and `cl_out_…`.
-/

namespace Growbox

/-- `cooler_t` -/
inductive Cooler where
  | input | output
  deriving DecidableEq, Repr

/-! ## The cooler controller (`sensors.cpp`) -/

/-- What was last written to each register of the controller at `0x43`. -/
abbrev CtrlRegs := UInt8 → UInt8

def coolerReg : Cooler → UInt8
  | .input => 0x10
  | .output => 0x20

/-- `(power > 100) ? 100 : power` -/
def sat (power : UInt8) : UInt8 := if power > 100 then 100 else power

/-- Writes the duty register of a cooler; `false` when the transfer fails. -/
def setCoolersPower (ioctlOk : Bool) (name : Cooler) (power : UInt8) (regs : CtrlRegs) :
    Bool × CtrlRegs :=
  if ioctlOk then (true, fun r => if r = coolerReg name then sat power else regs r)
  else (false, regs)

/-- The duty last commanded to a cooler. -/
def duty (regs : CtrlRegs) (c : Cooler) : UInt8 := regs (coolerReg c)

theorem coolerReg_inj {c d : Cooler} : coolerReg c = coolerReg d ↔ c = d := by
  cases c <;> cases d <;> decide

@[simp] theorem setCoolersPower_fst (ok : Bool) (c : Cooler) (p : UInt8) (regs : CtrlRegs) :
    (setCoolersPower ok c p regs).1 = ok := by
  cases ok <;> rfl

@[simp] theorem duty_setCoolersPower (c d : Cooler) (p : UInt8) (regs : CtrlRegs) :
    duty (setCoolersPower true c p regs).2 d = if d = c then sat p else duty regs d := by
  simp only [duty, setCoolersPower, if_true, coolerReg_inj]

@[simp] theorem setCoolersPower_failed (c : Cooler) (p : UInt8) (regs : CtrlRegs) :
    (setCoolersPower false c p regs).2 = regs := rfl

theorem sat_toNat (p : UInt8) : (sat p).toNat = min 100 p.toNat := by
  unfold sat
  split
  · next h =>
    have : (100 : UInt8).toNat < p.toNat := h
    simp only [UInt8.reduceToNat] at this ⊢
    omega
  · next h =>
    have : ¬ (100 : UInt8).toNat < p.toNat := h
    simp only [UInt8.reduceToNat] at this
    omega

/-! ## Schedule -/

/-- `coolers_raw_t`: the six saved times. -/
inductive CoolersRaw where
  | startInTime | stopInTime | wpInTime | startOutTime | stopOutTime | wpOutTime
  deriving DecidableEq, Repr

structure CoolersWorkTime where
  startIn : MyTime
  stopIn : MyTime
  wpIn : MyTime
  startOut : MyTime
  stopOut : MyTime
  wpOut : MyTime
  deriving DecidableEq, Repr

namespace CoolersWorkTime

def get (cwt : CoolersWorkTime) : CoolersRaw → MyTime
  | .startInTime => cwt.startIn
  | .stopInTime => cwt.stopIn
  | .wpInTime => cwt.wpIn
  | .startOutTime => cwt.startOut
  | .stopOutTime => cwt.stopOut
  | .wpOutTime => cwt.wpOut

/-- `memcpy(dest, new_time, sizeof(my_time_t))` into one of the six fields. -/
def set (cwt : CoolersWorkTime) (dest : CoolersRaw) (t : MyTime) : CoolersWorkTime :=
  match dest with
  | .startInTime => { cwt with startIn := t }
  | .stopInTime => { cwt with stopIn := t }
  | .wpInTime => { cwt with wpIn := t }
  | .startOutTime => { cwt with startOut := t }
  | .stopOutTime => { cwt with stopOut := t }
  | .wpOutTime => { cwt with wpOut := t }

@[simp] theorem get_set (cwt : CoolersWorkTime) (d k : CoolersRaw) (t : MyTime) :
    (cwt.set d t).get k = if k = d then t else cwt.get k := by
  cases d <;> cases k <;> rfl

theorem ext_get {a b : CoolersWorkTime} (h : ∀ k, a.get k = b.get k) : a = b := by
  obtain ⟨a1, a2, a3, a4, a5, a6⟩ := a
  obtain ⟨b1, b2, b3, b4, b5, b6⟩ := b
  obtain rfl : a1 = b1 := h .startInTime
  obtain rfl : a2 = b2 := h .stopInTime
  obtain rfl : a3 = b3 := h .wpInTime
  obtain rfl : a4 = b4 := h .startOutTime
  obtain rfl : a5 = b5 := h .stopOutTime
  obtain rfl : a6 = b6 := h .wpOutTime
  rfl

end CoolersWorkTime

/-- Which of the six times are a cooler's start, stop and work period. -/
def startRaw : Cooler → CoolersRaw
  | .input => .startInTime
  | .output => .startOutTime

def stopRaw : Cooler → CoolersRaw
  | .input => .stopInTime
  | .output => .stopOutTime

def wpRaw : Cooler → CoolersRaw
  | .input => .wpInTime
  | .output => .wpOutTime

instance (P : Cooler → Prop) [DecidablePred P] : Decidable (∀ c, P c) :=
  decidable_of_iff (P .input ∧ P .output)
    ⟨fun h c => match c with
      | .input => h.1
      | .output => h.2, fun h => ⟨h .input, h .output⟩⟩

def zeroTime : MyTime := ⟨0, 0, 0⟩

/-! ## `app_data` -/

structure AppConfig where
  testMode : Bool
  clPollPeriod : Int32
  thPollPeriod : UInt64
  deriving DecidableEq, Repr

structure AppData where
  conf : AppConfig
  cwt : CoolersWorkTime
  clInPower : UInt8
  clOutPower : UInt8
  clInOn : Bool
  clOutOn : Bool
  deriving DecidableEq, Repr

namespace AppData

def clPower (app : AppData) : Cooler → UInt8
  | .input => app.clInPower
  | .output => app.clOutPower

def setClPower (app : AppData) (c : Cooler) (p : UInt8) : AppData :=
  match c with
  | .input => { app with clInPower := p }
  | .output => { app with clOutPower := p }

def clOn (app : AppData) : Cooler → Bool
  | .input => app.clInOn
  | .output => app.clOutOn

/-- Overwrites one of the six times, under `app_coolers_mutex`. -/
def setTime (app : AppData) (dest : CoolersRaw) (t : MyTime) : AppData :=
  { app with cwt := app.cwt.set dest t }

section
variable (app : AppData) (c d : Cooler) (p : UInt8) (k : CoolersRaw) (t : MyTime)

@[simp] theorem clPower_setClPower :
    (app.setClPower c p).clPower d = if d = c then p else app.clPower d := by
  cases c <;> cases d <;> rfl

@[simp] theorem cwt_setClPower : (app.setClPower c p).cwt = app.cwt := by cases c <;> rfl

@[simp] theorem conf_setClPower : (app.setClPower c p).conf = app.conf := by cases c <;> rfl

@[simp] theorem clOn_setClPower : (app.setClPower c p).clOn d = app.clOn d := by
  cases c <;> cases d <;> rfl

@[simp] theorem cwt_setTime : (app.setTime k t).cwt = app.cwt.set k t := rfl

@[simp] theorem conf_setTime : (app.setTime k t).conf = app.conf := rfl

@[simp] theorem clPower_setTime : (app.setTime k t).clPower c = app.clPower c := by cases c <;> rfl

@[simp] theorem clOn_setTime : (app.setTime k t).clOn c = app.clOn c := by cases c <;> rfl

end

end AppData

end Growbox
