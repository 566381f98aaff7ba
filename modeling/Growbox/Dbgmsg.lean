import Growbox.Jsont
import Growbox.Lib.Decimal
import Growbox.Lib.Nesting

/-!
# The logger of the first version: `dbgmsg.h` and `log_printf`

A message for the file goes through `logPrintf`, which logs to the file itself
when the file cannot be opened, and before that when `localtime` fails; `stat`
of the log file fails without logging.  So a message comes back exactly when at
some point the failures of both are fewer than the messages
(`showMsg_returns_iff`).
-/

namespace Growbox

open Decimal Nesting Finset

/-! ## What the system answers -/

/-- A broken-down local time, by what `strftime` prints of it. -/
structure Moment where
  strftime : CStr → CStr
  msec : Nat

/-- The answers to the calls a logger makes, by how many came before: of
`localtime` the earlier calls, of `stat` and `fopen` the earlier tries to open
the log file. -/
structure Os where
  localtime : Nat → Option Moment
  stat : CStr → Nat → Option UInt64
  fopen : Nat → Bool
  strerror : CStr
  /-- whether the mutex of the log file is got in time when another may hold it -/
  lockFree : Bool

/-- What was asked and tried so far, and what was written. -/
structure LogSt where
  asked : Nat
  tried : Nat
  console : CStr
  file : CStr

def LogSt.print (s : LogSt) (text : CStr) : LogSt := { s with console := s.console ++ text }

def LogSt.askTime (s : LogSt) : LogSt := { s with asked := s.asked + 1 }

def LogSt.tryFile (s : LogSt) : LogSt := { s with tried := s.tried + 1 }

/-- Opened with `"w+"` the file is emptied first. -/
def LogSt.write (s : LogSt) (emptied : Bool) (text : CStr) : LogSt :=
  { s with file := if emptied then text else s.file ++ text }

def LogSt.counts (s : LogSt) : Nat × Nat := (s.asked, s.tried)

/-- How many of `n` answers in a row are failures. -/
def failures (ok : Nat → Bool) (first n : Nat) : Nat :=
  ∑ k ∈ range n, if ok (first + k) then 0 else 1

/-! ## `dbgmsg.h` -/

def red : CStr := "\x1b[31m".toList
def reset : CStr := "\x1b[0m".toList

def msgDebug : UInt8 := 0x01
def msgToFile : UInt8 := 0x80

/-- Where a message stands: `DEBUG_MODULE_NAME`, `__func__`, `__FILE__`, `__LINE__`. -/
structure Site where
  moduleName : CStr
  func : CStr
  file : CStr
  line : Nat

/-- `utils.c`, and `curr_log_level`. -/
structure LogCfg where
  logFname : CStr
  logMaxFsize : UInt64
  currLogLevel : UInt8

/-- What a buffer of so many bytes keeps of a text. -/
def clip (size : Nat) (text : CStr) : CStr := text.take (size - 1)

def dbgText (site : Site) (str : CStr) : CStr := clip 1024 (site.moduleName ++ str)

/-- A newline at the end gives way to the place. -/
def errText (site : Site) (str : CStr) : CStr :=
  let text := dbgText site str
  let text := if text.getLast? = some '\n' then text.dropLast else text
  clip 1024 (text ++ red ++ " [".toList ++ site.func ++ "() ".toList ++ site.file ++ ":".toList ++
    dec site.line ++ "]\n".toList ++ reset)

/-- The end of `dbgmsg_v` and `errmsg_v`. -/
def showMsg (cfg : LogCfg) (logPrintf : CStr → LogSt → Option LogSt) (loglvl : UInt8) (text : CStr)
    (s : LogSt) : Option LogSt :=
  let s := if loglvl ≠ msgToFile ∧ loglvl &&& 0x7F ≤ cfg.currLogLevel then s.print text else s
  if loglvl &&& msgToFile ≠ 0 then logPrintf text s else some s

def dbgmsgV (cfg : LogCfg) (logPrintf : CStr → LogSt → Option LogSt) (site : Site) (loglvl : UInt8)
    (str : CStr) (s : LogSt) : Option LogSt :=
  showMsg cfg logPrintf loglvl (dbgText site str) s

def errmsgV (cfg : LogCfg) (logPrintf : CStr → LogSt → Option LogSt) (site : Site) (loglvl : UInt8)
    (str : CStr) (s : LogSt) : Option LogSt :=
  showMsg cfg logPrintf loglvl (errText site str) s

/-! ## `utils.c` -/

def utilsSite (func : CStr) (line : Nat) : Site := ⟨"[ UTILS ] ".toList, func, "./src/utils.c".toList, line⟩

/-- `%03lu` -/
def dec3 (n : Nat) : CStr := if n < 100 then '0' :: dec2 n else dec n

def getFormattedTime (os : Os) (cfg : LogCfg) (logPrintf : CStr → LogSt → Option LogSt) (s : LogSt) :
    Option (CStr × LogSt) :=
  match os.localtime s.asked with
  | none =>
    (errmsgV cfg logPrintf (utilsSite "get_formatted_time".toList 472) (msgDebug ||| msgToFile)
      ("localtime() failed: ".toList ++ os.strerror ++ "\n".toList) s.askTime).map fun s => ([], s)
  | some stm => some (stm.strftime "%d.%m.%Y %T".toList ++ ".".toList ++ dec3 stm.msec, s.askTime)

/-- A failure is logged, but for the log file itself it is printed only. -/
def posixFilesize (os : Os) (cfg : LogCfg) (logPrintf : CStr → LogSt → Option LogSt) (fname : CStr)
    (s : LogSt) : Option (UInt64 × LogSt) :=
  match os.stat fname s.tried with
  | some stSize => some (stSize, s)
  | none =>
    let text := "'".toList ++ fname ++ "' stat failed: ".toList ++ os.strerror ++ "\n".toList
    if fname ≠ cfg.logFname then
      (errmsgV cfg logPrintf (utilsSite "posix_filesize".toList 489) (msgDebug ||| msgToFile) text
        s).map fun s => (0, s)
    else some (0, s.print ("[ UTILS ] ".toList ++ text))

/-- The end of `log_printf`: `fopen` with `"w+"` when the log is rotated, else
with `"a+"`, and what follows. -/
def openLog (os : Os) (cfg : LogCfg) (logPrintf : CStr → LogSt → Option LogSt) (rotated : Bool)
    (timeStr str : CStr) (s : LogSt) : Option LogSt :=
  if os.fopen s.tried then
    let cleaned := if rotated then timeStr ++ "[ CLEAN ] Log has been rotated\n".toList else []
    some (s.tryFile.write rotated (cleaned ++ timeStr ++ str))
  else
    errmsgV cfg logPrintf (utilsSite "log_printf".toList 702) (msgDebug ||| msgToFile)
      ("Couldnt open log file '".toList ++ cfg.logFname ++ "'\n".toList) s.tryFile

/-- `log_printf` from the check of the size on. -/
def checkSize (os : Os) (cfg : LogCfg) (logPrintf : CStr → LogSt → Option LogSt) (timeStr str : CStr)
    (s : LogSt) : Option LogSt := do
  let (size, s) ← posixFilesize os cfg logPrintf cfg.logFname s
  if cfg.logMaxFsize ≤ size then
    let s ← dbgmsgV cfg logPrintf (utilsSite "log_printf".toList 689) msgDebug
      "[ CLEAN ] Rotating log..\n".toList s
    openLog os cfg logPrintf true timeStr str s
  else openLog os cfg logPrintf false timeStr str s

/-- `none` when it has not come back with so much fuel. -/
def logPrintf (os : Os) (cfg : LogCfg) : Nat → CStr → LogSt → Option LogSt
  | 0, _, _ => none
  | fuel + 1, format, s => do
    let (time, s) ← getFormattedTime os cfg (logPrintf os cfg fuel) s
    checkSize os cfg (logPrintf os cfg fuel) ("[ ".toList ++ time ++ " ] ".toList) (clip 1024 format) s

/-! ## When a message comes back -/

/-- The messages caused by an answer of `localtime`. -/
def onClock (os : Os) (i : Nat) : Nat := if (os.localtime i).isSome then 0 else 1

/-- The messages caused by a try to open the log file. -/
def onOpen (os : Os) (j : Nat) : Nat := if os.fopen j then 0 else 1

theorem or_and_self (a b : UInt8) : (a ||| b) &&& b = b := by
  apply UInt8.toBitVec_inj.mp
  ext i hi
  simp only [UInt8.toBitVec_and, UInt8.toBitVec_or, BitVec.getElem_and, BitVec.getElem_or]
  cases b.toBitVec[i] <;> simp

/-- How a way of logging to the file moves the counts, whatever the text. -/
def Counts (logPrintf : CStr → LogSt → Option LogSt) (d : Nat × Nat → Option (Nat × Nat)) : Prop :=
  ∀ text s, (logPrintf text s).map LogSt.counts = d s.counts

section
variable {os : Os} {cfg : LogCfg} {lp : CStr → LogSt → Option LogSt}
  {d : Nat × Nat → Option (Nat × Nat)}

theorem showMsg_counts (h : Counts lp d) (lvl : UInt8) (text : CStr) (s : LogSt) :
    (showMsg cfg lp (lvl ||| msgToFile) text s).map LogSt.counts = d s.counts := by
  unfold showMsg
  rw [or_and_self, if_pos (by decide), h]
  congr 1
  split <;> rfl

theorem showMsg_debug (text : CStr) (s : LogSt) :
    ∃ s', showMsg cfg lp msgDebug text s = some s' ∧ s'.counts = s.counts := by
  unfold showMsg
  refine ⟨_, if_neg (not_not_intro (by decide)), ?_⟩
  split <;> rfl

theorem getFormattedTime_counts (h : Counts lp d) (s : LogSt) :
    (getFormattedTime os cfg lp s).map (fun p => p.2.counts) =
      times d (onClock os s.asked) (s.asked + 1, s.tried) := by
  unfold getFormattedTime onClock
  cases os.localtime s.asked with
  | none =>
    rw [Option.map_map]
    exact (showMsg_counts h _ _ _).trans (Option.bind_fun_some _).symm
  | some stm => rfl

/-- The size of the log file itself is had without logging. -/
theorem posixFilesize_counts (s : LogSt) :
    ∃ p, posixFilesize os cfg lp cfg.logFname s = some p ∧ p.2.counts = s.counts := by
  unfold posixFilesize
  cases os.stat cfg.logFname s.tried with
  | none => exact ⟨_, if_neg (not_not_intro rfl), rfl⟩
  | some stSize => exact ⟨_, rfl, rfl⟩

theorem openLog_counts (h : Counts lp d) (rotated : Bool) (timeStr str : CStr) (s : LogSt) :
    (openLog os cfg lp rotated timeStr str s).map LogSt.counts =
      times d (onOpen os s.tried) (s.asked, s.tried + 1) := by
  unfold openLog onOpen
  cases os.fopen s.tried with
  | true => rfl
  | false =>
    rw [if_neg Bool.false_ne_true, if_neg Bool.false_ne_true]
    exact (showMsg_counts h _ _ _).trans (Option.bind_fun_some _).symm

theorem checkSize_counts (h : Counts lp d) (timeStr str : CStr) (s : LogSt) :
    (checkSize os cfg lp timeStr str s).map LogSt.counts =
      times d (onOpen os s.tried) (s.asked, s.tried + 1) := by
  obtain ⟨⟨size, t⟩, hsize, ht⟩ := posixFilesize_counts s
  obtain ⟨hasked, htried⟩ := Prod.mk.inj ht
  unfold checkSize
  rw [hsize, Option.bind_eq_bind, Option.bind_some, ← hasked, ← htried]
  show (if cfg.logMaxFsize ≤ size then _ else _ : Option LogSt).map _ = _
  split
  · obtain ⟨u, hu, hcounts⟩ := showMsg_debug (dbgText (utilsSite "log_printf".toList 689)
      "[ CLEAN ] Rotating log..\n".toList) t
    obtain ⟨hasked', htried'⟩ := Prod.mk.inj hcounts
    rw [dbgmsgV, hu, Option.bind_eq_bind, Option.bind_some, openLog_counts h, hasked', htried']
  · exact openLog_counts h _ _ _ t

theorem logPrintf_counts (os : Os) (cfg : LogCfg) (fuel : Nat) :
    Counts (logPrintf os cfg fuel) (calls (onClock os) (onOpen os) fuel) := by
  induction fuel with
  | zero => exact fun _ _ => rfl
  | succ fuel ih =>
    intro text s
    rw [logPrintf, Option.bind_eq_bind, LogSt.counts, calls, ← getFormattedTime_counts ih s]
    exact map_bind_congr fun p => checkSize_counts ih _ _ p.2

end

theorem caused_eq_failures (os : Os) (i j n : Nat) :
    caused (onClock os) (onOpen os) i j n =
      failures (fun k => (os.localtime k).isSome) i n + failures os.fopen j n := rfl

/-- The failures of `localtime` and of the tries to open the log file, over the
next `n` of each, are fewer than `n`. -/
def LogRecovers (os : Os) (s : LogSt) : Prop :=
  ∃ n, failures (fun k => (os.localtime k).isSome) s.asked n + failures os.fopen s.tried n < n

theorem failures_succ (ok : Nat → Bool) (i n : Nat) :
    failures ok i (n + 1) = failures ok i n + if ok (i + n) then 0 else 1 := sum_range_succ _ n

theorem failures_le (ok : Nat → Bool) (i n : Nat) : failures ok i n ≤ n := by
  induction n with
  | zero => exact Nat.le_refl 0
  | succ n ih =>
    rw [failures_succ]
    split <;> omega

theorem failures_lt_iff (ok : Nat → Bool) (i : Nat) :
    (∃ n, failures ok i n < n) ↔ ∃ k, ok (i + k) = true := by
  constructor
  · rintro ⟨n, hn⟩
    refine Classical.byContradiction fun hnone => ?_
    have hall : failures ok i n = n := by
      simp [failures, fun k => eq_false_of_ne_true fun hk => hnone ⟨k, hk⟩]
    omega
  · rintro ⟨k, hk⟩
    refine ⟨k + 1, ?_⟩
    rw [failures_succ, if_pos hk]
    exact Nat.lt_succ_of_le (failures_le ok i k)

/-- With a clock that works: some try to open the log file succeeds. -/
theorem logRecovers_iff_of_clock {os : Os} (hclock : ∀ n, (os.localtime n).isSome = true) (s : LogSt) :
    LogRecovers os s ↔ ∃ k, os.fopen (s.tried + k) = true := by
  rw [← failures_lt_iff]
  refine exists_congr fun n => ?_
  simp [failures, hclock]

theorem showMsg_returns_iff (os : Os) (cfg : LogCfg) (lvl : UInt8) (text : CStr) (s : LogSt) :
    (∃ fuel, (showMsg cfg (logPrintf os cfg fuel) (lvl ||| msgToFile) text s).isSome) ↔
      LogRecovers os s := by
  rw [LogRecovers]
  simp only [← caused_eq_failures, ← calls_returns_iff]
  refine exists_congr fun fuel => ?_
  show _ ↔ (calls (onClock os) (onOpen os) fuel s.counts).isSome = true
  rw [← showMsg_counts (logPrintf_counts os cfg fuel) lvl text s, Option.isSome_map]

end Growbox
