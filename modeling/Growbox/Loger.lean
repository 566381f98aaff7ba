import Growbox.Dbgmsg
import Mathlib.Algebra.BigOperators.Ring.Finset

/-!
# The logger of the second version: `loger.h`

`Log::to_file` logs three messages to the same file when it cannot open it, and
none when it cannot read its size.  A message comes back when at some point
fewer than a third of the tries have failed (`msg_returns_iff`); with the first
logger this gives `logging_returns_iff`.
-/

namespace Growbox

open Decimal Nesting Finset

namespace Log

/-- `stamp_t` -/
inductive Stamp where
  | noStamp | dtimeStamp | timeStamp | msStamp

def msgError : UInt8 := 1
def msgVerbose : UInt8 := 3
def bold : CStr := "\x1b[1m".toList

/-- The static members of `Log`, and the `MODULE_NAME` of the file that
`to_file` was compiled in. -/
structure Conf where
  logLvl : UInt8
  logFname : CStr
  logMaxFsize : UInt64
  moduleName : CStr

def makeMsgStamp (os : Os) (type : Stamp) (moduleName : CStr) (s : LogSt) : CStr × LogSt :=
  match type with
  | .noStamp => ([], s)
  | type =>
    match os.localtime s.asked with
    | none => ("localtime_r failed".toList, s.askTime)
    | some timeinfo =>
      (match type with
        | .timeStamp => timeinfo.strftime "[ %T ]".toList ++ moduleName
        | .msStamp => clip 64 ("[ ".toList ++ timeinfo.strftime "%d.%m.%y %T".toList ++ ".".toList ++
            dec3 timeinfo.msec ++ " ] ".toList ++ moduleName)
        | _ => timeinfo.strftime "[ %d.%m.%y %T ]".toList ++ moduleName, s.askTime)

/-- What a message shows on the terminal, and how much of it. -/
def printMsg (log : Conf) (msgLvl : UInt8) (msgStamp text : CStr) (s : LogSt) : Int × LogSt :=
  if msgLvl ≠ 0 ∧ msgLvl ≤ log.logLvl then (text.length, s.print (msgStamp ++ text)) else (0, s)

/-- `toFile` is called as `Log::to_file` with the stamp and the text. -/
def msg (os : Os) (log : Conf) (toFile : CStr → CStr → LogSt → Option (Int × LogSt)) (st : Stamp)
    (modName : CStr) (flags : UInt8) (text : CStr) (s : LogSt) : Option (Int × LogSt) :=
  let msgLvl := flags &&& 0x7F
  if modName = [] then some (0, s)
  else if flags &&& msgToFile = 0 ∧ log.logLvl < msgLvl then some (0, s)
  else
    let (msgStamp, s) := makeMsgStamp os st modName s
    let (ret, s) := printMsg log msgLvl msgStamp text s
    if flags &&& msgToFile ≠ 0 then toFile msgStamp text s else some (ret, s)

/-- `log_perr`, in `to_file`. -/
def logPerr (os : Os) (log : Conf) (toFile : CStr → CStr → LogSt → Option (Int × LogSt)) (str : CStr)
    (s : LogSt) : Option LogSt := do
  let (_, s) ← msg os log toFile .dtimeStamp log.moduleName (msgError ||| msgToFile)
    (red ++ "Perror in ".toList ++ bold ++ "loger.h to_file():212 ".toList ++ reset) s
  let (_, s) ← msg os log toFile .noStamp log.moduleName (msgError ||| msgToFile) str s
  let (_, s) ← msg os log toFile .noStamp log.moduleName (msgError ||| msgToFile)
    (": ".toList ++ os.strerror ++ "\n".toList) s
  some s

/-- `get_file_size`, and what `to_file` does when it throws. -/
def getFileSize (os : Os) (log : Conf) (s : LogSt) : UInt64 × LogSt :=
  match os.stat log.logFname s.tried with
  | some size => (size, s)
  | none => (0, s.print ("File '".toList ++ log.logFname ++ "' stat failed: ".toList ++ os.strerror ++
      "\n".toList))

/-- `to_file` once the log file was tried. -/
def writeFile (os : Os) (log : Conf) (toFile : CStr → CStr → LogSt → Option (Int × LogSt))
    (opened rotated : Bool) (stamp text : CStr) (s : LogSt) : Option (Int × LogSt) :=
  if opened then
    let head := if rotated then "----- Log file has been rotated -----\n".toList else []
    some (text.length, s.write rotated (head ++ stamp ++ text))
  else
    (logPerr os log toFile ("Couldnt open log file '".toList ++ log.logFname ++ "'".toList) s).map
      fun s => (0, s)

/-- `held` says that this thread has the mutex of the log file already, which is
recursive. -/
def toFile (os : Os) (log : Conf) : Nat → Bool → CStr → CStr → LogSt → Option (Int × LogSt)
  | 0, _, _, _, _ => none
  | fuel + 1, held, stamp, text, s =>
    let again := toFile os log fuel true
    if log.logFname = [] then some (0, s)
    else if !(held || os.lockFree) then some (0, s)
    else
      let (fileSize, s) := getFileSize os log s
      let opened := os.fopen s.tried
      if log.logMaxFsize ≠ 0 ∧ log.logMaxFsize ≤ fileSize then do
        let (_, s) ← msg os log again .dtimeStamp log.moduleName msgVerbose
          "------ Rotating log file ------\n".toList s.tryFile
        writeFile os log again opened true stamp text s
      else writeFile os log again opened false stamp text s.tryFile

/-! ## When a message comes back -/

/-- The messages caused by a try to open the log file. -/
def onOpen (os : Os) (log : Conf) (j : Nat) : Nat :=
  if os.fopen j then 0 else if log.moduleName = [] then 0 else 3

/-- The tries, as both counts of a procedure that asks nothing. -/
def tries (s : LogSt) : Nat × Nat := (s.tried, s.tried)

/-- How a way of logging to the file moves the tries, whatever the text. -/
def Tries (toFile : CStr → CStr → LogSt → Option (Int × LogSt))
    (d : Nat × Nat → Option (Nat × Nat)) : Prop :=
  ∀ stamp text s, (toFile stamp text s).map (fun r => tries r.2) = d (tries s)

section
variable (os : Os) (log : Conf) {tf : CStr → CStr → LogSt → Option (Int × LogSt)}
  {d : Nat × Nat → Option (Nat × Nat)}

theorem makeMsgStamp_tries (type : Stamp) (moduleName : CStr) (s : LogSt) :
    tries (makeMsgStamp os type moduleName s).2 = tries s := by
  unfold makeMsgStamp
  cases type with
  | noStamp => rfl
  | dtimeStamp | timeStamp | msStamp => cases os.localtime s.asked <;> rfl

theorem printMsg_tries (msgLvl : UInt8) (msgStamp text : CStr) (s : LogSt) :
    tries (printMsg log msgLvl msgStamp text s).2 = tries s := by
  unfold printMsg
  split <;> rfl

theorem getFileSize_tried (s : LogSt) : (getFileSize os log s).2.tried = s.tried := by
  unfold getFileSize
  cases os.stat log.logFname s.tried <;> rfl

/-- A message that is not for the file does not move the tries. -/
theorem msg_verbose (toFile : CStr → CStr → LogSt → Option (Int × LogSt)) (modName text : CStr)
    (s : LogSt) :
    ∃ r, msg os log toFile .dtimeStamp modName msgVerbose text s = some r ∧ tries r.2 = tries s := by
  unfold msg
  simp only
  split
  · exact ⟨(0, s), rfl, rfl⟩
  · split
    · exact ⟨(0, s), rfl, rfl⟩
    · exact ⟨_, if_neg (not_not_intro (by decide)), by rw [printMsg_tries, makeMsgStamp_tries]⟩

/-- A message for the file is one call of `to_file`. -/
theorem msg_toFile (st : Stamp) {modName : CStr} (hname : modName ≠ []) (lvl : UInt8)
    (text : CStr) (s : LogSt) :
    ∃ stamp t, tries t = tries s ∧
      ∀ tf, msg os log tf st modName (lvl ||| msgToFile) text s = tf stamp text t := by
  have hflag : (lvl ||| msgToFile) &&& msgToFile ≠ 0 := by
    rw [or_and_self]
    decide
  let p := makeMsgStamp os st modName s
  refine ⟨p.1, (printMsg log ((lvl ||| msgToFile) &&& 0x7F) p.1 text p.2).2, ?_, fun tf => ?_⟩
  · rw [printMsg_tries, makeMsgStamp_tries]
  · unfold msg
    simp only
    rw [if_neg hname, if_neg (fun hl => hflag hl.1), if_pos hflag]

theorem msg_tries (h : Tries tf d) (st : Stamp) {modName : CStr} (hname : modName ≠ []) (lvl : UInt8)
    (text : CStr) (s : LogSt) :
    (msg os log tf st modName (lvl ||| msgToFile) text s).map (fun r => tries r.2) = d (tries s) := by
  obtain ⟨stamp, t, ht, hmsg⟩ := msg_toFile os log st hname lvl text s
  rw [hmsg, h, ht]

theorem logPerr_tries (h : Tries tf d) (str : CStr) (s : LogSt) :
    (logPerr os log tf str s).map tries =
      times d (if log.moduleName = [] then 0 else 3) (tries s) := by
  unfold logPerr
  split
  · next hname =>
    rw [hname]
    rfl
  · next hname =>
    have hmsg (st : Stamp) (text : CStr) (s : LogSt) := msg_tries os log h st hname msgError text s
    show _ = (d (tries s)).bind fun s => (d s).bind fun s => (d s).bind some
    rw [← hmsg]
    refine map_bind_congr fun r => ?_
    rw [← hmsg]
    refine map_bind_congr fun r => ?_
    rw [← hmsg]
    exact map_bind_congr fun r => rfl

theorem writeFile_tries (h : Tries tf d) (opened rotated : Bool) (stamp text : CStr) (s : LogSt) :
    (writeFile os log tf opened rotated stamp text s).map (fun r => tries r.2) =
      times d (if opened then 0 else if log.moduleName = [] then 0 else 3) (tries s) := by
  unfold writeFile
  cases opened with
  | true => rfl
  | false =>
    rw [if_neg Bool.false_ne_true, if_neg Bool.false_ne_true, Option.map_map]
    exact logPerr_tries os log h _ s

end

theorem toFile_tries (os : Os) (log : Conf) (hfname : log.logFname ≠ []) (fuel : Nat) :
    ∀ held : Bool, held || os.lockFree →
      Tries (toFile os log fuel held) (calls (fun _ => 0) (onOpen os log) fuel) := by
  induction fuel with
  | zero => exact fun _ _ _ _ _ => rfl
  | succ fuel ih =>
    intro held hlock stamp text s
    have htried := getFileSize_tried os log s
    have hagain := ih true rfl
    rw [toFile, if_neg hfname, if_neg (by rw [hlock]; decide)]
    simp only
    rw [htried]
    have hnext (t : LogSt) (ht : tries t = (s.tried + 1, s.tried + 1)) (rotated : Bool) :
        (writeFile os log (toFile os log fuel true) (os.fopen s.tried) rotated stamp text t).map
            (fun r => tries r.2) =
          calls (fun _ => 0) (onOpen os log) (fuel + 1) (tries s) := by
      rw [writeFile_tries os log hagain, ht]
      rfl
    have htry : tries (getFileSize os log s).2.tryFile = (s.tried + 1, s.tried + 1) := by
      rw [← htried]
      rfl
    split
    · obtain ⟨⟨ret, t⟩, ht, htries⟩ := msg_verbose os log (toFile os log fuel true) log.moduleName
        "------ Rotating log file ------\n".toList (getFileSize os log s).2.tryFile
      rw [ht, Option.bind_eq_bind, Option.bind_some]
      exact hnext t (htries.trans htry) true
    · exact hnext _ htry false

theorem caused_eq_failures {os : Os} {log : Conf} (hname : log.moduleName ≠ []) (j n : Nat) :
    caused (fun _ => 0) (onOpen os log) j j n = 3 * failures os.fopen j n := by
  simp only [caused, onOpen, failures, mul_sum, hname, if_false, sum_const_zero, Nat.zero_add, mul_ite,
    Nat.mul_zero, Nat.mul_one]

/-- Fewer than a third of the next `n` tries to open the log file fail. -/
def Recovers (os : Os) (s : LogSt) : Prop := ∃ n, 3 * failures os.fopen s.tried n < n

theorem toFile_returns_iff (os : Os) (log : Conf) (held : Bool) (stamp text : CStr) (s : LogSt) :
    (∃ fuel, (toFile os log fuel held stamp text s).isSome) ↔
      log.logFname = [] ∨ ¬ (held || os.lockFree) ∨ log.moduleName = [] ∨ Recovers os s := by
  by_cases hfname : log.logFname = []
  · exact ⟨fun _ => .inl hfname, fun _ => ⟨1, by rw [toFile, if_pos hfname]; rfl⟩⟩
  by_cases hlock : (held || os.lockFree) = true
  · have hcalls : (∃ fuel, (toFile os log fuel held stamp text s).isSome) ↔
        ∃ n, caused (fun _ => 0) (onOpen os log) s.tried s.tried n < n := by
      rw [← calls_returns_iff]
      refine exists_congr fun fuel => ?_
      show _ ↔ (calls (fun _ => 0) (onOpen os log) fuel (tries s)).isSome = true
      rw [← toFile_tries os log hfname fuel held hlock stamp text s, Option.isSome_map]
    rw [hcalls]
    by_cases hname : log.moduleName = []
    · have hnone : caused (fun _ => 0) (onOpen os log) s.tried s.tried 1 < 1 := by
        simp [caused, onOpen, hname]
      exact ⟨fun _ => .inr (.inr (.inl hname)), fun _ => ⟨1, hnone⟩⟩
    · simp only [caused_eq_failures hname]
      simp only [hfname, hlock, hname, not_true, false_or, Recovers]
  · refine ⟨fun _ => .inr (.inl hlock), fun _ => ⟨1, ?_⟩⟩
    rw [toFile, if_neg hfname, if_pos (by simpa using hlock)]
    rfl

theorem msg_returns_iff (os : Os) (log : Conf) (held : Bool) (st : Stamp) (modName : CStr)
    (lvl : UInt8) (text : CStr) (s : LogSt) :
    (∃ fuel, (msg os log (toFile os log fuel held) st modName (lvl ||| msgToFile) text s).isSome) ↔
      modName = [] ∨ log.logFname = [] ∨ ¬ (held || os.lockFree) ∨ log.moduleName = [] ∨
        Recovers os s := by
  by_cases hname : modName = []
  · exact ⟨fun _ => .inl hname, fun _ => ⟨0, by rw [msg, if_pos hname]; rfl⟩⟩
  · obtain ⟨stamp, t, ht, hmsg⟩ := msg_toFile os log st hname lvl text s
    have htried : t.tried = s.tried := (Prod.mk.inj ht).1
    simp only [hmsg, toFile_returns_iff, Recovers, htried, hname, false_or]

end Log

/-! ## Both loggers -/

/-- **When a message for the file comes back.**  In the first version: when at
some point the failures of `localtime` and of the tries to open the log file are
fewer than those tries.  In the second: when a module or the log file has no
name, the mutex is not had in time, or at some point less than a third of the
tries have failed. -/
theorem logging_returns_iff (os : Os) (s : LogSt) :
    (∀ cfg site lvl str,
      (∃ fuel, (errmsgV cfg (logPrintf os cfg fuel) site (lvl ||| msgToFile) str s).isSome) ↔
        LogRecovers os s) ∧
    (∀ cfg site lvl str,
      (∃ fuel, (dbgmsgV cfg (logPrintf os cfg fuel) site (lvl ||| msgToFile) str s).isSome) ↔
        LogRecovers os s) ∧
    ∀ log held st modName lvl text,
      (∃ fuel, (Log.msg os log (Log.toFile os log fuel held) st modName (lvl ||| msgToFile) text
          s).isSome) ↔
        modName = [] ∨ log.logFname = [] ∨ ¬ (held || os.lockFree) ∨ log.moduleName = [] ∨
          Log.Recovers os s := by
  refine ⟨fun cfg site lvl str => ?_, fun cfg site lvl str => ?_, ?_⟩
  · exact showMsg_returns_iff os cfg lvl (errText site str) s
  · exact showMsg_returns_iff os cfg lvl (dbgText site str) s
  · exact fun log held st modName lvl text => Log.msg_returns_iff os log held st modName lvl text s

/-- A log file that can be neither read nor opened. -/
def noFile : Os where
  localtime _ := some ⟨fun _ => "01.01.2020 08:00:00".toList, 0⟩
  stat _ _ := none
  fopen _ := false
  strerror := "Permission denied".toList
  lockFree := true

def gbwebLog : LogCfg := ⟨"gbweb.log".toList, 2097152, 2⟩

def mainLog : Log.Conf := ⟨Log.msgVerbose, "Log.log".toList, 1000, "MAIN".toList⟩

/-- With such a file no message comes back, in either version. -/
theorem logging_never_returns :
    (∀ fuel, errmsgV gbwebLog (logPrintf noFile gbwebLog fuel) (utilsSite "log_printf".toList 702)
      (msgDebug ||| msgToFile) "Starting\n".toList ⟨0, 0, [], []⟩ = none) ∧
    ∀ fuel, Log.msg noFile mainLog (Log.toFile noFile mainLog fuel false) .dtimeStamp "MAIN".toList
      (Log.msgError ||| msgToFile) "Starting\n".toList ⟨0, 0, [], []⟩ = none := by
  have hall (i n : Nat) : failures noFile.fopen i n = n := by
    simp [failures, noFile]
  constructor
  · intro fuel
    refine Option.eq_none_iff_forall_ne_some.mpr fun t ht => ?_
    obtain ⟨n, hn⟩ := (showMsg_returns_iff noFile _ msgDebug _ _).mp
      ⟨fuel, Option.isSome_iff_exists.mpr ⟨t, ht⟩⟩
    rw [hall] at hn
    omega
  · intro fuel
    refine Option.eq_none_iff_forall_ne_some.mpr fun t ht => ?_
    have hreturns := (Log.msg_returns_iff noFile _ false _ _ Log.msgError _ _).mp
      ⟨fuel, Option.isSome_iff_exists.mpr ⟨t, ht⟩⟩
    simp only [Log.Recovers, hall] at hreturns
    obtain h | h | h | h | ⟨n, hn⟩ := hreturns
    · exact absurd h (by decide)
    · exact absurd h (by decide)
    · exact absurd h (by decide)
    · exact absurd h (by decide)
    · omega

end Growbox
