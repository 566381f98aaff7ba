import Growbox.Lib.Printf
import Growbox.Dbgmsg
import Growbox.Config

/-!
# What the first version writes to its log file

A message for the file is formatted three times: by the macro into the shared
buffer, by `log_printf`, which takes that text for a format, and by the last
`fprintf`, which takes what came out for a format again.  A client's text in it
comes out unchanged exactly when it has no percent sign (`logged_verbatim_iff`).

The file starts anew when it has reached the size given to `log_init`.  That is
2 MB whatever the configuration says, so the configured limit is kept exactly
when it is 2 MB (`log_limit_iff`).
-/

namespace Growbox

open Decimal Printf

/-! ## Formats of formats -/

/-- What `log_printf(format)` writes behind what the file holds: the time and the
text, the text cut to its buffer and both formatted once more. -/
def logPrintfRecord (timeStr format : CStr) : Option CStr :=
  (vprintf format []).bind fun str => vprintf (timeStr ++ clip 1024 str) []

/-- The macros that end in `log_printf(__dbgmsgstr)`. -/
inductive LogMacro where
  | dbgmsgV | errmsgV
  deriving DecidableEq, Repr

/-- What the macro has in its buffer once its arguments are in. -/
def LogMacro.buffer (m : LogMacro) (site : Site) (str : CStr) : CStr :=
  match m with
  | .dbgmsgV => dbgText site str
  | .errmsgV => errText site str

/-- The place `errmsg_v` ends a message with. -/
def Site.place (site : Site) : CStr :=
  red ++ " [".toList ++ site.func ++ "() ".toList ++ site.file ++ ":".toList ++ dec site.line ++
    "]\n".toList ++ reset

/-- A call with a text from outside for one of its `%s`.  `before` are the
literal texts and arguments that come earlier in the format, `after` the
arguments and literal texts that come later; these and the place have no
percent sign and leave room for 200 bytes. -/
structure LogCall where
  site : Site
  before : List (CStr × CStr)
  pre : CStr
  post : CStr
  after : List (CStr × CStr)
  timeStr : CStr
  plain : '%' ∉ site.moduleName ++ (before.flatMap (fun p => p.1 ++ p.2) ++ pre) ++
    (post ++ after.flatMap fun p => p.1 ++ p.2) ++ site.func ++ site.file ++ timeStr
  room : (site.moduleName ++ (before.flatMap (fun p => p.1 ++ p.2) ++ pre) ++
    (post ++ after.flatMap fun p => p.1 ++ p.2) ++ site.place).length ≤ 823

/-- The format of the call. -/
def LogCall.format (c : LogCall) : CStr :=
  c.before.flatMap (fun p => p.1 ++ "%s".toList) ++ (c.pre ++ ("%s".toList ++ (c.post ++
    c.after.flatMap fun p => "%s".toList ++ p.2)))

def LogCall.args (c : LogCall) (x : CStr) : List CStr :=
  c.before.map Prod.snd ++ x :: c.after.map Prod.fst

/-- What comes out before the text from outside. -/
def LogCall.textBefore (c : LogCall) : CStr := c.before.flatMap (fun p => p.1 ++ p.2) ++ c.pre

/-- What comes out behind it. -/
def LogCall.textAfter (c : LogCall) : CStr := c.post ++ c.after.flatMap fun p => p.1 ++ p.2

/-- A text from outside, such as a part of malformed JSON. -/
structure LogText where
  text : CStr
  short : text.length ≤ 200
  noNul : Char.ofNat 0 ∉ text
  noNewline : '\n' ∉ text

/-- The record a call with this text appends, `none` when a directive asked for
something that was not passed. -/
def loggedRecord (m : LogMacro) (c : LogCall) (x : CStr) : Option CStr :=
  (vprintf c.format (c.args x)).bind fun str =>
    logPrintfRecord c.timeStr (m.buffer c.site str)

theorem clip_of_lt {size : Nat} {text : CStr} (h : text.length < size) : clip size text = text :=
  List.take_of_length_le (Nat.le_sub_one_of_lt h)

theorem count_clip_le (size : Nat) (text : CStr) (c : Char) : (clip size text).count c ≤ text.count c :=
  (List.take_sublist _ _).count_le c

/-- A text inside others that have no percent sign is written unchanged exactly
when it has none either: every one that is there is lost on the way. -/
theorem logPrintfRecord_infix_iff {timeStr a x b : CStr} (ht : '%' ∉ timeStr) (ha : '%' ∉ a)
    (hb : '%' ∉ b) (hlen : (a ++ x ++ b).length < 1024) :
    (∃ rec, logPrintfRecord timeStr (a ++ x ++ b) = some rec ∧ x <:+: rec) ↔ '%' ∉ x := by
  constructor
  · rintro ⟨rec, hrec, hx⟩ hmem
    obtain ⟨str, hstr, hrec⟩ := Option.bind_eq_some_iff.mp hrec
    have h1 : str.count '%' < (a ++ x ++ b).count '%' :=
      count_vprintf_lt hstr (List.mem_append_left _ (List.mem_append_right _ hmem))
    have h2 : (a ++ x ++ b).count '%' = x.count '%' := by
      rw [List.count_append, List.count_append, List.count_eq_zero.mpr ha, List.count_eq_zero.mpr hb,
        Nat.zero_add, Nat.add_zero]
    have h3 : rec.count '%' ≤ str.count '%' :=
      calc rec.count '%' ≤ (timeStr ++ clip 1024 str).count '%' := count_vprintf_le hrec
        _ = (clip 1024 str).count '%' := by
          rw [List.count_append, List.count_eq_zero.mpr ht, Nat.zero_add]
        _ ≤ str.count '%' := count_clip_le _ _ _
    have h4 : x.count '%' ≤ rec.count '%' := hx.sublist.count_le '%'
    omega
  · intro hx
    have hp : '%' ∉ a ++ x ++ b := by simp [ha, hx, hb]
    have hpt : '%' ∉ timeStr ++ (a ++ x ++ b) := by simp [ht, ha, hx, hb]
    refine ⟨timeStr ++ (a ++ x ++ b), ?_, timeStr ++ a, b, by simp⟩
    rw [logPrintfRecord, vprintf_plain hp, Option.bind_some, clip_of_lt hlen, vprintf_plain hpt]

theorem errText_eq (site : Site) (str : CStr) :
    errText site str = clip 1024 ((if (dbgText site str).getLast? = some '\n'
      then (dbgText site str).dropLast else dbgText site str) ++ site.place) := by
  simp only [errText, Site.place, List.append_assoc]

theorem dec_plain (n : Nat) : '%' ∉ dec n := fun h =>
  absurd (isDigit_of_mem_dec n '%' h) (by decide)

theorem place_plain {site : Site} (hfunc : '%' ∉ site.func) (hfile : '%' ∉ site.file) :
    '%' ∉ site.place := by
  have hred : '%' ∉ red ++ " [".toList := by decide
  have hcall : '%' ∉ "() ".toList := by decide
  have hcolon : '%' ∉ ":".toList := by decide
  have hend : '%' ∉ "]\n".toList := by decide
  have hreset : '%' ∉ reset := by decide
  unfold Site.place
  simp only [List.mem_append, not_or] at hred ⊢
  exact ⟨⟨⟨⟨⟨⟨⟨hred, hfunc⟩, hcall⟩, hfile⟩, hcolon⟩, dec_plain _⟩, hend⟩, hreset⟩

/-- Without its newline a message still ends in the text from outside, or in
what the call has behind it. -/
theorem dropNewline_eq (a b : CStr) (x : LogText) (ha : '%' ∉ a) (hb : '%' ∉ b) :
    ∃ a' b', (if (a ++ x.text ++ b).getLast? = some '\n' then (a ++ x.text ++ b).dropLast
        else a ++ x.text ++ b) = a' ++ x.text ++ b' ∧ '%' ∉ a' ∧ '%' ∉ b' ∧
      (a' ++ x.text ++ b').length ≤ (a ++ x.text ++ b).length := by
  by_cases hnl : (a ++ x.text ++ b).getLast? = some '\n'
  · rw [if_pos hnl]
    by_cases hbn : b = []
    · -- the newline would be one of the text's, unless that is empty
      subst hbn
      by_cases hxn : x.text = []
      · refine ⟨a.dropLast, [], ?_, fun h => ha (List.dropLast_subset _ h), hb, ?_⟩
        · simp only [hxn, List.append_nil]
        · simp only [hxn, List.append_nil, List.length_dropLast]
          exact Nat.sub_le _ _
      · rw [List.append_nil, List.getLast?_append_of_ne_nil _ hxn] at hnl
        exact absurd (List.mem_of_getLast? hnl) x.noNewline
    · refine ⟨a, b.dropLast, ?_, ha, fun h => hb (List.dropLast_subset _ h), ?_⟩
      · exact List.dropLast_append_of_ne_nil hbn
      · simp only [List.length_append, List.length_dropLast]
        omega
  · rw [if_neg hnl]
    exact ⟨a, b, rfl, ha, hb, Nat.le_refl _⟩

theorem vprintf_before {before : List (CStr × CStr)} (h : '%' ∉ before.flatMap fun p => p.1 ++ p.2)
    (fmt : CStr) (args : List CStr) :
    vprintf (before.flatMap (fun p => p.1 ++ "%s".toList) ++ fmt) (before.map Prod.snd ++ args) =
      (vprintf fmt args).map (before.flatMap (fun p => p.1 ++ p.2) ++ ·) := by
  induction before with
  | nil => exact (congrFun Option.map_id _).symm
  | cons p before ih =>
    simp only [List.flatMap_cons, List.mem_append, not_or] at h
    obtain ⟨⟨h1, -⟩, hrest⟩ := h
    simp only [List.flatMap_cons, List.map_cons, List.append_assoc, List.cons_append]
    rw [vprintf_append h1, vprintf_arg, ih hrest, Option.map_map, Option.map_map]
    rfl

theorem vprintf_after {after : List (CStr × CStr)} (h : '%' ∉ after.flatMap fun p => p.1 ++ p.2) :
    vprintf (after.flatMap fun p => "%s".toList ++ p.2) (after.map Prod.fst) =
      some (after.flatMap fun p => p.1 ++ p.2) := by
  induction after with
  | nil => rfl
  | cons p after ih =>
    simp only [List.flatMap_cons, List.mem_append, not_or] at h
    obtain ⟨⟨-, h2⟩, hrest⟩ := h
    simp only [List.flatMap_cons, List.map_cons, List.append_assoc]
    rw [vprintf_arg, vprintf_append h2, ih hrest, Option.map_some, Option.map_some]

/-- The macro's own formatting puts every argument in as it is. -/
theorem vprintf_format (c : LogCall) (x : CStr) :
    vprintf c.format (c.args x) = some (c.textBefore ++ x ++ c.textAfter) := by
  have hc := c.plain
  simp only [List.mem_append, not_or] at hc
  obtain ⟨⟨⟨⟨⟨-, hbefore, hpre⟩, hpost, hafter⟩, -⟩, -⟩, -⟩ := hc
  rw [LogCall.format, LogCall.args, vprintf_before hbefore, vprintf_append hpre, vprintf_arg,
    vprintf_append hpost, vprintf_after hafter]
  simp only [Option.map_some, LogCall.textBefore, LogCall.textAfter, List.append_assoc]

/-- The message with its module in front, and room for the place behind it. -/
theorem dbgText_eq (c : LogCall) (x : LogText) :
    dbgText c.site (c.textBefore ++ x.text ++ c.textAfter) =
        c.site.moduleName ++ c.textBefore ++ x.text ++ c.textAfter ∧
      (c.site.moduleName ++ c.textBefore ++ x.text ++ c.textAfter).length + c.site.place.length <
        1024 := by
  have hroom : (c.site.moduleName ++ c.textBefore ++ c.textAfter ++ c.site.place).length ≤ 823 :=
    c.room
  have hshort := x.short
  have hlen : (c.site.moduleName ++ c.textBefore ++ x.text ++ c.textAfter).length +
      c.site.place.length < 1024 := by
    simp only [List.length_append] at hroom ⊢
    omega
  refine ⟨?_, hlen⟩
  have hassoc : c.site.moduleName ++ (c.textBefore ++ x.text ++ c.textAfter) =
      c.site.moduleName ++ c.textBefore ++ x.text ++ c.textAfter := by
    simp only [List.append_assoc]
  rw [dbgText, hassoc]
  exact clip_of_lt (Nat.lt_of_le_of_lt (Nat.le_add_right _ _) hlen)

/-- **What either macro has in its buffer**: the text from outside, unchanged,
between texts of the call's own. -/
theorem buffer_eq (m : LogMacro) (c : LogCall) (x : LogText) :
    ∃ a b, m.buffer c.site (c.textBefore ++ x.text ++ c.textAfter) = a ++ x.text ++ b ∧
      '%' ∉ a ∧ '%' ∉ b ∧ (a ++ x.text ++ b).length < 1024 := by
  have hc := c.plain
  change '%' ∉ c.site.moduleName ++ c.textBefore ++ c.textAfter ++ c.site.func ++ c.site.file ++ _ at hc
  simp only [List.mem_append, not_or] at hc
  obtain ⟨⟨⟨⟨⟨hmod, hpre⟩, hpost⟩, hfunc⟩, hfile⟩, -⟩ := hc
  have ha : '%' ∉ c.site.moduleName ++ c.textBefore := by simp [hmod, hpre]
  obtain ⟨hdbg, hlen⟩ := dbgText_eq c x
  cases m with
  | dbgmsgV =>
    exact ⟨_, _, hdbg, ha, hpost, Nat.lt_of_le_of_lt (Nat.le_add_right _ _) hlen⟩
  | errmsgV =>
    obtain ⟨a, b, hdrop, ha', hb', hle⟩ := dropNewline_eq _ _ x ha hpost
    have hlen' : (a ++ x.text ++ (b ++ c.site.place)).length < 1024 := by
      rw [← List.append_assoc, List.length_append]
      omega
    refine ⟨a, b ++ c.site.place, ?_, ha', ?_, hlen'⟩
    · have herr : errText c.site (c.textBefore ++ x.text ++ c.textAfter) =
          clip 1024 (a ++ x.text ++ b ++ c.site.place) := by
        rw [errText_eq, hdbg, hdrop]
      show errText c.site (c.textBefore ++ x.text ++ c.textAfter) = _
      rw [herr, List.append_assoc, clip_of_lt hlen']
    · simp [hb', place_plain hfunc hfile]

/-- **Messages are logged verbatim** exactly when the text from outside has no
percent sign. -/
theorem logged_verbatim_iff (m : LogMacro) (c : LogCall) (x : LogText) :
    (∃ rec, loggedRecord m c x.text = some rec ∧ x.text <:+: rec) ↔ '%' ∉ x.text := by
  have hc := c.plain
  simp only [List.mem_append, not_or] at hc
  obtain ⟨a, b, hbuf, ha, hb, hlen⟩ := buffer_eq m c x
  rw [loggedRecord, vprintf_format, Option.bind_some, hbuf]
  exact logPrintfRecord_infix_iff hc.2 ha hb hlen

/-- The parser's message in `json_to_flc_smooth_value`. -/
def smoothValueCall : LogCall where
  site := ⟨"[ JSONT ] ".toList, "json_to_flc_smooth_value".toList, "./src/jsont.c".toList, 548⟩
  before := []
  pre := "cJSON parser error: ".toList
  post := "\n".toList
  after := []
  timeStr := "[ 01.01.2024 12:00:00.000 ] ".toList
  plain := by decide
  room := by decide

/-- A request whose whole body is `%d`. -/
def percentText : LogText := ⟨"%d".toList, by decide, by decide, by decide⟩

theorem percentText_not_verbatim :
    ¬ ∃ rec, loggedRecord .errmsgV smoothValueCall percentText.text = some rec ∧
      percentText.text <:+: rec := by
  rintro ⟨rec, hrec, -⟩
  have hnone : loggedRecord .errmsgV smoothValueCall percentText.text = none := by decide
  rw [hnone] at hrec
  cases hrec

/-! ## The size of the file -/

/-- `MAX_LOG_FILE_SIZE` -/
def maxLogFileSize : UInt64 := 2 * 1048576

/-- The logger's variables before `main`. -/
def LogCfg.start : LogCfg := ⟨[], maxLogFileSize, 2⟩

def logInit (fname : CStr) (maxFsize : UInt64) (cfg : LogCfg) : LogCfg :=
  { cfg with
    logFname := fname
    logMaxFsize := if maxFsize ≠ 0 then maxFsize else maxLogFileSize }

/-- What `app_init` makes of the logger and of `app_data.conf`. -/
def appInitLog (cwd : CStr) (read : ConfRead cwd) : LogCfg × FullConfig :=
  let log := logInit (cwd ++ "/gbweb.log".toList) 0 LogCfg.start
  let conf := read.conf
  ({ log with currLogLevel := conf.logLevel.toUInt32.toUInt8 }, conf)

/-- A call of `log_printf`: `time_str`, and the record it ends with. -/
structure LogMsg where
  timeStr : CStr
  record : CStr
  fits : timeStr.length < 30

/-- The file after the call, all file operations succeeding. -/
def logAppend (cfg : LogCfg) (m : LogMsg) (file : CStr) : CStr :=
  if cfg.logMaxFsize.toNat ≤ file.length then
    m.timeStr ++ "[ CLEAN ] Log has been rotated\n".toList ++ m.record
  else file ++ m.record

/-- The file after the calls, one at a time. -/
def logFile (cfg : LogCfg) (file : CStr) (ms : List LogMsg) : CStr :=
  ms.foldl (fun file m => logAppend cfg m file) file

/-- Once below the limit the file exceeds it by one record at most, and what was
logged is dropped only from a file that has reached the limit. -/
structure ObeysLimit (limit : Nat) (cfg : LogCfg) (file : CStr) (ms : List LogMsg) : Prop where
  bounded : ∀ p q m, p ++ q ++ [m] <+: ms → (logFile cfg file p).length < limit →
    (logFile cfg file (p ++ q ++ [m])).length ≤ limit + m.record.length
  truncated : ∀ p m, p ++ [m] <+: ms → ¬ logFile cfg file p <+: logFile cfg file (p ++ [m]) →
    limit ≤ (logFile cfg file p).length

theorem logFile_snoc (cfg : LogCfg) (file : CStr) (p : List LogMsg) (m : LogMsg) :
    logFile cfg file (p ++ [m]) = logAppend cfg m (logFile cfg file p) := by
  rw [logFile, List.foldl_append]
  rfl

/-- A text without percent signs is logged as it is. -/
theorem logPrintfRecord_plain {timeStr format : CStr} (ht : '%' ∉ timeStr) (hf : '%' ∉ format) :
    logPrintfRecord timeStr format = some (timeStr ++ clip 1024 format) := by
  have hclip : '%' ∉ clip 1024 format := fun h => hf (List.mem_of_mem_take h)
  have hall : '%' ∉ timeStr ++ clip 1024 format := by simp [ht, hclip]
  rw [logPrintfRecord, vprintf_plain hf, Option.bind_some, vprintf_plain hall]

/-- A message for the console leaves the file alone. -/
theorem dbgmsgV_console (cfg : LogCfg) (lp : CStr → LogSt → Option LogSt) (site : Site) (text : CStr)
    (s : LogSt) :
    ∃ s', dbgmsgV cfg lp site msgDebug text s = some s' ∧ s'.tried = s.tried ∧ s'.file = s.file := by
  unfold dbgmsgV showMsg
  refine ⟨_, if_neg (not_not_intro (by decide)), ?_⟩
  split <;> exact ⟨rfl, rfl⟩

section
variable {os : Os} {cfg : LogCfg} {s : LogSt} {size : UInt64} {m : LogMsg} {str : CStr}
  (hstat : os.stat cfg.logFname s.tried = some size) (hsize : size.toNat = s.file.length)
  (hopen : os.fopen s.tried = true) (hrec : m.record = m.timeStr ++ str)
include hstat hsize hopen hrec

theorem checkSize_file (lp : CStr → LogSt → Option LogSt) :
    (checkSize os cfg lp m.timeStr str s).map LogSt.file = some (logAppend cfg m s.file) := by
  have hsz : posixFilesize os cfg lp cfg.logFname s = some (size, s) := by rw [posixFilesize, hstat]
  rw [checkSize, hsz, Option.bind_eq_bind, Option.bind_some]
  simp only [UInt64.le_iff_toNat_le, hsize]
  by_cases hle : cfg.logMaxFsize.toNat ≤ s.file.length
  · obtain ⟨s', hs', htried, -⟩ := dbgmsgV_console cfg lp (utilsSite "log_printf".toList 689)
      "[ CLEAN ] Rotating log..\n".toList s
    rw [if_pos hle, hs', Option.bind_eq_bind, Option.bind_some, openLog, htried, if_pos hopen,
      logAppend, if_pos hle, hrec]
    simp only [if_true, Option.map_some, LogSt.write, List.append_assoc]
  · rw [if_neg hle, openLog, if_pos hopen, logAppend, if_neg hle, hrec]
    rfl

end

/-- `log_printf` with every operation succeeding is `logAppend` of its record. -/
theorem logPrintf_file (os : Os) (cfg : LogCfg) (fuel : Nat) (format : CStr) (s : LogSt)
    {stm : Moment} {size : UInt64} (htime : os.localtime s.asked = some stm)
    (hstat : os.stat cfg.logFname s.tried = some size) (hsize : size.toNat = s.file.length)
    (hopen : os.fopen s.tried = true) (m : LogMsg)
    (hm : m.timeStr = "[ ".toList ++ (stm.strftime "%d.%m.%Y %T".toList ++ ".".toList ++ dec3 stm.msec)
      ++ " ] ".toList)
    (hrec : m.record = m.timeStr ++ clip 1024 format) :
    (logPrintf os cfg (fuel + 1) format s).map LogSt.file = some (logAppend cfg m s.file) := by
  have htm : getFormattedTime os cfg (logPrintf os cfg fuel) s =
      some (stm.strftime "%d.%m.%Y %T".toList ++ ".".toList ++ dec3 stm.msec, s.askTime) := by
    rw [getFormattedTime, htime]
  rw [logPrintf, htm, Option.bind_eq_bind, Option.bind_some]
  simp only [← hm]
  exact checkSize_file (s := s.askTime) hstat hsize hopen hrec _

theorem appInitLog_maxFsize (cwd : CStr) (read : ConfRead cwd) :
    (appInitLog cwd read).1.logMaxFsize.toNat = 2 * 2 ^ 20 := rfl

/-- **One message**: the file exceeds its size by the record at most. -/
theorem length_logAppend_le {cfg : LogCfg} (h : 60 ≤ cfg.logMaxFsize.toNat) (m : LogMsg) (file : CStr) :
    (logAppend cfg m file).length ≤ cfg.logMaxFsize.toNat + m.record.length := by
  have hfits := m.fits
  have hclean : "[ CLEAN ] Log has been rotated\n".toList.length = 31 := by decide
  unfold logAppend
  split
  · rw [List.length_append, List.length_append, hclean]
    omega
  · next hlt =>
    rw [List.length_append]
    omega

theorem prefix_logAppend {cfg : LogCfg} {m : LogMsg} {file : CStr}
    (h : file.length < cfg.logMaxFsize.toNat) : file <+: logAppend cfg m file := by
  rw [logAppend, if_neg (Nat.not_le.mpr h)]
  exact List.prefix_append _ _

/-- The size given to `log_init` is obeyed. -/
theorem obeysLimit_maxFsize {cfg : LogCfg} (h : 60 ≤ cfg.logMaxFsize.toNat) (file : CStr)
    (ms : List LogMsg) : ObeysLimit cfg.logMaxFsize.toNat cfg file ms := by
  constructor
  · intro p q m _ _
    rw [logFile_snoc]
    exact length_logAppend_le h m _
  · intro p m _ hp
    rw [logFile_snoc] at hp
    exact Nat.not_lt.mp fun hlt => hp (prefix_logAppend hlt)

def stampedHello : LogMsg :=
  ⟨"[ 01.01.2024 12:00:00.000 ] ".toList, "[ 01.01.2024 12:00:00.000 ] [ APP ] hello\n".toList, by decide⟩

/-- A file just below a smaller limit grows past it. -/
theorem smaller_not_obeyed {cfg : LogCfg} {limit : Nat} (h0 : 0 < limit)
    (h : limit + 42 < cfg.logMaxFsize.toNat) :
    ¬ ObeysLimit limit cfg (List.replicate (limit - 1) 'x') [stampedHello, stampedHello] := by
  intro hobey
  have hrec : stampedHello.record.length = 42 := by decide
  have h1 : logAppend cfg stampedHello (List.replicate (limit - 1) 'x') =
      List.replicate (limit - 1) 'x' ++ stampedHello.record := by
    rw [logAppend, if_neg]
    rw [List.length_replicate]
    omega
  have h2 : logAppend cfg stampedHello (List.replicate (limit - 1) 'x' ++ stampedHello.record) =
      List.replicate (limit - 1) 'x' ++ stampedHello.record ++ stampedHello.record := by
    rw [logAppend, if_neg]
    rw [List.length_append, List.length_replicate, hrec]
    omega
  have hb := hobey.bounded [] [stampedHello] stampedHello List.prefix_rfl
    (by rw [logFile, List.foldl_nil, List.length_replicate]; omega)
  have hfile : logFile cfg (List.replicate (limit - 1) 'x') ([] ++ [stampedHello] ++ [stampedHello]) =
      List.replicate (limit - 1) 'x' ++ stampedHello.record ++ stampedHello.record := by
    rw [logFile_snoc, List.nil_append, logFile, List.foldl_cons, List.foldl_nil, h1, h2]
  rw [hfile, List.length_append, List.length_append, List.length_replicate, hrec] at hb
  omega

/-- A file short of a larger limit is dropped. -/
theorem larger_not_obeyed {cfg : LogCfg} {limit : Nat} (h : cfg.logMaxFsize.toNat < limit)
    (h1 : 101 < cfg.logMaxFsize.toNat) :
    ¬ ObeysLimit limit cfg (List.replicate cfg.logMaxFsize.toNat 'x') [stampedHello] := by
  intro hobey
  have hlen : (logAppend cfg stampedHello (List.replicate cfg.logMaxFsize.toNat 'x')).length = 101 := by
    rw [logAppend, if_pos (by rw [List.length_replicate])]
    decide
  have ht := hobey.truncated [] stampedHello List.prefix_rfl fun hp => by
    have hle := hp.length_le
    rw [logFile_snoc] at hle
    simp only [logFile, List.foldl_nil, hlen, List.length_replicate] at hle
    omega
  simp only [logFile, List.foldl_nil, List.length_replicate] at ht
  omega

/-- The field of the configuration that nothing reads. -/
theorem appInitLog_logMaxSize {cwd : CStr} {cfg : Cfg}
    (fits : (readSettings cfg (initConfigData cwd)).Fits) {M : Int32}
    (hM : lookupInt cfg "log_max_size" = some M) (h1 : 1 ≤ M.toInt) :
    (appInitLog cwd (.ok cfg fits)).2.logMaxSize.toNat = M.toInt.toNat * 2 ^ 20 := by
  have hlt : M.toInt < 2 ^ 31 := M.toInt_lt
  have hM' : confInt cfg "log_max_size" dflLogMaxSize = M := by rw [confInt, hM, Option.getD_some]
  show ((confInt cfg "log_max_size" dflLogMaxSize).toInt64.toUInt64 * 1024 * 1024).toNat = _
  rw [hM', UInt64.toNat_mul, UInt64.toNat_mul, toNat_signExtended_of_nonneg (by omega)]
  simp only [UInt64.reduceToNat]
  omega

/-- **The configured limit is kept** in every run exactly when it is 2 MB: the
configuration has it, the logger has a size of its own. -/
theorem log_limit_iff (cwd : CStr) (cfg : Cfg) (fits : (readSettings cfg (initConfigData cwd)).Fits)
    (M : Int32) (hM : lookupInt cfg "log_max_size" = some M) (h1 : 1 ≤ M.toInt) :
    (appInitLog cwd (.ok cfg fits)).2.logMaxSize.toNat = M.toInt.toNat * 2 ^ 20 ∧
      ((∀ file ms, ObeysLimit (M.toInt.toNat * 2 ^ 20) (appInitLog cwd (.ok cfg fits)).1 file ms) ↔
        M = 2) := by
  refine ⟨appInitLog_logMaxSize fits hM h1, ?_⟩
  have hmax := appInitLog_maxFsize cwd (.ok cfg fits)
  constructor
  · intro h
    rcases Int.lt_trichotomy M.toInt 2 with hlt | heq | hgt
    · have hM1 : M.toInt.toNat = 1 := by omega
      rw [hM1] at h
      exact absurd (h _ _) (smaller_not_obeyed (by decide) (by rw [hmax]; decide))
    · exact Int32.toInt_inj.mp heq
    · have hlarge : 2 * 2 ^ 20 < M.toInt.toNat * 2 ^ 20 := by omega
      exact absurd (h _ _) (larger_not_obeyed (by rw [hmax]; exact hlarge) (by rw [hmax]; decide))
  · rintro rfl
    have h2 : (2 : Int32).toInt.toNat * 2 ^ 20 = 2 * 2 ^ 20 := by decide
    intro file ms
    rw [h2, ← hmax]
    exact obeysLimit_maxFsize (by rw [hmax]; decide) file ms

/-- A configuration with nothing but this limit. -/
def limitCfg (M : Int32) : Cfg := fun name => if name = "log_max_size" then some (.int M) else none

set_option maxRecDepth 2000 in
theorem limitOne_fits : (readSettings (limitCfg 1) (initConfigData [])).Fits := by decide

set_option maxRecDepth 2000 in
theorem limitTwo_fits : (readSettings (limitCfg 2) (initConfigData [])).Fits := by decide

theorem log_limit_two :
    (appInitLog [] (.ok (limitCfg 2) limitTwo_fits)).2.logMaxSize.toNat = 2 * 2 ^ 20 ∧
      ∀ file ms, ObeysLimit (2 * 2 ^ 20) (appInitLog [] (.ok (limitCfg 2) limitTwo_fits)).1 file ms :=
  have h := log_limit_iff [] (limitCfg 2) limitTwo_fits 2 rfl (by decide)
  ⟨h.1, h.2.mpr rfl⟩

/-- With 1 MB configured, two messages on a file of one byte less: it is two
records past its limit but for the one byte. -/
theorem one_megabyte_not_kept :
    ¬ ObeysLimit (1 * 2 ^ 20) (appInitLog [] (.ok (limitCfg 1) limitOne_fits)).1
      (List.replicate (1 * 2 ^ 20 - 1) 'x') [stampedHello, stampedHello] :=
  smaller_not_obeyed (by decide) (by rw [appInitLog_maxFsize]; decide)

end Growbox
