import Growbox.FlcTimes
import Growbox.Lib.JsonText

/-!
# `src_v2/flc.cpp`: the lamp's commands and its replies

The second version puts its requests together as texts.  There is no comma between the
powers of two channels, and a brace before the value of `smooth_control`:
`request_wellFormed_iff` says which commands are sent as the JSON they stand for.

A reply is read in pieces until its last two characters are `\r\n`, which are looked at
as soon as there is one (`reply_framed_iff`).
-/

namespace Growbox.V2

open Decimal JsonText

/-! ## The commands -/

/-- `ch_pwr`: a channel that is not set is -1. -/
structure ChPwr where
  ch1 : Int32 := -1
  ch2 : Int32 := -1
  ch3 : Int32 := -1

/-- `time_type`, and what else may be in a variable of it. -/
inductive TimeType where
  | current
  | start
  | stop
  | other (type : UInt32)

structure Stime where
  type : TimeType := .current
  hour : UInt32 := 0
  min : UInt32 := 0
  sec : UInt32 := 0

/-- What a command comes to before it is sent; `overflow` is a `sprintf` behind its array. -/
inductive FlcRequest where
  | sent (jsonReq : CStr)
  | thrown (what : CStr)
  | overflow
  deriving DecidableEq

/-- `std::to_string` -/
def intToString (n : Int32) : CStr :=
  if n < 0 then '-' :: dec n.toInt.natAbs else dec n.toInt.natAbs

/-- `if(chN >= 0) json_req += "\"chN_power\":" + std::to_string(chN);` -/
def addPower (name : CStr) (ch : Int32) (jsonReq : CStr) : CStr :=
  if 0 ≤ ch then jsonReq ++ '"' :: (name ++ '"' :: ':' :: intToString ch) else jsonReq

def setChPwr (chPwr : ChPwr) : FlcRequest :=
  let jsonReq := ['{']
    |> addPower "ch1_power".toList chPwr.ch1
    |> addPower "ch2_power".toList chPwr.ch2
    |> addPower "ch3_power".toList chPwr.ch3
  let jsonReq := jsonReq ++ ['}']
  if jsonReq = ['{', '}'] then .thrown "No channel-power value provided".toList else .sent jsonReq

/-- `%02u:%02u:%02u` -/
def timeText (st : Stime) : CStr :=
  dec2 st.hour.toNat ++ ':' :: (dec2 st.min.toNat ++ ':' :: dec2 st.sec.toNat)

def setTime (st : Stime) : FlcRequest :=
  let buf := '"' :: (timeText st ++ ['"', '}'])
  if 64 < buf.length + 1 then .overflow
  else match st.type with
    | .current => .sent ("\x7b\"current_time\":".toList ++ buf)
    | .start => .sent ("\x7b\"start_time\":".toList ++ buf)
    | .stop => .sent ("\x7b\"stop_time\":".toList ++ buf)
    | .other type => .thrown ("Unsupported time type (".toList ++ dec type.toNat ++ ") provided".toList)

def setSmoothCtrl (smooth : Bool) : FlcRequest :=
  .sent ("\x7b\"smooth_control\":\x7d".toList ++ (if smooth then "true" else "false").toList ++ ['}'])

def setSmoothValue (smoothValue : UInt16) : FlcRequest :=
  .sent ("\x7b\"smooth_value\":".toList ++ dec smoothValue.toNat ++ ['}'])

inductive Command where
  | chPwr (p : ChPwr)
  | time (st : Stime)
  | smoothCtrl (smooth : Bool)
  | smoothValue (v : UInt16)

namespace Command

def request : Command → FlcRequest
  | chPwr p => setChPwr p
  | time st => setTime st
  | smoothCtrl smooth => setSmoothCtrl smooth
  | smoothValue v => setSmoothValue v

/-! ## What a command stands for -/

/-- The field of a time. -/
def timeName : TimeType → Option CStr
  | .current => some "current_time".toList
  | .start => some "start_time".toList
  | .stop => some "stop_time".toList
  | .other _ => none

/-- The channels that are set. -/
def powers (p : ChPwr) : List (CStr × Int32) :=
  [("ch1_power".toList, p.ch1), ("ch2_power".toList, p.ch2), ("ch3_power".toList, p.ch3)].filter
    fun ch => 0 ≤ ch.2

/-- The fields that are given, with their values. -/
def fields : Command → List (CStr × Json)
  | chPwr p => (powers p).map fun ch => (ch.1, .number (ch.2.toInt : Rat))
  | time st => (timeName st.type).toList.map fun name => (name, .string (plainStr (timeText st)))
  | smoothCtrl smooth => [("smooth_control".toList, .bool smooth)]
  | smoothValue v => [("smooth_value".toList, .number (v.toNat : Rat))]

/-- A text is sent that is an object with just these fields. -/
def WellFormed (c : Command) : Prop :=
  ∃ jsonReq, c.request = .sent jsonReq ∧
    IsText jsonReq (.object (c.fields.map fun f => (plainStr f.1, f.2)))

/-- There is one field, and it is not `smooth_control`. -/
def OneField : Command → Prop
  | chPwr p => (powers p).length = 1
  | time st => ∃ name, timeName st.type = some name
  | smoothCtrl _ => False
  | smoothValue _ => True

/-! ## The powers of the channels -/

/-- What a channel that is set puts into the request. -/
def powerText (ch : CStr × Int32) : CStr := '"' :: (ch.1 ++ '"' :: ':' :: intToString ch.2)

theorem addPower_eq (name : CStr) (ch : Int32) (jsonReq : CStr) :
    addPower name ch jsonReq = jsonReq ++ ([(name, ch)].filter fun ch => 0 ≤ ch.2).flatMap powerText := by
  by_cases hch : 0 ≤ ch
  · simp only [addPower, powerText, hch, if_true, decide_true, List.filter_cons_of_pos, List.filter_nil,
      List.flatMap_cons, List.flatMap_nil, List.append_nil]
  · simp [addPower, hch]

theorem setChPwr_eq (p : ChPwr) :
    setChPwr p = if powers p = [] then .thrown "No channel-power value provided".toList
      else .sent ('{' :: ((powers p).flatMap powerText ++ ['}'])) := by
  have htext : ['{'] ++ (powers p).flatMap powerText =
      addPower "ch3_power".toList p.ch3
        (addPower "ch2_power".toList p.ch2 (addPower "ch1_power".toList p.ch1 ['{'])) := by
    simp only [addPower_eq, List.append_assoc, ← List.flatMap_append, ← List.filter_append]
    rfl
  unfold setChPwr
  simp only [← htext]
  cases hp : powers p with
  | nil => rfl
  | cons ch chs => rfl

theorem isPlain_of_mem_powers {p : ChPwr} {ch : CStr × Int32} (h : ch ∈ powers p) :
    ∀ c ∈ ch.1, IsPlain c := by
  have hmem := List.mem_of_mem_filter h
  simp only [List.mem_cons, List.not_mem_nil, or_false] at hmem
  rcases hmem with rfl | rfl | rfl <;> exact isPlain_of_all rfl

theorem nonneg_of_mem_powers {p : ChPwr} {ch : CStr × Int32} (h : ch ∈ powers p) : 0 ≤ ch.2 :=
  of_decide_eq_true (List.mem_filter.mp h).2

theorem intToString_nonneg {n : Int32} (h : 0 ≤ n) :
    intToString n = dec n.toInt.natAbs ∧ (n.toInt.natAbs : Rat) = (n.toInt : Rat) := by
  refine ⟨if_neg (Int32.not_lt.mpr h), ?_⟩
  have hint : (0 : Int) ≤ n.toInt := Int32.le_iff_toInt_le.mp h
  rw [← Rat.intCast_natCast, Int.natAbs_of_nonneg hint]

/-- **One channel** is sent as it is; a second one comes right after the number of the first. -/
theorem chPwr_wellFormed_iff (p : ChPwr) : WellFormed (.chPwr p) ↔ (powers p).length = 1 := by
  show (∃ jsonReq, setChPwr p = .sent jsonReq ∧ _) ↔ _
  rw [setChPwr_eq]
  cases hp : powers p with
  | nil => simp
  | cons ch chs =>
    have hch : ch ∈ powers p := hp ▸ List.mem_cons_self
    obtain ⟨hdec, hvalue⟩ := intToString_nonneg (nonneg_of_mem_powers hch)
    rw [if_neg (List.cons_ne_nil _ _)]
    cases chs with
    | nil =>
      refine iff_of_true ⟨_, rfl, ?_⟩ rfl
      have := isText_object ch.1 _ (isPlain_of_mem_powers hch) (value_ofNat ch.2.toInt.natAbs ['}'])
      simpa [fields, hp, powerText, objectText, hdec, hvalue] using this
    | cons ch' chs =>
      refine iff_of_false ?_ (by simp)
      rintro ⟨jsonReq, hreq, htext⟩
      obtain rfl := FlcRequest.sent.inj hreq
      have := not_isText_of_digits (t := ch'.1 ++ '"' :: ':' :: (intToString ch'.2 ++
        (chs.flatMap powerText ++ ['}']))) (isPlain_of_mem_powers hch) (dec_ne_nil ch.2.toInt.natAbs)
        (isDigit_of_mem_dec _)
      exact this _ (by simpa [powerText, hdec] using htext)

/-! ## Times and smooth control -/

theorem isPlain_timeText (st : Stime) : ∀ c ∈ timeText st, IsPlain c := by
  have hdigits (n : Nat) : ∀ c ∈ dec2 n, IsPlain c := by
    rw [dec2_eq_decPad]
    exact fun c hc => isPlain_of_isDigit (isDigit_of_mem_decPad 2 n c hc)
  have hcolon : IsPlain ':' := by decide
  simp only [timeText, List.forall_mem_append, List.forall_mem_cons]
  exact ⟨hdigits _, hcolon, hdigits _, hcolon, hdigits _⟩

/-- The text of a time fits, whatever its numbers are. -/
theorem length_timeText_le (st : Stime) : (timeText st).length ≤ 32 := by
  have hlen (n : UInt32) : (dec2 n.toNat).length ≤ 10 := by
    rw [length_dec2_le_iff _ _ (by decide)]
    exact Nat.lt_trans n.toNat_lt (by decide)
  have := hlen st.hour
  have := hlen st.min
  have := hlen st.sec
  simp only [timeText, List.length_append, List.length_cons]
  omega

theorem setTime_eq (st : Stime) {name : CStr} (h : timeName st.type = some name) :
    setTime st = .sent (objectText name ('"' :: (timeText st ++ ['"']))) := by
  have hfits : ¬ 64 < ('"' :: (timeText st ++ ['"', '}'])).length + 1 := by
    have := length_timeText_le st
    simp only [List.length_cons, List.length_append, List.length_nil]
    omega
  unfold setTime
  simp only [if_neg hfits]
  cases htype : st.type <;> rw [htype] at h <;> simp only [timeName] at h <;> cases h <;>
    simp [objectText]

theorem time_wellFormed_iff (st : Stime) :
    WellFormed (.time st) ↔ ∃ name, timeName st.type = some name := by
  constructor
  · rintro ⟨jsonReq, hreq, -⟩
    simp only [request, setTime] at hreq
    cases htype : st.type with
    | other type =>
      rw [htype] at hreq
      split at hreq <;> cases hreq
    | _ => exact ⟨_, rfl⟩
  · rintro ⟨name, hname⟩
    have hkey : ∀ c ∈ name, IsPlain c := by
      cases htype : st.type <;> rw [htype] at hname <;> simp only [timeName] at hname <;> cases hname <;>
        exact isPlain_of_all rfl
    have hvalue : Value ('"' :: (timeText st ++ ['"']) ++ ['}']) (.string (plainStr (timeText st)))
        ['}'] := by
      simpa using value_plainStr (isPlain_timeText st) ['}']
    have := isText_object name _ hkey hvalue
    exact ⟨_, setTime_eq st hname, by simpa [fields, hname] using this⟩

example : setTime ⟨.start, 10, 20, 30⟩ = .sent "\x7b\"start_time\":\"10:20:30\"\x7d".toList := by
  decide +kernel

/-- A brace is no value. -/
theorem smoothCtrl_not_wellFormed (smooth : Bool) : ¬ WellFormed (.smoothCtrl smooth) := by
  rintro ⟨jsonReq, hreq, htext⟩
  obtain rfl := FlcRequest.sent.inj hreq
  obtain ⟨u, v, t, c, r, hws, hvalue, -⟩ := IsText.first_member "smooth_control".toList
    ('}' :: ((if smooth then "true" else "false").toList ++ ['}'])) (isPlain_of_all rfl)
    (by simpa using htext)
  rw [hws.eq_of_not_mem (by decide)] at hvalue
  cases hvalue with
  | number n hvalid hnum =>
    exact absurd (hvalid.isNumeralChar_head hnum) (by unfold Numeral.IsNumeralChar; decide)

theorem smoothValue_wellFormed (v : UInt16) : WellFormed (.smoothValue v) :=
  ⟨_, rfl, by simpa [objectText, fields] using
    isText_object "smooth_value".toList _ (isPlain_of_all rfl) (value_ofNat v.toNat ['}'])⟩

end Command

/-- **Which commands are sent as the JSON they stand for**: those with a single field, but for
`smooth_control`. -/
theorem request_wellFormed_iff (c : Command) : c.WellFormed ↔ c.OneField := by
  cases c with
  | chPwr p => exact Command.chPwr_wellFormed_iff p
  | time st => exact Command.time_wellFormed_iff st
  | smoothCtrl smooth => exact iff_of_false (Command.smoothCtrl_not_wellFormed smooth) id
  | smoothValue v => exact iff_of_true (Command.smoothValue_wellFormed v) trivial

theorem two_powers_without_comma :
    (Command.chPwr ⟨10, 20, -1⟩).request =
      .sent "\x7b\"ch1_power\":10\"ch2_power\":20\x7d".toList ∧
    ¬ (Command.chPwr ⟨10, 20, -1⟩).WellFormed ∧ ¬ (Command.smoothCtrl true).WellFormed := by
  refine ⟨by decide +kernel, fun h => ?_, Command.smoothCtrl_not_wellFormed true⟩
  exact absurd ((Command.chPwr_wellFormed_iff _).mp h) (by decide)

/-! ## `get_response` -/

/-- What `select` comes to, with the text of `errno`. -/
inductive Select where
  | failed (strerror : CStr)
  | timeout (strerror : CStr)
  | ready

/-- The text or what is thrown; `inside` says that the text was indexed within its length only. -/
structure Response where
  res : Except CStr CStr
  inside : Bool
  deriving DecidableEq

/-- `len - k` of two `size_t`. -/
def sizeSub (len k : Nat) : Nat := if k ≤ len then len - k else 2 ^ 64 + len - k

/-- `json_resp[pos]`, and whether it is within the text; elsewhere it is `stray`. -/
def charAt (stray : Char) (jsonResp : CStr) (pos : Nat) : Char × Bool :=
  (jsonResp.getD pos stray, decide (pos < jsonResp.length))

/-- `len && json_resp[len - 2] == '\r' && json_resp[len - 1] == '\n'` -/
def atEnd (stray : Char) (jsonResp : CStr) : Bool × Bool :=
  if jsonResp.length = 0 then (false, true)
  else
    let cr := charAt stray jsonResp (sizeSub jsonResp.length 2)
    if cr.1 = '\r' then
      let lf := charAt stray jsonResp (sizeSub jsonResp.length 1)
      (decide (lf.1 = '\n'), cr.2 && lf.2)
    else (false, cr.2)

/-- The `read`s into `buf`; no more of them stand for one that times out. -/
def readResponse (stray : Char) : List (ReadRes Char) → CStr → Bool → Response
  | [], _, inside => ⟨.error "Timeout waiting End of response".toList, inside⟩
  | res :: reads, jsonResp, inside =>
    if res.ret = 0 then ⟨.error "Timeout waiting End of response".toList, inside⟩
    else
      let buf := res.bytes ++ List.replicate (128 - res.bytes.length) nul
      let jsonResp := jsonResp ++ cText buf
      let stop := atEnd stray jsonResp
      if stop.1 then ⟨.ok jsonResp.dropLast.dropLast, inside && stop.2⟩
      else readResponse stray reads jsonResp (inside && stop.2)

def getResponse (stray : Char) (res : Select) (reads : List (ReadRes Char)) : Response :=
  match res with
  | .failed strerror => ⟨.error ("select() failed: ".toList ++ strerror), true⟩
  | .timeout strerror => ⟨.error ("Waiting response timeout: ".toList ++ strerror), true⟩
  | .ready => readResponse stray reads [] true

/-! ## The end of a reply -/

/-- From two characters on the test looks at the last two, and nowhere else. -/
theorem atEnd_eq (stray : Char) (t : CStr) (a b : Char) :
    atEnd stray (t ++ [a, b]) = (decide (a = '\r' ∧ b = '\n'), true) := by
  have hlen : (t ++ [a, b]).length = t.length + 2 := by simp
  have ha : charAt stray (t ++ [a, b]) (sizeSub (t.length + 2) 2) = (a, true) := by
    simp [charAt, sizeSub]
  have hb : charAt stray (t ++ [a, b]) (sizeSub (t.length + 2) 1) = (b, true) := by
    simp [charAt, sizeSub]
  unfold atEnd
  rw [hlen, if_neg (by omega), ha, hb]
  by_cases hcr : a = '\r' <;> simp [hcr]

/-- **One character** is enough for the test to look in front of the text. -/
theorem atEnd_single (stray c : Char) : (atEnd stray [c]).2 = false := by
  have hcr : charAt stray [c] (sizeSub 1 2) = (stray, false) := rfl
  unfold atEnd
  simp only [List.length_singleton, Nat.one_ne_zero, if_false, hcr]
  split <;> rfl

theorem readResponse_outside (stray : Char) (reads : List (ReadRes Char)) (jsonResp : CStr) :
    (readResponse stray reads jsonResp false).inside = false := by
  induction reads generalizing jsonResp with
  | nil => rfl
  | cons res reads ih =>
    unfold readResponse
    simp only [Bool.false_and]
    split
    · rfl
    · split
      · rfl
      · exact ih _

/-- A text of two or more characters by its last two. -/
theorem exists_last_two {s : CStr} (h : 2 ≤ s.length) : ∃ t a b, s = t ++ [a, b] := by
  have hdrop : (s.drop (s.length - 2)).length = 2 := by
    rw [List.length_drop]
    omega
  obtain ⟨a, b, hab⟩ := List.length_eq_two.mp hdrop
  exact ⟨s.take (s.length - 2), a, b, by rw [← hab, List.take_append_drop]⟩

/-- What comes before the last character of a reply does not end in `\r\n`. -/
theorem ne_of_more {r t rest : CStr} (hr : '\n' ∉ r) (hrest : rest ≠ [])
    (h : t ++ ['\r', '\n'] ++ rest = r ++ ['\r', '\n']) : False := by
  obtain ⟨rest, c, rfl⟩ := (List.eq_nil_or_concat rest).resolve_left hrest
  rw [List.concat_eq_append, ← List.append_assoc, List.append_cons r '\r'] at h
  have hinit := (List.append_inj' h rfl).1
  have hmem : '\n' ∈ r ++ ['\r'] := by
    rw [← hinit]
    simp
  simp [hr] at hmem

/-- A piece of a reply: the end is tested behind it. -/
theorem readResponse_piece (stray : Char) (reads : List (ReadRes Char)) (jsonResp : CStr) (inside : Bool)
    {c : CStr} (hc : c ≠ [] ∧ nul ∉ c) :
    readResponse stray (.got c :: reads) jsonResp inside =
      if (atEnd stray (jsonResp ++ c)).1 then
        ⟨.ok (jsonResp ++ c).dropLast.dropLast, inside && (atEnd stray (jsonResp ++ c)).2⟩
      else readResponse stray reads (jsonResp ++ c) (inside && (atEnd stray (jsonResp ++ c)).2) := by
  have hret : (ReadRes.got c).ret ≠ 0 := by
    have := List.length_pos_of_ne_nil hc.1
    simp only [ReadRes.ret]
    omega
  have hbuf := cText_cleared hc.2 (128 - c.length)
  rw [readResponse, if_neg hret]
  simp only [ReadRes.bytes, hbuf]

/-- **With two characters in the text after the next piece** the reply is found, however the rest
of it comes in. -/
theorem readResponse_pieces {r : CStr} (hr : '\n' ∉ r) (stray : Char) {pieces : List CStr} (acc : CStr)
    (hpieces : ∀ c ∈ pieces, c ≠ [] ∧ nul ∉ c) (hsplit : acc ++ pieces.flatten = r ++ ['\r', '\n'])
    (hne : pieces ≠ []) (hlen : ∀ c ∈ pieces.head?, 2 ≤ (acc ++ c).length) :
    readResponse stray (pieces.map .got) acc true = ⟨.ok r, true⟩ := by
  induction pieces generalizing acc with
  | nil => exact absurd rfl hne
  | cons c rest ih =>
    rw [List.forall_mem_cons] at hpieces
    obtain ⟨t, a, b, hlast⟩ := exists_last_two (hlen c rfl)
    rw [List.map_cons, readResponse_piece stray _ acc true hpieces.1, hlast, atEnd_eq]
    rw [List.flatten_cons, ← List.append_assoc, hlast] at hsplit
    by_cases hrest : rest = []
    · rw [hrest, List.flatten_nil, List.append_nil] at hsplit
      obtain ⟨rfl, hab⟩ := List.append_inj' hsplit rfl
      cases hab
      simp
    · have hmore : rest.flatten ≠ [] := by
        obtain ⟨d, rest, rfl⟩ := List.exists_cons_of_ne_nil hrest
        rw [List.flatten_cons]
        exact List.append_ne_nil_of_left_ne_nil (hpieces.2 d List.mem_cons_self).1 _
      have hab : ¬ (a = '\r' ∧ b = '\n') := by
        rintro ⟨rfl, rfl⟩
        exact ne_of_more hr hmore hsplit
      rw [if_neg (by simpa using hab)]
      exact ih _ hpieces.2 hsplit hrest fun d _ => by
        simp only [List.length_append, List.length_cons, List.length_nil]
        omega

/-- **When a reply is taken over as it is**: when its first piece has two characters or more. -/
theorem reply_framed_iff {r : CStr} (hr : ∀ c ∈ r, c ≠ nul ∧ c ≠ '\r' ∧ c ≠ '\n') (stray : Char)
    {pieces : List CStr} (hpieces : ∀ c ∈ pieces, c ≠ [] ∧ c.length ≤ 127)
    (hsplit : pieces.flatten = r ++ ['\r', '\n']) :
    getResponse stray .ready (pieces.map .got) = ⟨.ok r, true⟩ ↔ ∀ c ∈ pieces.head?, 2 ≤ c.length := by
  have hnul : ∀ c ∈ pieces, c ≠ [] ∧ nul ∉ c := by
    refine fun c hc => ⟨(hpieces c hc).1, fun hmem => ?_⟩
    have hflat : nul ∈ r ++ ['\r', '\n'] := hsplit ▸ List.mem_flatten.mpr ⟨c, hc, hmem⟩
    rcases List.mem_append.mp hflat with h | h
    · exact (hr nul h).1 rfl
    · exact absurd h (by decide)
  have hne : pieces ≠ [] := by
    rintro rfl
    simp at hsplit
  constructor
  · intro h c hc
    obtain ⟨c', rest, rfl⟩ := List.exists_cons_of_ne_nil hne
    cases hc
    rw [List.forall_mem_cons] at hnul
    by_contra hshort
    obtain ⟨d, rfl⟩ : ∃ d, c = [d] := by
      have := List.length_pos_of_ne_nil hnul.1.1
      exact List.length_eq_one_iff.mp (by omega)
    have hout : (getResponse stray .ready ((([d] : CStr) :: rest).map .got)).inside = false := by
      rw [getResponse, List.map_cons, readResponse_piece stray _ [] true hnul.1, List.nil_append,
        atEnd_single]
      split
      · rfl
      · exact readResponse_outside stray _ _
    rw [h] at hout
    cases hout
  · exact fun hlen => readResponse_pieces (fun h => (hr _ h).2.2 rfl) stray [] hnul hsplit hne hlen

/-- A reply in two pieces, cut inside its end. -/
theorem reply_framed_ok :
    getResponse '?' .ready ([['o', 'k', '\r'], ['\n']].map .got) = ⟨.ok ['o', 'k'], true⟩ := by
  have hr : ∀ c ∈ ['o', 'k'], c ≠ nul ∧ c ≠ '\r' ∧ c ≠ '\n' :=
    List.forall_mem_cons.mpr ⟨by decide, List.forall_mem_singleton.mpr (by decide)⟩
  exact (reply_framed_iff hr '?' (by decide) rfl).mpr (by decide)

/-- The first character comes alone. -/
theorem first_character_alone :
    (∀ c ∈ [['o'], "kay\r\n".toList], c ≠ [] ∧ c.length ≤ 127) ∧
    [['o'], "kay\r\n".toList].flatten = "okay".toList ++ ['\r', '\n'] ∧
    getResponse '?' .ready ([['o'], "kay\r\n".toList].map .got) = ⟨.ok "okay".toList, false⟩ := by
  decide

end Growbox.V2
