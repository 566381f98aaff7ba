import Growbox.FlcStatus
import Growbox.Httpserv
import Growbox.Lib.Strtok

/-!
# `app_get_flc_status`: the times of a reply

A time in a reply is decoded in place by `strtok`.  A number of which there is no text is
never assigned, and one of four digits does not fit where it is printed:
`status_times_iff` says which replies have nine numbers that can be printed.  After a date
of 31 characters with no space after it, `flctime_to_mytime` reads the next field, cuts it,
and decodes what is left of it later; `time_after_cut` says that this never gives a whole
time.
-/

namespace Growbox

open Decimal Strtok

/-! ## `flctime_to_mytime` -/

/-- `atoi(s)` -/
def atoi (s : CStr) : Int32 := Int32.ofInt (strtol s)

/-- `my_time` has no constructor: a number that nothing is assigned to is `none`. -/
structure DecodedTime where
  hour : Option UInt32
  min : Option UInt32
  sec : Option UInt32
  deriving DecidableEq, Repr

/-- `if(istr) … = atoi(istr)` -/
def assigned (istr : Option CStr) : Option UInt32 := istr.map fun t => (atoi t).toUInt32

/-- `if (strchr(flc_time, '.'))`: the memory, and `time_ptr`. -/
def skipDate (mem : List Char) (flcTime : Nat) : List Char × Nat :=
  if '.' ∈ cstrAt mem flcTime then
    match strtok ' ' mem flcTime with
    | ⟨some dtimeStr, mem, _⟩ => (mem, flcTime + (dtimeStr.length + 1))
    | ⟨none, mem, _⟩ => (mem, flcTime)
  else (mem, flcTime)

/-- The three calls with `":"`. -/
def splitTime (mem : List Char) (timePtr : Nat) : DecodedTime × List Char :=
  let hour := strtok ':' mem timePtr
  let min := strtok ':' hour.mem hour.save
  let sec := strtok ':' min.mem min.save
  (⟨assigned hour.token, assigned min.token, assigned sec.token⟩, sec.mem)

def flctimeToMytime (mem : List Char) (flcTime : Nat) : DecodedTime × List Char :=
  splitTime (skipDate mem flcTime).1 (skipDate mem flcTime).2

/-! ## `app_get_flc_status` -/

/-- `flc_status_t`; its nine texts are the numbers as `%02u` prints them. -/
structure FlcStatus where
  res : Res
  powerState : Bool
  currTime : DecodedTime
  startTime : DecodedTime
  stopTime : DecodedTime
  smooth : Bool
  smoothValue : Int32
  chPwr : FlcChPwr

/-- A field of `flc_resp_t`: what was copied, then what `memset` left. -/
def field (s : CStr) : List Char := cText s ++ List.replicate (32 - (cText s).length) nul

/-- The memory of `flc_resp_t` from `curr_dtime` to `smooth_value`; `smooth` is one byte. -/
def FlcResp.memory (resp : FlcResp) : List Char :=
  field resp.currDtime ++ field resp.startTime ++ field resp.stopTime ++
    [if resp.smooth then Char.ofNat 1 else nul, nul, nul, nul]

def createTestFlcStatus : FlcStatus where
  res := ⟨0, okText⟩
  powerState := true
  currTime := ⟨some 12, some 13, some 45⟩
  startTime := ⟨some 8, some 0, some 0⟩
  stopTime := ⟨some 22, some 35, some 0⟩
  smooth := false
  smoothValue := 666
  chPwr := ⟨43, 99, 60⟩

/-- The conversion of a status whose text is `"OK"`. -/
def flcStatusOfResp (resp : FlcResp) : FlcStatus :=
  let curr := flctimeToMytime resp.memory 0
  let start := flctimeToMytime curr.2 32
  let stop := flctimeToMytime start.2 64
  { res := resp.res
    powerState := cText resp.powerState == "On".toList
    currTime := curr.1
    startTime := start.1
    stopTime := stop.1
    smooth := resp.smooth
    smoothValue := resp.smoothValue
    chPwr := resp.chPwr }

/-- What is returned: a status, a result with an error, or no text. -/
inductive FlcStatusReply where
  | status (fs : FlcStatus)
  | error (res : Res)
  | noText

/-- The text of a negative result; only -1 and -2 are returned, `default` is for neither. -/
def flcErrorText (res : Int) : CStr :=
  if res = -1 then "flc_send_request failed".toList
  else if res = -2 then "flc_get_responce failed".toList
  else "JSON: Unknown error".toList

def Reply.appGetFlcStatus (testMode : Bool) (first second : LineTry) : FlcStatusReply :=
  if testMode then .status createTestFlcStatus
  else
    let got := flcGetStatus first second .zero
    if got.1 < 0 then .error ⟨got.1, flcErrorText got.1⟩
    else if got.2.res.text ≠ okText then .noText
    else .status (flcStatusOfResp got.2)

/-! ## Texts of times -/

/-- The text after the date of a text with a date; the date is all of it that is before
the first space.  With spaces before the date it is the last of them and of the date. -/
def timePart (s : CStr) : CStr :=
  if '.' ∈ s then
    if s.head? = some ' ' then
      ((s.takeWhile fun c => c == ' ') ++ tokenOf ' ' s).drop ((tokenOf ' ' s).length + 1)
    else restOf ' ' s
  else s

/-- The parts of a text between colons that are decoded. -/
def timeTokens (x : CStr) : List CStr :=
  [tokenOf ':' x, tokenOf ':' (restOf ':' x), tokenOf ':' (restOf ':' (restOf ':' x))]

/-- After its date the text has three numbers of at most three digits. -/
def TimeText (s : CStr) : Prop := ∀ t ∈ timeTokens (timePart s), t ≠ [] ∧ (atoi t).toUInt32.toNat < 1000

/-- The number is assigned, and its text and terminator fit. -/
def NumberFits (n : Option UInt32) : Prop :=
  ∃ v, n = some v ∧ (dec2 v.toNat).length + 1 ≤ statusFieldSize

def DecodedTime.Fits (t : DecodedTime) : Prop := ∀ n ∈ [t.hour, t.min, t.sec], NumberFits n

def FlcStatus.Fits (fs : FlcStatus) : Prop :=
  fs.currTime.Fits ∧ fs.startTime.Fits ∧ fs.stopTime.Fits

/-! ## Decoding a text -/

/-- What `strtok` returns for a token that was found, or not. -/
def found (t : CStr) : Option CStr := if t = [] then none else some t

/-- The numbers of a text without a date. -/
def decodedText (x : CStr) : DecodedTime where
  hour := assigned (found (tokenOf ':' x))
  min := assigned (found (tokenOf ':' (restOf ':' x)))
  sec := assigned (found (tokenOf ':' (restOf ':' (restOf ':' x))))

theorem numberFits_found (t : CStr) :
    NumberFits (assigned (found t)) ↔ t ≠ [] ∧ (atoi t).toUInt32.toNat < 1000 := by
  unfold NumberFits found
  by_cases h : t = []
  · rw [if_pos h]
    refine iff_of_false ?_ fun h' => h'.1 h
    rintro ⟨v, hv, -⟩
    cases hv
  · rw [if_neg h]
    constructor
    · rintro ⟨v, hv, hfits⟩
      obtain rfl := Option.some.inj hv
      exact ⟨h, (dec2_fits_iff _).mp hfits⟩
    · rintro ⟨-, hlt⟩
      exact ⟨_, rfl, (dec2_fits_iff _).mpr hlt⟩

theorem decodedText_fits_iff (x : CStr) :
    (decodedText x).Fits ↔ ∀ t ∈ timeTokens x, t ≠ [] ∧ (atoi t).toUInt32.toNat < 1000 := by
  simp only [DecodedTime.Fits, decodedText, timeTokens, List.forall_mem_cons, numberFits_found]
  simp

/-- Nothing after the first token: there are no minutes. -/
theorem not_fits_of_restOf {x : CStr} (h : restOf ':' x = []) : ¬ (decodedText x).Fits := by
  intro hfits
  have hmin := hfits (decodedText x).min (List.mem_cons_of_mem _ List.mem_cons_self)
  obtain ⟨hne, -⟩ := (numberFits_found _).mp hmin
  exact hne (by rw [h]; rfl)

/-- The memory from a place on is two texts that one colon-separated piece is in each. -/
def CutTwice (mem : List Char) : Prop :=
  ∃ skip₁ token₁ skip₂ token₂ more,
    OneToken ':' skip₁ token₁ ∧ OneToken ':' skip₂ token₂ ∧
      nul ∉ skip₁ ++ token₁ ∧ nul ∉ skip₂ ++ token₂ ∧
      mem = skip₁ ++ token₁ ++ nul :: (skip₂ ++ token₂ ++ nul :: more)

/-- **What the three calls do to a text**: they give its numbers, keep its length, and leave
it cut twice if there were minutes. -/
theorem splitTime_at (front : List Char) {x : List Char} (tail : List Char) (hx : nul ∉ x) :
    ∃ x', x'.length = x.length ∧
      splitTime (front ++ (x ++ nul :: tail)) front.length =
        (decodedText x, front ++ (x' ++ nul :: tail)) ∧
      (restOf ':' x ≠ [] → CutTwice (x' ++ nul :: tail)) := by
  obtain ⟨skip₁, token₁, done₁, hone₁, hnul₁, hdone₁, hlen₁, hrest₁, heq₁⟩ :=
    strtok_at ':' front tail (by decide) hx
  obtain ⟨skip₂, token₂, done₂, hone₂, hnul₂, hdone₂, hlen₂, hrest₂, heq₂⟩ :=
    strtok_at ':' (front ++ done₁) tail (by decide) hrest₁
  obtain ⟨skip₃, token₃, done₃, -, -, -, hlen₃, -, heq₃⟩ :=
    strtok_at ':' (front ++ done₁ ++ done₂) tail (by decide) hrest₂
  refine ⟨done₁ ++ (done₂ ++ (done₃ ++ restOf ':' (restOf ':' (restOf ':' x)))), ?_, ?_, fun hmin => ?_⟩
  · simp only [List.length_append]
    omega
  · unfold splitTime
    simp only [heq₁, heq₂, heq₃]
    simp only [List.append_assoc]
    rfl
  · obtain ⟨-, hnil⟩ | hcut₁ := hdone₁
    · exact absurd hnil hmin
    obtain ⟨hlast, hnil⟩ | hcut₂ := hdone₂
    · -- the second token was the last: the terminator of the text is behind it
      rw [hnil] at hlen₃ ⊢
      have hend : done₃ ++ restOf ':' ([] : List Char) = [] := by
        rw [← List.length_eq_zero_iff, List.length_append, hlen₃]
        rfl
      refine ⟨skip₁, token₁, skip₂, token₂, tail, hone₁, hone₂, hnul₁, hnul₂, ?_⟩
      rw [hend, hcut₁, hlast]
      simp only [List.append_assoc, List.cons_append, List.nil_append]
    · refine ⟨skip₁, token₁, skip₂, token₂,
        done₃ ++ (restOf ':' (restOf ':' (restOf ':' x)) ++ nul :: tail), hone₁, hone₂, hnul₁, hnul₂, ?_⟩
      rw [hcut₁, hcut₂]
      simp only [List.append_assoc, List.cons_append, List.nil_append]

/-- One token, or what is taken from it, has no minutes. -/
theorem not_fits_of_sublist {skip token : List Char} (h : OneToken ':' skip token) {x : CStr}
    (hx : List.Sublist x (skip ++ token)) : ¬ (decodedText x).Fits :=
  not_fits_of_restOf (restOf_eq_nil_of_sublist h hx)

theorem head_skip {skip token : List Char} (h : OneToken ' ' skip token) (hne : skip ≠ []) (r : List Char) :
    (skip ++ r).head? = some ' ' := by
  obtain ⟨c, cs, rfl⟩ := List.exists_cons_of_ne_nil hne
  rw [h.skip c List.mem_cons_self]
  rfl

/-- A place within `w` cuts the memory there. -/
theorem place_within {front w : List Char} {n : Nat} (hn : n ≤ w.length) (rest : List Char) :
    (front ++ (w ++ rest), front.length + n) =
      (front ++ w.take n ++ (w.drop n ++ rest), (front ++ w.take n).length) := by
  rw [List.append_assoc front, ← List.append_assoc (w.take n), List.take_append_drop,
    List.length_append, List.length_take_of_le hn]

/-- The time `x` of the text is in it, and `got` is where the memory has it: some characters
are before it and some, of an earlier piece or of the date, may be after it. -/
def BeginsWithin (front tail s x : List Char) (got : List Char × Nat) : Prop :=
  List.Sublist x s ∧ ∃ before after,
    before.length + x.length + after.length = s.length ∧
    got = (front ++ before ++ (x ++ (after ++ nul :: tail)), (front ++ before).length) ∧
    (after = [] ∨ ∃ r, after = nul :: r)

section
variable {skip token : List Char} (front tail : List Char)

theorem skipDate_dated {s t mem : List Char} {save : Nat} (hs : nul ∉ s) (hdot : '.' ∈ s)
    (hcall : strtok ' ' (front ++ (s ++ nul :: tail)) front.length = ⟨some t, mem, save⟩) :
    skipDate (front ++ (s ++ nul :: tail)) front.length = (mem, front.length + (t.length + 1)) := by
  unfold skipDate
  rw [cstrAt_append _ hs, if_pos hdot, hcall]

/-- The date is the last token: the spaces are before it. -/
theorem skipDate_last (h : OneToken ' ' skip token) (hskip : skip ≠ []) (hs : nul ∉ skip ++ token)
    (hdot : '.' ∈ skip ++ token) :
    BeginsWithin front tail (skip ++ token) (timePart (skip ++ token))
      (skipDate (front ++ (skip ++ token ++ nul :: tail)) front.length) := by
  have hne : token ≠ [] := by
    rintro rfl
    rw [List.append_nil] at hdot
    exact absurd (h.skip _ hdot) (by decide)
  have hpos := List.length_pos_of_ne_nil hskip
  have hcall := strtok_last front tail h (by decide) hs
  rw [if_neg hne] at hcall
  have hpart : timePart (skip ++ token) = (skip ++ token).drop (token.length + 1) := by
    rw [timePart, if_pos hdot, if_pos (head_skip h hskip token), takeWhile_skip h token (head_token h),
      tokenOf_last h]
  rw [skipDate_dated front tail hs hdot hcall, hpart]
  refine ⟨List.drop_sublist .., (skip ++ token).take (token.length + 1), [], ?_, ?_, .inl rfl⟩
  · simp only [List.length_take, List.length_drop, List.length_append, List.length_nil]
    omega
  · rw [List.append_assoc front]
    exact place_within (by rw [List.length_append]; omega) _

/-- The date ends in the space after the first token.  When no space is before it the time is
what is after it, and else the end of the spaces and the date. -/
theorem skipDate_cut (h : OneToken ' ' skip token) (hne : token ≠ []) {r : List Char}
    (hs : nul ∉ skip ++ (token ++ ' ' :: r)) (hdot : '.' ∈ skip ++ (token ++ ' ' :: r)) :
    BeginsWithin front tail (skip ++ (token ++ ' ' :: r)) (timePart (skip ++ (token ++ ' ' :: r)))
      (skipDate (front ++ (skip ++ (token ++ ' ' :: r) ++ nul :: tail)) front.length) := by
  rw [skipDate_dated front tail hs hdot (strtok_cut front tail h hne hs), timePart, if_pos hdot,
    tokenOf_cut h hne, restOf_cut h hne]
  by_cases hskip : skip = []
  · subst hskip
    have hhead : ([] ++ (token ++ ' ' :: r)).head? ≠ some ' ' :=
      fun hc => head_token_append h hne _ ' ' hc rfl
    rw [if_neg hhead]
    refine ⟨?_, token ++ [nul], [], ?_, ?_, .inl rfl⟩
    · exact (List.sublist_cons_self ..).trans (List.sublist_append_right ..)
    · simp only [List.length_append, List.length_cons, List.length_nil]
      omega
    · simp only [List.append_assoc, List.cons_append, List.nil_append, List.length_append,
        List.length_cons, List.length_nil]
  · have hpos := List.length_pos_of_ne_nil hskip
    rw [if_pos (head_skip h hskip _), takeWhile_skip h _ (head_token_append h hne _)]
    refine ⟨?_, (skip ++ token).take (token.length + 1), nul :: r, ?_, ?_, .inr ⟨r, rfl⟩⟩
    · rw [← List.append_assoc]
      exact (List.drop_sublist ..).trans (List.sublist_append_left ..)
    · simp only [List.length_take, List.length_drop, List.length_append, List.length_cons]
      omega
    · rw [List.append_assoc front]
      exact place_within (by rw [List.length_append]; omega) _

/-- The time of a text without a date, or with a space in it, begins within the text. -/
theorem skipDate_inside {s : List Char} (hs : nul ∉ s) (hin : '.' ∈ s → ' ' ∈ s) :
    BeginsWithin front tail s (timePart s) (skipDate (front ++ (s ++ nul :: tail)) front.length) := by
  by_cases hdot : '.' ∈ s
  · obtain ⟨skip, token, h, rfl | ⟨hne, r, rfl⟩⟩ := split_cases ' ' s
    · refine skipDate_last front tail h ?_ hs hdot
      rintro rfl
      exact h.token (hin hdot)
    · exact skipDate_cut front tail h hne hs hdot
  · have hskip : skipDate (front ++ (s ++ nul :: tail)) front.length =
        (front ++ (s ++ nul :: tail), front.length) := by
      unfold skipDate
      rw [cstrAt_append _ hs, if_neg hdot]
    rw [hskip, timePart, if_neg hdot]
    refine ⟨List.Sublist.refl s, [], [], ?_, ?_, .inl rfl⟩
    · simp
    · simp

end

/-- The date is within the text: the time is too, and the length is kept. -/
theorem flctimeToMytime_inside (front : List Char) {s : List Char} (tail : List Char) (hs : nul ∉ s)
    (hin : '.' ∈ s → ' ' ∈ s) :
    List.Sublist (timePart s) s ∧ ∃ s', s'.length = s.length ∧
      flctimeToMytime (front ++ (s ++ nul :: tail)) front.length =
        (decodedText (timePart s), front ++ (s' ++ nul :: tail)) := by
  obtain ⟨hsub, before, after, hlen, hskip, hafter⟩ := skipDate_inside front tail hs hin
  have hx : nul ∉ timePart s := fun h => hs (hsub.subset h)
  have htail : ∃ tail', after ++ nul :: tail = nul :: tail' := by
    obtain rfl | ⟨r, rfl⟩ := hafter
    · exact ⟨tail, rfl⟩
    · exact ⟨r ++ nul :: tail, rfl⟩
  obtain ⟨tail', htail⟩ := htail
  obtain ⟨x', hlen', heq, -⟩ := splitTime_at (front ++ before) tail' hx
  refine ⟨hsub, before ++ (x' ++ after), ?_, ?_⟩
  · simp only [List.length_append]
    omega
  · unfold flctimeToMytime
    rw [hskip, htail, heq, ← htail]
    simp only [List.append_assoc]

/-- There is no space after the date: the time is what is behind the terminator. -/
theorem flctimeToMytime_over (front : List Char) {s : List Char} (tail : List Char) (hs : nul ∉ s)
    (hdot : '.' ∈ s) (hspace : ' ' ∉ s) :
    timePart s = [] ∧ flctimeToMytime (front ++ (s ++ nul :: tail)) front.length =
      splitTime (front ++ (s ++ [nul]) ++ tail) (front ++ (s ++ [nul])).length := by
  have hone : OneToken ' ' [] s := oneToken_of_not_mem hspace
  have hne : s ≠ [] := List.ne_nil_of_mem hdot
  constructor
  · have hrest : restOf ' ' s = [] := restOf_last hone
    have hhead : s.head? ≠ some ' ' := fun h => hspace (List.mem_of_mem_head? h)
    rw [timePart, if_pos hdot, if_neg hhead, hrest]
  · have hcall := strtok_last front tail hone (by decide) hs
    rw [List.nil_append, if_neg hne] at hcall
    unfold flctimeToMytime skipDate
    rw [cstrAt_append _ hs, if_pos hdot, hcall]
    simp only [List.append_assoc, List.singleton_append, List.length_append, List.length_singleton]

/-- **A text that was cut twice decodes to no whole time**: what is read is within its first
piece, or, after a date, is the second. -/
theorem time_after_cut (front : List Char) {rest : List Char} (h : CutTwice rest) :
    ¬ (flctimeToMytime (front ++ rest) front.length).1.Fits := by
  obtain ⟨skip₁, token₁, skip₂, token₂, more, hone₁, hone₂, hnul₁, hnul₂, rfl⟩ := h
  by_cases hin : '.' ∈ skip₁ ++ token₁ → ' ' ∈ skip₁ ++ token₁
  · obtain ⟨hsub, s', -, heq⟩ := flctimeToMytime_inside front
      (skip₂ ++ token₂ ++ nul :: more) hnul₁ hin
    rw [heq]
    exact not_fits_of_sublist hone₁ hsub
  · rw [Classical.not_imp] at hin
    obtain ⟨x', -, heq, -⟩ := splitTime_at (front ++ (skip₁ ++ token₁ ++ [nul])) more hnul₂
    rw [(flctimeToMytime_over front _ hnul₁ hin.1 hin.2).2, heq]
    exact not_fits_of_sublist hone₂ (List.Sublist.refl _)

/-! ## The three fields -/

/-- What `buf` holds when it was cleared before `t` came into it. -/
theorem cText_cleared {t : CStr} (ht : nul ∉ t) (n : Nat) : cText (t ++ List.replicate n nul) = t :=
  (cText_append_replicate t n).trans (cText_eq_self ht)

theorem field_eq {s : CStr} (hs : (cText s).length ≤ 31) :
    field s = cText s ++ nul :: List.replicate (31 - (cText s).length) nul := by
  rw [field, show 32 - (cText s).length = 31 - (cText s).length + 1 by omega, List.replicate_succ]

/-- What the decoding of a field comes to, with the text `next` behind the field. -/
inductive FieldOutcome (front rest : List Char) (s next : CStr)
    (got : DecodedTime × List Char) : Prop where
  | within (f : List Char) (hlen : f.length = 32) (hmem : got.2 = front ++ (f ++ rest))
    (hfits : got.1.Fits ↔ TimeText (cText s))
  | beyond (htext : ¬ TimeText (cText s)) (hcut : got.1.Fits → ':' ∈ next ∧
      ∃ f rest', f.length = 32 ∧ got.2 = front ++ (f ++ rest') ∧ CutTwice rest')

theorem not_timeText_of_timePart {s : CStr} (h : timePart s = []) : ¬ TimeText s := by
  intro ht
  rw [TimeText, h] at ht
  exact (ht [] List.mem_cons_self).1 rfl

theorem field_outcome (front : List Char) {s : CStr} (hs : (cText s).length ≤ 31) {next tail rest : List Char}
    (hnext : nul ∉ next) (hrest : rest = next ++ nul :: tail) :
    FieldOutcome front rest s next
      (flctimeToMytime (front ++ (field s ++ rest)) front.length) := by
  subst hrest
  have hnul := nul_not_mem_cText s
  have hmem : front ++ (field s ++ (next ++ nul :: tail)) = front ++ (cText s ++ nul ::
      (List.replicate (31 - (cText s).length) nul ++ (next ++ nul :: tail))) := by
    rw [field_eq hs, List.append_assoc, List.cons_append]
  rw [hmem]
  by_cases hin : '.' ∈ cText s → ' ' ∈ cText s
  · obtain ⟨-, s', hlen, heq⟩ := flctimeToMytime_inside front
      (List.replicate (31 - (cText s).length) nul ++ (next ++ nul :: tail)) hnul hin
    rw [heq]
    refine .within (s' ++ nul :: List.replicate (31 - (cText s).length) nul) ?_ ?_ ?_
    · rw [List.length_append, List.length_cons, List.length_replicate]
      omega
    · rw [List.append_assoc, List.cons_append]
    · exact decodedText_fits_iff _
  · rw [Classical.not_imp] at hin
    obtain ⟨hpart, heq⟩ := flctimeToMytime_over front
      (List.replicate (31 - (cText s).length) nul ++ (next ++ nul :: tail)) hnul hin.1 hin.2
    rw [heq]
    refine .beyond (not_timeText_of_timePart hpart) fun hfits => ?_
    cases hpad : 31 - (cText s).length with
    | succ n =>
      -- the place after the terminator is still in the field, where nothing is
      obtain ⟨x', -, heq', -⟩ := splitTime_at (x := []) (front ++ (cText s ++ [nul]))
        (List.replicate n nul ++ (next ++ nul :: tail)) List.not_mem_nil
      rw [List.nil_append] at heq'
      rw [hpad, List.replicate_succ, List.cons_append, heq'] at hfits
      exact absurd hfits (not_fits_of_restOf rfl)
    | zero =>
      obtain ⟨x', -, heq', hcut⟩ := splitTime_at (front ++ (cText s ++ [nul])) tail hnext
      rw [hpad, List.replicate_zero, List.nil_append, heq'] at hfits
      rw [List.replicate_zero, List.nil_append, heq']
      have hrest : restOf ':' next ≠ [] := fun h => not_fits_of_restOf h hfits
      refine ⟨?_, cText s ++ [nul], x' ++ nul :: tail, ?_, ?_, hcut hrest⟩
      · by_contra hcolon
        have hone : OneToken ':' [] next := oneToken_of_not_mem hcolon
        exact hrest (restOf_last hone)
      · rw [List.length_append, List.length_singleton]
        omega
      · rw [List.append_assoc]

/-- A field with a field or the last bytes behind it. -/
theorem field_append {s : CStr} (hs : (cText s).length ≤ 31) (rest : List Char) :
    field s ++ rest = cText s ++ nul :: (List.replicate (31 - (cText s).length) nul ++ rest) := by
  rw [field_eq hs, List.append_assoc, List.cons_append]

/-- Minutes that were found behind the field have cut the next one. -/
theorem not_fits_next {front next : List Char} {got : DecodedTime × List Char}
    (hcut : got.1.Fits → ':' ∈ next ∧
      ∃ f rest', f.length = 32 ∧ got.2 = front ++ (f ++ rest') ∧ CutTwice rest')
    (hfits : got.1.Fits) : ¬ (flctimeToMytime got.2 (front.length + 32)).1.Fits := by
  obtain ⟨-, f, rest', hlen, hmem, hcut⟩ := hcut hfits
  have hbad := time_after_cut (front ++ f) hcut
  rwa [List.length_append, hlen, List.append_assoc, ← hmem] at hbad

/-- **The nine numbers of a status can be printed exactly when the three texts are times.** -/
theorem flcStatusOfResp_fits_iff (resp : FlcResp) (hcurr : (cText resp.currDtime).length ≤ 31)
    (hstart : (cText resp.startTime).length ≤ 31) (hstop : (cText resp.stopTime).length ≤ 31) :
    (flcStatusOfResp resp).Fits ↔ TimeText (cText resp.currDtime) ∧ TimeText (cText resp.startTime) ∧
      TimeText (cText resp.stopTime) := by
  obtain ⟨flag, tail, hflag, hcolon, hlast⟩ : ∃ flag tail : List Char, nul ∉ flag ∧ ':' ∉ flag ∧
      [if resp.smooth then Char.ofNat 1 else nul, nul, nul, nul] = flag ++ nul :: tail := by
    cases resp.smooth with
    | true => exact ⟨[Char.ofNat 1], [nul, nul], by decide, by decide, rfl⟩
    | false => exact ⟨[], [nul, nul, nul], by decide, by decide, rfl⟩
  have hmem : resp.memory =
      [] ++ (field resp.currDtime ++ (field resp.startTime ++ (field resp.stopTime ++
        (flag ++ nul :: tail)))) := by
    rw [FlcResp.memory, hlast]
    simp only [List.append_assoc, List.nil_append]
  have hfirst : FieldOutcome [] (field resp.startTime ++ (field resp.stopTime ++ (flag ++ nul :: tail)))
      resp.currDtime (cText resp.startTime) (flctimeToMytime resp.memory 0) := by
    rw [hmem]
    exact field_outcome [] hcurr (nul_not_mem_cText resp.startTime) (field_append hstart _)
  show (flctimeToMytime resp.memory 0).1.Fits ∧
    (flctimeToMytime (flctimeToMytime resp.memory 0).2 32).1.Fits ∧
    (flctimeToMytime (flctimeToMytime (flctimeToMytime resp.memory 0).2 32).2 64).1.Fits ↔ _
  generalize flctimeToMytime resp.memory 0 = curr at hfirst
  cases hfirst with
  | beyond htext hcut =>
    refine iff_of_false (fun h => ?_) fun h => htext h.1
    exact not_fits_next hcut h.1 h.2.1
  | within f hlen hm hcurrFits =>
    rw [hcurrFits]
    have hsecond : FieldOutcome f (field resp.stopTime ++ (flag ++ nul :: tail)) resp.startTime
        (cText resp.stopTime) (flctimeToMytime curr.2 32) := by
      rw [hm, List.nil_append, ← hlen]
      exact field_outcome f hstart (nul_not_mem_cText resp.stopTime) (field_append hstop _)
    generalize flctimeToMytime curr.2 32 = start at hsecond
    cases hsecond with
    | beyond htext hcut =>
      refine iff_of_false (fun h => ?_) fun h => htext h.2.1
      have hbad := not_fits_next hcut h.2.1
      rw [hlen] at hbad
      exact hbad h.2.2
    | within f' hlen' hm' hstartFits =>
      rw [hstartFits]
      have hthird : FieldOutcome (f ++ f') (flag ++ nul :: tail) resp.stopTime flag
          (flctimeToMytime start.2 64) := by
        have h64 : (f ++ f').length = 64 := by rw [List.length_append, hlen, hlen']
        rw [hm', ← List.append_assoc, ← h64]
        exact field_outcome (f ++ f') hstop hflag rfl
      cases hthird with
      | within f'' _ _ hstopFits => rw [hstopFits]
      | beyond htext hcut =>
        refine iff_of_false (fun h => ?_) fun h => htext h.2.2
        exact hcolon (hcut h.2.2).1

/-! ## Times as they are written -/

/-- `"h:m:s"`, each number padded with zeros to `w` digits. -/
def clockText (w : Nat) (h m s : UInt32) : CStr :=
  decPad w h.toNat ++ ':' :: (decPad w m.toNat ++ ':' :: decPad w s.toNat)

theorem decPad_ne_nil (w n : Nat) : decPad w n ≠ [] :=
  fun h => dec_ne_nil n (List.append_eq_nil_iff.mp h).2

theorem not_mem_decPad {c : Char} (hc : c.isDigit = false) (w n : Nat) : c ∉ decPad w n :=
  fun h => Bool.noConfusion (hc.symm.trans (isDigit_of_mem_decPad w n c h))

theorem isSpace_of_isDigit {c : Char} (h : c.isDigit = true) : isSpace c = false := by
  obtain ⟨hlo, -⟩ : 48 ≤ c.toNat ∧ c.toNat ≤ 57 := Char.isDigit_iff_toNat.mp h
  rw [isSpace, Bool.or_eq_false_iff, beq_eq_false_iff_ne, Bool.and_eq_false_iff, decide_eq_false_iff_not,
    decide_eq_false_iff_not]
  omega

/-- A text of digits is read to its end. -/
theorem strtol_of_digits {s : CStr} (hne : s ≠ []) (hdigits : ∀ c ∈ s, c.isDigit = true)
    (hle : Nat.ofDigitChars 10 s 0 ≤ 9223372036854775807) : strtol s = Nat.ofDigitChars 10 s 0 := by
  have hscan : scanDec s = some (Nat.ofDigitChars 10 s 0) := by
    unfold scanDec
    rw [List.takeWhile_eq_self_iff.mpr hdigits]
    cases s with
    | nil => exact absurd rfl hne
    | cons c cs => rfl
  unfold strtol
  cases s with
  | nil => exact absurd rfl hne
  | cons c cs =>
    have hc := hdigits c List.mem_cons_self
    rw [List.dropWhile_cons_of_neg (by rw [isSpace_of_isDigit hc]; decide)]
    split
    · next heq =>
      rw [(List.cons.inj heq).1] at hc
      exact absurd hc (by decide)
    · next heq =>
      rw [(List.cons.inj heq).1] at hc
      exact absurd hc (by decide)
    · simp only [hscan, Option.getD_some, Int.ofNat_eq_natCast]
      omega

/-- **Reading a printed number back**: no number of 32 bits is saturated. -/
theorem atoi_decPad (w : Nat) (n : UInt32) : (atoi (decPad w n.toNat)).toUInt32 = n := by
  have hlt := n.toNat_lt
  have hval := ofDigitChars_decPad w n.toNat
  have hstrtol := strtol_of_digits (decPad_ne_nil w n.toNat) (isDigit_of_mem_decPad w n.toNat)
    (by rw [hval]; omega)
  rw [atoi, hstrtol, hval, toUInt32_ofInt_natCast, UInt32.ofNat_toNat]

theorem assigned_decPad (w : Nat) (n : UInt32) : assigned (found (decPad w n.toNat)) = some n := by
  rw [found, if_neg (decPad_ne_nil w _), assigned, Option.map_some, atoi_decPad]

theorem decodedText_clockText (w : Nat) (h m s : UInt32) :
    decodedText (clockText w h m s) = ⟨some h, some m, some s⟩ := by
  have hone (n : UInt32) : OneToken ':' [] (decPad w n.toNat) :=
    oneToken_of_not_mem (not_mem_decPad rfl w _)
  have htok (n : UInt32) (r : CStr) : tokenOf ':' (decPad w n.toNat ++ ':' :: r) = decPad w n.toNat :=
    tokenOf_cut (hone n) (decPad_ne_nil w _) r
  have hrest (n : UInt32) (r : CStr) : restOf ':' (decPad w n.toNat ++ ':' :: r) = r :=
    restOf_cut (hone n) (decPad_ne_nil w _) r
  have hlast : tokenOf ':' (decPad w s.toNat) = decPad w s.toNat := tokenOf_last (hone s)
  simp only [decodedText, clockText, htok, hrest, hlast, assigned_decPad]

theorem not_mem_clockText {c : Char} (hdigit : c.isDigit = false) (hcolon : c ≠ ':') (w : Nat)
    (h m s : UInt32) : c ∉ clockText w h m s := by
  simp only [clockText, List.mem_append, List.mem_cons, not_or]
  exact ⟨not_mem_decPad hdigit w _, hcolon, not_mem_decPad hdigit w _, hcolon, not_mem_decPad hdigit w _⟩

/-- **A time alone, and a time after a date and a space, are decoded to their numbers.** -/
theorem flctimeToMytime_clockText (w : Nat) (h m s : UInt32) (front tail : List Char) :
    (flctimeToMytime (front ++ (clockText w h m s ++ nul :: tail)) front.length).1 =
        ⟨some h, some m, some s⟩ ∧
      ∀ d : CStr, '.' ∈ d → ' ' ∉ d → nul ∉ d →
        (flctimeToMytime (front ++ (d ++ ' ' :: clockText w h m s ++ nul :: tail)) front.length).1 =
          ⟨some h, some m, some s⟩ := by
  have hnul : nul ∉ clockText w h m s := not_mem_clockText rfl (by decide) w h m s
  have hdot : '.' ∉ clockText w h m s := not_mem_clockText rfl (by decide) w h m s
  constructor
  · obtain ⟨-, s', -, heq⟩ := flctimeToMytime_inside front tail hnul
      fun hd => absurd hd hdot
    rw [heq, timePart, if_neg hdot, decodedText_clockText]
  · intro d hd hspace hnd
    have hone : OneToken ' ' [] d := oneToken_of_not_mem hspace
    have hne : d ≠ [] := List.ne_nil_of_mem hd
    have hs : nul ∉ d ++ ' ' :: clockText w h m s := by
      simp only [List.mem_append, List.mem_cons, not_or]
      exact ⟨hnd, by decide, hnul⟩
    have hhead : (d ++ ' ' :: clockText w h m s).head? ≠ some ' ' :=
      fun hc => head_token_append hone hne _ ' ' hc rfl
    have hrest : restOf ' ' (d ++ ' ' :: clockText w h m s) = clockText w h m s := restOf_cut hone hne _
    obtain ⟨-, s', -, heq⟩ := flctimeToMytime_inside front tail hs
      fun _ => List.mem_append_right _ List.mem_cons_self
    rw [heq, timePart, if_pos (List.mem_append_left _ hd), if_neg hhead, hrest, decodedText_clockText]

/-! ## Every accepted reply -/

theorem length_cText_le (root : CJson) (name : String) :
    (cText ((getJsonObjStr root name 32).getD [])).length ≤ 31 := by
  have htake (l : CStr) : (cText l).length ≤ l.length := (List.takeWhile_sublist _).length_le
  unfold getJsonObjStr
  split
  · exact Nat.le_trans (htake _) (List.length_take_le _ _)
  · exact Nat.zero_le _

/-- The three times of a reply, each cut to what its field holds. -/
def replyTimes (root : CJson) : List CStr :=
  ["current_dtime", "start_time", "stop_time"].map fun name =>
    cText ((getJsonObjStr root name 32).getD [])

theorem flcGetStatus_of_answered {first second : LineTry} {root : CJson} {code : Int32} {text : CStr}
    (hans : Answered first second (some root)) (hcode : getJsonObjInt root "result_code" = some code)
    (htext : getJsonObjStr root "result_text" 128 = some text) (status : FlcResp) :
    flcGetStatus first second status = (0, .ofRoot root code text) := by
  obtain rfl | ⟨rfl, rfl⟩ := hans
  · simp only [flcGetStatus, flcStatusTries, FlcResp.jsonToFlcResp, hcode, htext]
  · simp only [flcGetStatus, flcStatusTries, FlcResp.jsonToFlcResp, hcode, htext]

/-- **The times of a reply can be printed exactly when each is a time**: after a date that a
space ends, three numbers below 1000.  What `"h:m:s"` says, alone or after a date, is what it
is decoded to. -/
theorem status_times_iff (first second : LineTry) (root : CJson) (code : Int32)
    (hans : Answered first second (some root)) (hcode : getJsonObjInt root "result_code" = some code)
    (htext : getJsonObjStr root "result_text" 128 = some okText) :
    ((∃ fs, Reply.appGetFlcStatus false first second = .status fs ∧ fs.Fits) ↔
        ∀ s ∈ replyTimes root, TimeText s) ∧
      ∀ (w : Nat) (h m s : UInt32) (front tail : List Char),
        (flctimeToMytime (front ++ (clockText w h m s ++ nul :: tail)) front.length).1 =
            ⟨some h, some m, some s⟩ ∧
          ∀ d : CStr, '.' ∈ d → ' ' ∉ d → nul ∉ d →
            (flctimeToMytime (front ++ (d ++ ' ' :: clockText w h m s ++ nul :: tail)) front.length).1 =
              ⟨some h, some m, some s⟩ := by
  refine ⟨?_, flctimeToMytime_clockText⟩
  have hstatus : Reply.appGetFlcStatus false first second =
      .status (flcStatusOfResp (.ofRoot root code okText)) := by
    unfold Reply.appGetFlcStatus
    rw [flcGetStatus_of_answered hans hcode htext]
    rfl
  have hiff := flcStatusOfResp_fits_iff (.ofRoot root code okText) (length_cText_le root _)
    (length_cText_le root _) (length_cText_le root _)
  simp only [replyTimes, List.map_cons, List.map_nil, List.forall_mem_cons, List.not_mem_nil,
    false_imp_iff, implies_true, and_true]
  constructor
  · rintro ⟨fs, hfs, hfits⟩
    rw [hstatus] at hfs
    cases hfs
    exact hiff.mp hfits
  · intro h
    exact ⟨_, hstatus, hiff.mpr h⟩

/-- A reply with the three times. -/
def timesReply (start : CStr) : CJson :=
  .object [("result_code", .number 0), ("result_text", .string "OK".toList),
    ("current_dtime", .string "01.02.2023 12:13:45".toList), ("start_time", .string start),
    ("stop_time", .string "22:35:00".toList)]

theorem not_fits_of_startTime {fs : FlcStatus} {t : DecodedTime} (ht : fs.startTime = t)
    (hhour : ¬ NumberFits t.hour) : ¬ fs.Fits := by
  rintro ⟨-, hstart, -⟩
  rw [ht] at hstart
  exact hhour (hstart _ List.mem_cons_self)

/-- An empty time assigns nothing, and an hour of four digits does not fit. -/
theorem status_times_do_not_fit :
    (∃ fs, Reply.appGetFlcStatus false (.answer (some (timesReply []))) .noAnswer = .status fs ∧
        fs.startTime = ⟨none, none, none⟩ ∧ ¬ fs.Fits) ∧
      ∃ fs, Reply.appGetFlcStatus false (.answer (some (timesReply "1000:0:0".toList))) .noAnswer =
          .status fs ∧ fs.startTime = ⟨some 1000, some 0, some 0⟩ ∧ ¬ fs.Fits := by
  have hempty : (flcStatusOfResp (.ofRoot (timesReply []) 0 okText)).startTime = ⟨none, none, none⟩ := by
    decide
  have hlong : (flcStatusOfResp (.ofRoot (timesReply "1000:0:0".toList) 0 okText)).startTime =
      ⟨some 1000, some 0, some 0⟩ := by decide
  refine ⟨⟨_, rfl, hempty, not_fits_of_startTime hempty ?_⟩, _, rfl, hlong, not_fits_of_startTime hlong ?_⟩
  · rintro ⟨v, hv, -⟩
    cases hv
  · rintro ⟨v, hv, hfits⟩
    obtain rfl := Option.some.inj hv
    exact absurd hfits (by decide)

/-- A reply with three times that fit, after a first one that cannot be parsed. -/
theorem status_times_fit :
    ∃ fs, Reply.appGetFlcStatus false (.answer none) (.answer (some (timesReply "08:00:00".toList))) =
      .status fs ∧ fs.Fits := by
  have hiff := status_times_iff (.answer none) (.answer (some (timesReply "08:00:00".toList)))
    (timesReply "08:00:00".toList) 0 (.inr ⟨rfl, rfl⟩) rfl rfl
  exact hiff.1.mpr (by unfold TimeText; decide)

end Growbox
