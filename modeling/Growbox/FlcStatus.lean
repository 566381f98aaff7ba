import Growbox.Flc

/-!
# `flc.cpp`: what becomes of a status question

`flc_get_status` asks again when the answer cannot be parsed, like `flc_transcieve`, and
both return 0 after the loop, however it was left.  Every failed decoding clears the
status, so two answers that cannot be parsed end in success with everything zero:
`no_success_invented_iff` says that this is the only way to a success without a reply.
-/

namespace Growbox

/-! ## `json_to_flc_resp` with every field -/

/-- `flc_resp_t` -/
structure FlcResp where
  res : Res
  powerState : CStr
  currDtime : CStr
  startTime : CStr
  stopTime : CStr
  smooth : Bool
  smoothValue : Int32
  chPwr : FlcChPwr
  deriving DecidableEq, Repr

/-- After `memset`. -/
def FlcResp.zero : FlcResp := ⟨⟨0, []⟩, [], [], [], [], false, 0, ⟨0, 0, 0⟩⟩

/-- The fields of an answer; those that are not there stay cleared. -/
def FlcResp.ofRoot (root : CJson) (code : Int32) (text : CStr) : FlcResp where
  res := ⟨code.toInt, text⟩
  powerState := (getJsonObjStr root "power_state" 32).getD []
  currDtime := (getJsonObjStr root "current_dtime" 32).getD []
  startTime := (getJsonObjStr root "start_time" 32).getD []
  stopTime := (getJsonObjStr root "stop_time" 32).getD []
  smooth := (getJsonObjBool root "smooth_control").getD false
  smoothValue := (getJsonObjInt root "smooth_value").getD 0
  chPwr := ⟨(getJsonObjInt root "ch1_power").getD 0, (getJsonObjInt root "ch2_power").getD 0,
    (getJsonObjInt root "ch3_power").getD 0⟩

/-- The error, and the structure as it is left; `jsonToFlcResp` of `Flc` is its result part. -/
def FlcResp.jsonToFlcResp (json : Body) : Option Jerr × FlcResp :=
  match json with
  | none => (some .parserErr, .zero)
  | some root =>
    match getJsonObjInt root "result_code" with
    | none => (some .fieldMissing, .zero)
    | some code =>
      match getJsonObjStr root "result_text" 128 with
      | none => (some .fieldMissing, { FlcResp.zero with res := ⟨code.toInt, []⟩ })
      | some text => (none, .ofRoot root code text)

/-! ## `flc_get_status` -/

/-- The tries, and the structure behind `status`. -/
def flcStatusTries : List LineTry → FlcResp → Int × FlcResp
  | [], status => (0, status)
  | .writeFailed :: _, status => (-1, status)
  | .noAnswer :: _, status => (-2, status)
  | .answer body :: rest, _ =>
    match FlcResp.jsonToFlcResp body with
    | (none, status) => (0, status)
    | (some .parserErr, status) => flcStatusTries rest status
    | (some e, status) => (e.code, status)

/-- `FLC_TRIES_NUM` is 2. -/
def flcGetStatus (first second : LineTry) (status : FlcResp) : Int × FlcResp :=
  flcStatusTries [first, second] status

/-! ## Success and the replies -/

/-- The answers that come: the second is asked for when the first cannot be parsed. -/
def Answered (first second : LineTry) (body : Body) : Prop :=
  first = .answer body ∨ (first = .answer none ∧ second = .answer body)

/-- A status of 0 is that of a reply with a result. -/
def StatusGenuine (first second : LineTry) (status : FlcResp) : Prop :=
  (flcGetStatus first second status).1 = 0 →
    ∃ root, Answered first second (some root) ∧ ∃ code text,
      getJsonObjInt root "result_code" = some code ∧
        getJsonObjStr root "result_text" 128 = some text ∧
        (flcGetStatus first second status).2 = .ofRoot root code text

/-- A result of code 0 is that of a reply with this result. -/
def ResultGenuine (first second : LineTry) (req : FlcReq) : Prop :=
  (flcTranscieve first second req).1.code = 0 →
    ∃ root, Answered first second (some root) ∧ getJsonObjInt root "result_code" = some 0 ∧
      ∃ text, getJsonObjStr root "result_text" 128 = some text ∧
        (flcTranscieve first second req).1 = ⟨0, text⟩

/-- The result part of the full decoder. -/
theorem jsonToFlcResp_eq (json : Body) :
    jsonToFlcResp json =
      match FlcResp.jsonToFlcResp json with
      | (none, resp) => .ok resp.res
      | (some e, _) => .error e := by
  cases json with
  | none => rfl
  | some root =>
    simp only [jsonToFlcResp, FlcResp.jsonToFlcResp, withRoot]
    cases getJsonObjInt root "result_code" with
    | none => rfl
    | some code => cases getJsonObjStr root "result_text" 128 <;> rfl

/-- What a decoding comes to: the text cannot be parsed, a field is missing, or the fields are
those of the root. -/
theorem flcResp_cases (json : Body) :
    (json = none ∧ FlcResp.jsonToFlcResp json = (some .parserErr, .zero)) ∨
      (∃ resp, FlcResp.jsonToFlcResp json = (some .fieldMissing, resp)) ∨
      ∃ root code text, json = some root ∧ getJsonObjInt root "result_code" = some code ∧
        getJsonObjStr root "result_text" 128 = some text ∧
        FlcResp.jsonToFlcResp json = (none, .ofRoot root code text) := by
  cases json with
  | none => exact .inl ⟨rfl, rfl⟩
  | some root =>
    cases hcode : getJsonObjInt root "result_code" with
    | none =>
      refine .inr (.inl ⟨.zero, ?_⟩)
      simp only [FlcResp.jsonToFlcResp, hcode]
    | some code =>
      cases htext : getJsonObjStr root "result_text" 128 with
      | none =>
        refine .inr (.inl ⟨{ FlcResp.zero with res := ⟨code.toInt, []⟩ }, ?_⟩)
        simp only [FlcResp.jsonToFlcResp, hcode, htext]
      | some text =>
        refine .inr (.inr ⟨root, code, text, rfl, hcode, htext, ?_⟩)
        simp only [FlcResp.jsonToFlcResp, hcode, htext]

/-- What one try comes to in both loops: they stop without success, they stop with the reply,
or they go on with a cleared status. -/
inductive TryOutcome (t : LineTry) : Prop where
  | fails (status : ∀ rest status, (flcStatusTries (t :: rest) status).1 ≠ 0)
    (result : ∀ line rest, (flcTries line (t :: rest)).1.code ≠ 0)
  | replies (root : CJson) (code : Int32) (text : CStr) (ht : t = .answer (some root))
    (hcode : getJsonObjInt root "result_code" = some code)
    (htext : getJsonObjStr root "result_text" 128 = some text)
    (status : ∀ rest status, flcStatusTries (t :: rest) status = (0, .ofRoot root code text))
    (result : ∀ line rest, (flcTries line (t :: rest)).1 = ⟨code.toInt, text⟩)
  | unparsed (ht : t = .answer none)

theorem try_outcome (t : LineTry) : TryOutcome t := by
  have hcode : (13 : Int) ≠ 0 := by decide
  cases t with
  | writeFailed => exact .fails (fun _ _ => show (-1 : Int) ≠ 0 by decide) fun _ _ => hcode
  | noAnswer => exact .fails (fun _ _ => show (-2 : Int) ≠ 0 by decide) fun _ _ => hcode
  | answer body =>
    have hres := jsonToFlcResp_eq body
    rcases flcResp_cases body with ⟨rfl, -⟩ | ⟨resp, h⟩ | ⟨root, code, text, rfl, hcode, htext, h⟩
    · exact .unparsed rfl
    · rw [h] at hres
      refine .fails (fun rest status => ?_) fun line rest => ?_
      · simp only [flcStatusTries, h]
        exact Jerr.code_ne_zero _
      · simp only [flcTries, hres]
        exact show (13 : Int) ≠ 0 by decide
    · rw [h] at hres
      refine .replies root code text rfl hcode htext (fun rest status => ?_) fun line rest => ?_
      · simp only [flcStatusTries, h]
      · simp only [flcTries, hres]
        rfl

/-- A try that is not asked again gives a genuine success or none. -/
theorem genuine_of_outcome {t : LineTry} (h : TryOutcome t) (ht : t ≠ .answer none) (line : CJson)
    (rest : List LineTry) (status : FlcResp) :
    ((flcStatusTries (t :: rest) status).1 = 0 → ∃ root, t = .answer (some root) ∧ ∃ code text,
        getJsonObjInt root "result_code" = some code ∧
          getJsonObjStr root "result_text" 128 = some text ∧
          (flcStatusTries (t :: rest) status).2 = .ofRoot root code text) ∧
      ((flcTries line (t :: rest)).1.code = 0 → ∃ root, t = .answer (some root) ∧
        getJsonObjInt root "result_code" = some 0 ∧ ∃ text,
          getJsonObjStr root "result_text" 128 = some text ∧
          (flcTries line (t :: rest)).1 = ⟨0, text⟩) := by
  cases h with
  | fails hstatus hresult =>
    exact ⟨fun h0 => absurd h0 (hstatus rest status), fun h0 => absurd h0 (hresult line rest)⟩
  | replies root code text ht' hcode htext hstatus hresult =>
    refine ⟨fun _ => ⟨root, ht', code, text, hcode, htext, by rw [hstatus]⟩, fun h0 => ?_⟩
    rw [hresult] at h0 ⊢
    obtain rfl : code = 0 := Int32.toInt_inj.mp h0
    exact ⟨root, ht', hcode, text, htext, rfl⟩
  | unparsed ht' => exact absurd ht' ht

/-- **No success is invented, unless neither answer can be parsed.** -/
theorem no_success_invented_iff (first second : LineTry) (req : FlcReq) (status : FlcResp) :
    (StatusGenuine first second status ∧ ResultGenuine first second req) ↔
      ¬ (first = .answer none ∧ second = .answer none) := by
  unfold StatusGenuine ResultGenuine flcGetStatus flcTranscieve
  by_cases hfirst : first = .answer none
  · subst hfirst
    by_cases hsecond : second = .answer none
    · subst hsecond
      refine iff_of_false (fun h => ?_) fun h => h ⟨rfl, rfl⟩
      obtain ⟨root, hroot, -⟩ := h.1 rfl
      rcases hroot with h | ⟨-, h⟩ <;> cases h
    · refine iff_of_true ?_ fun h => hsecond h.2
      obtain ⟨hs, hr⟩ := genuine_of_outcome (try_outcome second) hsecond (flcReqToJson req) [] .zero
      refine ⟨fun h0 => ?_, fun h0 => ?_⟩
      · obtain ⟨root, hroot, hfields⟩ := hs h0
        exact ⟨root, .inr ⟨rfl, hroot⟩, hfields⟩
      · obtain ⟨root, hroot, hfields⟩ := hr h0
        exact ⟨root, .inr ⟨rfl, hroot⟩, hfields⟩
  · refine iff_of_true ?_ fun h => hfirst h.1
    obtain ⟨hs, hr⟩ := genuine_of_outcome (try_outcome first) hfirst (flcReqToJson req) [second] status
    refine ⟨fun h0 => ?_, fun h0 => ?_⟩
    · obtain ⟨root, hroot, hfields⟩ := hs h0
      exact ⟨root, .inl hroot, hfields⟩
    · obtain ⟨root, hroot, hfields⟩ := hr h0
      exact ⟨root, .inl hroot, hfields⟩

/-- Two answers that cannot be parsed: the status is 0 with everything cleared, and so is the
result of a command. -/
theorem unparsed_answers_succeed :
    flcGetStatus (.answer none) (.answer none) .zero = (0, .zero) ∧
      (flcTranscieve (.answer none) (.answer none) .blank).1 = ⟨0, []⟩ ∧
      ¬ StatusGenuine (.answer none) (.answer none) .zero ∧
      ¬ ResultGenuine (.answer none) (.answer none) .blank := by
  refine ⟨rfl, rfl, fun h => ?_, fun h => ?_⟩
  · obtain ⟨root, hroot, -⟩ := h rfl
    rcases hroot with h | ⟨-, h⟩ <;> cases h
  · obtain ⟨root, hroot, -⟩ := h rfl
    rcases hroot with h | ⟨-, h⟩ <;> cases h

end Growbox
