import Growbox.PrintedTimes

/-!
# `flc.cpp`: commands to the lamp controller

A command is a request structure whose values are `-1` where nothing is asked,
encoded without them and sent as one line.  A negative value in a body is taken
for one that is absent, and a body without any is sent as `{}`, which the
controller answers as a question about its state.  `flc_carries_iff` says when the
line carries what the body asked for.  The handlers are those of `AppLocks` with
their replies.
-/

namespace Growbox

/-! ## The line -/

/-- `cJSON_CreateNumber` of an `int`. -/
def intNumber (n : Int32) : CJson := .number (n.toInt : Rat)

/-- `if (…) cJSON_Add…ToObject(root, name, …)` -/
def addIf (given : Bool) (name : String) (v : CJson) : List (String × CJson) :=
  if given then [(name, v)] else []

/-- `flc_req_to_json`: a text is given when it is not empty, a number when it is not negative. -/
def flcReqToJson (req : FlcReq) : CJson :=
  .object
    (addIf (!req.currTime.isEmpty) "current_time" (.string req.currTime) ++
      addIf (!req.startTime.isEmpty) "start_time" (.string req.startTime) ++
      addIf (!req.stopTime.isEmpty) "stop_time" (.string req.stopTime) ++
      addIf (decide (0 ≤ req.chPwr.ch1)) "ch1_power" (intNumber req.chPwr.ch1) ++
      addIf (decide (0 ≤ req.chPwr.ch2)) "ch2_power" (intNumber req.chPwr.ch2) ++
      addIf (decide (0 ≤ req.chPwr.ch3)) "ch3_power" (intNumber req.chPwr.ch3) ++
      (if 0 < req.smooth then [("smooth_control", .bool true)]
        else addIf (req.smooth == 0) "smooth_control" (.bool false)) ++
      addIf (decide (0 ≤ req.smoothValue)) "smooth_value" (intNumber req.smoothValue))

/-! ## The exchange -/

/-- One of the tries: the line cannot be written, no answer comes, or an answer does. -/
inductive LineTry where
  | writeFailed
  | noAnswer
  | answer (body : Body)

/-- The result part of an answer. -/
def jsonToFlcResp (json : Body) : Except Jerr Res :=
  withRoot json fun root => do
    let code ← required (getJsonObjInt root "result_code")
    let text ← required (getJsonObjStr root "result_text" 128)
    return ⟨code.toInt, text⟩

def flcFailed : Res := ⟨13, "flc_transcieve() failed".toList⟩

/-- An answer that cannot be parsed is asked for again; after the last one the result is
what `json_to_flc_resp` has zeroed.  With the result go the lines written. -/
def flcTries (line : CJson) : List LineTry → Res × List CJson
  | [] => (⟨0, []⟩, [])
  | .writeFailed :: _ => (flcFailed, [])
  | .noAnswer :: _ => (flcFailed, [line])
  | .answer body :: rest =>
    match jsonToFlcResp body with
    | .ok res => (res, [line])
    | .error .parserErr => ((flcTries line rest).1, line :: (flcTries line rest).2)
    | .error _ => (flcFailed, [line])

/-- `FLC_TRIES_NUM` is 2. -/
def flcTranscieve (first second : LineTry) (req : FlcReq) : Res × List CJson :=
  flcTries (flcReqToJson req) [first, second]

def flcSetChpwr (first second : LineTry) (chPwr : FlcChPwr) : Res × List CJson :=
  flcTranscieve first second { FlcReq.blank with chPwr }

/-- The controller has a 16-bit timer. -/
def flcSetSmoothValue (first second : LineTry) (smoothValue : Int32) : Res × List CJson :=
  flcTranscieve first second
    { FlcReq.blank with smoothValue := if 65535 < smoothValue then 65535 else smoothValue }

/-! ## The handlers -/

def Reply.appSetFlcChPwr (first second : LineTry) (json : Body) : Res × List CJson :=
  match jsonToFlcChPwr json with
  | .error e => (⟨-2, jsontGetErrText e⟩, [])
  | .ok chPwr => flcSetChpwr first second chPwr

def Reply.appSetFlcSmoothValue (first second : LineTry) (json : Body) : Res × List CJson :=
  match jsonToFlcSmoothValue json with
  | .error e => (⟨-2, jsontGetErrText e⟩, [])
  | .ok smoothValue => flcSetSmoothValue first second smoothValue

/-! ## What is asked and what is sent -/

/-- The two commands that carry numbers. -/
inductive FlcOp where
  | chPower | smoothValue
  deriving DecidableEq, Repr

namespace FlcOp

/-- The fields a body can name. -/
def keys : FlcOp → List String
  | .chPower => ["ch1_power", "ch2_power", "ch3_power"]
  | .smoothValue => ["smooth_value"]

def serve (first second : LineTry) (json : Body) : FlcOp → Res × List CJson
  | .chPower => Reply.appSetFlcChPwr first second json
  | .smoothValue => Reply.appSetFlcSmoothValue first second json

/-- The decoder accepts the body. -/
def Accepts (root : CJson) : FlcOp → Prop
  | .chPower => ∃ chPwr, jsonToFlcChPwr (some root) = .ok chPwr
  | .smoothValue => ∃ v, jsonToFlcSmoothValue (some root) = .ok v

/-- The fields present as numbers, with their values. -/
def asked (op : FlcOp) (root : CJson) : List (String × Int32) :=
  op.keys.filterMap fun key => (getJsonObjInt root key).map (Prod.mk key)

/-- The value as it goes on the line. -/
def limited : FlcOp → Int32 → Int32
  | .chPower, v => v
  | .smoothValue, v => min v 65535

/-- Some field is named, and none with a negative value. -/
def Askable (op : FlcOp) (root : CJson) : Prop :=
  op.asked root ≠ [] ∧ ∀ a ∈ op.asked root, 0 ≤ a.2

/-- A body that can be asked goes on the line as it is, as often as it is written; any other is
answered with an error and not sent. -/
def Carries (op : FlcOp) (root : CJson) (first second : LineTry) : Prop :=
  let r := op.serve first second (some root)
  (op.Askable root → (first ≠ .writeFailed → r.2 ≠ []) ∧
      ∀ line ∈ r.2, line = .object ((op.asked root).map fun a => (a.1, intNumber (op.limited a.2)))) ∧
    (¬ op.Askable root → r.1.code ≠ 0 ∧ r.2 = [])

end FlcOp

/-! ## Lemmas -/

theorem flcTries_line (line : CJson) (tries : List LineTry) :
    ∀ l ∈ (flcTries line tries).2, l = line := by
  induction tries with
  | nil => exact fun l h => absurd h List.not_mem_nil
  | cons t rest ih =>
    cases t with
    | writeFailed => exact fun l h => absurd h List.not_mem_nil
    | noAnswer => exact fun l h => List.mem_singleton.mp h
    | answer body =>
      unfold flcTries
      split
      · exact fun l h => List.mem_singleton.mp h
      · exact List.forall_mem_cons.mpr ⟨rfl, ih⟩
      · exact fun l h => List.mem_singleton.mp h

/-- The line is written unless the first write fails. -/
theorem flcTranscieve_sent {first : LineTry} (h : first ≠ .writeFailed) (second : LineTry)
    (req : FlcReq) : (flcTranscieve first second req).2 ≠ [] := by
  cases first with
  | writeFailed => exact absurd rfl h
  | noAnswer => exact List.cons_ne_nil _ _
  | answer body =>
    unfold flcTranscieve flcTries
    split <;> exact List.cons_ne_nil _ _

/-- The request a command sends. -/
def FlcOp.request (root : CJson) : FlcOp → FlcReq
  | .chPower => { FlcReq.blank with
      chPwr := ⟨(getJsonObjInt root "ch1_power").getD (-1), (getJsonObjInt root "ch2_power").getD (-1),
        (getJsonObjInt root "ch3_power").getD (-1)⟩ }
  | .smoothValue =>
    let v := (getJsonObjInt root "smooth_value").getD (-1)
    { FlcReq.blank with smoothValue := if 65535 < v then 65535 else v }

theorem FlcOp.serve_eq {op : FlcOp} {root : CJson} (h : op.Accepts root) (first second : LineTry) :
    op.serve first second (some root) = flcTranscieve first second (op.request root) := by
  cases op with
  | chPower => rfl
  | smoothValue =>
    obtain ⟨v, hv⟩ := h
    show Reply.appSetFlcSmoothValue first second (some root) = _
    unfold Reply.appSetFlcSmoothValue
    rw [hv]
    have hget : getJsonObjInt root "smooth_value" = some v := required_ok_iff.mp hv
    simp only [FlcOp.request, hget, Option.getD_some]
    rfl

theorem addIf_getD {name : String} {o : Option Int32} (h : ∀ v, o = some v → 0 ≤ v) :
    addIf (decide (0 ≤ o.getD (-1))) name (intNumber (o.getD (-1))) =
      (o.map fun v => (name, intNumber v)).toList := by
  cases o with
  | none => rfl
  | some v =>
    have hv : 0 ≤ v := h v rfl
    simp [addIf, hv]

@[simp] theorem addIf_false (name : String) (v : CJson) : addIf false name v = [] := rfl

@[simp] theorem addIf_true (name : String) (v : CJson) : addIf true name v = [(name, v)] := rfl

theorem flcReqToJson_chPwr (chPwr : FlcChPwr) :
    flcReqToJson { FlcReq.blank with chPwr } =
      .object (addIf (decide (0 ≤ chPwr.ch1)) "ch1_power" (intNumber chPwr.ch1) ++
        addIf (decide (0 ≤ chPwr.ch2)) "ch2_power" (intNumber chPwr.ch2) ++
        addIf (decide (0 ≤ chPwr.ch3)) "ch3_power" (intNumber chPwr.ch3)) := by
  simp [flcReqToJson, FlcReq.blank]

theorem flcReqToJson_smoothValue (smoothValue : Int32) :
    flcReqToJson { FlcReq.blank with smoothValue } =
      .object (addIf (decide (0 ≤ smoothValue)) "smooth_value" (intNumber smoothValue)) := by
  simp [flcReqToJson, FlcReq.blank]

theorem limited_smoothValue (v : Int32) :
    FlcOp.smoothValue.limited v = if 65535 < v then 65535 else v := by
  show (if v ≤ 65535 then v else 65535) = _
  by_cases h : 65535 < v
  · rw [if_pos h, if_neg (Int32.not_le.mpr h)]
  · rw [if_neg h, if_pos (Int32.not_lt.mp h)]

/-- Where nothing negative is named, the line of the command has what is asked. -/
theorem FlcOp.line_eq {op : FlcOp} {root : CJson} (h : ∀ a ∈ op.asked root, 0 ≤ a.2) :
    flcReqToJson (op.request root) =
      .object ((op.asked root).map fun a => (a.1, intNumber (op.limited a.2))) := by
  have hkey {key : String} (hk : key ∈ op.keys) (v : Int32) (hv : getJsonObjInt root key = some v) :
      0 ≤ v := h (key, v) (List.mem_filterMap.mpr ⟨key, hk, by rw [hv]; rfl⟩)
  cases op with
  | chPower =>
    have h1 : ∀ v, getJsonObjInt root "ch1_power" = some v → 0 ≤ v := hkey (by decide)
    have h2 : ∀ v, getJsonObjInt root "ch2_power" = some v → 0 ≤ v := hkey (by decide)
    have h3 : ∀ v, getJsonObjInt root "ch3_power" = some v → 0 ≤ v := hkey (by decide)
    simp only [FlcOp.request, flcReqToJson_chPwr, addIf_getD h1, addIf_getD h2, addIf_getD h3,
      FlcOp.asked, FlcOp.keys, List.filterMap_cons, List.filterMap_nil]
    cases getJsonObjInt root "ch1_power" <;> cases getJsonObjInt root "ch2_power" <;>
      cases getJsonObjInt root "ch3_power" <;> rfl
  | smoothValue =>
    have hv : ∀ v, getJsonObjInt root "smooth_value" = some v → 0 ≤ v := hkey (by decide)
    simp only [FlcOp.request, FlcOp.asked, FlcOp.keys, flcReqToJson_smoothValue,
      List.filterMap_cons, List.filterMap_nil]
    cases hget : getJsonObjInt root "smooth_value" with
    | none => rfl
    | some v =>
      have hnonneg : 0 ≤ FlcOp.smoothValue.limited v := by
        rw [limited_smoothValue]
        split
        · decide
        · exact hv v hget
      simp only [Option.getD_some, Option.map_some, List.map_cons, List.map_nil,
        ← limited_smoothValue, hnonneg, decide_true, addIf_true]

/-- **A command carries what the body asks for exactly when some field is named and none of
them negative**, however the lamp answers. -/
theorem flc_carries_iff (op : FlcOp) (root : CJson) :
    (op.Accepts root → ∀ first second, op.Carries root first second) ↔
      (op.Accepts root → op.Askable root) := by
  refine imp_congr_right fun hacc => ?_
  constructor
  · intro h
    by_contra hask
    -- a line that no answer comes to has been sent all the same
    have hsent := ((h .noAnswer .noAnswer).2 hask).2
    rw [FlcOp.serve_eq hacc] at hsent
    exact flcTranscieve_sent (by simp) _ _ hsent
  · intro hask first second
    refine ⟨fun _ => ⟨fun hw => ?_, fun line hline => ?_⟩, fun hno => absurd hask hno⟩
    · rw [FlcOp.serve_eq hacc]
      exact flcTranscieve_sent hw second _
    · rw [FlcOp.serve_eq hacc] at hline
      rw [← FlcOp.line_eq hask.2]
      exact flcTries_line _ _ line hline

/-- `{"ch1_power":-5}` becomes `{}`, and the answer to that question is the reply. -/
theorem negative_power_asks_for_status :
    Reply.appSetFlcChPwr (.answer (some (.object [("result_code", .number 0), ("result_text", .string okText)])))
        .noAnswer (some (.object [("ch1_power", .number (-5))])) = (⟨0, okText⟩, [.object []]) ∧
      ¬ FlcOp.chPower.Carries (.object [("ch1_power", .number (-5))]) .noAnswer .noAnswer := by
  refine ⟨rfl, fun h => ?_⟩
  have hneg : ¬ FlcOp.chPower.Askable (.object [("ch1_power", .number (-5))]) :=
    fun hask => absurd (hask.2 ("ch1_power", -5) (List.mem_cons_self)) (by decide)
  cases (h.2 hneg).2

end Growbox
