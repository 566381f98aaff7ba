import Growbox.FlcTimes

/-!
# `jsont.c`: the strings of a document in the memory of a structure

`get_json_obj` copies a string that is too long without a terminator, so a field is terminated
because its structure was cleared before.  The three decoders read a list of fields, one after
the other, into the bytes of their structure, and leave at the first required one that is
missing: `json_strings_decoded` says what every character array holds then.
-/

namespace Growbox

/-! ## `get_json_obj` -/

/-- The values of `obj_t` that the three decoders ask for. -/
inductive ObjType where
  | string | integer | boolean
  deriving DecidableEq

/-- The bytes of an `int`, the low one first. -/
def intBytes (v : Int32) : List Char :=
  (List.range 4).map fun i => Char.ofNat (v.toUInt32.toNat / 256 ^ i % 256)

/-- Whether the object was there, and the memory after the copy to `dest`. -/
def getJsonObj (root : CJson) (name : String) (dest destSize : Nat) (type : ObjType)
    (mem : Block Char) : Bool × Block Char :=
  match getObjectItem root name, type with
  | some (.string valuestring), .string =>
    let s := cText valuestring
    if destSize ≠ 0 ∧ destSize < s.length + 1 then (true, mem.write dest (s.take (destSize - 1)))
    else (true, mem.write dest (s ++ [nul]))
  | some (.number valuedouble), .integer => (true, mem.write dest (intBytes (valueint valuedouble)))
  | some (.bool b), .boolean => (true, mem.write dest [if b then Char.ofNat 1 else nul])
  | _, _ => (false, mem)

/-! ## The decoders -/

/-- A read of a field: `required` when it stands in `if (!…) EXIT(J_FIELD_MISSING)`. -/
structure FieldRead where
  required : Bool
  name : String
  dest : Nat
  size : Nat
  type : ObjType
  deriving DecidableEq

/-- `GET_JSON_OBJ_STR`, `GET_JSON_OBJ_INT` and `GET_JSON_OBJ_BOOL` -/
def FieldRead.get (f : FieldRead) (root : CJson) (mem : Block Char) : Bool × Block Char :=
  getJsonObj root f.name f.dest f.size f.type mem

def readFields (root : CJson) : List FieldRead → Block Char → Option Jerr × Block Char
  | [], mem => (none, mem)
  | f :: fs, mem =>
    let got := f.get root mem
    if f.required && !got.1 then (some .fieldMissing, got.2) else readFields root fs got.2

/-- A decoder that first parses the text. -/
def decodeFields (fields : List FieldRead) (json : Body) (mem : Block Char) :
    Option Jerr × Block Char :=
  match json with
  | none => (some .parserErr, mem)
  | some root => readFields root fields mem

/-- `flc_resp_t` is a result of 132 bytes, four texts of 32, a flag and four numbers. -/
def flcRespFields : List FieldRead :=
  [⟨true, "result_code", 0, 4, .integer⟩, ⟨true, "result_text", 4, 128, .string⟩,
    ⟨false, "current_dtime", 164, 32, .string⟩, ⟨false, "start_time", 196, 32, .string⟩,
    ⟨false, "stop_time", 228, 32, .string⟩, ⟨false, "power_state", 132, 32, .string⟩,
    ⟨false, "ch1_power", 268, 4, .integer⟩, ⟨false, "ch2_power", 272, 4, .integer⟩,
    ⟨false, "ch3_power", 276, 4, .integer⟩, ⟨false, "smooth_control", 260, 1, .boolean⟩,
    ⟨false, "smooth_value", 264, 4, .integer⟩]

def lanSettFields : List FieldRead :=
  [⟨true, "ip4", 0, 4, .string⟩, ⟨true, "ip3", 4, 4, .string⟩, ⟨true, "ip2", 8, 4, .string⟩,
    ⟨true, "ip1", 12, 4, .string⟩, ⟨true, "gw4", 16, 4, .string⟩, ⟨true, "gw3", 20, 4, .string⟩,
    ⟨true, "gw2", 24, 4, .string⟩, ⟨true, "gw1", 28, 4, .string⟩, ⟨true, "dhcp", 32, 1, .boolean⟩]

def rtcSettFields : List FieldRead :=
  [⟨false, "hour", 0, 4, .string⟩, ⟨false, "min", 4, 4, .string⟩, ⟨false, "sec", 8, 4, .string⟩,
    ⟨false, "mday", 12, 4, .string⟩, ⟨false, "month", 16, 4, .string⟩, ⟨false, "year", 20, 8, .string⟩]

/-- `memset(ptr, 0, sizeof …)` -/
def memset0 (size : Nat) (mem : Block Char) : Block Char := mem.write 0 (List.replicate size nul)

namespace FieldRead

/-- The decoder clears its target. -/
def jsonToFlcResp (json : Body) (resp : Block Char) : Option Jerr × Block Char :=
  decodeFields flcRespFields json (memset0 280 resp)

def jsonToLanSettings : Body → Block Char → Option Jerr × Block Char := decodeFields lanSettFields

def jsonToRtcSettings : Body → Block Char → Option Jerr × Block Char := decodeFields rtcSettFields

end FieldRead

/-- The decoders, each with the structure it fills. -/
inductive FieldDecoder where
  | flcResp | lanSettings | rtcSettings

namespace FieldDecoder

def fields : FieldDecoder → List FieldRead
  | flcResp => flcRespFields
  | lanSettings => lanSettFields
  | rtcSettings => rtcSettFields

/-- `sizeof` of the structure. -/
def size : FieldDecoder → Nat
  | flcResp => 280
  | lanSettings => 33
  | rtcSettings => 28

/-- The decoder on a target as it is given: the constructors of the settings clear them. -/
def decode (d : FieldDecoder) (json : Body) (target : Block Char) : Option Jerr × Block Char :=
  match d with
  | flcResp => FieldRead.jsonToFlcResp json target
  | lanSettings => FieldRead.jsonToLanSettings json (memset0 33 target)
  | rtcSettings => FieldRead.jsonToRtcSettings json (memset0 28 target)

end FieldDecoder

/-! ## What a field holds -/

namespace FieldRead

/-- The object is there and has the type. -/
def found (f : FieldRead) (root : CJson) : Bool :=
  match getObjectItem root f.name, f.type with
  | some (.string _), .string => true
  | some (.number _), .integer => true
  | some (.bool _), .boolean => true
  | _, _ => false

/-- Every required field of `before` is there: the decoder comes to the next one. -/
def Reached (root : CJson) (before : List FieldRead) : Prop :=
  ∀ r ∈ before, r.required = true → r.found root = true

instance (root : CJson) (before : List FieldRead) : Decidable (Reached root before) :=
  inferInstanceAs (Decidable (∀ r ∈ before, r.required = true → r.found root = true))

/-- What fits of the string of the document, empty if there is none. -/
def value (f : FieldRead) (root : CJson) : CStr :=
  match getObjectItem root f.name with
  | some (.string s) => (cText s).take (f.size - 1)
  | _ => []

/-- The bytes of the field are the text and zeros to its end, at least one of them. -/
def Holds (f : FieldRead) (mem : Block Char) (text : CStr) : Prop :=
  text.length < f.size ∧ ∀ k < f.size, mem.mem (f.dest + k : Nat) = text.getD k nul

/-- A byte is outside the field. -/
def Outside (f : FieldRead) (i : Int) : Prop := i < f.dest ∨ (f.dest + f.size : Nat) ≤ i

end FieldRead

/-! ## One read -/

/-- The number of bytes a value of the type takes at least. -/
def ObjType.bytes : ObjType → Nat
  | string => 1
  | integer => 4
  | boolean => 1

namespace FieldRead

def Fits (f : FieldRead) : Prop := f.type.bytes ≤ f.size

section
variable {f : FieldRead} (root : CJson) (mem : Block Char)

/-- A terminator is what is read past the end anyway. -/
theorem getD_append_nul (text : CStr) (k : Nat) : (text ++ [nul]).getD k nul = text.getD k nul := by
  rw [List.getD_eq_getElem?_getD, List.getD_eq_getElem?_getD, List.getElem?_append]
  split
  · rfl
  · next h =>
    rw [List.getElem?_eq_none (Nat.le_of_not_lt h)]
    cases k - text.length <;> rfl

/-- A text over a cleared field, with or without its terminator. -/
theorem holds_write {mem : Block Char} {text piece : CStr}
    (hclear : ∀ k < f.size, mem.mem (f.dest + k : Nat) = nul) (hlen : text.length < f.size)
    (hpiece : piece = text ∨ piece = text ++ [nul]) : f.Holds (mem.write f.dest piece) text := by
  refine ⟨hlen, fun k hk => ?_⟩
  have hcell : (mem.write f.dest piece).mem (f.dest + k : Nat) = piece.getD k nul := by
    rw [List.getD_eq_getElem?_getD]
    rcases Nat.lt_or_ge k piece.length with hlt | hge
    · rw [Int.natCast_add, Block.mem_write_inside _ _ _ hlt, List.getElem?_eq_getElem hlt]
      rfl
    · rw [Block.mem_write_outside _ _ _ (.inr (by omega)), List.getElem?_eq_none hge]
      exact hclear k hk
  rw [hcell]
  rcases hpiece with rfl | rfl
  · rfl
  · exact getD_append_nul text k

/-- What a read comes to: nothing, or the bytes of one value. -/
theorem get_cases (hfits : f.Fits) :
    f.get root mem = (false, mem) ∨
      ∃ piece, piece.length ≤ f.size ∧ f.get root mem = (true, mem.write f.dest piece) := by
  unfold get getJsonObj
  unfold Fits at hfits
  split
  · next htype =>
    rw [htype] at hfits
    have hpos : 1 ≤ f.size := hfits
    by_cases h : f.size ≠ 0 ∧ f.size < (cText ‹_›).length + 1
    · rw [if_pos h]
      refine .inr ⟨_, ?_, rfl⟩
      rw [List.length_take]
      omega
    · rw [if_neg h]
      refine .inr ⟨_, ?_, rfl⟩
      rw [List.length_append, List.length_singleton]
      omega
  · next htype =>
    rw [htype] at hfits
    refine .inr ⟨_, ?_, rfl⟩
    exact hfits
  · next htype =>
    rw [htype] at hfits
    refine .inr ⟨_, ?_, rfl⟩
    exact hfits
  · exact .inl rfl

/-- **A read changes no byte outside its field.** -/
theorem get_outside (hfits : f.Fits) {i : Int} (hi : f.Outside i) :
    (f.get root mem).2.mem i = mem.mem i := by
  rcases get_cases root mem hfits with h | ⟨piece, hlen, h⟩
  · rw [h]
  · rw [h]
    refine Block.mem_write_outside _ _ _ ?_
    unfold Outside at hi
    omega

/-- The result of a read. -/
theorem get_fst : (f.get root mem).1 = f.found root := by
  unfold get getJsonObj found
  split
  · dsimp only
    split <;> rfl
  · rfl
  · rfl
  · rfl

/-- **A string is read into a cleared field** and leaves a terminator, cut or not. -/
theorem get_holds (htype : f.type = .string) (hfits : f.Fits)
    (hclear : ∀ k < f.size, mem.mem (f.dest + k : Nat) = nul) :
    f.Holds (f.get root mem).2 (f.value root) := by
  have hpos : 1 ≤ f.size := by
    rw [Fits, htype] at hfits
    exact hfits
  have hnone : f.Holds mem [] := ⟨hpos, hclear⟩
  unfold get getJsonObj value
  rw [htype]
  cases getObjectItem root f.name with
  | none => exact hnone
  | some obj =>
    cases obj with
    | string valuestring =>
      by_cases hcut : f.size ≠ 0 ∧ f.size < (cText valuestring).length + 1
      · simp only [if_pos hcut]
        exact holds_write hclear (by rw [List.length_take]; omega) (.inl rfl)
      · simp only [if_neg hcut]
        have htake : (cText valuestring).take (f.size - 1) = cText valuestring :=
          List.take_of_length_le (by omega)
        rw [htake]
        exact holds_write hclear (by omega) (.inr rfl)
    | null | bool | number | array | object => exact hnone

end

end FieldRead

/-! ## A run of reads -/

open FieldRead

/-- Only bytes of the fields differ. -/
def SameOutside (fields : List FieldRead) (mem mem' : Block Char) : Prop :=
  ∀ i : Int, (∀ f ∈ fields, f.Outside i) → mem'.mem i = mem.mem i

theorem sameOutside_get {f : FieldRead} (hfits : f.Fits) (root : CJson) (mem : Block Char) :
    SameOutside [f] mem (f.get root mem).2 :=
  fun _ hi => f.get_outside root mem hfits (hi f List.mem_cons_self)

theorem SameOutside.trans {fs gs : List FieldRead} {mem mem' mem'' : Block Char}
    (h : SameOutside fs mem mem') (h' : SameOutside gs mem' mem'') : SameOutside (fs ++ gs) mem mem'' := by
  intro i hi
  rw [h' i fun g hg => hi g (List.mem_append_right _ hg), h i fun f hf => hi f (List.mem_append_left _ hf)]

/-- **A run** writes nothing outside its fields, comes past `before` when no required field of
it is missing, and stops within it otherwise. -/
theorem readFields_append (root : CJson) (before after : List FieldRead) (hfits : ∀ f ∈ before, f.Fits)
    (mem : Block Char) :
    (Reached root before → ∃ mem', SameOutside before mem mem' ∧
        readFields root (before ++ after) mem = readFields root after mem') ∧
      (¬ Reached root before → (readFields root (before ++ after) mem).1 = some .fieldMissing ∧
        SameOutside before mem (readFields root (before ++ after) mem).2) := by
  induction before generalizing mem with
  | nil => exact ⟨fun _ => ⟨mem, fun _ _ => rfl, rfl⟩, fun h => absurd (fun _ hr => by cases hr) h⟩
  | cons f before ih =>
    rw [List.forall_mem_cons] at hfits
    have hget := sameOutside_get hfits.1 root mem
    obtain ⟨ihreached, ihleft⟩ := ih hfits.2 (f.get root mem).2
    have hreached : Reached root (f :: before) ↔
        (f.required = true → f.found root = true) ∧ Reached root before := List.forall_mem_cons
    have hstep : readFields root (f :: before ++ after) mem =
        if f.required && !(f.get root mem).1 then (some .fieldMissing, (f.get root mem).2)
        else readFields root (before ++ after) (f.get root mem).2 := rfl
    rw [hreached, hstep, f.get_fst]
    by_cases hmissing : (f.required && !f.found root) = true
    · rw [if_pos hmissing]
      rw [Bool.and_eq_true, Bool.not_eq_true'] at hmissing
      refine ⟨fun h => absurd (h.1 hmissing.1) (by rw [hmissing.2]; decide), fun _ => ⟨rfl, fun i hi => ?_⟩⟩
      exact hget i fun g hg => hi g (List.mem_singleton.mp hg ▸ List.mem_cons_self)
    · rw [if_neg hmissing]
      have hhere : f.required = true → f.found root = true := by
        simpa using hmissing
      refine ⟨fun h => ?_, fun h => ?_⟩
      · obtain ⟨mem', hsame, hrun⟩ := ihreached h.2
        exact ⟨mem', hget.trans hsame, hrun⟩
      · obtain ⟨hres, hsame⟩ := ihleft fun h' => h ⟨hhere, h'⟩
        exact ⟨hres, hget.trans hsame⟩

theorem readFields_outside (root : CJson) {fields : List FieldRead} (hfits : ∀ f ∈ fields, f.Fits)
    (mem : Block Char) : SameOutside fields mem (readFields root fields mem).2 := by
  obtain ⟨hpast, hleft⟩ := readFields_append root fields [] hfits mem
  rw [List.append_nil] at hpast hleft
  by_cases h : Reached root fields
  · obtain ⟨mem', hsame, hrun⟩ := hpast h
    rw [hrun]
    exact hsame
  · exact (hleft h).2

/-- A run is a success exactly when no required field is missing. -/
theorem readFields_ok_iff (root : CJson) {fields : List FieldRead} (hfits : ∀ f ∈ fields, f.Fits)
    (mem : Block Char) : (readFields root fields mem).1 = none ↔ Reached root fields := by
  obtain ⟨hpast, hleft⟩ := readFields_append root fields [] hfits mem
  rw [List.append_nil] at hpast hleft
  by_cases h : Reached root fields
  · obtain ⟨mem', -, hrun⟩ := hpast h
    rw [hrun]
    exact iff_of_true rfl h
  · rw [(hleft h).1]
    exact iff_of_false (Option.some_ne_none _) h

/-- The fields have room for their values and do not overlap. -/
structure WellLaid (fields : List FieldRead) : Prop where
  fits : ∀ f ∈ fields, f.Fits
  apart : fields.Pairwise fun f g => f.dest + f.size ≤ g.dest ∨ g.dest + g.size ≤ f.dest

/-- **What a string field holds after a run** over cleared memory. -/
theorem readFields_holds {before after : List FieldRead} {f : FieldRead}
    (hlaid : WellLaid (before ++ f :: after)) (htype : f.type = .string) (root : CJson)
    {mem : Block Char} (hclear : ∀ k < f.size, mem.mem (f.dest + k : Nat) = nul) :
    f.Holds (readFields root (before ++ f :: after) mem).2
      (if Reached root before then f.value root else []) := by
  obtain ⟨hfits, hapart⟩ := hlaid
  rw [List.forall_mem_append, List.forall_mem_cons] at hfits
  obtain ⟨hbefore, hf, hafter⟩ := hfits
  obtain ⟨-, hrest, hcross⟩ := List.pairwise_append.mp hapart
  have hcell {k : Nat} (hk : k < f.size) :
      (∀ g ∈ before, g.Outside (f.dest + k : Nat)) ∧ ∀ g ∈ after, g.Outside (f.dest + k : Nat) := by
    refine ⟨fun g hg => ?_, fun g hg => ?_⟩
    · have := hcross g hg f List.mem_cons_self
      unfold Outside
      omega
    · have := (List.pairwise_cons.mp hrest).1 g hg
      unfold Outside
      omega
  obtain ⟨hpast, hleft⟩ := readFields_append root before (f :: after) hbefore mem
  by_cases h : Reached root before
  · obtain ⟨mem', hsame, hrun⟩ := hpast h
    have hclear' : ∀ k < f.size, mem'.mem (f.dest + k : Nat) = nul :=
      fun k hk => (hsame _ (hcell hk).1).trans (hclear k hk)
    obtain ⟨hlen, hread⟩ := f.get_holds root mem' htype hf hclear'
    rw [if_pos h, hrun]
    refine ⟨hlen, fun k hk => Eq.trans ?_ (hread k hk)⟩
    unfold readFields
    dsimp only
    split
    · rfl
    · exact readFields_outside root hafter _ _ (hcell hk).2
  · rw [if_neg h]
    refine ⟨Nat.lt_of_lt_of_le Nat.zero_lt_one ?_, ?_⟩
    · rw [Fits, htype] at hf
      exact hf
    · exact fun k hk => ((hleft h).2 _ (hcell hk).1).trans (hclear k hk)

/-! ## The three decoders -/

namespace FieldDecoder

instance (f : FieldRead) : Decidable f.Fits := inferInstanceAs (Decidable (_ ≤ _))

theorem wellLaid (d : FieldDecoder) : WellLaid d.fields := by
  cases d <;> exact ⟨by decide, by decide⟩

/-- Every field is inside its structure. -/
theorem field_within (d : FieldDecoder) : ∀ f ∈ d.fields, f.dest + f.size ≤ d.size := by
  cases d <;> decide

theorem memset0_mem (size : Nat) (mem : Block Char) {i : Nat} (hi : i < size) :
    (memset0 size mem).mem i = nul := by
  have hlen : i < (List.replicate size nul).length := by rwa [List.length_replicate]
  have hcell := Block.mem_write_inside mem 0 _ hlen
  rw [Int.zero_add, List.getElem_replicate] at hcell
  exact hcell

/-- A decoder reads its fields into cleared memory. -/
theorem decode_eq (d : FieldDecoder) (root : CJson) (target : Block Char) :
    d.decode (some root) target = readFields root d.fields (memset0 d.size target) := by
  cases d <;> rfl

end FieldDecoder

namespace FieldRead

section
variable (f : FieldRead) (root : CJson)

theorem found_string (htype : f.type = .string) :
    f.found root = (getJsonObjStr root f.name f.size).isSome := by
  unfold found getJsonObjStr
  rw [htype]
  split <;> simp_all

theorem found_integer (htype : f.type = .integer) :
    f.found root = (getJsonObjInt root f.name).isSome := by
  unfold found getJsonObjInt
  rw [htype]
  split <;> simp_all

theorem found_boolean (htype : f.type = .boolean) :
    f.found root = (getJsonObjBool root f.name).isSome := by
  unfold found getJsonObjBool
  rw [htype]
  split <;> simp_all

/-- The array holds the text that `getJsonObjStr` gives, up to a terminator in it. -/
theorem value_eq_cText : f.value root = cText ((getJsonObjStr root f.name f.size).getD []) := by
  unfold value getJsonObjStr
  cases getObjectItem root f.name with
  | none => rfl
  | some obj =>
    cases obj with
    | string s => exact List.take_takeWhile
    | null | bool | number | array | object => rfl

end

end FieldRead

/-- A decoder goes on past a required member exactly when it is there. -/
theorem required_bind_isOk_iff {α β : Type} {o : Option α} {k : α → Except Jerr β} :
    (∃ b, (required o >>= k) = .ok b) ↔ ∃ a, o = some a ∧ ∃ b, k a = .ok b := by
  simp only [required_bind_ok_iff]
  constructor
  · rintro ⟨b, a, ha, hb⟩
    exact ⟨a, ha, b, hb⟩
  · rintro ⟨a, ha, b, hb⟩
    exact ⟨b, a, ha, hb⟩

/-- The settings are decoded exactly when the run comes to its end. -/
theorem reached_lanSettFields_iff (root : CJson) :
    Reached root lanSettFields ↔ ∃ lan, jsonToLanSettings (some root) = .ok lan := by
  unfold jsonToLanSettings withRoot
  simp only [required_bind_isOk_iff, Reached, lanSettFields, List.forall_mem_cons, true_imp_iff,
    found_string, found_boolean, Option.isSome_iff_exists]
  simp [pure, Except.pure]

/-- A reply is decoded exactly when the run comes to its end. -/
theorem reached_flcRespFields_iff (root : CJson) :
    Reached root flcRespFields ↔ (FlcResp.jsonToFlcResp (some root)).1 = none := by
  have hreached : Reached root flcRespFields ↔
      (getJsonObjInt root "result_code").isSome = true ∧
        (getJsonObjStr root "result_text" 128).isSome = true := by
    simp [Reached, flcRespFields, found_string, found_integer]
  rw [hreached]
  simp only [FlcResp.jsonToFlcResp]
  cases getJsonObjInt root "result_code" with
  | none => simp
  | some code => cases getJsonObjStr root "result_text" 128 <;> simp

end Growbox
