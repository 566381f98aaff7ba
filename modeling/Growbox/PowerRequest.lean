import Growbox.App

/-!
# The powers of a request (`app_save_coolers_power`)

`coolers_pwr_t` starts with -1 in both fields, and -1 stands for a power that the body
does not name.  The second member is read only when the first is not there, a body
can send -1 itself, and the `int` becomes a `uint8_t` before anything compares it with
100.  `powers_as_named_iff` says which requests come through all three.
-/

namespace Growbox

open Decimal

/-! ## What is asked for -/

/-- The member of the body that names a cooler. -/
def windKey : Cooler → String
  | .input => "wind_in"
  | .output => "wind_out"

/-- The power the body asks for, when the cooler is named by a number. -/
def askedPower (root : CJson) (c : Cooler) : Option Int32 := getJsonObjInt root (windKey c)

/-- Limited to 0..100. -/
def limitedPower (v : Int32) : Nat := (max 0 (min v.toInt 100)).toNat

/-! ## What is stored -/

/-- The power column of the table, row by row. -/
def Mydb.powerColumn (db : Mydb) (c : Cooler) : Option (List SqlVal) :=
  db.sysConfig.map fun rows => rows.map fun row => row (powerCol c)

/-- Memory and every row of the table hold the power. -/
def StoredPower (srv : Server) (c : Cooler) (p : Nat) : Prop :=
  (srv.app.clPower c).toNat = p ∧
    ∃ col, srv.db.powerColumn c = some col ∧ ∀ v ∈ col, v = .integer p

/-- Neither the stored power of a cooler nor its duty has changed. -/
structure PowerKept (srv srv' : Server) (c : Cooler) : Prop where
  memory : srv'.app.clPower c = srv.app.clPower c
  column : srv'.db.powerColumn c = srv.db.powerColumn c
  duty : duty srv'.regs c = duty srv.regs c

/-- Every cooler the body names holds what is asked for and every other is left alone; or
a power is out of range and the request is refused. -/
def PowersAsNamed (root : CJson) (srv : Server) (out : Res × Server) : Prop :=
  ((∀ c v, askedPower root c = some v → StoredPower out.2 c (limitedPower v)) ∧
      ∀ c, askedPower root c = none → PowerKept srv out.2 c) ∨
    ((∃ c v, askedPower root c = some v ∧ ¬ (0 ≤ v.toInt ∧ v.toInt ≤ 100)) ∧
      out.1.text ≠ okText ∧ out.2 = srv)

/-- The low byte of the number is the number limited to 0..100. -/
def LowByteLimits (v : Int32) : Prop := v.toInt % 256 = max 0 (min v.toInt 100)

instance (v : Int32) : Decidable (LowByteLimits v) :=
  inferInstanceAs (Decidable (v.toInt % 256 = max 0 (min v.toInt 100)))

/-- The requests that are served as they should: one cooler is named, by a power whose
low byte is right.  With both named the output cooler must have its power already; a
negative power for the input cooler goes to the output cooler as 255, which must not
change anything. -/
def PowersFit (root : CJson) (srv : Server) : Prop :=
  match askedPower root .input, askedPower root .output with
  | none, none => True
  | none, some out => LowByteLimits out
  | some «in», none =>
    (0 ≤ «in».toInt ∧ LowByteLimits «in») ∨
      («in».toInt < 0 ∧ StoredPower srv .input 0 ∧ StoredPower srv .output 255 ∧
        (srv.app.clOn .output = true → duty srv.regs .output = 100))
  | some «in», some out =>
    0 ≤ «in».toInt ∧ LowByteLimits «in» ∧ StoredPower srv .output (limitedPower out)

/-! ## One branch -/

section
variable {srv : Server} (hdb : ¬ srv.db.UpdateFails true) (res0 : Int) (c : Cooler) (p : UInt8)
include hdb

/-- With the database and the bus working, a branch stores its power and sends it to a
cooler that is on. -/
theorem saveCoolerPower_ok :
    ∃ rows, srv.db.sysConfig = some rows ∧
      saveCoolerPower true true res0 c p srv =
        (⟨res0, okText⟩, { srv with
          app := srv.app.setClPower c p
          db := { srv.db with
            sysConfig := some (rows.map (setCols [(Mydb.powerCol c, dec p.toNat)])) }
          regs := if srv.app.clOn c then (setCoolersPower true c p srv.regs).2 else srv.regs }) := by
  obtain ⟨rows, hrows, hu⟩ := Mydb.update_of_not_fails hdb [(Mydb.powerCol c, dec p.toNat)]
  refine ⟨rows, hrows, ?_⟩
  simp only [saveCoolerPower, Mydb.saveClPower, hu, AppData.clOn_setClPower, setCoolersPower_fst]
  cases srv.app.clOn c <;> rfl

end

theorem powerCol_inj {c d : Cooler} : Mydb.powerCol c = Mydb.powerCol d ↔ c = d := by
  cases c <;> cases d <;> decide

theorem setCols_powerCol (c d : Cooler) (p : UInt8) (row : Row) :
    setCols [(Mydb.powerCol c, dec p.toNat)] row (Mydb.powerCol d) =
      if d = c then .integer p.toNat else row (Mydb.powerCol d) := by
  show (if Mydb.powerCol d = Mydb.powerCol c then SqlVal.ofLiteral (dec p.toNat) else _) = _
  rw [ofLiteral_dec_u8]
  simp only [powerCol_inj]

section
variable {srv : Server} (hdb : ¬ srv.db.UpdateFails true) (res0 : Int) {c d : Cooler} (p : UInt8)
include hdb

/-- The cooler of the branch holds the power. -/
theorem stored_saved (q : Nat) :
    StoredPower (saveCoolerPower true true res0 c p srv).2 c q ↔ q = p.toNat := by
  obtain ⟨rows, -, he⟩ := saveCoolerPower_ok hdb res0 c p
  rw [he]
  simp only [StoredPower, AppData.clPower_setClPower, if_true, Mydb.powerColumn, Option.map_some,
    List.map_map]
  constructor
  · exact fun h => h.1.symm
  · rintro rfl
    refine ⟨rfl, _, rfl, fun v hv => ?_⟩
    obtain ⟨row, -, rfl⟩ := List.mem_map.mp hv
    exact (setCols_powerCol c c p row).trans (if_pos rfl)

/-- The other one is left alone. -/
theorem kept_other (hd : d ≠ c) : PowerKept srv (saveCoolerPower true true res0 c p srv).2 d := by
  obtain ⟨rows, hrows, he⟩ := saveCoolerPower_ok hdb res0 c p
  rw [he]
  constructor
  · exact (AppData.clPower_setClPower ..).trans (if_neg hd)
  · simp only [Mydb.powerColumn, hrows, Option.map_some, List.map_map]
    refine congrArg some (List.map_congr_left fun row _ => ?_)
    exact (setCols_powerCol c d p row).trans (if_neg hd)
  · simp only
    split
    · rw [duty_setCoolersPower, if_neg hd]
    · rfl

theorem stored_other (hd : d ≠ c) (q : Nat) :
    StoredPower (saveCoolerPower true true res0 c p srv).2 d q ↔ StoredPower srv d q := by
  have hk := kept_other hdb res0 p hd
  unfold StoredPower
  rw [hk.memory, hk.column]

/-- The cooler of the branch has not changed exactly when it had the power already, and
the duty of it if it is on. -/
theorem kept_saved_iff :
    PowerKept srv (saveCoolerPower true true res0 c p srv).2 c ↔
      StoredPower srv c p.toNat ∧ (srv.app.clOn c = true → duty srv.regs c = sat p) := by
  obtain ⟨rows, hrows, he⟩ := saveCoolerPower_ok hdb res0 c p
  have hmem : (saveCoolerPower true true res0 c p srv).2.app.clPower c = p := by
    rw [he]
    exact (AppData.clPower_setClPower ..).trans (if_pos rfl)
  have hcol : (saveCoolerPower true true res0 c p srv).2.db.powerColumn c =
      some (rows.map fun _ => .integer p.toNat) := by
    rw [he]
    simp only [Mydb.powerColumn, Option.map_some, List.map_map]
    refine congrArg some (List.map_congr_left fun row _ => ?_)
    exact (setCols_powerCol c c p row).trans (if_pos rfl)
  have hduty : duty (saveCoolerPower true true res0 c p srv).2.regs c =
      if srv.app.clOn c then sat p else duty srv.regs c := by
    rw [he]
    cases srv.app.clOn c with
    | false => rfl
    | true => exact (duty_setCoolersPower ..).trans (if_pos rfl)
  have hold : srv.db.powerColumn c = some (rows.map fun row => row (Mydb.powerCol c)) := by
    rw [Mydb.powerColumn, hrows, Option.map_some]
  constructor
  · intro h
    refine ⟨⟨?_, _, hold, fun v hv => ?_⟩, fun hon => ?_⟩
    · rw [← h.memory, hmem]
    · rw [← Option.some.inj (hcol.symm.trans (h.column.trans hold))] at hv
      obtain ⟨row, -, rfl⟩ := List.mem_map.mp hv
      rfl
    · rw [← h.duty, hduty, if_pos hon]
  · rintro ⟨⟨hp, col, hc, hall⟩, hon⟩
    obtain rfl := Option.some.inj (hold.symm.trans hc)
    refine ⟨hmem.trans (UInt8.toNat_inj.mp hp.symm), hcol.trans (hold ▸ congrArg some ?_), ?_⟩
    · exact List.map_congr_left fun row hrow => (hall _ (List.mem_map.mpr ⟨row, hrow, rfl⟩)).symm
    · rw [hduty]
      split
      · next h => exact (hon h).symm
      · rfl

/-- A branch serves a request as it should when what it stores is what its cooler is asked
to have, and the other cooler has what it is asked to have. -/
theorem asNamed_saved_iff (root : CJson) (hd : d ≠ c) :
    PowersAsNamed root srv (saveCoolerPower true true res0 c p srv) ↔
      (∀ v, askedPower root c = some v → limitedPower v = p.toNat) ∧
        (askedPower root c = none →
          StoredPower srv c p.toNat ∧ (srv.app.clOn c = true → duty srv.regs c = sat p)) ∧
        ∀ v, askedPower root d = some v → StoredPower srv d (limitedPower v) := by
  have htext : (saveCoolerPower true true res0 c p srv).1.text = okText := by
    obtain ⟨rows, -, he⟩ := saveCoolerPower_ok hdb res0 c p
    rw [he]
  have hcases {P : Cooler → Prop} : (∀ e, P e) ↔ P c ∧ P d := by
    refine ⟨fun h => ⟨h c, h d⟩, fun h e => ?_⟩
    cases c <;> cases d <;> cases e <;> first | exact h.1 | exact h.2 | exact absurd rfl hd
  constructor
  · rintro (⟨hs, hk⟩ | ⟨-, hne, -⟩)
    · refine ⟨fun v hv => (stored_saved hdb res0 p _).mp (hs c v hv), fun h => ?_, fun v hv => ?_⟩
      · exact (kept_saved_iff hdb res0 p).mp (hk c h)
      · exact (stored_other hdb res0 p hd _).mp (hs d v hv)
    · exact absurd htext hne
  · rintro ⟨hsc, hkc, hsd⟩
    refine .inl ⟨hcases.mpr ⟨fun v hv => ?_, fun v hv => ?_⟩, hcases.mpr ⟨fun h => ?_, fun _ => ?_⟩⟩
    · exact (stored_saved hdb res0 p _).mpr (hsc v hv)
    · exact (stored_other hdb res0 p hd _).mpr (hsd v hv)
    · exact (kept_saved_iff hdb res0 p).mpr (hkc h)
    · exact kept_other hdb res0 p hd

end

/-! ## The narrowed number -/

/-- `(uint8_t)power` is the low byte. -/
theorem toNat_lowByte (v : Int32) : (v.toUInt32.toUInt8.toNat : Int) = v.toInt % 256 := by
  have h32 : (v.toUInt32.toNat : Int) = v.toInt % 4294967296 := by
    have hlt := v.toBitVec.isLt
    rw [← Int32.toNat_toBitVec, ← Int32.toInt_toBitVec, BitVec.toInt_eq_toNat_bmod]
    exact (Int.bmod_emod.trans (Int.emod_eq_of_lt (by omega) (by omega))).symm
  rw [UInt32.toNat_toUInt8]
  omega

theorem limited_eq_lowByte_iff (v : Int32) :
    limitedPower v = v.toUInt32.toUInt8.toNat ↔ LowByteLimits v := by
  have h := toNat_lowByte v
  unfold limitedPower LowByteLimits
  omega

/-! ## The request -/

section
variable {root : CJson} (srv : Server) (res0 : Int)

theorem serve_input {v : Int32} (h : askedPower root .input = some v) (h0 : 0 ≤ v.toInt) :
    appSaveCoolersPower true true res0 (some root) srv =
      saveCoolerPower true true res0 .input v.toUInt32.toUInt8 srv := by
  have h' : getJsonObjInt root "wind_in" = some v := h
  have hle : 0 ≤ v := Int32.le_iff_toInt_le.mpr h0
  simp only [appSaveCoolersPower, jsonToCoolersPower, withRoot, h', CoolersPwr.target, if_pos hle]

/-- A negative power for the input cooler: the output cooler gets the -1 of the constructor. -/
theorem serve_negative {v : Int32} (h : askedPower root .input = some v) (h0 : v.toInt < 0) :
    appSaveCoolersPower true true res0 (some root) srv =
      saveCoolerPower true true res0 .output 255 srv := by
  have h' : getJsonObjInt root "wind_in" = some v := h
  have hlt : ¬ 0 ≤ v := fun hle => absurd (Int32.le_iff_toInt_le.mp hle) (Int.not_le.mpr h0)
  simp only [appSaveCoolersPower, jsonToCoolersPower, withRoot, h', CoolersPwr.target, if_neg hlt]
  rfl

theorem serve_output {v : Int32} (hin : askedPower root .input = none)
    (h : askedPower root .output = some v) :
    appSaveCoolersPower true true res0 (some root) srv =
      saveCoolerPower true true res0 .output v.toUInt32.toUInt8 srv := by
  have hin' : getJsonObjInt root "wind_in" = none := hin
  have h' : getJsonObjInt root "wind_out" = some v := h
  simp only [appSaveCoolersPower, jsonToCoolersPower, withRoot, hin', h']
  rfl

theorem serve_neither (hin : askedPower root .input = none) (hout : askedPower root .output = none) :
    appSaveCoolersPower true true res0 (some root) srv =
      (⟨-2, jsontGetErrText .fieldMissing⟩, srv) := by
  have hin' : getJsonObjInt root "wind_in" = none := hin
  have hout' : getJsonObjInt root "wind_out" = none := hout
  simp only [appSaveCoolersPower, jsonToCoolersPower, withRoot, hin', hout']

end

/-- **A request touches the coolers it names, and as it names them, exactly when it is one
of `PowersFit`.** -/
theorem powers_as_named_iff {srv : Server} (hdb : ¬ srv.db.UpdateFails true) (res0 : Int)
    (root : CJson) :
    PowersAsNamed root srv (appSaveCoolersPower true true res0 (some root) srv) ↔
      PowersFit root srv := by
  have hne : Cooler.output ≠ .input := by decide
  unfold PowersFit
  cases hin : askedPower root .input with
  | none =>
    cases hout : askedPower root .output with
    | none =>
      have hnone (c : Cooler) : askedPower root c = none := by cases c <;> assumption
      rw [serve_neither srv res0 hin hout]
      refine iff_of_true (.inl ⟨fun c v hv => ?_, fun c _ => ⟨rfl, rfl, rfl⟩⟩) trivial
      cases (hnone c).symm.trans hv
    | some w =>
      rw [serve_output srv res0 hin hout, asNamed_saved_iff hdb res0 _ root hne.symm, hin, hout]
      simp only [Option.some.injEq, forall_eq', reduceCtorEq, false_imp_iff, implies_true, and_true,
        limited_eq_lowByte_iff]
  | some v =>
    rcases Int.lt_or_le v.toInt 0 with h0 | h0
    · have hlim : limitedPower v = 0 := by
        unfold limitedPower
        omega
      rw [serve_negative srv res0 hin h0, asNamed_saved_iff hdb res0 _ root hne.symm, hin]
      cases hout : askedPower root .output with
      | none =>
        simp only [Option.some.injEq, forall_eq', reduceCtorEq, false_imp_iff, implies_true, true_and,
          true_imp_iff, hlim, h0, Int.not_le.mpr h0, false_and, false_or]
        exact ⟨fun h => ⟨h.2, h.1⟩, fun h => ⟨h.2, h.1⟩⟩
      | some w =>
        -- no power limited to 0..100 is the 255 that is stored
        refine iff_of_false (fun h => ?_) fun h => absurd h.1 (Int.not_le.mpr h0)
        have h255 : limitedPower w = 255 := h.1 w rfl
        unfold limitedPower at h255
        omega
    · rw [serve_input srv res0 hin h0, asNamed_saved_iff hdb res0 _ root hne, hin]
      cases hout : askedPower root .output with
      | none =>
        simp only [Option.some.injEq, forall_eq', reduceCtorEq, false_imp_iff, implies_true, and_true,
          limited_eq_lowByte_iff, h0, true_and, Int.not_lt.mpr h0, false_and, or_false]
      | some w =>
        simp only [Option.some.injEq, forall_eq', reduceCtorEq, false_imp_iff, true_and,
          limited_eq_lowByte_iff, h0]

theorem freshServer_updates : ¬ freshServer.db.UpdateFails true := by
  rintro (h | h | h)
  · cases h
  · exact absurd h (by decide)
  · exact absurd h (by decide)

def windInBody (power : Rat) : CJson := .object [("wind_in", .number power)]

/-- A power of 80 for the input cooler. -/
theorem powers_as_named_80 :
    PowersAsNamed (windInBody 80) freshServer
      (appSaveCoolersPower true true 0 (some (windInBody 80)) freshServer) :=
  (powers_as_named_iff freshServer_updates 0 _).mpr (.inl ⟨by decide, by decide⟩)

/-- A power of -1 for the input cooler is stored as 255 for the output cooler, one of 300 as
44, and of two powers only the first is stored. -/
theorem powers_not_as_named :
    ¬ PowersAsNamed (windInBody (-1)) freshServer
        (appSaveCoolersPower true true 0 (some (windInBody (-1))) freshServer) ∧
      ¬ PowersAsNamed (windInBody 300) freshServer
        (appSaveCoolersPower true true 0 (some (windInBody 300)) freshServer) ∧
      ¬ PowersAsNamed (.object [("wind_in", .number 40), ("wind_out", .number 60)]) freshServer
        (appSaveCoolersPower true true 0
          (some (.object [("wind_in", .number 40), ("wind_out", .number 60)])) freshServer) := by
  refine ⟨?_, ?_, ?_⟩
  · rintro (⟨-, hk⟩ | ⟨-, ht, -⟩)
    · exact absurd (hk .output rfl).memory (by decide)
    · exact ht rfl
  · rintro (⟨hs, -⟩ | ⟨-, ht, -⟩)
    · exact absurd (hs .input _ rfl).1 (by decide)
    · exact ht rfl
  · rintro (⟨hs, -⟩ | ⟨-, ht, -⟩)
    · exact absurd (hs .output _ rfl).1 (by decide)
    · exact ht rfl

end Growbox
