import Growbox.Lib.Crc
import Mathlib.Tactic.Linarith

/-!
# `sensors.cpp`: a frame of the SHT30

A frame is two halves, each of two bytes and their check.  `sht30_read_data` stores the
temperature when the first half is right, before it looks at the second, so a frame whose
second half is damaged leaves the new temperature with the old humidity:
`sht30_frame_decoded` says what each result leaves.  The check is the remainder of the two
bytes by `X ^ 8 + X ^ 5 + X ^ 4 + 1` (`isCrc8_iff`), and damage within 8 bits of a block of any
length changes it (`sht30_detects_bursts`).
-/

namespace Growbox.Sht30

open Crc Polynomial

/-! ## `sht30_read_data` -/

/-- One turn of the inner loop. -/
def crcShift (crc : UInt8) : UInt8 := if crc &&& 0x80 ≠ 0 then (crc <<< 1) ^^^ 0x31 else crc <<< 1

def sht30Crc8 (block : List UInt8) : UInt8 :=
  block.foldl (fun crc b => Nat.repeat crcShift 8 (crc ^^^ b)) 0xFF

/-- `temperature` and `humidity`, each `none` when the pointer is null. -/
structure Out where
  temperature : Option Rat
  humidity : Option Rat
  deriving DecidableEq

/-- `cTemp` -/
def celsius (hi lo : UInt8) : Rat := (((hi.toNat : Rat) * 256 + lo.toNat) * 175) / 65535 - 45

/-- `hum` -/
def relHumidity (hi lo : UInt8) : Rat := (((hi.toNat : Rat) * 256 + lo.toNat) * 100) / 65535

/-- `if(ptr) *ptr = value` -/
def store (ptr : Option Rat) (value : Rat) : Option Rat := ptr.map fun _ => value

/-- `writeOk` and `readOk`: the outcomes of the two calls of `ioctl`; `SENS_OK` is 0. -/
def sht30ReadData (writeOk readOk : Bool) (readBuf : Fin 6 → UInt8) (out : Out) : Int × Out :=
  if !writeOk then (-1, out)
  else if !readOk then (-1, out)
  else if readBuf 2 = sht30Crc8 [readBuf 0, readBuf 1] then
    let out := { out with temperature := store out.temperature (celsius (readBuf 0) (readBuf 1)) }
    if readBuf 5 = sht30Crc8 [readBuf 3, readBuf 4] then
      (0, { out with humidity := store out.humidity (relHumidity (readBuf 3) (readBuf 4)) })
    else (-3, out)
  else (-2, out)

example : sht30Crc8 [0xBE, 0xEF] = 0x92 := by decide +kernel

/-! ## What a frame says -/

/-- CRC-8 with the polynomial 0x31 and the first register 0xFF. -/
def IsCrc8 (block : List UInt8) (c : UInt8) : Prop :=
  toPoly c.toBitVec = message 0xFF#8 (block.map UInt8.toBitVec) %ₘ (X ^ 8 + X ^ 5 + X ^ 4 + 1)

theorem generator_0x31 : generator 0x31#8 = X ^ 8 + X ^ 5 + X ^ 4 + 1 := by
  have hpoly : toPoly 0x31#8 = X ^ 5 + X ^ 4 + 1 := by
    simp [toPoly, bit, Finset.sum_range_succ]
    ring
  rw [generator, hpoly]
  ring

theorem crcShift_toBitVec (crc : UInt8) : (crcShift crc).toBitVec = step 0x31#8 crc.toBitVec := by
  have hall : ∀ c : BitVec 8,
      (if c &&& 0x80#8 ≠ 0#8 then (c <<< 1) ^^^ 0x31#8 else c <<< 1) = step 0x31#8 c := by decide +kernel
  have hbit : crc &&& 0x80 ≠ 0 ↔ crc.toBitVec &&& 0x80#8 ≠ 0#8 := not_congr UInt8.toBitVec_inj.symm
  rw [← hall, crcShift]
  by_cases h : crc &&& 0x80 ≠ 0
  · rw [if_pos h, if_pos (hbit.mp h)]
    rfl
  · rw [if_neg h, if_neg (mt hbit.mpr h)]
    rfl

theorem repeat_crcShift (n : Nat) (crc : UInt8) :
    (Nat.repeat crcShift n crc).toBitVec = Nat.repeat (step 0x31#8) n crc.toBitVec := by
  induction n with
  | zero => rfl
  | succ n ih =>
    show (crcShift (Nat.repeat crcShift n crc)).toBitVec = step 0x31#8 _
    rw [crcShift_toBitVec, ih]

/-- The loops are those of a register of 8 bits. -/
theorem sht30Crc8_toBitVec (block : List UInt8) :
    (sht30Crc8 block).toBitVec = crc 0x31#8 0xFF#8 (block.map UInt8.toBitVec) := by
  suffices h : ∀ r : UInt8, (block.foldl (fun crc b => Nat.repeat crcShift 8 (crc ^^^ b)) r).toBitVec =
      (block.map UInt8.toBitVec).foldl (word 0x31#8) r.toBitVec from h 0xFF
  induction block with
  | nil => exact fun r => rfl
  | cons b block ih =>
    intro r
    rw [List.map_cons, List.foldl_cons, List.foldl_cons, ih, repeat_crcShift]
    rfl

/-- **The loops compute the check**, and nothing else passes for it. -/
theorem isCrc8_iff (block : List UInt8) (c : UInt8) : IsCrc8 block c ↔ c = sht30Crc8 block := by
  rw [IsCrc8, ← generator_0x31, ← toPoly_crc, ← sht30Crc8_toBitVec, toPoly_inj, UInt8.toBitVec_inj]

/-- The halves of a frame are right. -/
def TemperatureRight (readBuf : Fin 6 → UInt8) : Prop := IsCrc8 [readBuf 0, readBuf 1] (readBuf 2)

def HumidityRight (readBuf : Fin 6 → UInt8) : Prop := IsCrc8 [readBuf 3, readBuf 4] (readBuf 5)

/-- The number of two bytes. -/
def word16 (hi lo : UInt8) : Nat := 256 * hi.toNat + lo.toNat

/-- `-45 + 175 * n / 65535` -/
def celsiusOf (n : Nat) : Rat := -45 + 175 * n / 65535

/-- `100 * n / 65535` -/
def humidityOf (n : Nat) : Rat := 100 * n / 65535

theorem word16_le (hi lo : UInt8) : word16 hi lo ≤ 65535 := by
  have := hi.toNat_lt
  have := lo.toNat_lt
  unfold word16
  omega

theorem celsius_eq (hi lo : UInt8) : celsius hi lo = celsiusOf (word16 hi lo) := by
  unfold celsius celsiusOf word16
  push_cast
  ring

theorem relHumidity_eq (hi lo : UInt8) : relHumidity hi lo = humidityOf (word16 hi lo) := by
  unfold relHumidity humidityOf word16
  push_cast
  ring

theorem celsiusOf_bounds {n : Nat} (h : n ≤ 65535) : -45 ≤ celsiusOf n ∧ celsiusOf n ≤ 130 := by
  have h0 : (0 : Rat) ≤ n := Nat.cast_nonneg n
  have h1 : (n : Rat) ≤ 65535 := by exact_mod_cast h
  unfold celsiusOf
  constructor <;> linarith

theorem humidityOf_bounds {n : Nat} (h : n ≤ 65535) : 0 ≤ humidityOf n ∧ humidityOf n ≤ 100 := by
  have h0 : (0 : Rat) ≤ n := Nat.cast_nonneg n
  have h1 : (n : Rat) ≤ 65535 := by exact_mod_cast h
  unfold humidityOf
  constructor <;> linarith

/-! ## What a call leaves -/

/-- The temperature of the first half. -/
def Out.withTemperature (out : Out) (readBuf : Fin 6 → UInt8) : Out :=
  { out with temperature := store out.temperature (celsiusOf (word16 (readBuf 0) (readBuf 1))) }

/-- The values of both halves. -/
def Out.withBoth (out : Out) (readBuf : Fin 6 → UInt8) : Out where
  temperature := store out.temperature (celsiusOf (word16 (readBuf 0) (readBuf 1)))
  humidity := store out.humidity (humidityOf (word16 (readBuf 3) (readBuf 4)))

/-- The values are within what the sensor measures. -/
def InRange (readBuf : Fin 6 → UInt8) : Prop :=
  (-45 ≤ celsiusOf (word16 (readBuf 0) (readBuf 1)) ∧ celsiusOf (word16 (readBuf 0) (readBuf 1)) ≤ 130) ∧
    0 ≤ humidityOf (word16 (readBuf 3) (readBuf 4)) ∧ humidityOf (word16 (readBuf 3) (readBuf 4)) ≤ 100

/-- A frame is decoded as a whole, or the outputs stay as they were. -/
structure AllOrNothing (readBuf : Fin 6 → UInt8) (out : Out) : Prop where
  ok_iff : (sht30ReadData true true readBuf out).1 = 0 ↔ TemperatureRight readBuf ∧ HumidityRight readBuf
  ok_out : (sht30ReadData true true readBuf out).1 = 0 →
    (sht30ReadData true true readBuf out).2 = out.withBoth readBuf ∧ InRange readBuf
  unchanged : (sht30ReadData true true readBuf out).1 ≠ 0 → (sht30ReadData true true readBuf out).2 = out

/-- A frame is decoded as a whole, or the temperature alone is, or the outputs stay as they were. -/
structure DecodedByHalves (writeOk readOk : Bool) (readBuf : Fin 6 → UInt8) (out : Out) : Prop where
  ok_iff : (sht30ReadData writeOk readOk readBuf out).1 = 0 ↔
    writeOk = true ∧ readOk = true ∧ TemperatureRight readBuf ∧ HumidityRight readBuf
  ok_out : (sht30ReadData writeOk readOk readBuf out).1 = 0 →
    (sht30ReadData writeOk readOk readBuf out).2 = out.withBoth readBuf ∧ InRange readBuf
  first_half : (sht30ReadData writeOk readOk readBuf out).1 = -3 →
    TemperatureRight readBuf ∧ ¬ HumidityRight readBuf ∧
      (sht30ReadData writeOk readOk readBuf out).2 = out.withTemperature readBuf
  unchanged : (sht30ReadData writeOk readOk readBuf out).1 ≠ 0 →
    (sht30ReadData writeOk readOk readBuf out).1 ≠ -3 →
      (sht30ReadData writeOk readOk readBuf out).2 = out

theorem inRange (readBuf : Fin 6 → UInt8) : InRange readBuf :=
  ⟨celsiusOf_bounds (word16_le ..), humidityOf_bounds (word16_le ..)⟩

/-- The call, in terms of its frame. -/
theorem sht30ReadData_eq (readBuf : Fin 6 → UInt8) (out : Out) :
    (TemperatureRight readBuf → HumidityRight readBuf →
        sht30ReadData true true readBuf out = (0, out.withBoth readBuf)) ∧
      (TemperatureRight readBuf → ¬ HumidityRight readBuf →
        sht30ReadData true true readBuf out = (-3, out.withTemperature readBuf)) ∧
      (¬ TemperatureRight readBuf → sht30ReadData true true readBuf out = (-2, out)) := by
  simp only [TemperatureRight, HumidityRight, isCrc8_iff, sht30ReadData, Bool.not_true, Bool.false_eq_true,
    if_false, Out.withBoth, Out.withTemperature, ← celsius_eq, ← relHumidity_eq]
  refine ⟨fun ht hh => ?_, fun ht hh => ?_, fun ht => ?_⟩
  · rw [if_pos ht, if_pos hh]
  · rw [if_pos ht, if_neg hh]
  · rw [if_neg ht]

/-- Without a frame the outputs stay as they were. -/
theorem sht30ReadData_bus {writeOk readOk : Bool} (h : ¬ (writeOk = true ∧ readOk = true))
    (readBuf : Fin 6 → UInt8) (out : Out) : sht30ReadData writeOk readOk readBuf out = (-1, out) := by
  cases writeOk with
  | false => rfl
  | true =>
    cases readOk with
    | false => rfl
    | true => exact absurd ⟨rfl, rfl⟩ h

/-- **A frame is decoded by halves**: what is right before the first damage is stored. -/
theorem sht30_frame_decoded (writeOk readOk : Bool) (readBuf : Fin 6 → UInt8) (out : Out) :
    DecodedByHalves writeOk readOk readBuf out := by
  obtain ⟨hboth, hfirst, hnone⟩ := sht30ReadData_eq readBuf out
  have hok : (0 : Int) ≠ -3 := by decide
  have hhalf : (-3 : Int) ≠ 0 := by decide
  have hdamaged : (-2 : Int) ≠ 0 ∧ (-2 : Int) ≠ -3 := by decide
  have hfailed : (-1 : Int) ≠ 0 ∧ (-1 : Int) ≠ -3 := by decide
  by_cases hbus : writeOk = true ∧ readOk = true
  · obtain ⟨rfl, rfl⟩ := hbus
    by_cases ht : TemperatureRight readBuf
    · by_cases hh : HumidityRight readBuf
      · constructor <;> rw [hboth ht hh]
        · exact iff_of_true rfl ⟨rfl, rfl, ht, hh⟩
        · exact fun _ => ⟨rfl, inRange readBuf⟩
        · exact fun h => absurd h hok
        · exact fun h => absurd rfl h
      · constructor <;> rw [hfirst ht hh]
        · exact iff_of_false hhalf fun h => hh h.2.2.2
        · exact fun h => absurd h hhalf
        · exact fun _ => ⟨ht, hh, rfl⟩
        · exact fun _ h => absurd rfl h
    · constructor <;> rw [hnone ht]
      · exact iff_of_false hdamaged.1 fun h => ht h.2.2.1
      · exact fun h => absurd h hdamaged.1
      · exact fun h => absurd h hdamaged.2
      · exact fun _ _ => rfl
  · constructor <;> rw [sht30ReadData_bus hbus]
    · exact iff_of_false hfailed.1 fun h => hbus ⟨h.1, h.2.1⟩
    · exact fun h => absurd h hfailed.1
    · exact fun h => absurd h hfailed.2
    · exact fun _ _ => rfl

/-- 0xBEEF with its check, then two zeros with a wrong one. -/
def damagedFrame : Fin 6 → UInt8 := ![0xBE, 0xEF, 0x92, 0, 0, 0]

/-- The second half is damaged: the temperature is new, the humidity is not. -/
theorem damaged_frame_changes_temperature :
    sht30ReadData true true damagedFrame ⟨some 20, some 50⟩ =
        (-3, ⟨some (celsiusOf 48879), some 50⟩) ∧
      ¬ AllOrNothing damagedFrame ⟨some 20, some 50⟩ := by
  have hread : sht30ReadData true true damagedFrame ⟨some 20, some 50⟩ =
      (-3, ⟨some (celsiusOf 48879), some 50⟩) := by decide +kernel
  refine ⟨hread, fun h => ?_⟩
  have hout := h.unchanged (by rw [hread]; decide)
  rw [hread] at hout
  have htemp : celsiusOf 48879 = 20 := Option.some.inj (congrArg Out.temperature hout)
  unfold celsiusOf at htemp
  norm_num at htemp

/-! ## Blocks of any length -/

/-- `for (int j = size; j; --j)`; `none` reads behind the block. -/
def crcTurns : Int32 → List UInt8 → UInt8 → Option UInt8
  | j, [], crc => if j = 0 then some crc else none
  | j, b :: block, crc =>
    if j = 0 then some crc else crcTurns (j - 1) block (Nat.repeat crcShift 8 (crc ^^^ b))

/-- `sht30_crc8(block, size)`, with the size of the block; `int j = size`. -/
def crcOfBlock (block : List UInt8) : Option UInt8 :=
  crcTurns (UInt32.ofNat block.length).toInt32 block 0xFF

/-- The bits as they are checked, from the highest of the first byte on. -/
def blockBits (block : List UInt8) : List Bool := bits (block.map UInt8.toBitVec)

/-- Blocks of one length that are not the same, and differ within 8 bits in a row only. -/
structure Burst (m m' : List UInt8) : Prop where
  length_eq : m'.length = m.length
  ne : m' ≠ m
  window : ∃ p, ∀ i, i < p ∨ p + 8 ≤ i → (blockBits m')[i]? = (blockBits m)[i]?

/-- A block with its check has the check 0, and a burst changes the check. -/
def DetectsBursts (m : List UInt8) : Prop :=
  ∃ c, crcOfBlock m = some c ∧ crcOfBlock (m ++ [c]) = some 0 ∧
    ∀ m', Burst m m' → ∃ c', crcOfBlock m' = some c' ∧ c' ≠ c

theorem counter_succ (n : Nat) : (UInt32.ofNat (n + 1)).toInt32 - 1 = (UInt32.ofNat n).toInt32 := by
  have h : UInt32.ofNat (n + 1) - 1 = UInt32.ofNat n := by
    rw [UInt32.ofNat_add]
    exact UInt32.add_sub_cancel _ _
  rw [← h, UInt32.toInt32_sub]
  rfl

theorem counter_ne_zero {n : Nat} (h : n + 1 < 2 ^ 32) : (UInt32.ofNat (n + 1)).toInt32 ≠ 0 := by
  intro hzero
  have hsize : UInt32.ofNat (n + 1) = 0 := congrArg Int32.toUInt32 hzero
  have hnat := congrArg UInt32.toNat hsize
  rw [UInt32.toNat_ofNat', Nat.mod_eq_of_lt h] at hnat
  exact Nat.succ_ne_zero n hnat

/-- The counter runs out at the end of the block, also when it starts below 0. -/
theorem crcTurns_eq {block : List UInt8} (h : block.length < 2 ^ 32) (crc : UInt8) :
    crcTurns (UInt32.ofNat block.length).toInt32 block crc =
      some (block.foldl (fun crc b => Nat.repeat crcShift 8 (crc ^^^ b)) crc) := by
  induction block generalizing crc with
  | nil => rfl
  | cons b block ih =>
    rw [List.length_cons] at h ⊢
    rw [crcTurns, if_neg (counter_ne_zero h), counter_succ, ih (Nat.lt_of_succ_lt h), List.foldl_cons]

theorem crcOfBlock_eq {block : List UInt8} (h : block.length < 2 ^ 32) :
    crcOfBlock block = some (sht30Crc8 block) := crcTurns_eq h 0xFF

/-- A block with its check. -/
theorem sht30Crc8_append_self (m : List UInt8) : sht30Crc8 (m ++ [sht30Crc8 m]) = 0 := by
  apply UInt8.toBitVec_inj.mp
  rw [sht30Crc8_toBitVec, List.map_append, List.map_cons, List.map_nil, sht30Crc8_toBitVec, crc_append_self]
  rfl

theorem sht30Crc8_ne_of_burst {m m' : List UInt8} (h : Burst m m') : sht30Crc8 m' ≠ sht30Crc8 m := by
  obtain ⟨hlen, hne, p, hwindow⟩ := h
  have hbits : m'.map UInt8.toBitVec ≠ m.map UInt8.toBitVec := by
    intro heq
    exact hne (List.map_injective_iff.mpr (fun _ _ => UInt8.toBitVec_inj.mp) heq)
  have hlast : (0x31#8).getLsbD 0 = true := rfl
  intro heq
  refine crc_ne_of_burst hlast 0xFF#8 (by simpa using hlen) hbits hwindow ?_
  rw [← sht30Crc8_toBitVec, ← sht30Crc8_toBitVec, heq]

/-- **The check of a block of any length** shows every burst of damage. -/
theorem sht30_detects_bursts {m : List UInt8} (hm : m.length < 2 ^ 31) : DetectsBursts m := by
  refine ⟨_, crcOfBlock_eq (by omega), ?_, fun m' h => ⟨_, crcOfBlock_eq ?_, sht30Crc8_ne_of_burst h⟩⟩
  · rw [crcOfBlock_eq, sht30Crc8_append_self]
    rw [List.length_append, List.length_singleton]
    omega
  · rw [h.length_eq]
    omega

theorem beef_detects_bursts : DetectsBursts [0xBE, 0xEF] := sht30_detects_bursts (by decide)

end Growbox.Sht30
