import Growbox.AppData
import Growbox.Lib.EventRun

/-!
# The cooler controller's firmware (`Coolers_Controller/firmware/Src/main.c`)

The board behind I2C address `0x43`: a boot that restores the two powers from
flash page 127, and a main loop that serves one transfer at a time, byte by
byte.  The board's state is three copies of each power, kept by separate
statements of the source:

* `coolers_pwm[2]` in static memory, what the status registers answer;
* the pulse last given to the cooler's channel of TIM3, the duty in effect;
* the word of page 127, what the next boot restores.

HAL and flash operations succeed.  Words are `UInt32`, register bytes `UInt8`.
-/

namespace Growbox.CoolersController

/-! ## Memory, timer and flash -/

/-- Words of page 127, `0` the one at `ADDR_FLASH_PAGE_127`. -/
abbrev Page := Nat → UInt32

/-- Static memory by words from `coolers_pwm` on: the array is words 0 and 1,
what the linker put behind it starts at word 2 and is read by nothing here.
`stored` lists the words that were written, oldest first. -/
structure Sram where
  word : Nat → UInt32
  stored : List Nat

/-- `uint32_t coolers_pwm[2] = {0,0}` -/
def Sram.init : Sram := ⟨fun _ => 0, []⟩

def Sram.store (m : Sram) (i : Nat) (v : UInt32) : Sram :=
  ⟨fun j => if j = i then v else m.word j, m.stored ++ [i]⟩

/-- `sizeof(coolers_pwm)`: bytes. -/
def sizeofCoolersPwm : Nat := 8

/-- `uint32_t size = (len > 1000) ? 1000 : len`: words. -/
def pageSize (len : Nat) : Nat := if len > 1000 then 1000 else len

/-- `flash_read_page` into `coolers_pwm` -/
def flashReadPage (page : Page) (len : Nat) (m : Sram) : Sram :=
  (List.range (pageSize len)).foldl (fun m i => m.store i (page i)) m

/-- A page after `HAL_FLASHEx_Erase`. -/
def erasedPage : Page := fun _ => 0xFFFFFFFF

/-- `flash_write_page` from `coolers_pwm`: the page is erased, then programmed. -/
def flashWritePage (m : Sram) (len : Nat) : Page :=
  (List.range (pageSize len)).foldl (fun page i j => if j = i then m.word i else page j) erasedPage

/-- The two channels of TIM3 the coolers hang on. -/
inductive TimChannel where
  | one | three
  deriving DecidableEq, Repr

/-- Where the main loop waits. -/
inductive Phase where
  /-- no transfer was requested -/
  | poll
  /-- for the first byte, `i2cBuf[0]` -/
  | register
  /-- for the second byte of a write to `i2cBuf[0]` -/
  | value (reg : UInt8)
  /-- for the master to take the answer -/
  | answer (responce : UInt8)
  /-- for the end of the transfer, with the answer taken -/
  | answered
  /-- for `HAL_I2C_STATE_LISTEN`, after the transfer that would have led to it has ended -/
  | stuck
  deriving DecidableEq, Repr

/-- The board: its memory, the pulse of each channel, page 127. -/
structure Board where
  sram : Sram
  pulse : TimChannel → UInt32
  flash : Page

/-- The board with its main loop. -/
structure Firmware where
  board : Board
  phase : Phase

/-- The cooler's element of `coolers_pwm`, and its word of the page. -/
def pwmIndex : Cooler → Nat
  | .input => 0
  | .output => 1

def timChannel : Cooler → TimChannel
  | .input => .one
  | .output => .three

/-- `coolers_pwm[0]`, `coolers_pwm[1]` -/
def Board.pwm (b : Board) (c : Cooler) : UInt32 := b.sram.word (pwmIndex c)

/-- The duty in effect. -/
def Board.dutyOf (b : Board) (c : Cooler) : UInt32 := b.pulse (timChannel c)

/-- `TIM3_PWM_ConfigAndStart` -/
def Board.tim3PwmConfigAndStart (b : Board) (channel : TimChannel) (percent : UInt32) : Board :=
  { b with pulse := fun ch => if ch = channel then percent else b.pulse ch }

/-! ## Boot -/

/-- The pulses `TIM3_PWM_Init` leaves. -/
def tim3PwmInit : TimChannel → UInt32
  | .one => 1
  | .three => 25

/-- `if (coolers_pwm[i] > 100) coolers_pwm[i] = 100;` -/
def clampAt (m : Sram) (i : Nat) : Sram := if m.word i > 100 then m.store i 100 else m

/-- The loop around it, over the first `n` indices. -/
def clampLoop (n : Nat) (m : Sram) : Sram := (List.range n).foldl clampAt m

/-- `main` up to its loop. -/
def boot (flash : Page) : Board :=
  let m := flashReadPage flash sizeofCoolersPwm Sram.init
  let m := clampLoop sizeofCoolersPwm m
  let b : Board := ⟨m, tim3PwmInit, flash⟩
  (b.tim3PwmConfigAndStart .one 0).tim3PwmConfigAndStart .three 0

/-! ## The main loop -/

/-- What the two `case`s of the write branch do, with `i2cBuf[1]` in `value`. -/
def Board.writePower (b : Board) (c : Cooler) (value : UInt8) : Board :=
  let b := b.tim3PwmConfigAndStart (timChannel c) value.toUInt32
  let b := { b with sram := b.sram.store (pwmIndex c) value.toUInt32 }
  { b with flash := flashWritePage b.sram 2 }

/-- The write branch: `COOLER1_REG`, `COOLER2_REG`. -/
def Board.writeRegister (b : Board) (reg value : UInt8) : Board :=
  let value := if value > 100 then 100 else value
  if reg = 0x10 then b.writePower .input value
  else if reg = 0x20 then b.writePower .output value
  else b

/-- The read branch: `STATUS1_REG`, `STATUS2_REG`. -/
def Board.responce (b : Board) (reg : UInt8) : UInt8 :=
  if reg = 0x11 then (b.pwm .input).toUInt8
  else if reg = 0x21 then (b.pwm .output).toUInt8
  else 0xFF

/-- The direction bit of an address byte, as the master sends it. -/
inductive Direction where
  | write | read
  deriving DecidableEq, Repr

/-- What the master puts on the bus, the board being addressed. -/
inductive BusEvent where
  | address (dir : Direction)
  | byteIn (b : UInt8)
  | byteOut
  | stop
  deriving DecidableEq, Repr

/-- One event, and the main loop up to its next wait, with the byte the board
puts on the bus.  `I2C_transferRequested` is set in every phase but `poll`. -/
def busStep (fw : Firmware) (e : BusEvent) : Firmware × Option UInt8 :=
  match fw.phase, e with
  | .poll, .address _ => (⟨fw.board, .register⟩, none)
  | .register, .byteIn reg =>
    if reg = 0x10 ∨ reg = 0x20 then (⟨fw.board, .value reg⟩, none)
    else (⟨fw.board, .answer (fw.board.responce reg)⟩, none)
  | .value reg, .byteIn value => (⟨fw.board.writeRegister reg value, .poll⟩, none)
  | .answer responce, .byteOut => (⟨fw.board, .answered⟩, some responce)
  | .answer _, .stop => (⟨fw.board, .poll⟩, none)
  | .answered, .stop => (⟨fw.board, .poll⟩, none)
  | .register, .stop => (⟨fw.board, .stuck⟩, none)
  | .value _, .stop => (⟨fw.board, .stuck⟩, none)
  | _, _ => (fw, none)

/-- Events one after the other, with the bytes the board sent. -/
def busRun (fw : Firmware) : List BusEvent → Firmware × List UInt8
  | [] => (fw, [])
  | e :: es =>
    let (fw', out) := busStep fw e
    let (fw'', outs) := busRun fw' es
    (fw'', out.toList ++ outs)

/-- `struct i2c_msg`, `flags` 0 or 1. -/
inductive I2cMsg where
  | write (buf : List UInt8)
  | read (len : Nat)
  deriving DecidableEq, Repr

def I2cMsg.events : I2cMsg → List BusEvent
  | .write buf => .address .write :: buf.map .byteIn
  | .read len => .address .read :: List.replicate len .byteOut

/-- One `I2C_RDWR`: the messages, a start before each and a stop after the last. -/
def rdwrEvents (msgs : List I2cMsg) : List BusEvent :=
  msgs.flatMap I2cMsg.events ++ [.stop]

/-! ## Words of memory and of the page -/

@[simp] theorem word_store (m : Sram) (i j : Nat) (v : UInt32) :
    (m.store i v).word j = if j = i then v else m.word j := rfl

@[simp] theorem stored_store (m : Sram) (i : Nat) (v : UInt32) :
    (m.store i v).stored = m.stored ++ [i] := rfl

/-- `(w > 100) ? 100 : w` -/
def clamp (w : UInt32) : UInt32 := if w > 100 then 100 else w

theorem clamp_toNat (w : UInt32) : (clamp w).toNat = min 100 w.toNat := by
  unfold clamp
  split
  · next h =>
    have : (100 : UInt32).toNat < w.toNat := h
    simp only [UInt32.reduceToNat] at this ⊢
    omega
  · next h =>
    have : ¬ (100 : UInt32).toNat < w.toNat := h
    simp only [UInt32.reduceToNat] at this
    omega

theorem clamp_le (w : UInt32) : clamp w ≤ 100 := by
  rw [UInt32.le_iff_toNat_le, clamp_toNat]
  exact Nat.min_le_left _ _

theorem clamp_of_le {w : UInt32} (h : w ≤ 100) : clamp w = w :=
  if_neg (UInt32.not_lt.mpr h)

theorem clamp_eq_zero {w : UInt32} : clamp w = 0 ↔ w = 0 := by
  unfold clamp
  split
  · next h => exact ⟨fun h0 => absurd h0 (by decide), fun h0 => absurd (h0 ▸ h) (by decide)⟩
  · exact Iff.rfl

theorem word_readLoop (page : Page) (n j : Nat) (m : Sram) :
    ((List.range n).foldl (fun m i => m.store i (page i)) m).word j =
      if j < n then page j else m.word j := by
  induction n with
  | zero => rfl
  | succ n ih =>
    rw [List.range_succ, List.foldl_append]
    simp only [List.foldl_cons, List.foldl_nil, word_store, ih]
    rcases Nat.lt_trichotomy j n with h | h | h
    · rw [if_neg (Nat.ne_of_lt h), if_pos h, if_pos (Nat.lt_succ_of_lt h)]
    · rw [if_pos h, if_pos (h ▸ Nat.lt_succ_self n), h]
    · rw [if_neg (Nat.ne_of_gt h), if_neg (Nat.lt_asymm h), if_neg (Nat.not_lt.mpr h)]

theorem stored_readLoop (page : Page) (n : Nat) (m : Sram) :
    ((List.range n).foldl (fun m i => m.store i (page i)) m).stored = m.stored ++ List.range n := by
  induction n with
  | zero => exact (List.append_nil _).symm
  | succ n ih =>
    rw [List.range_succ, List.foldl_append]
    simp only [List.foldl_cons, List.foldl_nil, stored_store, ih, List.append_assoc]

theorem word_clampAt (m : Sram) (i j : Nat) :
    (clampAt m i).word j = if j = i then clamp (m.word i) else m.word j := by
  unfold clampAt clamp
  by_cases h : m.word i > 100
  · rw [if_pos h, if_pos h, word_store]
  · rw [if_neg h, if_neg h]
    split
    · next hj => rw [hj]
    · rfl

theorem word_clampLoop (n j : Nat) (m : Sram) :
    (clampLoop n m).word j = if j < n then clamp (m.word j) else m.word j := by
  unfold clampLoop
  induction n generalizing j with
  | zero => rfl
  | succ n ih =>
    rw [List.range_succ, List.foldl_append, List.foldl_cons, List.foldl_nil, word_clampAt,
      ih n, if_neg (Nat.lt_irrefl n), ih j]
    rcases Nat.lt_trichotomy j n with h | h | h
    · rw [if_neg (Nat.ne_of_lt h), if_pos h, if_pos (Nat.lt_succ_of_lt h)]
    · rw [if_pos h, if_pos (h ▸ Nat.lt_succ_self n), h]
    · rw [if_neg (Nat.ne_of_gt h), if_neg (Nat.lt_asymm h), if_neg (Nat.not_lt.mpr h)]

theorem mem_stored_clampAt {m : Sram} {i k : Nat} (h : k ∈ m.stored) :
    k ∈ (clampAt m i).stored := by
  unfold clampAt
  split
  · exact List.mem_append_left _ h
  · exact h

theorem mem_stored_clampLoop {m : Sram} {k : Nat} (n : Nat) (h : k ∈ m.stored) :
    k ∈ (clampLoop n m).stored := by
  unfold clampLoop
  induction n with
  | zero => exact h
  | succ n ih =>
    rw [List.range_succ, List.foldl_append]
    exact mem_stored_clampAt ih

theorem flashWritePage_two (m : Sram) (c : Cooler) :
    flashWritePage m 2 (pwmIndex c) = m.word (pwmIndex c) := by
  cases c with
  | input => rfl
  | output => rfl

/-! ## What the boot leaves -/

theorem pageSize_of_le {len : Nat} (h : len ≤ 1000) : pageSize len = len :=
  if_neg (Nat.not_lt.mpr h)

theorem boot_sram (flash : Page) :
    (boot flash).sram =
      clampLoop sizeofCoolersPwm (flashReadPage flash sizeofCoolersPwm Sram.init) := by
  simp only [boot, Board.tim3PwmConfigAndStart]

/-- The boot restores each power from its word of the page, at most 100. -/
theorem boot_pwm (flash : Page) (c : Cooler) : (boot flash).pwm c = clamp (flash (pwmIndex c)) := by
  have h : pwmIndex c < sizeofCoolersPwm := by cases c <;> decide
  have hs : pageSize sizeofCoolersPwm = sizeofCoolersPwm := pageSize_of_le (by decide)
  rw [Board.pwm, boot_sram, word_clampLoop, if_pos h, flashReadPage, word_readLoop, hs, if_pos h]

/-- The boot leaves both channels at duty 0. -/
theorem boot_dutyOf (flash : Page) (c : Cooler) : (boot flash).dutyOf c = 0 := by
  cases c with
  | input => rfl
  | output => rfl

@[simp] theorem boot_flash (flash : Page) : (boot flash).flash = flash := rfl

/-- The boot stores into words 0 to 7. -/
theorem boot_stored (flash : Page) {k : Nat} (h : k < sizeofCoolersPwm) :
    k ∈ (boot flash).sram.stored := by
  rw [boot_sram]
  refine mem_stored_clampLoop sizeofCoolersPwm ?_
  rw [flashReadPage, stored_readLoop, pageSize_of_le (by decide)]
  exact List.mem_append_right _ (List.mem_range.mpr h)

/-! ## What a write leaves -/

theorem pwmIndex_inj {c d : Cooler} : pwmIndex c = pwmIndex d ↔ c = d := by
  cases c <;> cases d <;> decide

theorem timChannel_inj {c d : Cooler} : timChannel c = timChannel d ↔ c = d := by
  cases c <;> cases d <;> decide

theorem writePower_pwm (b : Board) (c d : Cooler) (v : UInt8) :
    (b.writePower c v).pwm d = if d = c then v.toUInt32 else b.pwm d := by
  unfold Board.pwm
  simp only [Board.writePower, Board.tim3PwmConfigAndStart, word_store, pwmIndex_inj]

theorem writePower_dutyOf (b : Board) (c d : Cooler) (v : UInt8) :
    (b.writePower c v).dutyOf d = if d = c then v.toUInt32 else b.dutyOf d := by
  unfold Board.dutyOf
  simp only [Board.writePower, Board.tim3PwmConfigAndStart, timChannel_inj]

theorem writePower_flash (b : Board) (c d : Cooler) (v : UInt8) :
    (b.writePower c v).flash (pwmIndex d) = (b.writePower c v).pwm d :=
  flashWritePage_two _ d

/-- The cooler a register byte sets the power of. -/
def setCooler (reg : UInt8) : Option Cooler :=
  if reg = 0x10 then some .input else if reg = 0x20 then some .output else none

theorem writeRegister_eq (b : Board) (reg value : UInt8) :
    b.writeRegister reg value =
      match setCooler reg with
      | some c => b.writePower c (sat value)
      | none => b := by
  unfold Board.writeRegister setCooler
  by_cases h1 : reg = 0x10
  · rw [if_pos h1, if_pos h1]
    rfl
  · rw [if_neg h1, if_neg h1]
    by_cases h2 : reg = 0x20
    · rw [if_pos h2, if_pos h2]
      rfl
    · rw [if_neg h2, if_neg h2]

theorem writeRegister_pwm (b : Board) (reg value : UInt8) (c : Cooler) :
    (b.writeRegister reg value).pwm c =
      if setCooler reg = some c then (sat value).toUInt32 else b.pwm c := by
  rw [writeRegister_eq]
  cases setCooler reg with
  | none => rfl
  | some d => simp only [writePower_pwm, Option.some.injEq, eq_comm]

theorem writeRegister_dutyOf (b : Board) (reg value : UInt8) (c : Cooler) :
    (b.writeRegister reg value).dutyOf c =
      if setCooler reg = some c then (sat value).toUInt32 else b.dutyOf c := by
  rw [writeRegister_eq]
  cases setCooler reg with
  | none => rfl
  | some d => simp only [writePower_dutyOf, Option.some.injEq, eq_comm]

theorem sat_le (p : UInt8) : (sat p).toUInt32 ≤ 100 := by
  rw [UInt32.le_iff_toNat_le, UInt8.toNat_toUInt32, sat_toNat]
  exact Nat.min_le_left _ _

/-! ## Whole transfers -/

/-- A register write or a register read, as a master makes them. -/
inductive Transfer where
  | write (reg value : UInt8)
  | read (reg : UInt8)
  deriving DecidableEq, Repr

def Transfer.msgs : Transfer → List I2cMsg
  | .write reg value => [.write [reg, value]]
  | .read reg => [.write [reg], .read 1]

/-- The board after the whole transfer. -/
def serve (fw : Firmware) (t : Transfer) : Firmware := (busRun fw (rdwrEvents t.msgs)).1

/-- The board after a boot and the transfers. -/
def runTransfers (flash : Page) (ts : List Transfer) : Firmware := ts.foldl serve ⟨boot flash, .poll⟩

/-- One event, then the rest. -/
theorem busRun_cons {fw fw' : Firmware} {e : BusEvent} {out : Option UInt8}
    (h : busStep fw e = (fw', out)) (es : List BusEvent) :
    busRun fw (e :: es) = ((busRun fw' es).1, out.toList ++ (busRun fw' es).2) := by
  rw [busRun, h]

/-- A write transfer is one pass through the write branch; of an unknown
register nothing is written. -/
theorem busRun_write (b : Board) (reg value : UInt8) :
    busRun ⟨b, .poll⟩ (rdwrEvents [.write [reg, value]]) =
      (⟨b.writeRegister reg value, .poll⟩, []) := by
  have haddr : busStep ⟨b, .poll⟩ (.address .write) = (⟨b, .register⟩, none) := rfl
  show busRun ⟨b, .poll⟩ [.address .write, .byteIn reg, .byteIn value, .stop] = _
  by_cases h : reg = 0x10 ∨ reg = 0x20
  · have hreg : busStep ⟨b, .register⟩ (.byteIn reg) = (⟨b, .value reg⟩, none) := if_pos h
    have hvalue : busStep ⟨b, .value reg⟩ (.byteIn value) =
        (⟨b.writeRegister reg value, .poll⟩, none) := rfl
    rw [busRun_cons haddr, busRun_cons hreg, busRun_cons hvalue]
    rfl
  · have hreg : busStep ⟨b, .register⟩ (.byteIn reg) = (⟨b, .answer (b.responce reg)⟩, none) :=
      if_neg h
    have hw : b.writeRegister reg value = b := by
      rw [not_or] at h
      simp only [Board.writeRegister, h.1, h.2, if_false]
    rw [busRun_cons haddr, busRun_cons hreg, hw]
    rfl

/-- A read transfer answers the register and changes nothing. -/
theorem busRun_read (b : Board) {reg : UInt8} (h : ¬ (reg = 0x10 ∨ reg = 0x20)) :
    busRun ⟨b, .poll⟩ (rdwrEvents [.write [reg], .read 1]) = (⟨b, .poll⟩, [b.responce reg]) := by
  have haddr : busStep ⟨b, .poll⟩ (.address .write) = (⟨b, .register⟩, none) := rfl
  have hreg : busStep ⟨b, .register⟩ (.byteIn reg) = (⟨b, .answer (b.responce reg)⟩, none) :=
    if_neg h
  show busRun ⟨b, .poll⟩ [.address .write, .byteIn reg, .address .read, .byteOut, .stop] = _
  rw [busRun_cons haddr, busRun_cons hreg]
  rfl

/-- A read of a power register leaves the main loop waiting for a second byte. -/
theorem busRun_read_power (b : Board) {reg : UInt8} (h : reg = 0x10 ∨ reg = 0x20) :
    busRun ⟨b, .poll⟩ (rdwrEvents [.write [reg], .read 1]) = (⟨b, .stuck⟩, []) := by
  have haddr : busStep ⟨b, .poll⟩ (.address .write) = (⟨b, .register⟩, none) := rfl
  have hreg : busStep ⟨b, .register⟩ (.byteIn reg) = (⟨b, .value reg⟩, none) := if_pos h
  show busRun ⟨b, .poll⟩ [.address .write, .byteIn reg, .address .read, .byteOut, .stop] = _
  rw [busRun_cons haddr, busRun_cons hreg]
  rfl

theorem busRun_stuck (b : Board) (es : List BusEvent) : busRun ⟨b, .stuck⟩ es = (⟨b, .stuck⟩, []) := by
  induction es with
  | nil => rfl
  | cons e es ih =>
    have h : busStep ⟨b, .stuck⟩ e = (⟨b, .stuck⟩, none) := by cases e <;> rfl
    simp only [busRun, h, ih, Option.toList_none, List.append_nil]

@[simp] theorem serve_write (b : Board) (reg value : UInt8) :
    serve ⟨b, .poll⟩ (.write reg value) = ⟨b.writeRegister reg value, .poll⟩ := by
  rw [serve, Transfer.msgs, busRun_write]

/-- What a transfer can do to a board whose main loop polls or is stuck. -/
theorem serve_cases {fw : Firmware} (h : fw.phase = .poll ∨ fw.phase = .stuck) (t : Transfer) :
    (∃ reg value, t = .write reg value ∧ fw.phase = .poll ∧
      serve fw t = ⟨fw.board.writeRegister reg value, .poll⟩) ∨
    ((serve fw t).board = fw.board ∧ ((serve fw t).phase = .poll ∨ (serve fw t).phase = .stuck)) := by
  obtain ⟨b, ph⟩ := fw
  rcases h with h | h
  · cases h
    cases t with
    | write reg value => exact .inl ⟨reg, value, rfl, rfl, serve_write b reg value⟩
    | read reg =>
      refine .inr ?_
      by_cases hr : reg = 0x10 ∨ reg = 0x20
      · rw [serve, Transfer.msgs, busRun_read_power b hr]
        exact ⟨rfl, .inr rfl⟩
      · rw [serve, Transfer.msgs, busRun_read b hr]
        exact ⟨rfl, .inl rfl⟩
  · cases h
    rw [serve, busRun_stuck]
    exact .inr ⟨rfl, .inr rfl⟩

/-! ## The duty in effect -/

/-- The status registers answer the duty in effect, at most 100. -/
def Board.StatusIsDuty (b : Board) : Prop := ∀ c, b.dutyOf c = b.pwm c ∧ b.pwm c ≤ 100

theorem statusIsDuty_writeRegister {b : Board} (h : b.StatusIsDuty) (reg value : UInt8) :
    (b.writeRegister reg value).StatusIsDuty := by
  intro c
  rw [writeRegister_dutyOf, writeRegister_pwm]
  by_cases hc : setCooler reg = some c
  · rw [if_pos hc, if_pos hc]
    exact ⟨rfl, sat_le value⟩
  · rw [if_neg hc, if_neg hc]
    exact h c

theorem boot_statusIsDuty_iff (flash : Page) :
    (boot flash).StatusIsDuty ↔ flash 0 = 0 ∧ flash 1 = 0 := by
  have h : ∀ c, ((boot flash).dutyOf c = (boot flash).pwm c ∧ (boot flash).pwm c ≤ 100) ↔
      flash (pwmIndex c) = 0 := by
    intro c
    rw [boot_dutyOf, boot_pwm, eq_comm, clamp_eq_zero]
    exact and_iff_left (clamp_le _)
  constructor
  · intro hs
    exact ⟨(h .input).mp (hs .input), (h .output).mp (hs .output)⟩
  · rintro ⟨h0, h1⟩ c
    cases c with
    | input => exact (h .input).mpr h0
    | output => exact (h .output).mpr h1

/-- What a whole run keeps: the status registers and the duty agree if they did. -/
theorem statusIsDuty_run {b : Board} (h : b.StatusIsDuty) (ts : List Transfer) :
    (ts.foldl serve ⟨b, .poll⟩).board.StatusIsDuty := by
  refine (EventRun.foldl_keeps
    (fun fw : Firmware => (fw.phase = .poll ∨ fw.phase = .stuck) ∧ fw.board.StatusIsDuty) ?_
    ⟨b, .poll⟩ ts ⟨.inl rfl, h⟩).2
  rintro fw t ⟨hp, hd⟩
  rcases serve_cases hp t with ⟨reg, value, _, _, he⟩ | ⟨hb, hp'⟩
  · rw [he]
    exact ⟨.inl rfl, statusIsDuty_writeRegister hd reg value⟩
  · rw [hb]
    exact ⟨hp', hd⟩

/-- **The status registers answer the duty in effect** in every state of a run
between transfers exactly when both stored powers are 0: the boot restores the
registers and leaves the channels at 0. -/
theorem statusIsDuty_iff (flash : Page) (ts : List Transfer) :
    (∀ pre, pre <+: ts → (runTransfers flash pre).phase = .poll →
      (runTransfers flash pre).board.StatusIsDuty) ↔ flash 0 = 0 ∧ flash 1 = 0 := by
  rw [← boot_statusIsDuty_iff]
  constructor
  · intro h
    exact h [] List.nil_prefix rfl
  · intro h pre _ _
    exact statusIsDuty_run h pre

/-- Powers 50 and 0, as a run before the reset leaves them. -/
def storedFifty : Page := fun i => if i = 0 then 50 else 0

/-- After the reset the input cooler's register answers 50 and its channel is at 0. -/
theorem storedFifty_not_in_effect :
    ¬ ∀ pre, pre <+: ([] : List Transfer) → (runTransfers storedFifty pre).phase = .poll →
      (runTransfers storedFifty pre).board.StatusIsDuty := by
  intro h
  have h0 := ((boot_statusIsDuty_iff storedFifty).mp (h [] List.nil_prefix rfl)).1
  exact absurd h0 (by decide)

/-! ## Powers over a reset -/

/-- The board after a boot, register writes and a reset. -/
def powerCycle (flash : Page) (writes : List (UInt8 × UInt8)) : Board :=
  boot (runTransfers flash (writes.map fun w => .write w.1 w.2)).board.flash

/-- The power a register write asks of the cooler. -/
def powerWritten (c : Cooler) (w : UInt8 × UInt8) : Option Nat :=
  if setCooler w.1 = some c then some w.2.toNat else none

/-- Each cooler has the power last written, or the stored word, at most 100. -/
def RestoresPowers (flash : Page) (writes : List (UInt8 × UInt8)) : Prop :=
  ∀ c, ((powerCycle flash writes).pwm c).toNat =
    min 100 (EventRun.lastWritten (powerWritten c) (flash (pwmIndex c)).toNat writes)

/-- The boot stored into nothing but `coolers_pwm[0]` and `coolers_pwm[1]`. -/
def Board.StoresInBounds (b : Board) : Prop := ∀ k ∈ b.sram.stored, k < 2

/-- What the page holds is what the next boot restores. -/
def Board.Persisted (b : Board) : Prop := ∀ c, clamp (b.flash (pwmIndex c)) = b.pwm c

theorem boot_persisted (flash : Page) : (boot flash).Persisted := by
  intro c
  rw [boot_flash, boot_pwm]

theorem persisted_writeRegister {b : Board} (h : b.Persisted) (reg value : UInt8) :
    (b.writeRegister reg value).Persisted := by
  rw [writeRegister_eq]
  cases setCooler reg with
  | none => exact h
  | some d =>
    intro c
    show clamp ((b.writePower d (sat value)).flash (pwmIndex c)) = (b.writePower d (sat value)).pwm c
    rw [writePower_flash, writePower_pwm]
    -- the page holds a power the code has already cut to 100, the other cooler's too
    split
    · exact clamp_of_le (sat_le value)
    · rw [← h c]
      exact clamp_of_le (clamp_le _)

theorem runTransfers_writes (b : Board) (writes : List (UInt8 × UInt8)) :
    (writes.map fun w => Transfer.write w.1 w.2).foldl serve ⟨b, .poll⟩ =
      ⟨writes.foldl (fun b w => b.writeRegister w.1 w.2) b, .poll⟩ := by
  induction writes generalizing b with
  | nil => rfl
  | cons w writes ih =>
    rw [List.map_cons, List.foldl_cons, List.foldl_cons, serve_write]
    exact ih _

theorem persisted_writes {b : Board} (h : b.Persisted) (writes : List (UInt8 × UInt8)) :
    (writes.foldl (fun b w => b.writeRegister w.1 w.2) b).Persisted :=
  EventRun.foldl_keeps Board.Persisted (fun _ w hb => persisted_writeRegister hb w.1 w.2) b writes h

/-- After writes a power is the last one written, at most 100. -/
theorem pwm_writes (b : Board) (c : Cooler) (n : Nat) (hn : (b.pwm c).toNat = min 100 n)
    (writes : List (UInt8 × UInt8)) :
    ((writes.foldl (fun b w => b.writeRegister w.1 w.2) b).pwm c).toNat =
      min 100 (EventRun.lastWritten (powerWritten c) n writes) := by
  refine EventRun.foldl_lastWritten (powerWritten c) (fun n b => (b.pwm c).toNat = min 100 n) ?_
    n b writes hn
  intro n b w hb
  rw [writeRegister_pwm, powerWritten]
  split
  · rw [UInt8.toNat_toUInt32, sat_toNat, Option.getD_some]
  · rw [Option.getD_none, hb]

/-- The powers survive the reset. -/
theorem restoresPowers (flash : Page) (writes : List (UInt8 × UInt8)) :
    RestoresPowers flash writes := by
  intro c
  have hp := persisted_writes (boot_persisted flash) writes c
  rw [powerCycle, runTransfers, runTransfers_writes, boot_pwm, hp]
  exact pwm_writes _ c _ (by rw [boot_pwm, clamp_toNat]) writes

/-- **Every boot stores behind `coolers_pwm`**, for every page and every run of
writes: a size in bytes is taken for a number of words.  The powers themselves
are restored. -/
theorem powerCycle_out_of_bounds (flash : Page) (writes : List (UInt8 × UInt8)) :
    ¬ ((powerCycle flash writes).StoresInBounds ∧ RestoresPowers flash writes) ∧
      RestoresPowers flash writes := by
  refine ⟨fun h => ?_, restoresPowers flash writes⟩
  have h7 := h.1 7 (boot_stored _ (by decide))
  exact absurd h7 (by decide)

/-- An erased page and no write: the boot stores into the word after the array. -/
theorem erasedPage_out_of_bounds :
    ¬ ((powerCycle erasedPage []).StoresInBounds ∧ RestoresPowers erasedPage []) := by
  rintro ⟨h, -⟩
  exact absurd (h 2 (boot_stored _ (by decide))) (by decide)

/-! ## The host's side (`sensors.cpp`) -/

/-- The message of `set_coolers_power`. -/
def setCoolersPowerMsgs (name : Cooler) (power : UInt8) : List I2cMsg :=
  [.write [if name = .input then 0x10 else 0x20, if power > 100 then 100 else power]]

/-- The messages of `get_coolers_power`. -/
def getCoolersPowerMsgs (name : Cooler) : List I2cMsg :=
  [.write [if name = .input then 0x11 else 0x21], .read 1]

inductive HostCall where
  | set (name : Cooler) (power : UInt8)
  | get (name : Cooler)
  deriving DecidableEq, Repr

def HostCall.cooler : HostCall → Cooler
  | .set name _ => name
  | .get name => name

def HostCall.msgs : HostCall → List I2cMsg
  | .set name power => setCoolersPowerMsgs name power
  | .get name => getCoolersPowerMsgs name

/-- One call with its transfer intact, and `read_buf[0]` when it reads. -/
def hostCall (fw : Firmware) (call : HostCall) : Firmware × Option UInt8 :=
  let (fw', outs) := busRun fw (rdwrEvents call.msgs)
  (fw', outs.head?)

/-- The firmware after the calls, one at a time. -/
def hostRun (fw : Firmware) (calls : List HostCall) : Firmware :=
  calls.foldl (fun fw call => (hostCall fw call).1) fw

/-- What the status register of the cooler answers. -/
def Board.status (b : Board) (c : Cooler) : UInt8 := (b.pwm c).toUInt8

theorem hostCall_set (b : Board) (c : Cooler) (p : UInt8) :
    hostCall ⟨b, .poll⟩ (.set c p) = (⟨b.writePower c (sat p), .poll⟩, none) := by
  have hs : sat (sat p) = sat p := by
    rw [← UInt8.toNat_inj, sat_toNat, sat_toNat, ← Nat.min_assoc, Nat.min_self]
  have h : b.writeRegister (if c = .input then 0x10 else 0x20) (sat p) = b.writePower c (sat p) := by
    rw [writeRegister_eq, hs]
    cases c <;> rfl
  show ((busRun ⟨b, .poll⟩ (rdwrEvents [.write [_, sat p]])).1,
    (busRun ⟨b, .poll⟩ (rdwrEvents [.write [_, sat p]])).2.head?) = _
  rw [busRun_write, h]
  rfl

theorem hostCall_get (b : Board) (c : Cooler) :
    hostCall ⟨b, .poll⟩ (.get c) = (⟨b, .poll⟩, some (b.status c)) := by
  have hr : ¬ ((if c = .input then 0x11 else 0x21 : UInt8) = 0x10 ∨
      (if c = .input then 0x11 else 0x21 : UInt8) = 0x20) := by
    cases c <;> decide
  have h : b.responce (if c = .input then 0x11 else 0x21) = b.status c := by
    cases c <;> rfl
  show ((busRun ⟨b, .poll⟩ (rdwrEvents [.write [_], .read 1])).1,
    (busRun ⟨b, .poll⟩ (rdwrEvents [.write [_], .read 1])).2.head?) = _
  rw [busRun_read b hr, h]
  rfl

theorem writePower_status (b : Board) (c d : Cooler) (p : UInt8) :
    (b.writePower c p).status d = if d = c then p else b.status d := by
  unfold Board.status
  rw [writePower_pwm]
  split
  · exact UInt8.toUInt8_toUInt32 p
  · rfl

/-- Every call ends with the main loop polling. -/
theorem hostRun_poll (b : Board) (calls : List HostCall) :
    ∃ b', hostRun ⟨b, .poll⟩ calls = ⟨b', .poll⟩ := by
  induction calls generalizing b with
  | nil => exact ⟨b, rfl⟩
  | cons call calls ih =>
    unfold hostRun
    rw [List.foldl_cons]
    cases call with
    | set c p =>
      rw [hostCall_set]
      exact ih _
    | get c =>
      rw [hostCall_get]
      exact ih b

/-- The power a call asks of the cooler. -/
def powerSet (c : Cooler) : HostCall → Option Nat
  | .set d p => if d = c then some (min 100 p.toNat) else none
  | .get _ => none

/-- What the registers show after calls. -/
theorem hostRun_status (b : Board) (c : Cooler) (calls : List HostCall) :
    ((hostRun ⟨b, .poll⟩ calls).board.status c).toNat =
      EventRun.lastWritten (powerSet c) (b.status c).toNat calls := by
  refine (EventRun.foldl_lastWritten (powerSet c)
    (fun n (fw : Firmware) => fw.phase = .poll ∧ (fw.board.status c).toNat = n) ?_ _ ⟨b, .poll⟩
    calls ⟨rfl, rfl⟩).2
  rintro n ⟨b, ph⟩ call ⟨rfl, rfl⟩
  cases call with
  | set d p =>
    rw [hostCall_set]
    refine ⟨rfl, ?_⟩
    rw [writePower_status, powerSet]
    by_cases h : d = c
    · rw [if_pos h, if_pos h.symm, sat_toNat, Option.getD_some]
    · rw [if_neg h, if_neg (Ne.symm h), Option.getD_none]
  | get d =>
    rw [hostCall_get]
    exact ⟨rfl, rfl⟩

/-- **Host and controller agree.**  After any calls on a polling board, a get
answers the power last set for the same cooler, at most 100, or the register it
started from; a call on the other cooler does not change what is read. -/
theorem get_agrees (b : Board) (calls : List HostCall) (c : Cooler) :
    (hostCall (hostRun ⟨b, .poll⟩ calls) (.get c)).2.map UInt8.toNat =
        some (EventRun.lastWritten (powerSet c) (b.status c).toNat calls) ∧
      ∀ call, call.cooler ≠ c →
        (hostCall (hostCall (hostRun ⟨b, .poll⟩ calls) call).1 (.get c)).2 =
          (hostCall (hostRun ⟨b, .poll⟩ calls) (.get c)).2 := by
  have hs := hostRun_status b c calls
  obtain ⟨b', hb⟩ := hostRun_poll b calls
  rw [hb] at hs ⊢
  rw [hostCall_get]
  refine ⟨congrArg some hs, fun call hc => ?_⟩
  cases call with
  | set d p =>
    have hcd : c ≠ d := Ne.symm hc
    rw [hostCall_set, hostCall_get, writePower_status, if_neg hcd]
  | get d => rw [hostCall_get, hostCall_get]

/-! ## The registers the server counts on -/

/-- The board answers what the server last wrote. -/
def Board.Shows (b : Board) (regs : CtrlRegs) : Prop := ∀ c, b.status c = duty regs c

/-- A call of the server's is a step of the board's: what the server counts on
is what the board shows, and the duty in effect. -/
theorem shows_set {b : Board} {regs : CtrlRegs} (h : b.Shows regs) (c : Cooler) (p : UInt8) :
    ∃ b', hostCall ⟨b, .poll⟩ (.set c p) = (⟨b', .poll⟩, none) ∧
      b'.Shows (setCoolersPower true c p regs).2 ∧ b'.dutyOf c = (sat p).toUInt32 := by
  refine ⟨_, hostCall_set b c p, fun d => ?_, ?_⟩
  · rw [writePower_status, duty_setCoolersPower, h d]
  · rw [writePower_dutyOf, if_pos rfl]

end Growbox.CoolersController
