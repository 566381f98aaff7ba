import Growbox.CoolersController
import Mathlib.Algebra.Group.Nat.Defs

/-!
# `flash.c`: the page of the coolers

`flash_write_page` erases the last page of the flash and programs the words of an array from
its start on, with the vendor's driver.  Up to 1000 words are taken, and the page has 256 of
them; where the erase fails, the flash stays open (`writesPage_iff`).  Within the page it is
the write the coolers' controller is modelled with (`pageOf_flashWritePage`).
-/

namespace Growbox.Flash

open CoolersController (pageSize)

/-! ## The chip and its driver -/

/-- The halfwords of the flash by address. -/
abbrev Cells := UInt32 → UInt16

def erasedCell : UInt16 := 0xFFFF

def put (cells : Cells) (addr : UInt32) (data : UInt16) : Cells := fun a => if a = addr then data else cells a

/-- What programming a halfword does to the cells, and whether there is no error flag after it.
A cell of the flash that is erased takes it; anything else is up to the chip. -/
structure Chip where
  program : UInt32 → UInt16 → Cells → Bool × Cells
  program_erased (addr : UInt32) (data : UInt16) (cells : Cells) : 0x08000000 ≤ addr.toNat →
    addr.toNat < 0x08020000 → cells addr = erasedCell → program addr data cells = (true, put cells addr data)

inductive HalStatus where
  | ok | error | busy | timeout
  deriving DecidableEq, Repr

/-- What becomes of an erase: the driver is in use or the flash not ready, the page is not
erased (in time) and something is left in the cells, or it is. -/
inductive EraseOutcome where
  | busy
  | notReady
  | faulty (inTime : Bool) (left : Cells)
  | erased

structure EraseResult where
  res : HalStatus
  pageError : UInt32
  cells : Cells

/-- `FLASH_PAGE_SIZE` -/
def flashPageSize : Nat := 0x400

/-- The bytes of the page at `pageAddress`. -/
def InPage (pageAddress a : UInt32) : Prop :=
  pageAddress.toNat ≤ a.toNat ∧ a.toNat < pageAddress.toNat + flashPageSize

instance (pageAddress a : UInt32) : Decidable (InPage pageAddress a) := inferInstanceAs (Decidable (_ ∧ _))

/-- `HAL_FLASHEx_Erase` of one page; `pageError` is written once the flash is ready. -/
def halFlashExErase (pageAddress pageError : UInt32) (cells : Cells) : EraseOutcome → EraseResult
  | .busy => ⟨.busy, pageError, cells⟩
  | .notReady => ⟨.error, pageError, cells⟩
  | .faulty inTime left => ⟨if inTime then .error else .timeout, pageAddress, left⟩
  | .erased => ⟨.ok, 0xFFFFFFFF, fun a => if InPage pageAddress a then erasedCell else cells a⟩

/-- The cells, and the addresses halfwords were written to. -/
structure Programmed where
  cells : Cells
  addrs : List UInt32

/-- `HAL_FLASH_Program` of a word: two halfwords, and none after an error. -/
def halFlashProgram (chip : Chip) (addr data : UInt32) (cells : Cells) : Programmed :=
  let low := chip.program addr data.toUInt16 cells
  if low.1 then ⟨(chip.program (addr + 2) (data >>> 16).toUInt16 low.2).2, [addr, addr + 2]⟩
  else ⟨low.2, [addr]⟩

/-! ## `flash.c` -/

def addrFlashPage127 : UInt32 := 0x0801FC00

structure State where
  cells : Cells
  locked : Bool

/-- The loop of `flash_write_page`; the status of a word is not looked at. -/
def programWords (chip : Chip) (destAddr : UInt32) : List UInt32 → Cells → Programmed
  | [], cells => ⟨cells, []⟩
  | w :: ws, cells =>
    let r := halFlashProgram chip destAddr w cells
    let rest := programWords chip (destAddr + 4) ws r.cells
    ⟨rest.cells, r.addrs ++ rest.addrs⟩

/-- `flash_write_page` of the `len` words of `buf`: the flash, and what was programmed. -/
def flashWritePage (chip : Chip) (addr : UInt32) (buf : List UInt32) (erase : EraseOutcome) (flash : State) :
    State × List UInt32 :=
  let size := pageSize buf.length
  let flash := { flash with locked := false }
  let r := halFlashExErase addrFlashPage127 0 flash.cells erase
  let flash := { flash with cells := r.cells }
  if r.res ≠ .ok ∨ r.pageError ≠ 0xFFFFFFFF then (flash, [])
  else
    let p := programWords chip addr (buf.take size) flash.cells
    ({ flash with cells := p.cells, locked := true }, p.addrs)

/-- `*(volatile uint32_t *)addr` -/
def wordAt (cells : Cells) (addr : UInt32) : UInt32 :=
  (cells addr).toUInt32 ||| ((cells (addr + 2)).toUInt32 <<< 16)

def readWords (cells : Cells) : UInt32 → Nat → List UInt32
  | _, 0 => []
  | srcAddr, n + 1 => wordAt cells srcAddr :: readWords cells (srcAddr + 4) n

def flashReadPage (addr : UInt32) (len : Nat) (cells : Cells) : List UInt32 :=
  readWords cells addr (pageSize len)

/-! ## A word -/

theorem toNat_add {a k : UInt32} (h : a.toNat + k.toNat < 2 ^ 32) : (a + k).toNat = a.toNat + k.toNat := by
  rw [UInt32.toNat_add, Nat.mod_eq_of_lt h]

/-- A word from its halves. -/
theorem halves (w : UInt32) : w.toUInt16.toUInt32 ||| ((w >>> 16).toUInt16.toUInt32 <<< 16) = w := by
  have hlow : w.toNat % 2 ^ 16 < 2 ^ 16 := Nat.mod_lt _ (by decide)
  have hhigh : w.toNat / 2 ^ 16 % 2 ^ 16 * 2 ^ 16 % 2 ^ 32 = 2 ^ 16 * (w.toNat / 2 ^ 16) := by
    have := w.toNat_lt
    omega
  apply UInt32.toNat_inj.mp
  simp only [UInt32.toNat_or, UInt32.toNat_shiftLeft, UInt16.toNat_toUInt32, UInt32.toNat_toUInt16,
    UInt32.toNat_shiftRight, UInt32.reduceToNat, Nat.reduceMod, Nat.shiftLeft_eq, Nat.shiftRight_eq_div_pow]
  rw [hhigh, Nat.or_comm, ← Nat.two_pow_add_eq_or_of_lt hlow]
  omega

/-- The word at `addr` is within the flash. -/
def InFlash (addr : UInt32) (n : Nat) : Prop := 0x08000000 ≤ addr.toNat ∧ addr.toNat + 4 * n ≤ 0x08020000

/-- The `n` words from `addr` on are erased. -/
def Blank (cells : Cells) (addr : UInt32) (n : Nat) : Prop :=
  ∀ a : UInt32, addr.toNat ≤ a.toNat → a.toNat < addr.toNat + 4 * n → cells a = erasedCell

/-- **What programming an erased word does**: the word is there, and nothing else is touched. -/
theorem halFlashProgram_blank (chip : Chip) {addr : UInt32} (w : UInt32) {cells : Cells}
    (hflash : InFlash addr 1) (hblank : Blank cells addr 1) :
    halFlashProgram chip addr w cells =
      ⟨put (put cells addr w.toUInt16) (addr + 2) (w >>> 16).toUInt16, [addr, addr + 2]⟩ := by
  obtain ⟨hlow, hhigh⟩ := hflash
  have h2 : (addr + 2).toNat = addr.toNat + 2 := toNat_add (show addr.toNat + 2 < 2 ^ 32 by omega)
  have hne : addr + 2 ≠ addr := fun h => by rw [h] at h2; omega
  have hfirst := chip.program_erased addr w.toUInt16 cells hlow (by omega) (hblank addr (by omega) (by omega))
  have hsecond := chip.program_erased (addr + 2) (w >>> 16).toUInt16 (put cells addr w.toUInt16) (by omega)
    (by omega) (by rw [put, if_neg hne]; exact hblank _ (by omega) (by omega))
  simp only [halFlashProgram, hfirst, hsecond, if_true]

theorem wordAt_put (cells : Cells) {addr : UInt32} (w : UInt32) (h : addr.toNat + 2 < 2 ^ 32) :
    wordAt (put (put cells addr w.toUInt16) (addr + 2) (w >>> 16).toUInt16) addr = w := by
  have hne : addr ≠ addr + 2 := fun he => by
    have h2 : (addr + 2).toNat = addr.toNat + 2 := toNat_add h
    rw [← he] at h2
    omega
  simp only [wordAt, put, if_neg hne, if_true, halves]

/-- A cell that is not of the word at `addr`. -/
theorem put_outside (cells : Cells) {addr a : UInt32} (low high : UInt16) (h : addr.toNat + 2 < 2 ^ 32)
    (ha : a.toNat < addr.toNat ∨ addr.toNat + 4 ≤ a.toNat) :
    put (put cells addr low) (addr + 2) high a = cells a := by
  have h2 : (addr + 2).toNat = addr.toNat + 2 := toNat_add h
  have hfirst : a ≠ addr := fun he => by rw [he] at ha; omega
  have hsecond : a ≠ addr + 2 := fun he => by rw [he, h2] at ha; omega
  simp only [put, if_neg hfirst, if_neg hsecond]

/-! ## The loop -/

/-- Words into a blank stretch of the flash. -/
structure Written (addr : UInt32) (ws : List UInt32) (cells : Cells) (p : Programmed) : Prop where
  inside : ∀ a ∈ p.addrs, addr.toNat ≤ a.toNat ∧ a.toNat + 2 ≤ addr.toNat + 4 * ws.length
  words : readWords p.cells addr ws.length = ws
  frame : ∀ a : UInt32, a.toNat < addr.toNat ∨ addr.toNat + 4 * ws.length ≤ a.toNat → p.cells a = cells a

/-- **The loop**, by induction on the words: each goes into a stretch that is still blank, and
those that were written before stay. -/
theorem programWords_written (chip : Chip) {addr : UInt32} {ws : List UInt32} {cells : Cells}
    (hflash : InFlash addr ws.length) (hblank : Blank cells addr ws.length) :
    Written addr ws cells (programWords chip addr ws cells) := by
  induction ws generalizing addr cells with
  | nil => exact ⟨fun a ha => absurd ha List.not_mem_nil, rfl, fun _ _ => rfl⟩
  | cons w ws ih =>
    obtain ⟨hlow, hhigh⟩ := hflash
    rw [List.length_cons] at hhigh hblank
    have h2 : addr.toNat + 2 < 2 ^ 32 := by omega
    have h2' : (addr + 2).toNat = addr.toNat + 2 := toNat_add h2
    have h4 : (addr + 4).toNat = addr.toNat + 4 := toNat_add (show addr.toNat + 4 < 2 ^ 32 by omega)
    have hword := halFlashProgram_blank chip w ⟨hlow, by omega⟩
      (fun a ha hlt => hblank a ha (by omega))
    have hrest : Blank (put (put cells addr w.toUInt16) (addr + 2) (w >>> 16).toUInt16) (addr + 4)
        ws.length := by
      intro a ha hlt
      rw [put_outside _ _ _ h2 (.inr (by omega))]
      exact hblank a (by omega) (by omega)
    obtain ⟨hinside, hwords, hframe⟩ := ih ⟨by omega, by omega⟩ hrest
    simp only [programWords, hword]
    refine ⟨?_, ?_, ?_⟩
    · intro a ha
      rw [List.length_cons]
      rcases List.mem_append.mp ha with ha | ha
      · simp only [List.mem_cons, List.not_mem_nil, or_false] at ha
        rcases ha with rfl | rfl <;> omega
      · have := hinside a ha
        omega
    · have hfirst : wordAt (programWords chip (addr + 4) ws
          (put (put cells addr w.toUInt16) (addr + 2) (w >>> 16).toUInt16)).cells addr = w := by
        rw [wordAt, hframe addr (.inl (by omega)), hframe (addr + 2) (.inl (by omega))]
        exact wordAt_put cells w h2
      rw [List.length_cons, readWords, hfirst, hwords]
    · intro a ha
      rw [List.length_cons] at ha
      rw [hframe a (by omega), put_outside _ _ _ h2 (by omega)]

theorem add_four_mul (addr : UInt32) (k : Nat) :
    addr + 4 + UInt32.ofNat (4 * k) = addr + UInt32.ofNat (4 * (k + 1)) := by
  rw [Nat.mul_succ, Nat.add_comm, UInt32.ofNat_add, ← UInt32.add_assoc]
  rfl

/-- Whatever the chip does, there is an attempt at every word. -/
theorem mem_programWords (chip : Chip) (addr : UInt32) (ws : List UInt32) (cells : Cells) {k : Nat}
    (hk : k < ws.length) : addr + UInt32.ofNat (4 * k) ∈ (programWords chip addr ws cells).addrs := by
  induction ws generalizing addr cells k with
  | nil => exact absurd hk (Nat.not_lt_zero k)
  | cons w ws ih =>
    simp only [programWords]
    cases k with
    | zero =>
      refine List.mem_append_left _ ?_
      simp only [halFlashProgram]
      split <;> simp
    | succ k =>
      rw [← add_four_mul]
      exact List.mem_append_right _ (ih _ _ (Nat.lt_of_succ_lt_succ hk))

/-! ## The page -/

/-- Only the page is programmed, the flash is locked, and a page that was erased has the words. -/
structure WritesPage (chip : Chip) (buf : List UInt32) (erase : EraseOutcome) (flash : State) : Prop where
  confined : ∀ a ∈ (flashWritePage chip addrFlashPage127 buf erase flash).2, InPage addrFlashPage127 a
  locked : (flashWritePage chip addrFlashPage127 buf erase flash).1.locked = true
  reads : erase = .erased → buf.length ≤ 1000 → flashReadPage addrFlashPage127 buf.length
    (flashWritePage chip addrFlashPage127 buf erase flash).1.cells = buf

theorem flashWritePage_erased (chip : Chip) (buf : List UInt32) (flash : State) :
    flashWritePage chip addrFlashPage127 buf .erased flash =
      let p := programWords chip addrFlashPage127 (buf.take (pageSize buf.length))
        fun a => if InPage addrFlashPage127 a then erasedCell else flash.cells a
      (⟨p.cells, true⟩, p.addrs) := rfl

/-- An erase that did not succeed is the end of it, with the flash open. -/
theorem flashWritePage_not_erased (chip : Chip) (addr : UInt32) (buf : List UInt32) {erase : EraseOutcome}
    (h : erase ≠ .erased) (flash : State) :
    (flashWritePage chip addr buf erase flash).1.locked = false := by
  have hres : (halFlashExErase addrFlashPage127 0 flash.cells erase).res ≠ .ok := by
    cases erase with
    | busy | notReady => exact HalStatus.noConfusion
    | faulty inTime left => cases inTime <;> exact HalStatus.noConfusion
    | erased => exact absurd rfl h
  unfold flashWritePage
  simp only [if_pos (Or.inl hres)]

/-- Words that fit the page. -/
theorem flashWritePage_written (chip : Chip) {buf : List UInt32} (hlen : buf.length ≤ 256) (flash : State) :
    ∃ p, flashWritePage chip addrFlashPage127 buf .erased flash = (⟨p.cells, true⟩, p.addrs) ∧
      Written addrFlashPage127 buf (halFlashExErase addrFlashPage127 0 flash.cells .erased).cells p := by
  have haddr : addrFlashPage127.toNat = 0x0801FC00 := rfl
  have hblank : Blank (halFlashExErase addrFlashPage127 0 flash.cells .erased).cells addrFlashPage127
      buf.length :=
    fun a ha hlt => if_pos ⟨ha, by rw [flashPageSize]; omega⟩
  refine ⟨_, ?_, programWords_written chip ⟨by decide, by omega⟩ hblank⟩
  rw [flashWritePage_erased, CoolersController.pageSize_of_le (by omega), List.take_length]
  rfl

/-- With more words than the page has, the address behind it is programmed. -/
theorem mem_flashWritePage (chip : Chip) {buf : List UInt32} (hlen : 256 < buf.length) (flash : State) :
    0x08020000 ∈ (flashWritePage chip addrFlashPage127 buf .erased flash).2 := by
  have hk : 256 < (buf.take (pageSize buf.length)).length := by
    rw [List.length_take, pageSize]
    split <;> omega
  have haddr : (0x08020000 : UInt32) = addrFlashPage127 + UInt32.ofNat (4 * 256) := by decide
  rw [flashWritePage_erased, haddr]
  exact mem_programWords chip _ _ _ hk

/-- **When a write of the page is one**: when the page was erased and has room for the words. -/
theorem writesPage_iff (chip : Chip) (buf : List UInt32) (erase : EraseOutcome) (flash : State) :
    WritesPage chip buf erase flash ↔ erase = .erased ∧ buf.length ≤ 256 := by
  constructor
  · rintro ⟨hconfined, hlocked, -⟩
    have herased : erase = .erased := by
      apply Classical.byContradiction
      intro h
      rw [flashWritePage_not_erased chip _ buf h flash] at hlocked
      cases hlocked
    refine ⟨herased, ?_⟩
    apply Classical.byContradiction
    intro hlen
    have hbeyond := hconfined _ (herased ▸ mem_flashWritePage chip (Nat.not_le.mp hlen) flash)
    exact absurd hbeyond (by decide)
  · rintro ⟨rfl, hlen⟩
    obtain ⟨p, hwrite, hinside, hwords, -⟩ := flashWritePage_written chip hlen flash
    refine ⟨fun a ha => ?_, by rw [hwrite], fun _ _ => ?_⟩
    · rw [hwrite] at ha
      have := hinside a ha
      exact ⟨this.1, by rw [flashPageSize]; omega⟩
    · rw [flashReadPage, CoolersController.pageSize_of_le (by omega), hwrite]
      exact hwords

/-- A cell that is not erased takes only zeros. -/
def stm32f103 : Chip where
  program addr data cells :=
    if cells addr = erasedCell ∨ data = 0 then (true, put cells addr data) else (false, cells)
  program_erased _ _ _ _ _ h := if_pos (.inl h)

/-- An erase that fails, and 257 words. -/
theorem left_open_and_beyond :
    (flashWritePage stm32f103 addrFlashPage127 [40, 60] (.faulty true fun _ => 0)
      ⟨fun _ => 0, true⟩).1.locked = false ∧
    0x08020000 ∈ (flashWritePage stm32f103 addrFlashPage127 (List.replicate 257 0) .erased
      ⟨fun _ => 0, true⟩).2 ∧ ¬ InPage addrFlashPage127 0x08020000 := by
  refine ⟨flashWritePage_not_erased _ _ _ EraseOutcome.noConfusion _, mem_flashWritePage _ ?_ _, by decide⟩
  rw [List.length_replicate]
  decide

/-! ## The page of the controller's model -/

theorem getElem?_readWords (cells : Cells) (addr : UInt32) {n k : Nat} (hk : k < n) :
    (readWords cells addr n)[k]? = some (wordAt cells (addr + UInt32.ofNat (4 * k))) := by
  induction n generalizing addr k with
  | zero => exact absurd hk (Nat.not_lt_zero k)
  | succ n ih =>
    cases k with
    | zero => simp [readWords]
    | succ k =>
      rw [readWords, List.getElem?_cons_succ, ih _ (Nat.lt_of_succ_lt_succ hk), add_four_mul]

theorem coolers_flashWritePage (m : CoolersController.Sram) (len i : Nat) :
    CoolersController.flashWritePage m len i = if i < pageSize len then m.word i else 0xFFFFFFFF := by
  unfold CoolersController.flashWritePage
  induction pageSize len with
  | zero => rfl
  | succ n ih =>
    rw [List.range_succ, List.foldl_append, List.foldl_cons, List.foldl_nil, ih]
    rcases Nat.lt_trichotomy i n with h | h | h
    · rw [if_neg (by omega), if_pos h, if_pos (by omega)]
    · rw [if_pos h, if_pos (by omega), h]
    · rw [if_neg (by omega), if_neg (by omega), if_neg (by omega)]

/-- **The page of the controller's model** is what an erase and the loop leave in the flash. -/
theorem pageOf_flashWritePage (chip : Chip) (m : CoolersController.Sram) {len : Nat} (hlen : len ≤ 256)
    (flash : State) {i : Nat} (hi : i < 256) :
    wordAt (flashWritePage chip addrFlashPage127 ((List.range len).map m.word) .erased flash).1.cells
      (addrFlashPage127 + UInt32.ofNat (4 * i)) = CoolersController.flashWritePage m len i := by
  have hlength : ((List.range len).map m.word).length = len := by rw [List.length_map, List.length_range]
  have haddr : addrFlashPage127.toNat = 0x0801FC00 := rfl
  have hi4 : (addrFlashPage127 + UInt32.ofNat (4 * i)).toNat = addrFlashPage127.toNat + 4 * i := by
    rw [UInt32.toNat_add, UInt32.toNat_ofNat']
    omega
  obtain ⟨p, hwrite, -, hwords, hframe⟩ := flashWritePage_written chip (hlength.symm ▸ hlen) flash
  rw [hlength] at hwords hframe
  rw [hwrite, coolers_flashWritePage, CoolersController.pageSize_of_le (by omega)]
  by_cases h : i < len
  · have hget := getElem?_readWords p.cells addrFlashPage127 h
    rw [hwords, List.getElem?_map, List.getElem?_range h] at hget
    rw [if_pos h]
    exact (Option.some.inj hget).symm
  · have hblank (a : UInt32) (ha : addrFlashPage127.toNat + 4 * i ≤ a.toNat)
        (hlt : a.toNat < addrFlashPage127.toNat + 4 * i + 4) : p.cells a = erasedCell := by
      rw [hframe a (.inr (by omega))]
      exact if_pos ⟨by omega, by rw [flashPageSize]; omega⟩
    have hi6 : (addrFlashPage127 + UInt32.ofNat (4 * i) + 2).toNat = addrFlashPage127.toNat + 4 * i + 2 := by
      rw [toNat_add (show _ + 2 < 2 ^ 32 by omega), hi4]
      rfl
    show wordAt p.cells _ = _
    rw [if_neg h, wordAt, hblank _ (by omega) (by omega), hblank _ (by omega) (by omega)]
    rfl

end Growbox.Flash
