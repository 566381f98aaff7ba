import Growbox.Uart

/-!
# The queue of the firmware (`firmware/Inc/fifo.h`)

`FIFO_PUSH` empties the whole queue when it has come to the end of the buffer, and `FIFO_POP`
goes back to the front on its own.  The queue of `Uart` is that of 1024 bytes
(`hfifo_push`, `hfifo_pop`).  It keeps its elements as long as it is empty whenever a
push comes to the end of the buffer, and no longer: `queue_bounded_iff`.
-/

namespace Growbox

open EventRun

/-! ## The macros -/

/-- `FIFO_CREATE`, for elements of any type. -/
structure Hfifo (α : Type) where
  buf : Nat → α
  tail : UInt32
  head : UInt32

namespace Hfifo

section
variable {α : Type} (q : Hfifo α) (size : UInt32)

/-- `FIFO_FLUSH` -/
def flush : Hfifo α := ⟨q.buf, 0, 0⟩

/-- `FIFO_AVAIL_COUNT` -/
def availCount : UInt32 := q.head - q.tail

/-- `FIFO_PUSH`; `size` is `FIFO_SIZE`. -/
def push (data : α) : Hfifo α :=
  let q := if q.head = size then q.flush else q
  ⟨fun i => if i = q.head.toNat then data else q.buf i, q.tail, q.head + 1⟩

/-- `FIFO_POP`, with what is stored. -/
def pop : Hfifo α × α :=
  let q := if q.tail = size then ⟨q.buf, 0, q.head⟩ else q
  (⟨q.buf, q.tail + 1, q.head⟩, q.buf q.tail.toNat)

variable {q size}

theorem push_of_ne (h : q.head ≠ size) (data : α) :
    q.push size data =
      ⟨fun i => if i = q.head.toNat then data else q.buf i, q.tail, q.head + 1⟩ := by
  rw [push, if_neg h]

theorem push_of_eq (h : q.head = size) (data : α) :
    q.push size data = ⟨fun i => if i = 0 then data else q.buf i, 0, 1⟩ := by
  rw [push, if_pos h]
  rfl

theorem pop_of_ne (h : q.tail ≠ size) :
    q.pop size = (⟨q.buf, q.tail + 1, q.head⟩, q.buf q.tail.toNat) := by
  rw [pop, if_neg h]

end

end Hfifo

/-! ## The queue of the port -/

/-- `uart1_fifo` -/
def Uart.Fifo.hfifo (q : Uart.Fifo) : Hfifo UInt8 := ⟨q.buf, q.tail, q.head⟩

theorem toNat_eq_uartBufSize_iff (n : UInt32) : n.toNat = Uart.uartBufSize ↔ n = 1024 :=
  UInt32.toNat_inj (b := 1024)

theorem hfifo_push (q : Uart.Fifo) (data : UInt8) : (q.push data).hfifo = q.hfifo.push 1024 data := by
  unfold Uart.Fifo.push Hfifo.push
  simp only [toNat_eq_uartBufSize_iff]
  by_cases h : q.head = 1024
  · rw [if_pos h, if_pos (show q.hfifo.head = 1024 from h)]
    rfl
  · rw [if_neg h, if_neg (show ¬ q.hfifo.head = 1024 from h)]
    rfl

theorem hfifo_pop (q : Uart.Fifo) : (q.pop.1.hfifo, q.pop.2) = q.hfifo.pop 1024 := by
  unfold Uart.Fifo.pop Hfifo.pop
  simp only [toNat_eq_uartBufSize_iff]
  by_cases h : q.tail = 1024
  · rw [if_pos h, if_pos (show q.hfifo.tail = 1024 from h)]
    rfl
  · rw [if_neg h, if_neg (show ¬ q.hfifo.tail = 1024 from h)]
    rfl

/-! ## Sequences of operations -/

inductive FifoOp (α : Type) where
  | push (data : α)
  | pop

/-- The queue and its past. -/
structure FifoRun (α : Type) where
  fifo : Hfifo α
  pushed : List α
  popped : List α

namespace FifoRun

section
variable {α : Type} (size : UInt32)

/-- After `FIFO_FLUSH`. -/
def start (q : Hfifo α) : FifoRun α := ⟨q.flush, [], []⟩

/-- A push while less than `size` elements are outstanding, or a pop while some are available. -/
def step (s : FifoRun α) : FifoOp α → Option (FifoRun α)
  | .push data =>
    if s.pushed.length < s.popped.length + size.toNat then
      some ⟨s.fifo.push size data, s.pushed ++ [data], s.popped⟩
    else none
  | .pop =>
    if 0 < s.fifo.availCount then
      some ⟨(s.fifo.pop size).1, s.pushed, s.popped ++ [(s.fifo.pop size).2]⟩
    else none

/-- What was popped is what was pushed first, and the count is of the rest. -/
def Bounded (s : FifoRun α) : Prop :=
  s.popped <+: s.pushed ∧ s.fifo.availCount.toNat = s.pushed.length - s.popped.length

/-- Each time as many elements as the buffer holds have been pushed, all have been popped when
the next comes. -/
def EmptyAtEnd (s : FifoRun α) : FifoOp α → Prop
  | .push _ => s.pushed.length ≠ 0 → size.toNat ∣ s.pushed.length → s.popped.length = s.pushed.length
  | .pop => True

variable {size} in
theorem step_push {s s' : FifoRun α} {data : α} (h : step size s (.push data) = some s') :
    s' = ⟨s.fifo.push size data, s.pushed ++ [data], s.popped⟩ :=
  (Option.some.inj (Option.ite_none_right_eq_some.mp h).2).symm

variable {size} in
theorem step_pop {s s' : FifoRun α} (h : step size s .pop = some s') :
    0 < s.fifo.availCount ∧
      s' = ⟨(s.fifo.pop size).1, s.pushed, s.popped ++ [(s.fifo.pop size).2]⟩ := by
  obtain ⟨havail, hs⟩ := Option.ite_none_right_eq_some.mp h
  exact ⟨havail, (Option.some.inj hs).symm⟩

/-! ## What the buffer holds -/

/-- The first `first` elements came before the last flush, the others are in the buffer. -/
structure Laid (first : Nat) (s : FifoRun α) : Prop where
  tail_le : s.fifo.tail ≤ s.fifo.head
  head_le : s.fifo.head ≤ size
  whole : size.toNat ∣ first
  head_zero : s.fifo.head = 0 → first = 0
  pushed : s.pushed.length = first + s.fifo.head.toNat
  popped : s.popped = s.pushed.take (first + s.fifo.tail.toNat)
  cells : ∀ i, i < s.fifo.head.toNat → s.pushed[first + i]? = some (s.fifo.buf i)

theorem laid_start (q : Hfifo α) : Laid size 0 (start q) where
  tail_le := UInt32.le_refl 0
  head_le := UInt32.le_iff_toNat_le.mpr (Nat.zero_le _)
  whole := Nat.dvd_zero _
  head_zero _ := rfl
  pushed := rfl
  popped := rfl
  cells i hi := absurd hi (Nat.not_lt_zero i)

variable {size} {first : Nat} {s : FifoRun α}

theorem length_popped (h : Laid size first s) : s.popped.length = first + s.fifo.tail.toNat := by
  have hle := UInt32.le_iff_toNat_le.mp h.tail_le
  have hlen := h.pushed
  rw [h.popped, List.length_take]
  omega

theorem availCount_laid (h : Laid size first s) :
    s.fifo.availCount.toNat = s.fifo.head.toNat - s.fifo.tail.toNat :=
  UInt32.toNat_sub_of_le _ _ h.tail_le

theorem bounded_of_laid (h : Laid size first s) : s.Bounded := by
  constructor
  · rw [h.popped]
    exact List.take_prefix ..
  · rw [availCount_laid h, length_popped h, h.pushed]
    omega

/-- The end of the buffer is reached after every `size` pushes. -/
theorem head_eq_size_iff (hsize : 0 < size) (h : Laid size first s) :
    s.fifo.head = size ↔ s.pushed.length ≠ 0 ∧ size.toNat ∣ s.pushed.length := by
  have hpos : 0 < size.toNat := UInt32.lt_iff_toNat_lt.mp hsize
  rw [h.pushed]
  constructor
  · intro hhead
    rw [hhead]
    exact ⟨by omega, Nat.dvd_add h.whole (Nat.dvd_refl _)⟩
  · rintro ⟨hne, hdvd⟩
    have hhead : size.toNat ∣ s.fifo.head.toNat := (Nat.dvd_add_right h.whole).mp hdvd
    have hle := UInt32.le_iff_toNat_le.mp h.head_le
    by_cases hzero : s.fifo.head = 0
    · refine absurd ?_ hne
      rw [h.head_zero hzero, hzero]
      rfl
    · have hpos' : 0 < s.fifo.head.toNat :=
        Nat.pos_of_ne_zero fun h0 => hzero (UInt32.toNat_inj.mp h0)
      exact UInt32.toNat_inj.mp (Nat.le_antisymm hle (Nat.le_of_dvd hpos' hhead))

/-- A push before the end of the buffer. -/
theorem laid_push (h : Laid size first s) (hhead : s.fifo.head ≠ size) (data : α) :
    Laid size first ⟨s.fifo.push size data, s.pushed ++ [data], s.popped⟩ := by
  have hlt : s.fifo.head.toNat < size.toNat :=
    UInt32.lt_iff_toNat_lt.mp (UInt32.lt_of_le_of_ne h.head_le hhead)
  have hsucc : (s.fifo.head + 1).toNat = s.fifo.head.toNat + 1 := by
    have := size.toNat_lt
    rw [UInt32.toNat_add]
    show (s.fifo.head.toNat + 1) % 4294967296 = _
    omega
  have htail := UInt32.le_iff_toNat_le.mp h.tail_le
  have hlen := h.pushed
  rw [Hfifo.push_of_ne hhead]
  constructor
  · rw [UInt32.le_iff_toNat_le, hsucc]
    exact Nat.le_succ_of_le htail
  · rw [UInt32.le_iff_toNat_le, hsucc]
    exact hlt
  · exact h.whole
  · intro h0
    have := congrArg UInt32.toNat h0
    rw [hsucc] at this
    exact absurd this (Nat.succ_ne_zero _)
  · rw [List.length_append, List.length_singleton, hsucc, hlen, Nat.add_assoc]
  · show s.popped = (s.pushed ++ [data]).take (first + s.fifo.tail.toNat)
    rw [List.take_append_of_le_length (by omega), h.popped]
  · intro i hi
    show (s.pushed ++ [data])[first + i]? = some (if i = s.fifo.head.toNat then data else s.fifo.buf i)
    rw [hsucc] at hi
    by_cases hi' : i = s.fifo.head.toNat
    · rw [if_pos hi', List.getElem?_append_right (by omega), hlen, hi', Nat.sub_self]
      rfl
    · rw [if_neg hi', List.getElem?_append_left (by omega)]
      exact h.cells i (by omega)

/-- A push at the end of the buffer, when nothing is outstanding. -/
theorem laid_push_flush (hsize : 0 < size) (h : Laid size first s) (hhead : s.fifo.head = size)
    (hempty : s.popped.length = s.pushed.length) (data : α) :
    Laid size s.pushed.length ⟨s.fifo.push size data, s.pushed ++ [data], s.popped⟩ := by
  have hpos : 1 ≤ size.toNat := UInt32.lt_iff_toNat_lt.mp hsize
  have hpopped : s.popped = s.pushed :=
    List.IsPrefix.eq_of_length (bounded_of_laid h).1 hempty
  rw [Hfifo.push_of_eq hhead]
  constructor
  · exact UInt32.le_iff_toNat_le.mpr (Nat.zero_le _)
  · exact UInt32.le_iff_toNat_le.mpr hpos
  · exact ((head_eq_size_iff hsize h).mp hhead).2
  · exact fun h0 => absurd h0 (show (1 : UInt32) ≠ 0 by decide)
  · exact List.length_append
  · show s.popped = (s.pushed ++ [data]).take (s.pushed.length + 0)
    rw [Nat.add_zero, List.take_left, hpopped]
  · intro i hi
    obtain rfl : i = 0 := Nat.lt_one_iff.mp hi
    rw [Nat.add_zero, List.getElem?_append_right (Nat.le_refl _), Nat.sub_self]
    rfl

/-- A push at the end of the buffer when some elements are outstanding: the count is 1. -/
theorem not_bounded_push_flush (hhead : s.fifo.head = size)
    (hlt : s.popped.length < s.pushed.length) (data : α) :
    ¬ Bounded ⟨s.fifo.push size data, s.pushed ++ [data], s.popped⟩ := by
  rintro ⟨-, hcount⟩
  rw [Hfifo.push_of_eq hhead, List.length_append, List.length_singleton] at hcount
  have hone : ((1 : UInt32) - 0).toNat = 1 := by decide
  change ((1 : UInt32) - 0).toNat = s.pushed.length + 1 - s.popped.length at hcount
  omega

theorem laid_pop (h : Laid size first s) (havail : 0 < s.fifo.availCount) :
    Laid size first ⟨(s.fifo.pop size).1, s.pushed, s.popped ++ [(s.fifo.pop size).2]⟩ := by
  have hcount : 0 < s.fifo.head.toNat - s.fifo.tail.toNat := by
    rw [← availCount_laid h]
    exact UInt32.lt_iff_toNat_lt.mp havail
  have hle := UInt32.le_iff_toNat_le.mp h.head_le
  have htail : s.fifo.tail ≠ size := by
    rintro rfl
    omega
  have hsucc : (s.fifo.tail + 1).toNat = s.fifo.tail.toNat + 1 := by
    have := size.toNat_lt
    rw [UInt32.toNat_add]
    show (s.fifo.tail.toNat + 1) % 4294967296 = _
    omega
  rw [Hfifo.pop_of_ne htail]
  constructor
  · rw [UInt32.le_iff_toNat_le, hsucc]
    show s.fifo.tail.toNat + 1 ≤ s.fifo.head.toNat
    omega
  · exact h.head_le
  · exact h.whole
  · exact h.head_zero
  · exact h.pushed
  · rw [hsucc, ← Nat.add_assoc, List.take_add_one, h.cells _ (by omega), ← h.popped]
    rfl
  · exact h.cells

/-! ## Every sequence -/

/-- What the buffer holds is known. -/
def Ordered (size : UInt32) (s : FifoRun α) : Prop := ∃ first, Laid size first s

theorem ordered_step (hsize : 0 < size) (s : FifoRun α) (e : FifoOp α) (s' : FifoRun α)
    (h : Ordered size s) (hc : EmptyAtEnd size s e) (hs : step size s e = some s') : Ordered size s' := by
  obtain ⟨first, h⟩ := h
  cases e with
  | push data =>
    obtain rfl := step_push hs
    by_cases hhead : s.fifo.head = size
    · obtain ⟨hne, hdvd⟩ := (head_eq_size_iff hsize h).mp hhead
      exact ⟨_, laid_push_flush hsize h hhead (hc hne hdvd) data⟩
    · exact ⟨first, laid_push h hhead data⟩
  | pop =>
    obtain ⟨havail, rfl⟩ := step_pop hs
    exact ⟨first, laid_pop h havail⟩

theorem emptyAtEnd_of_bounded (hsize : 0 < size) (s : FifoRun α) (e : FifoOp α) (s' : FifoRun α)
    (h : Ordered size s) (hs : step size s e = some s') (hb : s'.Bounded) : EmptyAtEnd size s e := by
  obtain ⟨first, h⟩ := h
  cases e with
  | pop => exact trivial
  | push data =>
    intro hne hdvd
    obtain rfl := step_push hs
    have hhead : s.fifo.head = size := (head_eq_size_iff hsize h).mpr ⟨hne, hdvd⟩
    have hle := (bounded_of_laid h).1.length_le
    by_contra hout
    exact not_bounded_push_flush hhead (by omega) data hb

/-- **The queue is a bounded queue exactly as long as it is empty at the end of the buffer.** -/
theorem queue_bounded_iff (size : UInt32) (hsize : 0 < size) (q : Hfifo α) (ops : List (FifoOp α))
    (final : FifoRun α) (hrun : run (step size) (start q) ops = some final) :
    (∀ pre post s, ops = pre ++ post → run (step size) (start q) pre = some s → s.Bounded) ↔
      Along (step size) (EmptyAtEnd size) (start q) ops :=
  (along_iff_good (fun _ ⟨_, h⟩ => bounded_of_laid h) (ordered_step hsize) (emptyAtEnd_of_bounded hsize)
    (start q) final ops ⟨0, laid_start size q⟩ hrun).symm

end

/-- A queue of two that is empty when the third element comes. -/
def threeByTwo : List (FifoOp Char) := [.push 'a', .pop, .push 'b', .pop, .push 'c', .pop]

theorem threeByTwo_emptyAtEnd (q : Hfifo Char) :
    Along (step 2) (EmptyAtEnd 2) (start q) threeByTwo := by
  refine ⟨fun h => absurd rfl h, fun s₁ h₁ => ⟨trivial, fun s₂ h₂ => ?_⟩⟩
  obtain rfl := step_push h₁
  obtain ⟨-, rfl⟩ := step_pop h₂
  refine ⟨fun _ h => absurd h (show ¬ 2 ∣ 1 by decide), fun s₃ h₃ => ⟨trivial, fun s₄ h₄ => ?_⟩⟩
  obtain rfl := step_push h₃
  obtain ⟨-, rfl⟩ := step_pop h₄
  exact ⟨fun _ _ => rfl, fun _ _ => ⟨trivial, fun _ _ => trivial⟩⟩

/-- Three elements go through a queue of two, each popped before the next comes. -/
theorem queue_of_two_bounded :
    ∃ s, run (step 2) (start ⟨fun _ => ' ', 7, 9⟩) threeByTwo = some s ∧
      s.popped = ['a', 'b', 'c'] ∧ s.Bounded :=
  ⟨_, rfl, rfl, (queue_bounded_iff 2 (by decide) ⟨fun _ => ' ', 7, 9⟩ threeByTwo _ rfl).mpr
    (threeByTwo_emptyAtEnd _) threeByTwo [] _ (List.append_nil _).symm rfl⟩

/-- One of two elements in a queue of two is lost by the push that comes to the end. -/
theorem queue_of_two_loses :
    ∃ s, run (step 2) (start ⟨fun _ => ' ', 0, 0⟩) [.push 'a', .pop, .push 'b', .push 'c'] = some s ∧
      s.fifo.availCount = 1 ∧ s.pushed.length - s.popped.length = 2 ∧ (s.fifo.pop 2).2 = 'c' ∧
      ¬ s.Bounded := by
  refine ⟨_, rfl, by decide, by decide, by decide, ?_⟩
  rintro ⟨-, hcount⟩
  exact absurd hcount (by decide)

end FifoRun

end Growbox
