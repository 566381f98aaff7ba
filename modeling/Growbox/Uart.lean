import Growbox.Lib.EventRun
import Growbox.Lib.Lines

/-!
# Lines from a serial port (`firmware/Src/uart.c`, `firmware/Inc/fifo.h`)

`UART1_ISR` takes one byte from the port, puts it into a queue unless it is a
CR or an LF, and raises a flag at a CRLF.  `UART1_Get` is called by the main
loop over and over: with the flag raised it counts the bytes of the queue,
pops that many and clears the flag.  The interrupt can come between any two of
these steps.  `UART3_ISR` and `UART3_Get` are the same text over variables of
their own.

* `bytes_in_order`: whatever the interleaving, no byte is lost, doubled or
  moved;
* `lines_delivered`: each call returns one line, as long as the next line does
  not come too early (`Calm`);
* `lost_line`: a line that ends between the pops and the clearing of the flag
  is not returned and its flag is gone.
-/

namespace Growbox.Uart

open Lines

/-! ## The queue -/

/-- `UART_BUF_SIZE`, `FIFO_SIZE` -/
def uartBufSize : Nat := 1024

/-- `FIFO_CREATE` -/
structure Fifo where
  buf : Nat → UInt8
  tail : UInt32
  head : UInt32

/-- `FIFO_FLUSH` -/
def Fifo.flush (q : Fifo) : Fifo := ⟨q.buf, 0, 0⟩

/-- `FIFO_AVAIL_COUNT` -/
def Fifo.availCount (q : Fifo) : UInt32 := q.head - q.tail

/-- `FIFO_PUSH` -/
def Fifo.push (q : Fifo) (data : UInt8) : Fifo :=
  let q := if q.head.toNat = uartBufSize then q.flush else q
  ⟨fun i => if i = q.head.toNat then data else q.buf i, q.tail, q.head + 1⟩

/-- `FIFO_POP` -/
def Fifo.pop (q : Fifo) : Fifo × UInt8 :=
  let q := if q.tail.toNat = uartBufSize then ⟨q.buf, 0, q.head⟩ else q
  (⟨q.buf, q.tail + 1, q.head⟩, q.buf q.tail.toNat)

/-! ## The port -/

def cr : UInt8 := 13

def lf : UInt8 := 10

/-- What `UART1_Get` does next. -/
inductive GetPc where
  /-- test the flag -/
  | idle
  /-- count the bytes -/
  | counting
  /-- pop the next of `cnt` bytes, or clear the flag and return what was popped -/
  | popping (cnt : UInt32) (got : List UInt8)
  deriving DecidableEq, Repr

/-- The port's variables; `received` and `results` are its past: the bytes that
came, and what the successful calls returned. -/
structure Port where
  fifo : Fifo
  dataReady : Bool
  prevChar : UInt8
  pc : GetPc
  received : List UInt8
  results : List (List UInt8)

/-- After `UART1_Init`. -/
def init : Port := ⟨⟨fun _ => 0, 0, 0⟩, false, 0, .idle, [], []⟩

/-- `UART1_ISR`, with `tmp` in the data register. -/
def isr (u : Port) (tmp : UInt8) : Port where
  fifo := if tmp ≠ cr ∧ tmp ≠ lf then u.fifo.push tmp else u.fifo
  dataReady := if u.prevChar = cr ∧ tmp = lf then true else u.dataReady
  prevChar := tmp
  pc := u.pc
  received := u.received ++ [tmp]
  results := u.results

/-- The next step of `UART1_Get`, or of a new call of it. -/
def get (u : Port) : Port :=
  match u.pc with
  | .idle => if u.dataReady then { u with pc := .counting } else u
  | .counting => { u with pc := .popping u.fifo.availCount [] }
  | .popping cnt got =>
    if got.length < cnt.toNat then
      { u with fifo := u.fifo.pop.1, pc := .popping cnt (got ++ [u.fifo.pop.2]) }
    else { u with dataReady := false, pc := .idle, results := u.results ++ [got] }

/-- A byte comes, or the main loop makes a step. -/
inductive Event where
  | isr (tmp : UInt8)
  | get
  deriving DecidableEq, Repr

def step (u : Port) : Event → Port
  | .isr tmp => isr u tmp
  | .get => get u

/-- The port after the events. -/
def run (evs : List Event) : Port := evs.foldl step init

/-! ## What holds in any interleaving -/

/-- What the bytes so far say. -/
def Port.lines (u : Port) : Reading UInt8 := reading cr lf u.received

/-- What the call in progress has popped. -/
def Port.got (u : Port) : List UInt8 :=
  match u.pc with
  | .popping _ got => got
  | _ => []

/-- What the call in progress has still to pop. -/
def Port.left (u : Port) : Nat :=
  match u.pc with
  | .popping cnt got => cnt.toNat - got.length
  | _ => 0

/-- The first `n` bytes of the buffer. -/
def Fifo.firsts (q : Fifo) (n : Nat) : List UInt8 := (List.range n).map q.buf

/-- The buffer holds the bytes that came, in order from its start; what was
popped is the part before `tail`. -/
structure QueueInv (u : Port) : Prop where
  size : u.fifo.head.toNat ≤ uartBufSize
  prev : u.prevChar = u.received.getLastD 0
  came : u.lines.data = u.fifo.firsts u.fifo.head.toNat
  popped : u.results.flatten ++ u.got = u.fifo.firsts u.fifo.tail.toNat
  room : u.fifo.tail.toNat + u.left ≤ u.fifo.head.toNat
  counted : ∀ cnt got, u.pc = .popping cnt got → got.length ≤ cnt.toNat

theorem length_firsts (q : Fifo) (n : Nat) : (q.firsts n).length = n := by
  rw [Fifo.firsts, List.length_map, List.length_range]

theorem firsts_succ (q : Fifo) (n : Nat) : q.firsts (n + 1) = q.firsts n ++ [q.buf n] := by
  rw [Fifo.firsts, List.range_succ, List.map_append]
  rfl

theorem firsts_isPrefix (q : Fifo) {m n : Nat} (h : m ≤ n) : q.firsts m <+: q.firsts n := by
  obtain ⟨k, rfl⟩ := Nat.le.dest h
  clear h
  induction k with
  | zero => exact List.prefix_rfl
  | succ k ih =>
    rw [← Nat.add_assoc, firsts_succ]
    exact ih.trans (List.prefix_append _ _)

theorem toNat_succ {x : UInt32} (h : x.toNat < uartBufSize) : (x + 1).toNat = x.toNat + 1 := by
  have h' : x.toNat < 1024 := h
  rw [UInt32.toNat_add]
  exact Nat.mod_eq_of_lt (by simp only [UInt32.reduceToNat]; omega)

theorem push_eq {q : Fifo} (h : q.head.toNat < uartBufSize) (b : UInt8) :
    q.push b = ⟨fun i => if i = q.head.toNat then b else q.buf i, q.tail, q.head + 1⟩ := by
  rw [Fifo.push, if_neg (Nat.ne_of_lt h)]

theorem pop_eq {q : Fifo} (h : q.tail.toNat < uartBufSize) :
    q.pop = (⟨q.buf, q.tail + 1, q.head⟩, q.buf q.tail.toNat) := by
  rw [Fifo.pop, if_neg (Nat.ne_of_lt h)]

/-- Bytes below `head` are not touched by a push. -/
theorem firsts_push {q : Fifo} (h : q.head.toNat < uartBufSize) (b : UInt8) {n : Nat}
    (hn : n ≤ q.head.toNat) : (q.push b).firsts n = q.firsts n := by
  rw [push_eq h]
  refine List.map_congr_left fun i hi => ?_
  have hi' : i < n := List.mem_range.mp hi
  exact if_neg (Nat.ne_of_lt (Nat.lt_of_lt_of_le hi' hn))

/-- A data byte lengthens what came by itself. -/
theorem push_firsts {q : Fifo} (h : q.head.toNat < uartBufSize) (b : UInt8) :
    (q.push b).firsts (q.push b).head.toNat = q.firsts q.head.toNat ++ [b] := by
  have hh : (q.push b).head.toNat = q.head.toNat + 1 := by
    rw [push_eq h]
    exact toNat_succ h
  have hb : (q.push b).buf q.head.toNat = b := by
    rw [push_eq h]
    exact if_pos rfl
  rw [hh, firsts_succ, firsts_push h b (Nat.le_refl _), hb]

theorem lines_isr (u : Port) (b : UInt8) : (isr u b).lines = u.lines.next cr lf b :=
  reading_snoc u.received b

theorem isr_dataByte {b : UInt8} (h : b ≠ cr ∧ b ≠ lf) (u : Port) :
    (isr u b).fifo = u.fifo.push b :=
  if_pos h

theorem isr_mark {b : UInt8} (h : ¬ (b ≠ cr ∧ b ≠ lf)) (u : Port) : (isr u b).fifo = u.fifo :=
  if_neg h

/-- What came after one more byte: a CR or LF is no part of it. -/
theorem data_isr (u : Port) (b : UInt8) :
    (isr u b).lines.data = if b ≠ cr ∧ b ≠ lf then u.lines.data ++ [b] else u.lines.data := by
  rw [lines_isr, data_next]
  by_cases hm : b ≠ cr ∧ b ≠ lf
  · rw [if_neg fun h => h.elim hm.2 hm.1, if_pos hm]
  · have hor : b = lf ∨ b = cr := by
      rcases not_and_or.mp hm with hb | hb
      · exact .inr (not_not.mp hb)
      · exact .inl (not_not.mp hb)
    rw [if_pos hor, if_neg hm]

/-- A byte of a line is queued. -/
theorem queueInv_push {u : Port} (h : QueueInv u) {b : UInt8} (hm : b ≠ cr ∧ b ≠ lf)
    (hfit : u.fifo.head.toNat < uartBufSize) : QueueInv (isr u b) := by
  have htail : (u.fifo.push b).tail = u.fifo.tail := by rw [push_eq hfit]
  have hhead : (u.fifo.push b).head.toNat = u.fifo.head.toNat + 1 := by
    rw [push_eq hfit]
    exact toNat_succ hfit
  have hroom := h.room
  constructor
  · rw [isr_dataByte hm, hhead]
    exact hfit
  · exact (List.getLastD_concat).symm
  · rw [isr_dataByte hm, push_firsts hfit, data_isr, if_pos hm, h.came]
  · rw [isr_dataByte hm, htail, firsts_push hfit b (Nat.le_of_add_right_le hroom)]
    exact h.popped
  · rw [isr_dataByte hm, htail, hhead]
    exact Nat.le_succ_of_le hroom
  · exact h.counted

/-- A CR or LF leaves the queue alone. -/
theorem queueInv_mark {u : Port} (h : QueueInv u) {b : UInt8} (hm : ¬ (b ≠ cr ∧ b ≠ lf)) :
    QueueInv (isr u b) := by
  constructor
  · rw [isr_mark hm]
    exact h.size
  · exact (List.getLastD_concat).symm
  · rw [isr_mark hm, data_isr, if_neg hm, h.came]
  · rw [isr_mark hm]
    exact h.popped
  · rw [isr_mark hm]
    exact h.room
  · exact h.counted

/-- **One interrupt** keeps the queue, as long as the bytes fit the buffer. -/
theorem queueInv_isr {u : Port} (h : QueueInv u) (b : UInt8)
    (hb : (isr u b).lines.data.length ≤ uartBufSize) : QueueInv (isr u b) := by
  by_cases hm : b ≠ cr ∧ b ≠ lf
  · rw [data_isr, if_pos hm, List.length_append, h.came, length_firsts] at hb
    exact queueInv_push h hm hb
  · exact queueInv_mark h hm

/-- A call that has bytes left pops the next one. -/
theorem queueInv_pop {q : Fifo} {ready : Bool} {prev : UInt8} {cnt : UInt32} {got received : List UInt8}
    {results : List (List UInt8)} (h : QueueInv ⟨q, ready, prev, .popping cnt got, received, results⟩)
    (hlt : got.length < cnt.toNat) :
    QueueInv (get ⟨q, ready, prev, .popping cnt got, received, results⟩) := by
  obtain ⟨hsize, hprev, hcame, hpopped, hroom, -⟩ := h
  have hroom' : q.tail.toNat + (cnt.toNat - got.length) ≤ q.head.toNat := hroom
  have hsize' : q.head.toNat ≤ uartBufSize := hsize
  have htail : q.tail.toNat < uartBufSize := by omega
  have hstep : get ⟨q, ready, prev, .popping cnt got, received, results⟩ =
      ⟨⟨q.buf, q.tail + 1, q.head⟩, ready, prev,
        .popping cnt (got ++ [q.buf q.tail.toNat]), received, results⟩ := by
    simp only [get, if_pos hlt, pop_eq htail]
  rw [hstep]
  refine ⟨hsize, hprev, hcame, ?_, ?_, ?_⟩
  · show results.flatten ++ (got ++ [q.buf q.tail.toNat]) =
      (Fifo.firsts ⟨q.buf, q.tail + 1, q.head⟩ (q.tail + 1).toNat)
    rw [toNat_succ htail, ← List.append_assoc]
    exact (congrArg (· ++ [q.buf q.tail.toNat]) hpopped).trans (firsts_succ q _).symm
  · show (q.tail + 1).toNat + (cnt.toNat - (got ++ [q.buf q.tail.toNat]).length) ≤ q.head.toNat
    rw [toNat_succ htail, List.length_append, List.length_singleton]
    omega
  · rintro cnt' got' ⟨⟩
    rw [List.length_append, List.length_singleton]
    exact hlt

/-- One step of the main loop keeps the queue. -/
theorem queueInv_get {u : Port} (h : QueueInv u) : QueueInv (get u) := by
  obtain ⟨q, ready, prev, pc, received, results⟩ := u
  cases pc with
  | idle =>
    cases ready with
    | false => exact h
    | true => exact ⟨h.size, h.prev, h.came, h.popped, h.room, nofun⟩
  | counting =>
    refine ⟨h.size, h.prev, h.came, h.popped, ?_, ?_⟩
    · have hcnt : q.availCount.toNat = q.head.toNat - q.tail.toNat :=
        UInt32.toNat_sub_of_le _ _ (UInt32.le_iff_toNat_le.mpr h.room)
      show q.tail.toNat + (q.availCount.toNat - 0) ≤ q.head.toNat
      rw [hcnt]
      exact Nat.le_of_eq (Nat.add_sub_cancel' h.room)
    · rintro cnt got ⟨⟩
      exact Nat.zero_le _
  | popping cnt got =>
    by_cases hlt : got.length < cnt.toNat
    · exact queueInv_pop h hlt
    · have hstep : get ⟨q, ready, prev, .popping cnt got, received, results⟩ =
          ⟨q, false, prev, .idle, received, results ++ [got]⟩ := by
        simp only [get, if_neg hlt]
      rw [hstep]
      refine ⟨h.size, h.prev, h.came, ?_, Nat.le_of_add_right_le h.room, nofun⟩
      show (results ++ [got]).flatten ++ [] = q.firsts q.tail.toNat
      rw [List.flatten_append, List.flatten_singleton, List.append_nil]
      exact h.popped

theorem queueInv_init : QueueInv init :=
  ⟨Nat.zero_le _, rfl, rfl, rfl, Nat.le_refl _, nofun⟩

/-- **No byte is lost, doubled or moved**: what the calls popped is the first
part of what came. -/
theorem popped_isPrefix {u : Port} (h : QueueInv u) : u.results.flatten ++ u.got <+: u.lines.data := by
  rw [h.popped, h.came]
  exact firsts_isPrefix _ (Nat.le_of_add_right_le h.room)

theorem toNat_tail {u : Port} (h : QueueInv u) :
    u.fifo.tail.toNat = u.results.flatten.length + u.got.length := by
  rw [← List.length_append, h.popped, length_firsts]

theorem toNat_head {u : Port} (h : QueueInv u) : u.fifo.head.toNat = u.lines.data.length := by
  rw [h.came, length_firsts]

theorem toNat_availCount {u : Port} (h : QueueInv u) :
    u.fifo.availCount.toNat = u.fifo.head.toNat - u.fifo.tail.toNat :=
  UInt32.toNat_sub_of_le _ _ (UInt32.le_iff_toNat_le.mpr (Nat.le_of_add_right_le h.room))

/-! ## What holds when no line comes too early -/

/-- The call in progress has counted its bytes. -/
def Port.counted (u : Port) : Bool :=
  match u.pc with
  | .popping _ _ => true
  | _ => false

/-- With the flag raised, a byte of the next line may come only once the bytes
are counted, and the line may not end before the flag is cleared. -/
def Calm (u : Port) : Event → Prop
  | .get => True
  | .isr b =>
    (b ≠ cr ∧ b ≠ lf → u.dataReady = false ∨ u.counted = true) ∧
      (u.prevChar = cr ∧ b = lf → u.dataReady = false)

instance (u : Port) (e : Event) : Decidable (Calm u e) :=
  match e with
  | .get => isTrue trivial
  | .isr b => inferInstanceAs (Decidable ((b ≠ cr ∧ b ≠ lf → u.dataReady = false ∨ u.counted = true) ∧
      (u.prevChar = cr ∧ b = lf → u.dataReady = false)))

/-- Where a call stands between the lines that ended and those it returned:
at most one line, `l`, is not returned yet, and no byte of the next one has come
before `l` is counted. -/
def Between (pc : GetPc) (ready : Bool) (r : Reading UInt8) (results : List (List UInt8)) : Prop :=
  match pc with
  | .idle => if ready then ∃ l, r.done = results ++ [l] ∧ r.cur = [] else r.done = results
  | .counting => ready = true ∧ ∃ l, r.done = results ++ [l] ∧ r.cur = []
  | .popping cnt _ => ready = true ∧ ∃ l, r.done = results ++ [l] ∧ cnt.toNat = l.length

def LineInv (u : Port) : Prop := Between u.pc u.dataReady u.lines u.results

theorem lineInv_init : LineInv init := rfl

theorem cr_ne_lf : cr ≠ lf := by decide

/-- **One interrupt** keeps the lines apart when it is calm. -/
theorem lineInv_isr {u : Port} (h : LineInv u) {b : UInt8} (hc : Calm u (.isr b))
    (hmark : b = lf ↔ u.prevChar = cr) : LineInv (isr u b) := by
  obtain ⟨hbyte, hend⟩ := hc
  unfold LineInv at h ⊢
  rw [lines_isr]
  by_cases hl : b = lf
  · -- the line ends: the flag was not raised, so all lines before are returned
    have hprev := hmark.mp hl
    have hready : (isr u b).dataReady = true := if_pos ⟨hprev, hl⟩
    rw [hend ⟨hprev, hl⟩] at h
    rw [hready, hl, next_second]
    show Between u.pc true _ u.results
    cases hpc : u.pc with
    | idle =>
      rw [hpc] at h
      exact ⟨u.lines.cur, congrArg (· ++ [u.lines.cur]) h, rfl⟩
    | counting =>
      rw [hpc] at h
      exact absurd h.1 (by decide)
    | popping cnt got =>
      rw [hpc] at h
      exact absurd h.1 (by decide)
  · have hready : (isr u b).dataReady = u.dataReady := if_neg fun hm => hl hm.2
    rw [hready]
    show Between u.pc u.dataReady _ u.results
    by_cases hb : b = cr
    · rw [hb, next_first cr_ne_lf]
      exact h
    · rw [next_symbol hb hl]
      have hcounted := hbyte ⟨hb, hl⟩
      unfold Port.counted at hcounted
      cases hpc : u.pc with
      | idle =>
        simp only [hpc, Bool.false_eq_true, or_false] at hcounted
        rw [hpc, hcounted] at h
        rw [hcounted]
        exact h
      | counting =>
        simp only [hpc, Bool.false_eq_true, or_false] at hcounted
        rw [hpc, hcounted] at h
        exact absurd h.1 (by decide)
      | popping cnt got =>
        rw [hpc] at h
        exact h

/-- The symbols of the lines, the last of which is owed. -/
theorem data_owed {u : Port} {l : List UInt8} (h : u.lines.done = u.results ++ [l]) :
    u.lines.data = u.results.flatten ++ (l ++ u.lines.cur) := by
  rw [Reading.data, h, List.flatten_append, List.flatten_singleton, List.append_assoc]

/-- One step of the main loop keeps the lines apart. -/
theorem lineInv_get {u : Port} (hq : QueueInv u) (h : LineInv u) : LineInv (get u) := by
  unfold LineInv at h
  cases hpc : u.pc with
  | idle =>
    rw [hpc] at h
    cases hr : u.dataReady with
    | false =>
      rw [hr] at h
      simp only [get, hpc, hr, Bool.false_eq_true, if_false, LineInv, Between]
      exact h
    | true =>
      rw [hr] at h
      simp only [get, hpc, hr, if_true, LineInv, Between, true_and]
      exact h
  | counting =>
    rw [hpc] at h
    obtain ⟨hready, l, hdone, hcur⟩ := h
    have hgot : u.got = [] := by rw [Port.got, hpc]
    -- all the queue holds is the owed line
    have hcnt : u.fifo.availCount.toNat = l.length := by
      rw [toNat_availCount hq, toNat_head hq, toNat_tail hq, hgot, data_owed hdone, hcur,
        List.append_nil, List.length_append, List.length_nil, Nat.add_zero, Nat.add_sub_cancel_left]
    simp only [get, hpc, LineInv, Between]
    exact ⟨hready, l, hdone, hcnt⟩
  | popping cnt got =>
    rw [hpc] at h
    obtain ⟨hready, l, hdone, hcnt⟩ := h
    by_cases hlt : got.length < cnt.toNat
    · simp only [get, hpc, if_pos hlt, LineInv, Between]
      exact ⟨hready, l, hdone, hcnt⟩
    · have hgot : u.got = got := by rw [Port.got, hpc]
      have hlen : got.length = l.length :=
        hcnt ▸ Nat.le_antisymm (hq.counted cnt got hpc) (Nat.not_lt.mp hlt)
      -- as long as the owed line and popped from the same place
      have hpre := popped_isPrefix hq
      rw [hgot, data_owed hdone, List.prefix_append_right_inj] at hpre
      have heq : got = l :=
        (List.prefix_of_prefix_length_le hpre (List.prefix_append l _)
          (Nat.le_of_eq hlen)).eq_of_length hlen
      simp only [get, hpc, if_neg hlt, LineInv, Between, Bool.false_eq_true, if_false]
      rw [heq]
      exact hdone

/-! ## Whole runs -/

/-- The next byte is one of the stream's. -/
def Fits (lines : List (List UInt8)) (u : Port) : Event → Prop
  | .get => True
  | .isr b => u.received ++ [b] <+: stream cr lf lines

theorem received_isPrefix (u : Port) (evs : List Event) :
    u.received <+: (evs.foldl step u).received := by
  induction evs generalizing u with
  | nil => exact List.prefix_rfl
  | cons e evs ih =>
    refine List.IsPrefix.trans ?_ (ih (step u e))
    cases e with
    | isr b => exact List.prefix_append _ _
    | get =>
      show u.received <+: (get u).received
      unfold get
      split
      · split <;> exact List.prefix_rfl
      · exact List.prefix_rfl
      · split <;> exact List.prefix_rfl

theorem run_append (evs evs' : List Event) : run (evs ++ evs') = evs'.foldl step (run evs) :=
  List.foldl_append

theorem along_fits {lines : List (List UInt8)} {evs : List Event}
    (hs : (run evs).received <+: stream cr lf lines) :
    EventRun.Along (EventRun.total step) (Fits lines) init evs := by
  rw [EventRun.along_total_iff]
  rintro pre e post rfl
  cases e with
  | get => exact trivial
  | isr b =>
    rw [run_append] at hs
    exact (received_isPrefix (isr (run pre) b) post).trans hs

theorem prevChar_eq_cr {u : Port} (h : QueueInv u) :
    u.prevChar = cr ↔ u.received.getLast? = some cr := by
  rw [h.prev, List.getLastD_eq_getLast?]
  cases u.received.getLast? with
  | none => decide
  | some b => simp only [Option.getD_some, Option.some.injEq]

section
variable {lines : List (List UInt8)} (hclean : ∀ l ∈ lines, Lines.Clean cr lf l)
include hclean

theorem lineInv_step {u : Port} {e : Event} (hq : QueueInv u) (h : LineInv u)
    (hf : Fits lines u e) (hc : Calm u e) : LineInv (step u e) := by
  cases e with
  | get => exact lineInv_get hq h
  | isr b =>
    exact lineInv_isr h hc ((mark_of_isPrefix cr_ne_lf hclean hf).trans (prevChar_eq_cr hq).symm)

variable (hsize : lines.flatten.length ≤ uartBufSize)
include hsize

theorem queueInv_step {u : Port} {e : Event} (h : QueueInv u) (hf : Fits lines u e) :
    QueueInv (step u e) := by
  cases e with
  | get => exact queueInv_get h
  | isr b => exact queueInv_isr h b (Nat.le_trans (length_data_of_isPrefix hclean hf) hsize)

/-- Whatever the interleaving, what the calls popped is the first part of the
bytes that came. -/
theorem bytes_in_order (evs : List Event) (hs : (run evs).received <+: stream cr lf lines) :
    (run evs).results.flatten ++ (run evs).got <+: (run evs).lines.data := by
  refine popped_isPrefix (EventRun.foldl_inv QueueInv (Fits lines) ?_ init evs queueInv_init
    (along_fits hs))
  intro u e hq hf
  exact queueInv_step hclean hsize hq hf

end

/-- The lines that have ended are returned in order, each once and alone; one
that is not has its flag raised or a call in progress. -/
def Delivered (lines : List (List UInt8)) (u : Port) : Prop :=
  u.results <+: lines.take (u.received.count lf) ∧
    (u.results.length < (lines.take (u.received.count lf)).length →
      u.dataReady = true ∨ u.pc ≠ .idle)

theorem LineInv.delivered {u : Port} (h : LineInv u) {lines : List (List UInt8)}
    (hl : u.lines.done = lines.take (u.received.count lf)) : Delivered lines u := by
  unfold Delivered
  unfold LineInv at h
  rw [← hl]
  cases hpc : u.pc with
  | idle =>
    rw [hpc] at h
    cases hr : u.dataReady with
    | true =>
      rw [hr] at h
      obtain ⟨l, hdone, -⟩ := h
      exact ⟨hdone ▸ List.prefix_append _ _, fun _ => .inl rfl⟩
    | false =>
      rw [hr] at h
      have hdone : u.lines.done = u.results := h
      rw [hdone]
      exact ⟨List.prefix_rfl, fun hlt => absurd hlt (Nat.lt_irrefl _)⟩
  | counting =>
    rw [hpc] at h
    obtain ⟨hready, l, hdone, -⟩ := h
    exact ⟨hdone ▸ List.prefix_append _ _, fun _ => .inl hready⟩
  | popping cnt got =>
    rw [hpc] at h
    obtain ⟨hready, l, hdone, -⟩ := h
    exact ⟨hdone ▸ List.prefix_append _ _, fun _ => .inl hready⟩

/-- **Lines are delivered exactly once**, in every state of a run whose
interrupts are calm. -/
theorem lines_delivered (lines : List (List UInt8)) (evs : List Event)
    (hclean : ∀ l ∈ lines, Lines.Clean cr lf l) (hsize : lines.flatten.length ≤ uartBufSize)
    (hs : (run evs).received <+: stream cr lf lines)
    (hcalm : EventRun.Along (EventRun.total step) Calm init evs) (pre : List Event)
    (hpre : pre <+: evs) : Delivered lines (run pre) := by
  obtain ⟨post, rfl⟩ := hpre
  have hs' : (run pre).received <+: stream cr lf lines := by
    rw [run_append] at hs
    exact (received_isPrefix (run pre) post).trans hs
  have hcalm' := ((EventRun.along_append init pre post).mp hcalm).1
  have hinv : QueueInv (run pre) ∧ LineInv (run pre) := by
    refine EventRun.foldl_inv (fun u => QueueInv u ∧ LineInv u) (fun u e => Fits lines u e ∧ Calm u e)
      ?_ init pre ⟨queueInv_init, lineInv_init⟩ (EventRun.along_and (along_fits hs') hcalm')
    rintro u e ⟨hq, hl⟩ ⟨hf, hc⟩
    exact ⟨queueInv_step hclean hsize hq hf, lineInv_step hclean hq hl hf hc⟩
  exact hinv.2.delivered (done_of_isPrefix cr_ne_lf hclean hs')

/-- `A`, then `BC`, of which the letters come while `A` is popped, and the end once `A` is
returned; then nothing, an empty line. -/
def threeLines : List Event :=
  [.isr 65, .isr cr, .isr lf, .get, .get, .isr 66, .get, .isr 67, .isr cr, .get, .isr lf,
    .get, .get, .get, .get, .get, .isr cr, .isr lf, .get, .get, .get]

theorem threeLines_delivered :
    (run threeLines).results = [[65], [66, 67], []] ∧
      ∀ pre, pre <+: threeLines → Delivered [[65], [66, 67], []] (run pre) := by
  refine ⟨by decide, lines_delivered [[65], [66, 67], []] threeLines ?_ (by decide) (by decide) ?_⟩
  · simp [Lines.Clean, cr, lf]
  · decide +kernel

/-- A second line, `B`, that ends between the pop and the clearing of the flag. -/
def lateLine : List Event :=
  [.isr 65, .isr cr, .isr lf, .get, .get, .get, .isr 66, .isr cr, .isr lf, .get]

/-- The second line is not returned, its flag is down and no call is in progress. -/
theorem lost_line :
    (run lateLine).received <+: stream cr lf [[65], [66]] ∧
      ¬ ∀ pre, pre <+: lateLine → Delivered [[65], [66]] (run pre) := by
  refine ⟨by decide, fun h => ?_⟩
  have hd := (h lateLine List.prefix_rfl).2 (by decide)
  exact absurd hd (by decide)

end Growbox.Uart
