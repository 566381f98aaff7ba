import Mathlib.Data.List.Basic
import Mathlib.Data.List.TakeWhile

/-!
# A block of memory and the accesses to it

A block of `size` cells is reached by signed offsets from its start, as a pointer
reaches it.  `sound` says that every access so far was inside; an access outside
leaves it false for good (`sound_write`, `sound_read`).  `Holds l` says that the cells
are `l` and blanks after it: writing a piece at an offset within `l` lays the piece
over `l` (`holds_write`), and a block that holds `l` has a blank exactly when `l` is
shorter than the block or has one itself (`terminated_iff`).
-/

namespace Growbox

/-- `l` with the piece laid over it from the offset on. -/
def overlay {α : Type} (l : List α) (off : Nat) (piece : List α) : List α :=
  l.take off ++ piece ++ l.drop (off + piece.length)

theorem overlay_end {α : Type} (l piece : List α) : overlay l l.length piece = l ++ piece := by
  rw [overlay, List.take_length, List.drop_eq_nil_of_le (Nat.le_add_right ..), List.append_nil]

theorem length_overlay {α : Type} {l : List α} {off : Nat} (h : off ≤ l.length) (piece : List α) :
    (overlay l off piece).length = max l.length (off + piece.length) := by
  simp only [overlay, List.length_append, List.length_take, List.length_drop]
  omega

theorem getElem?_overlay {α : Type} {l : List α} {off : Nat} (h : off ≤ l.length) (piece : List α)
    (k : Nat) :
    (overlay l off piece)[k]? =
      if off ≤ k ∧ k < off + piece.length then piece[k - off]? else l[k]? := by
  have htake : (l.take off).length = off := List.length_take_of_le h
  rw [overlay, List.append_assoc]
  rcases Nat.lt_or_ge k off with hk | hk
  · rw [List.getElem?_append_left (by omega), List.getElem?_take_of_lt hk, if_neg (by omega)]
  · rw [List.getElem?_append_right (by omega), htake]
    rcases Nat.lt_or_ge k (off + piece.length) with hp | hp
    · rw [List.getElem?_append_left (by omega), if_pos ⟨hk, hp⟩]
    · rw [List.getElem?_append_right (by omega), List.getElem?_drop, if_neg (by omega)]
      congr 1
      omega

/-- The terminator of a C string. -/
def nul : Char := Char.ofNat 0

/-- What a call of `read` comes to: it fails, or it gets some cells, none at the end of the input. -/
inductive ReadRes (α : Type) where
  | failed
  | got (bytes : List α)

namespace ReadRes

def bytes {α : Type} : ReadRes α → List α
  | failed => []
  | got bytes => bytes

/-- The number `read` returns. -/
def ret {α : Type} : ReadRes α → Int
  | failed => -1
  | got bytes => bytes.length

end ReadRes

structure Block (α : Type) where
  size : Nat
  mem : Int → α
  sound : Bool

namespace Block

/-- A fresh block, all blank. -/
def alloc {α : Type} (blank : α) (size : Nat) : Block α := ⟨size, fun _ => blank, true⟩

section
variable {α : Type} (b : Block α) (off : Int) (piece : List α)

/-- The piece is written from the offset on. -/
def write : Block α where
  size := b.size
  mem i := if off ≤ i ∧ i < off + piece.length then piece.getD (i - off).toNat (b.mem i) else b.mem i
  sound := b.sound && (piece.isEmpty || (decide (0 ≤ off) && decide (off + piece.length ≤ b.size)))

/-- The cell at the offset is looked at. -/
def read : α × Block α :=
  (b.mem off, { b with sound := b.sound && (decide (0 ≤ off) && decide (off < b.size)) })

/-- The block is given another size and keeps its cells. -/
def realloc (size : Nat) : Block α := { b with size }

@[simp] theorem size_alloc (blank : α) (size : Nat) : (alloc blank size).size = size := rfl

@[simp] theorem sound_alloc (blank : α) (size : Nat) : (alloc blank size).sound = true := rfl

@[simp] theorem size_write : (b.write off piece).size = b.size := rfl

@[simp] theorem size_realloc (size : Nat) : (b.realloc size).size = size := rfl

@[simp] theorem sound_realloc (size : Nat) : (b.realloc size).sound = b.sound := rfl

theorem mem_write_outside {i : Int} (h : i < off ∨ off + piece.length ≤ i) :
    (b.write off piece).mem i = b.mem i := if_neg (by omega)

theorem mem_write_inside {k : Nat} (h : k < piece.length) :
    (b.write off piece).mem (off + k) = piece[k] := by
  have hsub : (off + k - off).toNat = k := by omega
  show (if off ≤ off + k ∧ off + (k : Int) < off + piece.length then _ else _) = _
  rw [if_pos (by omega), hsub, List.getD_eq_getElem?_getD, List.getElem?_eq_getElem h]
  rfl

theorem sound_write :
    (b.write off piece).sound = true ↔
      b.sound = true ∧ (piece = [] ∨ (0 ≤ off ∧ off + piece.length ≤ b.size)) := by
  simp only [write, Bool.and_eq_true, Bool.or_eq_true, decide_eq_true_eq, List.isEmpty_iff]

/-- One cell more. -/
theorem sound_write_singleton (n : Nat) (a : α) :
    (b.write n [a]).sound = true ↔ b.sound = true ∧ n < b.size := by
  rw [sound_write, List.length_singleton]
  refine and_congr_right fun _ => ⟨fun h => ?_, fun h => .inr ⟨Int.natCast_nonneg n, by omega⟩⟩
  have hfit := (h.resolve_left (List.cons_ne_nil _ _)).2
  omega

theorem sound_read :
    (b.read off).2.sound = true ↔ b.sound = true ∧ 0 ≤ off ∧ off < b.size := by
  simp only [read, Bool.and_eq_true, decide_eq_true_eq]

end

/-! ## Contents -/

section
variable {α : Type} (blank : α) {b : Block α} {l : List α}

/-- The cells are `l`, and blank after it. -/
def Holds (b : Block α) (l : List α) : Prop := ∀ k : Nat, b.mem k = l.getD k blank

/-- There is a blank inside the block. -/
def Terminated (b : Block α) : Prop := ∃ k : Nat, k < b.size ∧ b.mem k = blank

variable {blank}

theorem holds_alloc (size : Nat) : (alloc blank size).Holds blank [] := fun _ => rfl

theorem Holds.read (h : b.Holds blank l) (off : Int) : (b.read off).2.Holds blank l := h

theorem Holds.realloc (h : b.Holds blank l) (size : Nat) : (b.realloc size).Holds blank l := h

/-- A piece written within what the block holds is laid over it. -/
theorem holds_write (h : b.Holds blank l) {off : Nat} (hoff : off ≤ l.length) (piece : List α) :
    (b.write off piece).Holds blank (overlay l off piece) := by
  intro k
  rw [List.getD_eq_getElem?_getD, getElem?_overlay hoff]
  show (if (off : Int) ≤ k ∧ (k : Int) < off + piece.length then _ else _) = _
  by_cases hk : off ≤ k ∧ k < off + piece.length
  · rw [if_pos hk, if_pos (by omega)]
    have hsub : ((k : Int) - off).toNat = k - off := by omega
    have hlt : k - off < piece.length := by omega
    rw [hsub, List.getD_eq_getElem?_getD, List.getElem?_eq_getElem hlt]
    rfl
  · rw [if_neg hk, if_neg (by omega), h k, List.getD_eq_getElem?_getD]

/-- A piece written at the end is appended. -/
theorem holds_write_end (h : b.Holds blank l) (piece : List α) :
    (b.write l.length piece).Holds blank (l ++ piece) := by
  rw [← overlay_end]
  exact holds_write h (Nat.le_refl _) piece

/-- **A block ends in a blank exactly when what it holds leaves room for one or has one.** -/
theorem terminated_iff (h : b.Holds blank l) (hl : l.length ≤ b.size) :
    b.Terminated blank ↔ l.length < b.size ∨ blank ∈ l := by
  constructor
  · rintro ⟨k, hk, hm⟩
    rcases Nat.lt_or_ge k l.length with hkl | hkl
    · refine .inr ?_
      rw [h k, List.getD_eq_getElem?_getD, List.getElem?_eq_getElem hkl] at hm
      exact hm ▸ List.getElem_mem hkl
    · exact .inl (Nat.lt_of_le_of_lt hkl hk)
  · rintro (hlt | hmem)
    · refine ⟨l.length, hlt, ?_⟩
      rw [h l.length, List.getD_eq_getElem?_getD, List.getElem?_eq_none (Nat.le_refl _)]
      rfl
    · obtain ⟨k, hk, hget⟩ := List.getElem_of_mem hmem
      refine ⟨k, Nat.lt_of_lt_of_le hk hl, ?_⟩
      rw [h k, List.getD_eq_getElem?_getD, List.getElem?_eq_getElem hk]
      exact hget

end

/-! ## As text -/

section
variable {α : Type} [BEq α] (blank : α)

/-- The cells before the first blank. -/
def text (b : Block α) : List α :=
  ((List.range b.size).map fun k : Nat => b.mem k).takeWhile fun c => !(c == blank)

variable [LawfulBEq α] {blank}

theorem not_blank {l : List α} (h : blank ∉ l) : ∀ c ∈ l, (!(c == blank)) = true := by
  intro c hc
  rw [Bool.not_eq_true', beq_eq_false_iff_ne]
  rintro rfl
  exact h hc

/-- A text ends at the first blank. -/
theorem takeWhile_append_blank {l : List α} (h : blank ∉ l) (r : List α) :
    (l ++ blank :: r).takeWhile (fun c => !(c == blank)) = l := by
  rw [List.takeWhile_append_of_pos (not_blank h), List.takeWhile_cons_of_neg (by simp), List.append_nil]

theorem takeWhile_eq_self {l : List α} (h : blank ∉ l) : l.takeWhile (fun c => !(c == blank)) = l :=
  List.takeWhile_eq_self_iff.mpr (not_blank h)

theorem takeWhile_append_replicate (l : List α) (n : Nat) :
    (l ++ List.replicate n blank).takeWhile (fun c => !(c == blank)) =
      l.takeWhile fun c => !(c == blank) := by
  induction l with
  | nil => cases n <;> simp [List.replicate_succ]
  | cons c l ih =>
    simp only [List.cons_append, List.takeWhile_cons, ih]

/-- The text of a block is the text of what it holds. -/
theorem text_of_holds {b : Block α} {l : List α} (h : b.Holds blank l) (hl : l.length ≤ b.size) :
    b.text blank = l.takeWhile fun c => !(c == blank) := by
  have hcells : (List.range b.size).map (fun k : Nat => b.mem k) =
      l ++ List.replicate (b.size - l.length) blank := by
    apply List.ext_getElem?
    intro k
    rcases Nat.lt_or_ge k b.size with hk | hk
    · rw [List.getElem?_map, List.getElem?_range hk, Option.map_some, h k,
        List.getD_eq_getElem?_getD]
      rcases Nat.lt_or_ge k l.length with hkl | hkl
      · rw [List.getElem?_append_left hkl, List.getElem?_eq_getElem hkl]
        rfl
      · rw [List.getElem?_append_right hkl, List.getElem?_eq_none hkl,
          List.getElem?_replicate_of_lt (by omega)]
        rfl
    · rw [List.getElem?_eq_none (by simpa using hk), List.getElem?_eq_none]
      simp only [List.length_append, List.length_replicate]
      omega
  rw [text, hcells, takeWhile_append_replicate]

end

end Block

/-! ## C strings -/

/-- The text before the terminator. -/
def cText (s : List Char) : List Char := s.takeWhile fun c => !(c == nul)

theorem cText_append_nul {t : List Char} (ht : nul ∉ t) (r : List Char) : cText (t ++ nul :: r) = t :=
  Block.takeWhile_append_blank ht r

theorem cText_eq_self {t : List Char} (ht : nul ∉ t) : cText t = t := Block.takeWhile_eq_self ht

/-- Blanks behind a text do not change it. -/
theorem cText_append_replicate (s : List Char) (n : Nat) : cText (s ++ List.replicate n nul) = cText s :=
  Block.takeWhile_append_replicate s n

theorem nul_not_mem_cText (s : List Char) : nul ∉ cText s := by
  intro h
  have := List.mem_takeWhile_imp h
  simp at this

end Growbox
