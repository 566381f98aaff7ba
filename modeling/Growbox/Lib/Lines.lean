import Mathlib.Data.List.Basic

/-!
# Lines ended by a pair of marks

Lines over any alphabet, each followed by two marks `cr` and `lf` that stand in
no line (`Clean`).  A reader that takes one symbol at a time knows the lines
that have ended and the one that has begun (`Reading`); after any part of a
stream these are the first lines of the stream, one for each `lf` so far
(`done_of_isPrefix`), and an `lf` comes exactly after a `cr` (`mark_of_isPrefix`).
-/

namespace Growbox.Lines

section
variable {α : Type} {cr lf : α}

/-- The lines as they come: each with both marks behind it. -/
def stream (cr lf : α) (lines : List (List α)) : List α := lines.flatMap (· ++ [cr, lf])

/-- No mark stands in the line. -/
def Clean (cr lf : α) (line : List α) : Prop := cr ∉ line ∧ lf ∉ line

theorem Clean.of_isPrefix {l line : List α} (h : Clean cr lf line) (hp : l <+: line) : Clean cr lf l :=
  ⟨fun hm => h.1 (hp.subset hm), fun hm => h.2 (hp.subset hm)⟩

/-- A part of two texts one after the other ends in the first, or takes it whole. -/
theorem prefix_append_cases {bs xs ys : List α} (h : bs <+: xs ++ ys) :
    bs <+: xs ∨ ∃ zs, bs = xs ++ zs ∧ zs <+: ys := by
  obtain ⟨t, ht⟩ := h
  rcases List.append_eq_append_iff.mp ht with ⟨as, hx, -⟩ | ⟨zs, hb, hy⟩
  · exact .inl ⟨as, hx.symm⟩
  · exact .inr ⟨zs, hb, t, hy.symm⟩

/-- Where a part of a stream can end: in the first line, between its marks, or
in the lines after it. -/
theorem prefix_stream_cons {bs line : List α} {lines : List (List α)}
    (h : bs <+: stream cr lf (line :: lines)) :
    bs <+: line ∨ bs = line ++ [cr] ∨
      ∃ zs, bs = line ++ cr :: lf :: zs ∧ zs <+: stream cr lf lines := by
  have hs : stream cr lf (line :: lines) = line ++ cr :: lf :: stream cr lf lines := by
    simp only [stream, List.flatMap_cons, List.append_assoc, List.cons_append, List.nil_append]
  rw [hs] at h
  rcases prefix_append_cases h with hl | ⟨zs, rfl, hz⟩
  · exact .inl hl
  · cases zs with
    | nil => exact .inl (by simp only [List.append_nil, List.prefix_rfl])
    | cons z zs =>
      obtain ⟨rfl, hz⟩ := List.cons_prefix_cons.mp hz
      cases zs with
      | nil => exact .inr (.inl rfl)
      | cons z' zs =>
        obtain ⟨rfl, hz⟩ := List.cons_prefix_cons.mp hz
        exact .inr (.inr ⟨zs, rfl, hz⟩)

/-- **In a part of a stream the second mark comes exactly after the first.** -/
theorem mark_of_isPrefix (hne : cr ≠ lf) {lines : List (List α)} (hc : ∀ l ∈ lines, Clean cr lf l)
    {bs : List α} {b : α} (h : bs ++ [b] <+: stream cr lf lines) :
    b = lf ↔ bs.getLast? = some cr := by
  induction lines generalizing bs with
  | nil => exact absurd (List.prefix_nil.mp h) (List.append_ne_nil_of_right_ne_nil _ (by simp))
  | cons line lines ih =>
    obtain ⟨hl, hls⟩ := List.forall_mem_cons.mp hc
    have hcr : bs <+: line → bs.getLast? ≠ some cr := fun hp he =>
      (hl.of_isPrefix hp).1 (List.mem_of_getLast? he)
    rcases prefix_stream_cons h with hp | he | ⟨zs, he, hz⟩
    · -- inside the line: neither symbol is a mark
      have hb : b ≠ lf := fun hb => hl.2 (hp.subset (hb ▸ List.mem_append_right _ List.mem_cons_self))
      exact iff_of_false hb (hcr ((List.prefix_append bs [b]).trans hp))
    · obtain ⟨rfl, hb⟩ := List.append_inj' he rfl
      obtain rfl : b = cr := by simpa using hb
      exact iff_of_false hne (hcr List.prefix_rfl)
    · rcases List.eq_nil_or_concat zs with rfl | ⟨zs', z, rfl⟩
      · have he' : bs ++ [b] = (line ++ [cr]) ++ [lf] := by rw [he]; simp
        obtain ⟨rfl, hb⟩ := List.append_inj' he' rfl
        exact iff_of_true (by simpa using hb) (by simp)
      · have he' : bs ++ [b] = (line ++ cr :: lf :: zs') ++ [z] := by rw [he]; simp
        obtain ⟨rfl, hb⟩ := List.append_inj' he' rfl
        obtain rfl : b = z := by simpa using hb
        rw [List.concat_eq_append] at hz
        rw [ih hls hz]
        rcases List.eq_nil_or_concat zs' with rfl | ⟨zs'', z', rfl⟩
        · simp [Ne.symm hne]
        · have hz' : line ++ cr :: lf :: zs''.concat z' = (line ++ cr :: lf :: zs'') ++ [z'] := by simp
          rw [hz', List.concat_eq_append, List.getLast?_concat, List.getLast?_concat]

variable [DecidableEq α]

/-- The lines that have ended, and the begun one. -/
structure Reading (α : Type) where
  done : List (List α)
  cur : List α
  deriving DecidableEq, Repr

/-- One more symbol. -/
def Reading.next (cr lf : α) (r : Reading α) (b : α) : Reading α :=
  if b = lf then ⟨r.done ++ [r.cur], []⟩
  else if b = cr then r
  else ⟨r.done, r.cur ++ [b]⟩

/-- What is known after the symbols. -/
def reading (cr lf : α) (bs : List α) : Reading α := bs.foldl (Reading.next cr lf) ⟨[], []⟩

/-- The symbols of all lines, ended or not, without the marks. -/
def Reading.data (r : Reading α) : List α := r.done.flatten ++ r.cur

theorem reading_snoc (bs : List α) (b : α) :
    reading cr lf (bs ++ [b]) = (reading cr lf bs).next cr lf b := by
  rw [reading, List.foldl_append]
  rfl

theorem next_second (r : Reading α) : r.next cr lf lf = ⟨r.done ++ [r.cur], []⟩ := if_pos rfl

theorem next_first (hne : cr ≠ lf) (r : Reading α) : r.next cr lf cr = r := by
  rw [Reading.next, if_neg hne, if_pos rfl]

theorem next_symbol {b : α} (hc : b ≠ cr) (hl : b ≠ lf) (r : Reading α) :
    r.next cr lf b = ⟨r.done, r.cur ++ [b]⟩ := by
  rw [Reading.next, if_neg hl, if_neg hc]

theorem data_next (r : Reading α) (b : α) :
    (r.next cr lf b).data = if b = lf ∨ b = cr then r.data else r.data ++ [b] := by
  unfold Reading.next Reading.data
  by_cases hl : b = lf
  · simp only [if_pos hl, if_pos (Or.inl hl : b = lf ∨ b = cr), List.flatten_append,
      List.flatten_singleton, List.append_nil]
  · by_cases hc : b = cr
    · simp only [if_neg hl, if_pos hc, if_pos (Or.inr hc : b = lf ∨ b = cr)]
    · simp only [if_neg hl, if_neg hc, if_neg (not_or.mpr ⟨hl, hc⟩), List.append_assoc]

/-! ## A clean line -/

theorem foldl_clean {line : List α} (h : Clean cr lf line) (r : Reading α) :
    line.foldl (Reading.next cr lf) r = ⟨r.done, r.cur ++ line⟩ := by
  induction line generalizing r with
  | nil => simp only [List.foldl_nil, List.append_nil]
  | cons b line ih =>
    obtain ⟨hc, hl⟩ := h
    rw [List.mem_cons, not_or] at hc hl
    rw [List.foldl_cons, next_symbol (Ne.symm hc.1) (Ne.symm hl.1), ih ⟨hc.2, hl.2⟩,
      List.append_assoc]
    rfl

/-! ## Parts of a stream -/

/-- **After a part of a stream its first lines have ended**, one for each second mark. -/
theorem done_of_isPrefix (hne : cr ≠ lf) {lines : List (List α)} (hc : ∀ l ∈ lines, Clean cr lf l)
    {bs : List α} (h : bs <+: stream cr lf lines) :
    (reading cr lf bs).done = lines.take (bs.count lf) := by
  have key : ∀ (lines : List (List α)) (bs : List α) (done : List (List α)),
      (∀ l ∈ lines, Clean cr lf l) → bs <+: stream cr lf lines →
      (bs.foldl (Reading.next cr lf) ⟨done, []⟩).done = done ++ lines.take (bs.count lf) := by
    intro lines
    induction lines with
    | nil =>
      intro bs done _ hb
      rw [List.prefix_nil.mp hb]
      exact (List.append_nil _).symm
    | cons line lines ih =>
      intro bs done hc hb
      obtain ⟨hl, hls⟩ := List.forall_mem_cons.mp hc
      have hcnt : ∀ l, l <+: line → l.count lf = 0 := fun l hp =>
        List.count_eq_zero.mpr (hl.of_isPrefix hp).2
      rcases prefix_stream_cons hb with hp | rfl | ⟨zs, rfl, hz⟩
      · rw [foldl_clean (hl.of_isPrefix hp), hcnt bs hp, List.take_zero, List.append_nil]
      · rw [List.foldl_append, foldl_clean hl, List.count_append, hcnt line List.prefix_rfl]
        simp [Reading.next, hne]
      · rw [List.foldl_append, foldl_clean hl, List.count_append, hcnt line List.prefix_rfl,
          List.count_cons_of_ne hne, List.count_cons_self, Nat.zero_add, List.take_succ_cons]
        have hm : (cr :: lf :: zs).foldl (Reading.next cr lf) ⟨done, [] ++ line⟩ =
            zs.foldl (Reading.next cr lf) ⟨done ++ [line], []⟩ := by
          simp [Reading.next, hne]
        rw [hm, ih zs _ hls hz, List.append_assoc]
        rfl
  exact key lines bs [] hc h

theorem data_reading (bs : List α) :
    (reading cr lf bs).data = bs.filter fun b => !(decide (b = lf) || decide (b = cr)) := by
  have key : ∀ r : Reading α, (bs.foldl (Reading.next cr lf) r).data =
      r.data ++ bs.filter fun b => !(decide (b = lf) || decide (b = cr)) := by
    induction bs with
    | nil => exact fun r => (List.append_nil _).symm
    | cons b bs ih =>
      intro r
      rw [List.foldl_cons, ih, data_next]
      by_cases hl : b = lf <;> by_cases hc : b = cr <;> simp [hl, hc]
  exact key ⟨[], []⟩

/-- The symbols so far are no more than the lines hold. -/
theorem length_data_of_isPrefix {lines : List (List α)} (hc : ∀ l ∈ lines, Clean cr lf l)
    {bs : List α} (h : bs <+: stream cr lf lines) :
    (reading cr lf bs).data.length ≤ lines.flatten.length := by
  have hall : (stream cr lf lines).filter (fun b => !(decide (b = lf) || decide (b = cr))) =
      lines.flatten := by
    clear h
    induction lines with
    | nil => rfl
    | cons line lines ih =>
      obtain ⟨hl, hls⟩ := List.forall_mem_cons.mp hc
      have hline : line.filter (fun b => !(decide (b = lf) || decide (b = cr))) = line := by
        refine List.filter_eq_self.mpr fun b hb => ?_
        have h1 : b ≠ lf := fun e => hl.2 (e ▸ hb)
        have h2 : b ≠ cr := fun e => hl.1 (e ▸ hb)
        simp [h1, h2]
      have hrest := ih hls
      rw [stream, List.flatMap_cons, List.filter_append, List.filter_append, hline]
      rw [stream] at hrest
      rw [hrest, List.flatten_cons]
      simp
  rw [data_reading, ← hall]
  exact (h.filter _).length_le

end

end Growbox.Lines
