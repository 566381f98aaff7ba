import Mathlib.Data.List.Defs

/-!
# Tables with `AUTOINCREMENT` ids

Rows are kept in the order of their ids, and `seq` is the largest id ever given.
`nthId k` is the answer of `SELECT id … ORDER BY id ASC LIMIT k,1`, and `deleteBelow`
the effect of `DELETE … WHERE id < …`, which deletes nothing when the bound is
`NULL`.  Together they drop the `k` oldest rows of a table that has more, and none
of a table that has not (`rows_deleteBelow_nthId`); so a table that holds the newest
part of a log still does afterwards (`suffix_insert`, `suffix_deleteBelow_nthId`).
-/

namespace Growbox

structure RowTable (α : Type) where
  rows : List (Nat × α)
  seq : Nat
  ordered : rows.Pairwise fun r s => r.1 < s.1
  le_seq : ∀ r ∈ rows, r.1 ≤ seq

namespace RowTable

section
variable {α : Type} (t : RowTable α)

def empty : RowTable α := ⟨[], 0, List.Pairwise.nil, fun _ h => absurd h List.not_mem_nil⟩

/-- The columns besides the id, in table order. -/
def values : List α := t.rows.map Prod.snd

def insert (a : α) : RowTable α where
  rows := t.rows ++ [(t.seq + 1, a)]
  seq := t.seq + 1
  ordered := by
    refine List.pairwise_append.mpr ⟨t.ordered, List.pairwise_singleton _ _, fun r hr s hs => ?_⟩
    obtain rfl := List.mem_singleton.mp hs
    exact Nat.lt_succ_of_le (t.le_seq r hr)
  le_seq := by
    intro r hr
    rcases List.mem_append.mp hr with h | h
    · exact Nat.le_succ_of_le (t.le_seq r h)
    · obtain rfl := List.mem_singleton.mp h
      exact Nat.le_refl _

/-- `SELECT id FROM … ORDER BY id ASC LIMIT k,1` -/
def nthId (k : Nat) : Option Nat :=
  (((t.rows.map Prod.fst).mergeSort fun a b => decide (a ≤ b)).drop k).head?

/-- `DELETE FROM … WHERE id < bound`; a comparison with `NULL` is not true of any row. -/
def deleteBelow (bound : Option Nat) : RowTable α where
  rows := t.rows.filter fun r => !bound.any fun b => decide (r.1 < b)
  seq := t.seq
  ordered := t.ordered.filter _
  le_seq r hr := t.le_seq r (List.mem_filter.mp hr).1

@[simp] theorem values_insert (a : α) : (t.insert a).values = t.values ++ [a] := by
  simp [values, insert]

/-- The ids are in order already. -/
theorem nthId_eq (k : Nat) : t.nthId k = (t.rows[k]?).map Prod.fst := by
  have hsorted : (t.rows.map Prod.fst).Pairwise fun a b => decide (a ≤ b) = true := by
    refine List.pairwise_map.mpr (t.ordered.imp fun h => ?_)
    exact decide_eq_true (Nat.le_of_lt h)
  unfold nthId
  rw [List.mergeSort_of_pairwise hsorted, List.head?_drop, List.getElem?_map]

end

/-- In ordered rows those not below the id of the `k`-th are the `k`-th and what follows. -/
theorem filter_not_lt_eq_drop {α : Type} {rows : List (Nat × α)}
    (ho : rows.Pairwise fun r s => r.1 < s.1) {k : Nat} {b : Nat × α} (hk : rows[k]? = some b) :
    rows.filter (fun r => !decide (r.1 < b.1)) = rows.drop k := by
  induction rows generalizing k with
  | nil => cases hk
  | cons r rows ih =>
    obtain ⟨hr, ho⟩ := List.pairwise_cons.mp ho
    cases k with
    | zero =>
      obtain rfl : r = b := Option.some.inj hk
      refine List.filter_eq_self.mpr fun s hs => ?_
      have hle : ¬ s.1 < r.1 := by
        rcases List.mem_cons.mp hs with rfl | h
        · exact Nat.lt_irrefl _
        · exact Nat.not_lt_of_gt (hr s h)
      simpa using hle
    | succ k =>
      have hlt : r.1 < b.1 := hr b (List.mem_of_getElem? hk)
      rw [List.filter_cons_of_neg (by simpa using hlt)]
      exact ih ho hk

section
variable {α : Type} (t : RowTable α)

/-- **The `k` oldest rows go when there are more than `k`**, and none otherwise. -/
theorem rows_deleteBelow_nthId (k : Nat) :
    (t.deleteBelow (t.nthId k)).rows = if k < t.rows.length then t.rows.drop k else t.rows := by
  rw [nthId_eq]
  unfold deleteBelow
  split
  · next h =>
    have hk : t.rows[k]? = some t.rows[k] := List.getElem?_eq_getElem h
    rw [hk]
    exact filter_not_lt_eq_drop t.ordered hk
  · next h =>
    rw [List.getElem?_eq_none (Nat.le_of_not_lt h)]
    exact List.filter_eq_self.mpr fun _ _ => rfl

theorem values_deleteBelow_nthId (k : Nat) :
    (t.deleteBelow (t.nthId k)).values =
      if k < t.values.length then t.values.drop k else t.values := by
  unfold values
  rw [rows_deleteBelow_nthId, List.length_map]
  split
  · exact List.map_drop
  · rfl

/-- Dropping rows from the front keeps a suffix a suffix. -/
theorem suffix_deleteBelow_nthId {log : List α} (h : t.values <:+ log) (k : Nat) :
    (t.deleteBelow (t.nthId k)).values <:+ log := by
  rw [values_deleteBelow_nthId]
  split
  · exact (List.drop_suffix k t.values).trans h
  · exact h

theorem suffix_insert {log : List α} (h : t.values <:+ log) (a : α) :
    (t.insert a).values <:+ log ++ [a] := by
  rw [values_insert]
  exact (List.suffix_append_inj_of_length_eq rfl).mpr ⟨h, rfl⟩

end

/-! ## `SELECT DISTINCT` -/

/-- The tail is filtered before the recursion, so it goes by length. -/
theorem nodup_eraseDups {α : Type} [BEq α] [LawfulBEq α] (l : List α) : l.eraseDups.Nodup := by
  match l with
  | [] => exact List.nodup_nil
  | a :: l =>
    rw [List.eraseDups_cons]
    refine List.nodup_cons.mpr ⟨fun h => ?_, nodup_eraseDups _⟩
    have := (List.mem_filter.mp (List.mem_eraseDups.mp h)).2
    simp at this
  termination_by l.length
  decreasing_by
    have := List.length_filter_le (fun b => !b == a) l
    rw [List.length_cons]
    omega

end RowTable

end Growbox
