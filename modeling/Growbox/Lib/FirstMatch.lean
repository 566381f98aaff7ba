import Mathlib.Data.List.Infix

/-!
# Where a needle is first in a text

`First needle before t` says that in the text `before ++ t` the needle is first where `t`
begins.  There is one such place at most (`First.unique`).  A needle whose first letter is in
it once cannot overlap itself, so after a text without it it is first where it is put
(`first_of_not_infix`).
-/

namespace Growbox

section
variable {α : Type}

/-- The needle begins `t`, and no longer end of the text. -/
structure First (needle before t : List α) : Prop where
  here : needle <+: t
  first : ∀ k, k < before.length → ¬ needle <+: (before ++ t).drop k

theorem first_nil {needle t : List α} : First needle [] t ↔ needle <+: t :=
  ⟨First.here, fun h => ⟨h, fun k hk => absurd hk (Nat.not_lt_zero k)⟩⟩

theorem first_cons {needle before t : List α} {a : α} :
    First needle (a :: before) t ↔ ¬ needle <+: a :: (before ++ t) ∧ First needle before t := by
  constructor
  · intro h
    exact ⟨h.first 0 (Nat.succ_pos _), h.here, fun k hk => h.first (k + 1) (Nat.succ_lt_succ hk)⟩
  · rintro ⟨hstart, h⟩
    refine ⟨h.here, fun k hk => ?_⟩
    cases k with
    | zero => exact hstart
    | succ k => exact h.first k (Nat.lt_of_succ_lt_succ hk)

theorem First.length_le {needle before before' t t' : List α} (h : First needle before t)
    (h' : First needle before' t') (he : before ++ t = before' ++ t') : before'.length ≤ before.length := by
  by_contra hlt
  refine h'.first before.length (Nat.lt_of_not_le hlt) ?_
  rw [← he, List.drop_left]
  exact h.here

theorem First.unique {needle before before' t t' : List α} (h : First needle before t)
    (h' : First needle before' t') (he : before ++ t = before' ++ t') : before = before' ∧ t = t' :=
  List.append_inj he (Nat.le_antisymm (h'.length_le h he.symm) (h.length_le h' he))

variable {c : α} {m x : List α}

/-- Letters that are not the first of the needle are not in a place where it is. -/
theorem infix_of_infix_append {w : List α} (hw : c ∉ w) (h : (c :: m) <:+: w ++ x) : (c :: m) <:+: x := by
  induction w with
  | nil => exact h
  | cons a w ih =>
    rw [List.mem_cons, not_or] at hw
    rcases List.infix_cons_iff.mp h with hprefix | hinfix
    · exact absurd (List.cons_prefix_cons.mp hprefix).1 hw.1
    · exact ih hw.2 hinfix

/-- **The needle is first where it is put** after a text that it is not in. -/
theorem first_of_not_infix (hc : c ∉ m) (hx : ¬ (c :: m) <:+: x) (y : List α) :
    First (c :: m) x (c :: m ++ y) := by
  refine ⟨List.prefix_append .., fun k hk hprefix => ?_⟩
  rw [List.drop_append_of_le_length (Nat.le_of_lt hk)] at hprefix
  have hpos : 0 < (x.drop k).length := by
    rw [List.length_drop]
    omega
  rcases Nat.lt_or_ge (x.drop k).length (c :: m).length with hlong | hshort
  · -- it would go on into where it is put, and have its first letter a second time
    obtain ⟨r, hr⟩ := hprefix
    have hat : (c :: m ++ r)[(x.drop k).length]? = some c := by
      rw [hr, List.getElem?_append_right (Nat.le_refl _), Nat.sub_self]
      rfl
    obtain ⟨n, hn⟩ := Nat.exists_eq_succ_of_ne_zero (Nat.ne_of_gt hpos)
    rw [List.getElem?_append_left hlong, hn, List.getElem?_cons_succ] at hat
    exact hc (List.mem_of_getElem? hat)
  · have hin : (c :: m) <+: x.drop k := List.prefix_of_prefix_length_le hprefix (List.prefix_append ..) hshort
    exact hx (hin.isInfix.trans (List.drop_suffix k x).isInfix)

/-- Before the place where the needle is first it is nowhere. -/
theorem First.not_infix {w t : List α} (h : First (c :: m) (w ++ x) t) : ¬ (c :: m) <:+: x := by
  rintro ⟨a, b, rfl⟩
  refine h.first (w ++ a).length ?_ ?_
  · simp only [List.length_append, List.length_cons]
    omega
  · have hsplit : w ++ (a ++ (c :: m) ++ b) ++ t = (w ++ a) ++ ((c :: m) ++ (b ++ t)) := by
      simp only [List.append_assoc]
    rw [hsplit, List.drop_left]
    exact List.prefix_append ..

end

end Growbox
