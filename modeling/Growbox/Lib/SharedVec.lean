import Growbox.Lib.Pool

/-!
# Readers that share one vector

A reader clears the vector, has its query append rows to it, walks over it once,
reads its size, copies that many elements one by one and clears it again; nothing
keeps two readers apart.  `StepOk` says when a step leaves the others alone: it
changes the vector only while no other reader relies on it.  Steps that do keep
`AllSound` (`allSound_step`), so each reader returns the rows of its own query and
never looks past the end.
-/

namespace Growbox.SharedVec

open Pool

/-- Where a reader is.  `walking` and `looking` are the two halves of a turn of the first
loop, `copying` has the size that was read and what has been copied; `done none` is an
answer without rows, `overrun` a look past the end. -/
inductive Pc (ρ : Type) where
  | start | cleared
  | walking (k : Nat)
  | looking (k : Nat)
  | sizing
  | copying (n : Nat) (acc : List ρ)
  | dropping
  | done (res : Option (List ρ))
  | overrun

/-- `arg` is what the reader asks for, `rows` what its query has selected. -/
structure Reader (α ρ : Type) where
  arg : α
  pc : Pc ρ
  rows : List ρ

structure Shared (α ρ : Type) where
  vec : List ρ
  pool : List (Reader α ρ)

section
variable {α ρ : Type}

/-- The next step of reader `i`.  A reader that is `tolerant` goes on after a failed query
and clears the vector when it gets no memory; another gives up. -/
def move (tolerant : Bool) (rows : List ρ) (queryOk allocOk : Bool) (s : Shared α ρ) (i : Nat)
    (t : Reader α ρ) : Shared α ρ :=
  let goto (pc : Pc ρ) := s.pool.set i { t with pc }
  match t.pc with
  | .start => ⟨[], goto .cleared⟩
  | .cleared =>
    let pc := if queryOk then .walking 0 else if tolerant then .sizing else .done none
    ⟨s.vec ++ rows, s.pool.set i { t with pc, rows }⟩
  | .walking k => ⟨s.vec, goto (if k < s.vec.length then .looking k else .sizing)⟩
  | .looking k => ⟨s.vec, goto (if k < s.vec.length then .walking (k + 1) else .overrun)⟩
  | .sizing =>
    ⟨s.vec, goto (if allocOk then .copying s.vec.length [] else if tolerant then .dropping
      else .done none)⟩
  | .copying n acc =>
    if acc.length < n then
      match s.vec[acc.length]? with
      | some x => ⟨s.vec, goto (.copying n (acc ++ [x]))⟩
      | none => ⟨s.vec, goto .overrun⟩
    else ⟨[], goto (.done (some acc))⟩
  | .dropping => ⟨[], goto (.done none)⟩
  | .done _ | .overrun => s

/-- The reader relies on the vector: its query is done, its last copy is not. -/
def Relies (t : Reader α ρ) : Prop :=
  match t.pc with
  | .walking _ | .looking _ | .sizing => True
  | .copying n acc => acc.length < n
  | _ => False

/-- The step leaves the vector as it is, or no other reader relies on it; and a query
finds the vector empty. -/
def StepOk (s : Shared α ρ) (i : Nat) (t : Reader α ρ) (rows : List ρ) : Prop :=
  match t.pc with
  | .start | .dropping => s.vec = [] ∨ ¬ HasBut i Relies s.pool
  | .cleared => s.vec = [] ∧ (rows = [] ∨ ¬ HasBut i Relies s.pool)
  | .copying n acc => n ≤ acc.length → s.vec = [] ∨ ¬ HasBut i Relies s.pool
  | _ => True

instance (t : Reader α ρ) : Decidable (Relies t) := by
  unfold Relies
  split <;> infer_instance

instance (s : Shared α ρ) (i : Nat) (t : Reader α ρ) (rows : List ρ) :
    Decidable (StepOk s i t rows) := by
  unfold StepOk
  split <;> infer_instance

/-- The reader has not looked past the end, and what it returns are its rows. -/
def Right (t : Reader α ρ) : Prop :=
  match t.pc with
  | .overrun => False
  | .done (some acc) => acc = t.rows
  | _ => True

/-- While it relies on the vector, the vector holds its rows. -/
def Sound (vec : List ρ) (t : Reader α ρ) : Prop :=
  match t.pc with
  | .walking _ | .sizing => vec = t.rows
  | .looking k => vec = t.rows ∧ k < t.rows.length
  | .copying n acc =>
    n = t.rows.length ∧ acc = t.rows.take acc.length ∧ acc.length ≤ n ∧
      (acc.length < n → vec = t.rows)
  | .done (some acc) => acc = t.rows
  | .overrun => False
  | _ => True

def AllSound (s : Shared α ρ) : Prop := ∀ t ∈ s.pool, Sound s.vec t

theorem Sound.right {vec : List ρ} {t : Reader α ρ} (h : Sound vec t) : Right t := by
  obtain ⟨arg, pc, rows⟩ := t
  cases pc with
  | done res =>
    cases res with
    | none => exact trivial
    | some acc => exact h
  | overrun => exact h
  | start | cleared | walking | looking | sizing | copying | dropping => exact trivial

/-- A reader that does not rely on the vector does not mind a change. -/
theorem Sound.of_not_relies {vec vec' : List ρ} {t : Reader α ρ} (h : Sound vec t)
    (hr : ¬ Relies t) : Sound vec' t := by
  obtain ⟨arg, pc, rows⟩ := t
  cases pc with
  | walking | looking | sizing => exact absurd trivial hr
  | copying n acc => exact ⟨h.1, h.2.1, h.2.2.1, fun hlt => absurd hlt hr⟩
  | done res => cases res <;> exact h
  | start | cleared | dropping => exact trivial
  | overrun => exact h

/-- Reader `i` moves on, the vector with it: the others are as they were if it is the same
or none of them relies on it. -/
theorem allSound_set {s : Shared α ρ} (hs : AllSound s) {i : Nat} {t' : Reader α ρ}
    {vec' : List ρ} (hvec : vec' = s.vec ∨ ¬ HasBut i Relies s.pool) (ht : Sound vec' t') :
    AllSound ⟨vec', s.pool.set i t'⟩ := by
  refine forall_set (fun j x hji hj => ?_) ht
  have hx : Sound s.vec x := hs x (List.mem_of_getElem? hj)
  rcases hvec with rfl | hno
  · exact hx
  · exact hx.of_not_relies fun hr => hno ⟨j, x, hji, hj, hr⟩

theorem copied_snoc {acc rows : List ρ} (h : acc = rows.take acc.length) {x : ρ}
    (hx : rows[acc.length]? = some x) : acc ++ [x] = rows.take (acc ++ [x]).length := by
  rw [List.length_append, List.length_singleton, List.take_add_one, ← h, hx]
  rfl

theorem allSound_copying {s : Shared α ρ} (hs : AllSound s) {i : Nat} {t : Reader α ρ}
    {n : Nat} {acc : List ρ} (hpc : t.pc = .copying n acc) (ht : Sound s.vec t) (tolerant : Bool)
    (rows : List ρ) (queryOk allocOk : Bool) (hok : StepOk s i t rows) :
    AllSound (move tolerant rows queryOk allocOk s i t) := by
  obtain ⟨arg, pc, own⟩ := t
  obtain rfl : pc = .copying n acc := hpc
  obtain ⟨hn, hacc, hle, hvec⟩ := ht
  obtain rfl : own.length = n := hn.symm
  simp only [move]
  by_cases hlt : acc.length < own.length
  · rw [if_pos hlt]
    have hv : s.vec = own := hvec hlt
    have hget : s.vec[acc.length]? = some own[acc.length] := by
      rw [hv, List.getElem?_eq_getElem]
    rw [hget]
    refine allSound_set hs (.inl rfl) ⟨rfl, copied_snoc hacc ?_, ?_, fun _ => hv⟩
    · exact List.getElem?_eq_getElem hlt
    · rw [List.length_append, List.length_singleton]
      exact hlt
  · rw [if_neg hlt]
    refine allSound_set hs ((hok (Nat.le_of_not_lt hlt)).imp_left Eq.symm) ?_
    have hall : acc.length = own.length := by omega
    show acc = own
    rw [hacc, hall, List.take_length]

/-- **Each step that is `StepOk` keeps every reader sound.** -/
theorem allSound_move {s : Shared α ρ} (hs : AllSound s) {i : Nat} {t : Reader α ρ}
    (hi : s.pool[i]? = some t) (tolerant : Bool) (rows : List ρ) (queryOk allocOk : Bool)
    (hok : StepOk s i t rows) : AllSound (move tolerant rows queryOk allocOk s i t) := by
  have ht : Sound s.vec t := hs t (List.mem_of_getElem? hi)
  cases hpc : t.pc with
  | copying n acc => exact allSound_copying hs hpc ht tolerant rows queryOk allocOk hok
  | start | dropping =>
    simp only [StepOk, hpc] at hok
    simp only [move, hpc]
    exact allSound_set hs (hok.imp_left Eq.symm) trivial
  | cleared =>
    simp only [StepOk, hpc] at hok
    simp only [move, hpc, hok.1, List.nil_append]
    refine allSound_set hs (hok.2.imp_left fun h => h.trans hok.1.symm) ?_
    cases queryOk with
    | true => exact rfl
    | false =>
      cases tolerant with
      | true => exact rfl
      | false => exact trivial
  | walking k =>
    simp only [Sound, hpc] at ht
    simp only [move, hpc]
    refine allSound_set hs (.inl rfl) ?_
    by_cases hk : k < s.vec.length
    · rw [if_pos hk]
      exact ⟨ht, ht ▸ hk⟩
    · rw [if_neg hk]
      exact ht
  | looking k =>
    simp only [Sound, hpc] at ht
    simp only [move, hpc]
    have hk : k < s.vec.length := ht.1 ▸ ht.2
    rw [if_pos hk]
    exact allSound_set hs (.inl rfl) ht.1
  | sizing =>
    simp only [Sound, hpc] at ht
    simp only [move, hpc]
    refine allSound_set hs (.inl rfl) ?_
    cases allocOk with
    | true => exact ⟨congrArg List.length ht, rfl, Nat.zero_le _, fun _ => ht⟩
    | false => cases tolerant <;> exact trivial
  | done res | overrun =>
    simp only [move, hpc]
    exact hs

/-- A reader that arrives has not read anything. -/
theorem allSound_arrive {s : Shared α ρ} (hs : AllSound s) (arg : α) :
    AllSound ⟨s.vec, s.pool ++ [⟨arg, .start, []⟩]⟩ :=
  forall_append_singleton.mpr ⟨hs, trivial⟩

end

end Growbox.SharedVec
