import Growbox.Lib.Pool

/-!
# Writers that keep two stores

A writer puts its value first into one store, then into the other; each write is
atomic, and any number of writers interleave.  A writer between its writes is
`Current` when the first store still holds its value.  As long as a second write
either repeats the first store's value or leaves another current writer to come
(`Keeps`), every key on which the stores differ has a current writer (`InStep`);
so the stores agree when all writers are done (`stores_agree`).
-/

namespace Growbox.TwoStore

open Pool

/-- Before its first write, between its writes, after both. -/
inductive Pc where
  | start | half | done
  deriving DecidableEq, Repr

section
variable {κ α : Type}

structure Writer (κ α : Type) where
  key : κ
  val : α
  pc : Pc

@[ext] structure State (κ α : Type) where
  fst : κ → α
  snd : κ → α
  pool : List (Writer κ α)

inductive Label (κ α : Type) where
  | arrive (key : κ) (val : α)
  | run (i : Nat)

def Current (fst : κ → α) (k : κ) (w : Writer κ α) : Prop := w.pc = .half ∧ w.key = k ∧ w.val = fst k

/-- Wherever the stores differ, a current writer has its second write to make. -/
def InStep (s : State κ α) : Prop := ∀ k, s.fst k = s.snd k ∨ Has (Current s.fst k) s.pool

/-- A second write repeats the first store, or another current writer will. -/
def Keeps (s : State κ α) : Label κ α → Prop
  | .arrive _ _ => True
  | .run i => ∀ w, s.pool[i]? = some w → w.pc = .half →
      w.val = s.fst w.key ∨ HasBut i (Current s.fst w.key) s.pool

theorem current_congr {f g : κ → α} {k : κ} (h : f k = g k) (w : Writer κ α) :
    Current f k w ↔ Current g k w := by
  unfold Current
  rw [h]

/-- **When every writer is done, the stores agree.** -/
theorem stores_agree {s : State κ α} (hs : InStep s) (hdone : ∀ w ∈ s.pool, w.pc = .done) (k : κ) :
    s.fst k = s.snd k := by
  rcases hs k with h | ⟨w, hw, hhalf, -⟩
  · exact h
  · rw [hdone w hw] at hhalf
    cases hhalf

variable [DecidableEq κ]

def store (f : κ → α) (k : κ) (v : α) : κ → α := fun j => if j = k then v else f j

/-- The next write of writer `i`, which is `w`. -/
def write (s : State κ α) (i : Nat) (w : Writer κ α) : Option (State κ α) :=
  match w.pc with
  | .start => some { s with
      fst := store s.fst w.key w.val
      pool := s.pool.set i { w with pc := .half } }
  | .half => some { s with
      snd := store s.snd w.key w.val
      pool := s.pool.set i { w with pc := .done } }
  | .done => none

def step (s : State κ α) : Label κ α → Option (State κ α)
  | .arrive k v => some { s with pool := s.pool ++ [⟨k, v, .start⟩] }
  | .run i => s.pool[i]?.bind (write s i)

theorem store_self (f : κ → α) (k : κ) (v : α) : store f k v k = v := if_pos rfl

theorem store_of_ne (f : κ → α) {k j : κ} (v : α) (h : j ≠ k) : store f k v j = f j := if_neg h

/-- `f` at one key and `g` at the others: the store that comes first where one key
is written in the other order. -/
def pick (p : κ) (f g : κ → α) : κ → α := fun j => if j = p then f j else g j

theorem pick_store_here (p : κ) (f g : κ → α) (v : α) :
    pick p (store f p v) g = store (pick p f g) p v ∧ pick p g (store f p v) = pick p g f := by
  unfold pick store
  constructor <;> funext j <;> by_cases h : j = p <;> simp [h]

theorem pick_store_there {p k : κ} (hk : k ≠ p) (f g : κ → α) (v : α) :
    pick p f (store g k v) = store (pick p f g) k v ∧ pick p (store g k v) f = pick p g f := by
  unfold pick store
  constructor <;> funext j <;> by_cases h : j = p <;> simp [h, Ne.symm hk]

/-- A first write makes its writer the current one; other keys keep theirs. -/
theorem inStep_first {s : State κ α} {i : Nat} {w : Writer κ α} (hs : InStep s)
    (hi : s.pool[i]? = some w) (hpc : w.pc = .start) :
    InStep { s with
      fst := store s.fst w.key w.val
      pool := s.pool.set i { w with pc := .half } } := by
  intro k
  by_cases hk : k = w.key
  · subst hk
    exact .inr ((has_set hi).mpr (.inr ⟨rfl, rfl, (store_self _ _ _).symm⟩))
  · have hfst : store s.fst w.key w.val k = s.fst k := store_of_ne _ _ hk
    rcases hs k with h | h
    · exact .inl (hfst.trans h)
    · rcases (has_iff hi).mp h with h | ⟨hhalf, -⟩
      · exact .inr ((has_set hi).mpr (.inl ((hasBut_congr (current_congr hfst)).mpr h)))
      · rw [hpc] at hhalf
        cases hhalf

theorem inStep_second {s : State κ α} {i : Nat} {w : Writer κ α} (hs : InStep s)
    (hi : s.pool[i]? = some w) (hk : w.val = s.fst w.key ∨ HasBut i (Current s.fst w.key) s.pool) :
    InStep { s with
      snd := store s.snd w.key w.val
      pool := s.pool.set i { w with pc := .done } } := by
  intro k
  by_cases hkey : k = w.key
  · subst hkey
    rcases hk with h | h
    · exact .inl (h.symm.trans (store_self _ _ _).symm)
    · exact .inr ((has_set hi).mpr (.inl h))
  · rcases hs k with h | h
    · exact .inl (h.trans (store_of_ne _ _ hkey).symm)
    · rcases (has_iff hi).mp h with h | ⟨-, h, -⟩
      · exact .inr ((has_set hi).mpr (.inl h))
      · exact absurd h.symm hkey

theorem inStep_step {s s' : State κ α} {l : Label κ α} (hs : InStep s) (hl : Keeps s l)
    (h : step s l = some s') : InStep s' := by
  cases l with
  | arrive k v =>
    cases h
    intro j
    exact (hs j).imp_right fun h => has_append_singleton.mpr (.inl h)
  | run i =>
    obtain ⟨w, hi, hw⟩ := Option.bind_eq_some_iff.mp h
    unfold write at hw
    split at hw
    · next hpc =>
      cases hw
      exact inStep_first hs hi hpc
    · next hpc =>
      cases hw
      exact inStep_second hs hi (hl w hi hpc)
    · cases hw

end

end Growbox.TwoStore
