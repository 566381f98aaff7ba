import Mathlib.Algebra.GroupWithZero.Nat
import Growbox.Lib.Pool

/-!
# Who holds a mutex

`holder` is the index of the thread that holds it.  `Owns` says that this is the one thread in
the section the mutex protects, as `H` tells from where a thread is.  It is kept when a thread
moves without crossing the section's border, enters it while nobody holds the mutex, or leaves
it; so no two threads are in the section (`Owns.eq`), and who cannot enter waits for a thread
that is (`Owns.none_or_some`).  Where mutexes are taken in an order, some thread waits for none
(`exists_unblocked`); and where each step brings its thread closer to an end, the threads come to
rest (`sum_set_lt`).
-/

namespace Growbox.Owner

open Pool

section
variable {τ : Type}

def Owns (holder : Option Nat) (H : τ → Prop) (pool : List τ) : Prop :=
  ∀ i, holder = some i ↔ ∃ t, pool[i]? = some t ∧ H t

variable {holder : Option Nat} {H : τ → Prop} {pool : List τ} {i j : Nat} {t t' : τ}

theorem getElem?_set_some (hi : pool[i]? = some t) (j : Nat) :
    (pool.set i t')[j]? = if j = i then some t' else pool[j]? := by
  have hlt : i < pool.length := (List.getElem?_eq_some_iff.mp hi).1
  by_cases h : j = i
  · subst h
    rw [if_pos rfl, List.getElem?_set_self hlt]
  · rw [if_neg h, List.getElem?_set_ne (Ne.symm h)]

theorem Owns.keep (h : Owns holder H pool) (hi : pool[i]? = some t) (ht : H t' ↔ H t) :
    Owns holder H (pool.set i t') := by
  intro j
  rw [h j, getElem?_set_some hi]
  by_cases hj : j = i
  · subst hj
    simp [hi, ht]
  · rw [if_neg hj]

theorem Owns.take (h : Owns none H pool) (hi : pool[i]? = some t) (ht : H t') :
    Owns (some i) H (pool.set i t') := by
  intro j
  rw [getElem?_set_some hi]
  by_cases hj : j = i
  · subst hj
    simp [ht]
  · rw [if_neg hj, ← h j]
    simp [Ne.symm hj]

theorem Owns.drop (h : Owns holder H pool) (hi : pool[i]? = some t) (ht : H t) (ht' : ¬ H t') :
    Owns none H (pool.set i t') := by
  intro j
  rw [getElem?_set_some hi]
  by_cases hj : j = i
  · subst hj
    simp [ht']
  · rw [if_neg hj, ← h j, (h i).mpr ⟨t, hi, ht⟩]
    simp [Ne.symm hj]

/-- No two threads are in the section. -/
theorem Owns.eq (h : Owns holder H pool) (hi : pool[i]? = some t) (ht : H t) (hj : pool[j]? = some t') (ht' : H t') :
    j = i := by
  have hi' := (h i).mpr ⟨t, hi, ht⟩
  rw [(h j).mpr ⟨t', hj, ht'⟩] at hi'
  exact Option.some.inj hi'

/-- The mutex is free, or a thread is in its section. -/
theorem Owns.none_or_some (h : Owns holder H pool) :
    holder = none ∨ ∃ (i : Nat) (t : τ), pool[i]? = some t ∧ H t := by
  cases hh : holder with
  | none => exact .inl rfl
  | some i =>
    obtain ⟨t, hi, ht⟩ := (h i).mp hh
    exact .inr ⟨i, t, hi, ht⟩

/-! ## Mutexes in an order -/

section
variable {μ : Type} {owner : μ → Option Nat} {inside : μ → τ → Prop} {wants : τ → Option μ} {rank : μ → Nat}

/-- From a thread that waits one gets to one that does not, over the threads waited for: each time
the mutex that is waited for is a higher one. -/
theorem exists_unblocked_of_lt {n : Nat} (hown : ∀ m, Owns (owner m) (inside m) pool)
    (horder : ∀ t m k, wants t = some m → inside k t → rank k < rank m) (hn : ∀ m, rank m ≤ n) (d : Nat)
    (hi : pool[i]? = some t) (hd : ∀ m, wants t = some m → n < rank m + d) :
    ∃ j u, pool[j]? = some u ∧ (j = i ∨ ∃ k, inside k u) ∧ ∀ m, wants u = some m → owner m = none := by
  induction d generalizing i t with
  | zero => exact ⟨i, t, hi, .inl rfl, fun m hm => absurd (hd m hm) (Nat.not_lt.mpr (hn m))⟩
  | succ d ih =>
    cases hw : wants t with
    | none => exact ⟨i, t, hi, .inl rfl, fun m hm => by rw [hw] at hm; cases hm⟩
    | some m =>
      rcases (hown m).none_or_some with hfree | ⟨j, u, hj, hu⟩
      · exact ⟨i, t, hi, .inl rfl, fun k hk => by rw [hw] at hk; cases hk; exact hfree⟩
      · obtain ⟨j', v, hj', hv, hvm⟩ := ih hj fun k hk => by
          have hlt := horder u k m hk hu
          have := hd m hw
          omega
        refine ⟨j', v, hj', .inr ?_, hvm⟩
        rcases hv with rfl | hv
        · rw [hj, Option.some.injEq] at hj'
          exact ⟨m, hj' ▸ hu⟩
        · exact hv

/-- **No deadlock** where each thread wants mutexes above those it has: some thread waits for none,
be it the given one or one that has a mutex. -/
theorem exists_unblocked {n : Nat} (hown : ∀ m, Owns (owner m) (inside m) pool)
    (horder : ∀ t m k, wants t = some m → inside k t → rank k < rank m) (hn : ∀ m, rank m ≤ n)
    (hi : pool[i]? = some t) :
    ∃ j u, pool[j]? = some u ∧ (j = i ∨ ∃ k, inside k u) ∧ ∀ m, wants u = some m → owner m = none :=
  exists_unblocked_of_lt hown horder hn (n + 1) hi fun m _ => by omega

end

/-! ## Threads that come to rest -/

/-- A thread that gets closer to its end brings all of them closer. -/
theorem sum_set_lt (f : τ → Nat) {pool : List τ} {i : Nat} (hi : pool[i]? = some t) (ht : f t' < f t) :
    ((pool.set i t').map f).sum < (pool.map f).sum := by
  induction pool generalizing i with
  | nil => simp at hi
  | cons u pool ih =>
    cases i with
    | zero =>
      obtain rfl : u = t := by simpa using hi
      simpa using ht
    | succ i =>
      have := ih (by simpa using hi)
      simpa using this

theorem sum_map_le (f : τ → Nat) {n : Nat} {pool : List τ} (hf : ∀ t ∈ pool, f t ≤ n) :
    (pool.map f).sum ≤ n * pool.length := by
  induction pool with
  | nil => simp
  | cons u pool ih =>
    obtain ⟨hu, hf⟩ := List.forall_mem_cons.mp hf
    have := ih hf
    rw [List.map_cons, List.sum_cons, List.length_cons, Nat.mul_succ]
    omega

end

end Growbox.Owner
