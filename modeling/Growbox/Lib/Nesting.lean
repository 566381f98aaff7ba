import Mathlib.Algebra.BigOperators.Group.Finset.Basic

/-!
# A procedure that calls itself

One call asks a question, calls itself `pre i` times after the `i`-th answer,
then tries something, and calls itself `post j` times after the `j`-th try.
With enough fuel a call comes back exactly when at some point fewer calls have
been caused than answers and tries were had: when some `n` is above
`∑ pre + ∑ post` over the first `n` of each (`calls_returns_iff`).
-/

namespace Growbox.Nesting

open Finset

/-- `c` done `k` times over. -/
def times {σ : Type} (c : σ → Option σ) : Nat → σ → Option σ
  | 0, s => some s
  | k + 1, s => (c s).bind (times c k)

/-- One call, from the number of answers and the number of tries before it to
those after it; `none` when the fuel runs out. -/
def calls (pre post : Nat → Nat) : Nat → Nat × Nat → Option (Nat × Nat)
  | 0, _ => none
  | fuel + 1, (i, j) =>
    (times (calls pre post fuel) (pre i) (i + 1, j)).bind fun (i', j') =>
      times (calls pre post fuel) (post j') (i', j' + 1)

section
variable {σ τ : Type}

theorem map_bind_congr {α β : Type} {x : Option α} {f : α → Option β} {p : α → σ} {q : β → τ}
    {d : σ → Option τ} (h : ∀ a, (f a).map q = d (p a)) : (x.bind f).map q = (x.map p).bind d := by
  cases x with
  | none => rfl
  | some a => exact h a

theorem times_inv {c : σ → Option σ} {R : Nat → σ → σ → Prop} (hzero : ∀ s, R 0 s s)
    (hsucc : ∀ k s s' s'', c s = some s' → R k s' s'' → R (k + 1) s s'')
    {k : Nat} {s s' : σ} (h : times c k s = some s') : R k s s' := by
  induction k generalizing s with
  | zero => exact Option.some.inj h ▸ hzero s
  | succ k ih =>
    obtain ⟨t, ht, hrest⟩ := Option.bind_eq_some_iff.mp h
    exact hsucc k s t s' ht (ih hrest)

end

/-! ## What calls cause -/

section
variable {pre post : Nat → Nat}

theorem sum_from_succ (f : Nat → Nat) (i n : Nat) :
    ∑ x ∈ range (n + 1), f (i + x) = f i + ∑ x ∈ range n, f (i + 1 + x) := by
  rw [sum_range_succ', Nat.add_zero, Nat.add_comm]
  congr 1
  exact sum_congr rfl fun x _ => by rw [Nat.add_assoc, Nat.add_comm 1 x]

theorem sum_from_add (f : Nat → Nat) (i m n : Nat) :
    ∑ x ∈ range (m + n), f (i + x) = ∑ x ∈ range m, f (i + x) + ∑ x ∈ range n, f (i + m + x) := by
  rw [sum_range_add]
  congr 1
  exact sum_congr rfl fun x _ => by rw [Nat.add_assoc]

/-- The calls that `n` answers and `n` tries cause, from the `i`-th and the `j`-th on. -/
def caused (pre post : Nat → Nat) (i j n : Nat) : Nat :=
  ∑ x ∈ range n, pre (i + x) + ∑ x ∈ range n, post (j + x)

theorem caused_add (i j m n : Nat) :
    caused pre post i j (m + n) = caused pre post i j m + caused pre post (i + m) (j + m) n := by
  simp only [caused, sum_from_add]
  omega

/-- A call with the `m` calls before its try and the `n` calls after it. -/
theorem caused_call (i j m n : Nat) :
    caused pre post i j (m + n + 1) =
      pre i + caused pre post (i + 1) j m + (post (j + m) + caused pre post (i + 1 + m) (j + m + 1) n) := by
  have hpre : ∑ x ∈ range (m + n + 1), pre (i + x) =
      pre i + (∑ x ∈ range m, pre (i + 1 + x) + ∑ x ∈ range n, pre (i + 1 + m + x)) := by
    rw [sum_from_succ, sum_from_add]
  have hpost : ∑ x ∈ range (m + n + 1), post (j + x) =
      ∑ x ∈ range m, post (j + x) + (post (j + m) + ∑ x ∈ range n, post (j + m + 1 + x)) := by
    rw [Nat.add_assoc m n 1, sum_from_add, sum_from_succ]
  simp only [caused, hpre, hpost]
  omega

/-- From `s` to `s'` there are `n` calls: the `k` owed at first, and those they cause. -/
def Settled (pre post : Nat → Nat) (k : Nat) (s s' : Nat × Nat) : Prop :=
  ∃ n, s' = (s.1 + n, s.2 + n) ∧ n = k + caused pre post s.1 s.2 n

theorem settled_zero (s : Nat × Nat) : Settled pre post 0 s s := ⟨0, rfl, rfl⟩

theorem settled_add {k l : Nat} {s t u : Nat × Nat} (h1 : Settled pre post k s t)
    (h2 : Settled pre post l t u) : Settled pre post (k + l) s u := by
  obtain ⟨m, rfl, hm⟩ := h1
  obtain ⟨n, rfl, hn⟩ := h2
  refine ⟨m + n, by simp only [Nat.add_assoc], ?_⟩
  rw [caused_add]
  simp only at hn
  omega

theorem settled_call {i j i' j' : Nat} {s : Nat × Nat}
    (h1 : Settled pre post (pre i) (i + 1, j) (i', j'))
    (h2 : Settled pre post (post j') (i', j' + 1) s) : Settled pre post 1 (i, j) s := by
  obtain ⟨m, hm', hm⟩ := h1
  obtain ⟨n, rfl, hn⟩ := h2
  obtain ⟨rfl, rfl⟩ := Prod.mk.inj hm'
  refine ⟨m + n + 1, by simp only [Prod.mk.injEq]; omega, ?_⟩
  show m + n + 1 = 1 + caused pre post i j (m + n + 1)
  rw [caused_call]
  simp only at hm hn
  omega

/-- **A call that comes back has been paid for.** -/
theorem settled_of_calls (fuel : Nat) (s s' : Nat × Nat) (h : calls pre post fuel s = some s') :
    Settled pre post 1 s s' := by
  induction fuel generalizing s s' with
  | zero => exact absurd h nofun
  | succ fuel ih =>
    have htimes {k : Nat} {s s' : Nat × Nat} (h : times (calls pre post fuel) k s = some s') :
        Settled pre post k s s' :=
      times_inv (R := Settled pre post) settled_zero
        (fun k s t u hc hr => Nat.add_comm 1 k ▸ settled_add (ih s t hc) hr) h
    obtain ⟨i, j⟩ := s
    obtain ⟨⟨i', j'⟩, hbefore, hafter⟩ := Option.bind_eq_some_iff.mp h
    exact settled_call (htimes hbefore) (htimes hafter)

/-! ## Enough fuel -/

/-- Whatever is owed and caused within `n` comes back, on any fuel from `n` on. -/
def ComesBack (pre post : Nat → Nat) (n : Nat) : Prop :=
  ∀ fuel, n ≤ fuel → ∀ k i j, k + caused pre post i j n ≤ n →
    ∃ m, m ≤ n ∧ m = k + caused pre post i j m ∧
      times (calls pre post fuel) k (i, j) = some (i + m, j + m)

theorem calls_of_le {n fuel : Nat} (hfuel : n ≤ fuel) (hback : ∀ n', n' < n → ComesBack pre post n')
    {i j : Nat} (h : 1 + caused pre post i j n ≤ n) :
    ∃ m, 0 < m ∧ m ≤ n ∧ m = 1 + caused pre post i j m ∧
      calls pre post fuel (i, j) = some (i + m, j + m) := by
  obtain ⟨n, rfl⟩ : ∃ n', n = n' + 1 := ⟨n - 1, by omega⟩
  obtain ⟨fuel, rfl⟩ : ∃ fuel', fuel = fuel' + 1 := ⟨fuel - 1, by omega⟩
  -- the calls before the try
  have hfirst := sum_from_succ pre i n
  have hmono : ∑ x ∈ range n, post (j + x) ≤ ∑ x ∈ range (n + 1), post (j + x) := by
    rw [sum_range_succ]
    omega
  have hpre : pre i + caused pre post (i + 1) j n ≤ n := by
    simp only [caused] at h ⊢
    omega
  obtain ⟨m, hmn, hm, hbefore⟩ := hback n (Nat.lt_succ_self n) fuel (by omega) _ _ _ hpre
  -- the calls after it
  obtain ⟨r, rfl⟩ := Nat.exists_eq_add_of_le hmn
  rw [caused_call] at h
  have hpost : post (j + m) + caused pre post (i + 1 + m) (j + m + 1) r ≤ r := by omega
  obtain ⟨l, hlr, hl, hafter⟩ := hback r (by omega) fuel (by omega) _ _ _ hpost
  refine ⟨m + l + 1, by omega, by omega, ?_, ?_⟩
  · rw [caused_call]
    omega
  · rw [calls, hbefore, Option.bind_some]
    show times (calls pre post fuel) (post (j + m)) (i + 1 + m, j + m + 1) = _
    rw [hafter, Option.some.injEq, Prod.mk.injEq]
    omega

theorem comesBack (n : Nat) : ComesBack pre post n := by
  induction n using Nat.strongRecOn with
  | ind n hback =>
    intro fuel hfuel k i j h
    cases k with
    | zero => exact ⟨0, Nat.zero_le n, rfl, rfl⟩
    | succ k =>
      have hone : 1 + caused pre post i j n ≤ n := by omega
      obtain ⟨m, hpos, hmn, hm, hcall⟩ := calls_of_le hfuel hback hone
      obtain ⟨r, rfl⟩ := Nat.exists_eq_add_of_le hmn
      rw [caused_add] at h
      obtain ⟨l, hlr, hl, hrest⟩ := hback r (by omega) fuel (by omega) k (i + m) (j + m) (by omega)
      refine ⟨m + l, by omega, ?_, ?_⟩
      · rw [caused_add]
        omega
      · rw [times, hcall, Option.bind_some, hrest, Nat.add_assoc, Nat.add_assoc]

/-- **When a call comes back**: when some number of answers and tries causes
fewer calls than there are answers and tries. -/
theorem calls_returns_iff (i j : Nat) :
    (∃ fuel, (calls pre post fuel (i, j)).isSome) ↔ ∃ n, caused pre post i j n < n := by
  constructor
  · rintro ⟨fuel, h⟩
    obtain ⟨s', hs'⟩ := Option.isSome_iff_exists.mp h
    obtain ⟨n, -, hn⟩ := settled_of_calls fuel _ _ hs'
    exact ⟨n, by simp only at hn; omega⟩
  · rintro ⟨n, h⟩
    have hone : 1 + caused pre post i j n ≤ n := by omega
    obtain ⟨m, -, -, -, hm⟩ := calls_of_le (Nat.le_refl n) (fun n' _ => comesBack n') hone
    exact ⟨n, by rw [hm]; rfl⟩

end

end Growbox.Nesting
