/-!
# A pool of threads

Threads are the entries of a list; one takes a step by `List.set` at its index.
`Has p pool` says that some thread satisfies `p`, `HasBut i p pool` that one other
than `i` does; a step of thread `i` only changes what `i` itself contributes
(`has_iff`, `has_set`).
-/

namespace Growbox.Pool

section
variable {τ : Type}

def Has (p : τ → Prop) (pool : List τ) : Prop := ∃ t ∈ pool, p t

def HasBut (i : Nat) (p : τ → Prop) (pool : List τ) : Prop := ∃ j t, j ≠ i ∧ pool[j]? = some t ∧ p t

instance (p : τ → Prop) [DecidablePred p] (pool : List τ) : Decidable (Has p pool) :=
  inferInstanceAs (Decidable (∃ t ∈ pool, p t))

instance (p : τ → Prop) [DecidablePred p] (i : Nat) (pool : List τ) : Decidable (HasBut i p pool) :=
  decidable_of_iff (∃ j ∈ List.range pool.length, j ≠ i ∧ ∃ t ∈ pool[j]?, p t)
    ⟨fun ⟨j, _, hj, t, ht, hp⟩ => ⟨j, t, hj, ht, hp⟩, fun ⟨j, t, hj, ht, hp⟩ =>
      ⟨j, List.mem_range.mpr (List.getElem?_eq_some_iff.mp ht).1, hj, t, ht, hp⟩⟩

/-- What a thread must meet, if there is one at the index. -/
instance decidableForallSome (p : τ → Prop) [DecidablePred p] (o : Option τ) :
    Decidable (∀ t, o = some t → p t) :=
  inferInstanceAs (Decidable (∀ t ∈ o, p t))

variable {p q : τ → Prop} {pool : List τ} {i : Nat} {t t' : τ}

theorem has_append_singleton : Has p (pool ++ [t]) ↔ Has p pool ∨ p t := by
  unfold Has
  constructor
  · rintro ⟨x, hx, hp⟩
    rcases List.mem_append.mp hx with h | h
    · exact .inl ⟨x, h, hp⟩
    · rw [List.mem_singleton.mp h] at hp
      exact .inr hp
  · rintro (⟨x, hx, hp⟩ | hp)
    · exact ⟨x, List.mem_append_left _ hx, hp⟩
    · exact ⟨t, List.mem_append_right _ (List.mem_singleton.mpr rfl), hp⟩

theorem has_of_getElem? (hi : pool[i]? = some t) (hp : p t) : Has p pool :=
  ⟨t, List.mem_of_getElem? hi, hp⟩

theorem has_of_hasBut (h : HasBut i p pool) : Has p pool := by
  obtain ⟨_, t, -, hj, hp⟩ := h
  exact has_of_getElem? hj hp

theorem has_iff (hi : pool[i]? = some t) : Has p pool ↔ HasBut i p pool ∨ p t := by
  constructor
  · rintro ⟨x, hx, hp⟩
    obtain ⟨j, hj⟩ := List.mem_iff_getElem?.mp hx
    by_cases hji : j = i
    · subst hji
      obtain rfl : x = t := Option.some.inj (hj.symm.trans hi)
      exact .inr hp
    · exact .inl ⟨j, x, hji, hj, hp⟩
  · rintro (h | h)
    · exact has_of_hasBut h
    · exact has_of_getElem? hi h

theorem hasBut_set : HasBut i p (pool.set i t') ↔ HasBut i p pool := by
  unfold HasBut
  refine exists_congr fun j => exists_congr fun x => and_congr_right fun hj => ?_
  rw [List.getElem?_set_ne (Ne.symm hj)]

theorem has_set (hi : pool[i]? = some t) : Has p (pool.set i t') ↔ HasBut i p pool ∨ p t' := by
  have hlt : i < pool.length := (List.getElem?_eq_some_iff.mp hi).1
  have hi' : (pool.set i t')[i]? = some t' := List.getElem?_set_self hlt
  rw [has_iff hi', hasBut_set]

theorem hasBut_congr (h : ∀ t, p t ↔ q t) : HasBut i p pool ↔ HasBut i q pool := by
  unfold HasBut
  simp only [h]

theorem hasBut_map {σ : Type} (f : τ → σ) (p : σ → Prop) (pool : List τ) :
    HasBut i p (pool.map f) ↔ HasBut i (fun t => p (f t)) pool := by
  unfold HasBut
  constructor
  · rintro ⟨j, y, hj, hy, hp⟩
    rw [List.getElem?_map] at hy
    obtain ⟨x, hx, rfl⟩ := Option.map_eq_some_iff.mp hy
    exact ⟨j, x, hj, hx, hp⟩
  · rintro ⟨j, x, hj, hx, hp⟩
    exact ⟨j, f x, hj, by rw [List.getElem?_map, hx]; rfl, hp⟩

/-- What the others have and the moved thread gets, all have. -/
theorem forall_set (ho : ∀ j x, j ≠ i → pool[j]? = some x → p x) (ht : p t') :
    ∀ x ∈ pool.set i t', p x := by
  intro x hx
  obtain ⟨j, hj⟩ := List.mem_iff_getElem?.mp hx
  by_cases hji : j = i
  · subst hji
    have hlt : j < pool.length := by
      have := (List.getElem?_eq_some_iff.mp hj).1
      rwa [List.length_set] at this
    rw [List.getElem?_set_self hlt] at hj
    exact Option.some.inj hj ▸ ht
  · rw [List.getElem?_set_ne (Ne.symm hji)] at hj
    exact ho j x hji hj

theorem forall_append_singleton : (∀ x ∈ pool ++ [t], p x) ↔ (∀ x ∈ pool, p x) ∧ p t := by
  simp [or_imp, forall_and]

end

end Growbox.Pool
