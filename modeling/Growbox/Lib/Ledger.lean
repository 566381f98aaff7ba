import Mathlib.Data.List.Perm.Basic

/-!
# Who has to give a block back

Blocks of memory are handed out one by one, and any of the allocations may be refused.  A block
goes by the number of its allocation, so no name is used twice and a block given back twice is
seen.  `Holds` says which blocks are out, in whatever order, and that every one given back was:
it is what a caller and a callee agree on, each with the blocks of the other among the rest.
-/

namespace Growbox.Ledger

/-- `grants n` says whether the `n`-th allocation is made. -/
structure Memory where
  grants : Nat → Bool
  asked : Nat
  live : List Nat
  sound : Bool

namespace Memory

def allocate (m : Memory) : Option Nat × Memory :=
  if m.grants m.asked then (some m.asked, { m with asked := m.asked + 1, live := m.asked :: m.live })
  else (none, { m with asked := m.asked + 1 })

/-- Only a block that is out may be given back. -/
def free (m : Memory) (block : Nat) : Memory :=
  { m with live := m.live.erase block, sound := m.sound && decide (block ∈ m.live) }

end Memory

/-- Just these blocks are out. -/
structure Holds (m : Memory) (blocks : List Nat) : Prop where
  sound : m.sound = true
  live : m.live.Perm blocks

/-- `m'` is reached from `m`. -/
structure Later (m m' : Memory) : Prop where
  grants : m'.grants = m.grants
  asked : m.asked ≤ m'.asked

/-- An allocation was refused between them. -/
def Refused (m m' : Memory) : Prop := ∃ n, m.asked ≤ n ∧ n < m'.asked ∧ m.grants n = false

section
variable {m m' m'' : Memory} {blocks blocks' : List Nat} {block : Nat}

theorem Holds.perm (h : Holds m blocks) (hp : blocks.Perm blocks') : Holds m blocks' :=
  ⟨h.sound, h.live.trans hp⟩

theorem Later.refl (m : Memory) : Later m m := ⟨rfl, Nat.le_refl _⟩

theorem Later.trans (h : Later m m') (h' : Later m' m'') : Later m m'' :=
  ⟨h'.grants.trans h.grants, Nat.le_trans h.asked h'.asked⟩

theorem Refused.before (h : Later m m') (hr : Refused m' m'') : Refused m m'' := by
  obtain ⟨n, hle, hlt, hn⟩ := hr
  exact ⟨n, Nat.le_trans h.asked hle, hlt, by rw [← h.grants, hn]⟩

theorem Refused.after (hr : Refused m m') (h : Later m' m'') : Refused m m'' := by
  obtain ⟨n, hle, hlt, hn⟩ := hr
  exact ⟨n, hle, Nat.lt_of_lt_of_le hlt h.asked, hn⟩

/-! ## Allocations -/

theorem later_allocate {o : Option Nat} (ha : m.allocate = (o, m')) : Later m m' := by
  unfold Memory.allocate at ha
  split at ha <;> cases ha <;> exact ⟨rfl, Nat.le_succ _⟩

theorem holds_allocate (h : Holds m blocks) (ha : m.allocate = (some block, m')) :
    Holds m' (block :: blocks) := by
  unfold Memory.allocate at ha
  split at ha
  · cases ha
    exact ⟨h.sound, h.live.cons _⟩
  · cases ha

theorem holds_allocate_none (h : Holds m blocks) (ha : m.allocate = (none, m')) : Holds m' blocks := by
  unfold Memory.allocate at ha
  split at ha
  · cases ha
  · cases ha
    exact ⟨h.sound, h.live⟩

theorem refused_allocate (ha : m.allocate = (none, m')) : Refused m m' := by
  unfold Memory.allocate at ha
  split at ha
  · cases ha
  · next hn =>
    cases ha
    exact ⟨m.asked, Nat.le_refl _, Nat.lt_succ_self _, Bool.eq_false_iff.mpr hn⟩

/-! ## Blocks given back -/

theorem later_free (m : Memory) (block : Nat) : Later m (m.free block) := ⟨rfl, Nat.le_refl _⟩

theorem Holds.free (h : Holds m (block :: blocks)) : Holds (m.free block) blocks := by
  have hmem : block ∈ m.live := h.live.mem_iff.mpr List.mem_cons_self
  have herase := h.live.erase block
  rw [List.erase_cons_head] at herase
  exact ⟨by simp [Memory.free, h.sound, hmem], herase⟩

end

end Growbox.Ledger
