/-!
# Programs that lock and unlock mutexes

A program runs on the set of mutexes that are held, and blocks (`none`) when it
locks one that is.  `Moves L L' p` says that `p`, begun while just the mutexes
of `L` are held, returns while just those of `L'` are; `Returns L a p` what it
returns.  The rules follow the program: `moves_pure`, `moves_bind`, `moves_lock`
and `moves_unlock`, the last two for mutexes taken and released in nested order.
A program that holds one mutex at a time is known by the mutexes it takes, in
their order, and its result (`Takes`).
-/

namespace Growbox.Locking

/-- The program's result and the mutexes held after it; `none` when it blocks. -/
def LockM (μ α : Type) : Type := (μ → Bool) → Option (α × (μ → Bool))

section
variable {μ α β : Type}

instance : Monad (LockM μ) where
  pure a := fun h => some (a, h)
  bind p f := fun h => (p h).bind fun r => f r.1 r.2

instance : LawfulMonad (LockM μ) := LawfulMonad.mk' _
  (fun p => funext fun h => by
    show (p h).bind _ = p h
    cases p h <;> rfl)
  (fun _ _ => rfl)
  (fun p f g => funext fun h => by
    show ((p h).bind fun r => f r.1 r.2).bind (fun r => g r.1 r.2) = (p h).bind _
    cases p h <;> rfl)

/-- The program without its result. -/
def ignore (p : LockM μ α) : LockM μ Unit := p >>= fun _ => pure ()

variable [DecidableEq μ]

/-- Blocks while the mutex is held, by whomever: it is not a recursive one. -/
def lock (m : μ) : LockM μ Unit := fun h =>
  if h m then none else some ((), fun k => if k = m then true else h k)

def unlock (m : μ) : LockM μ Unit := fun h => some ((), fun k => if k = m then false else h k)

/-- Just the mutexes of `L` are held. -/
def holding (L : List μ) : μ → Bool := fun m => decide (m ∈ L)

def Moves (L L' : List μ) (p : LockM μ α) : Prop := ∃ a, p (holding L) = some (a, holding L')

variable {L L' L'' : List μ}

theorem moves_pure (a : α) : Moves L L (pure a : LockM μ α) := ⟨a, rfl⟩

theorem moves_bind {p : LockM μ α} {f : α → LockM μ β} (hp : Moves L L' p)
    (hf : ∀ a, Moves L' L'' (f a)) : Moves L L'' (p >>= f) := by
  obtain ⟨a, ha⟩ := hp
  obtain ⟨b, hb⟩ := hf a
  refine ⟨b, ?_⟩
  show (p (holding L)).bind (fun r => f r.1 r.2) = _
  rw [ha, Option.bind_some, hb]

theorem moves_lock {m : μ} (hm : m ∉ L) : Moves L (m :: L) (lock m) := by
  refine ⟨(), ?_⟩
  have hfree : holding L m = false := decide_eq_false hm
  unfold lock
  rw [hfree, if_neg Bool.false_ne_true]
  congr 2
  funext k
  by_cases hk : k = m <;> simp [holding, hk]

theorem moves_unlock {m : μ} (hm : m ∉ L) : Moves (m :: L) L (unlock m) := by
  refine ⟨(), ?_⟩
  unfold unlock
  congr 2
  funext k
  by_cases hk : k = m <;> simp [holding, hk, hm]

theorem moves_ite {c : Prop} [Decidable c] {p q : LockM μ α} (hp : c → Moves L L' p)
    (hq : ¬ c → Moves L L' q) : Moves L L' (if c then p else q) := by
  split
  · next h => exact hp h
  · next h => exact hq h

theorem moves_ignore {p : LockM μ α} (hp : Moves L L' p) : Moves L L' (ignore p) :=
  moves_bind hp fun _ => moves_pure ()

theorem moves_lock_unlock {m : μ} (hm : m ∉ L) : Moves L L (lock m >>= fun _ => unlock m) :=
  moves_bind (moves_lock hm) fun _ => moves_unlock hm

/-- The program, begun while just the mutexes of `L` are held, returns `a`. -/
def Returns (L : List μ) (a : α) (p : LockM μ α) : Prop := ∃ held, p (holding L) = some (a, held)

theorem returns_pure (a : α) : Returns L a (pure a) := ⟨_, rfl⟩

theorem returns_bind {p : LockM μ α} {f : α → LockM μ β} {b : β} (hp : Moves L L' p)
    (hf : ∀ a, Returns L' b (f a)) : Returns L b (p >>= f) := by
  obtain ⟨a, ha⟩ := hp
  obtain ⟨held, hb⟩ := hf a
  refine ⟨held, ?_⟩
  show (p (holding L)).bind (fun r => f r.1 r.2) = _
  rw [ha, Option.bind_some, hb]

/-! ## One mutex at a time -/

/-- Takes the mutexes one after the other. -/
def takeEach : List μ → LockM μ Unit
  | [] => pure ()
  | m :: ms => lock m >>= fun _ => unlock m >>= fun _ => takeEach ms

/-- The program takes the mutexes `ms` one after the other, and returns `a`. -/
def Takes (ms : List μ) (a : α) (p : LockM μ α) : Prop := p = takeEach ms >>= fun _ => pure a

variable {ms ms' : List μ} {a : α} {b : β}

theorem takes_pure (a : α) : Takes ([] : List μ) a (pure a) := rfl

theorem takes_section (m : μ) {p : LockM μ α} (hp : Takes ms a p) :
    Takes (m :: ms) a (lock m >>= fun _ => unlock m >>= fun _ => p) := by
  unfold Takes at hp ⊢
  simp only [hp, takeEach, bind_assoc]

theorem takes_lock_unlock (m : μ) : Takes [m] () (lock m >>= fun _ => unlock m) := by
  show (lock m >>= fun _ => unlock m) = (lock m >>= fun _ => unlock m >>= fun _ => pure ()) >>= fun _ => pure ()
  rw [bind_assoc]
  rfl

theorem takes_bind {p : LockM μ α} {f : α → LockM μ β} (hp : Takes ms a p) (hf : Takes ms' b (f a)) :
    Takes (ms ++ ms') b (p >>= f) := by
  unfold Takes at hp ⊢
  subst hp
  induction ms with
  | nil => exact hf
  | cons m ms ih =>
    rw [List.cons_append, takeEach, takeEach]
    simp only [bind_assoc, pure_bind] at ih ⊢
    rw [ih]

theorem takes_map {p : LockM μ α} (hp : Takes ms a p) (f : α → β) : Takes ms (f a) (p >>= fun x => pure (f x)) := by
  unfold Takes at *
  rw [hp, bind_assoc]
  rfl

theorem takes_ignore {p : LockM μ α} (hp : Takes ms a p) : Takes ms () (ignore p) := takes_map hp fun _ => ()

theorem moves_takeEach (hms : ∀ m ∈ ms, m ∉ L) : Moves L L (takeEach ms) := by
  induction ms with
  | nil => exact moves_pure ()
  | cons m ms ih =>
    obtain ⟨hm, hms⟩ := List.forall_mem_cons.mp hms
    exact moves_bind (moves_lock hm) fun _ => moves_bind (moves_unlock hm) fun _ => ih hms

/-- It returns, and leaves the mutexes as they were. -/
theorem Takes.moves {p : LockM μ α} (hp : Takes ms a p) (hms : ∀ m ∈ ms, m ∉ L) : Moves L L p :=
  hp ▸ moves_bind (moves_takeEach hms) fun _ => moves_pure a

end

end Growbox.Locking
