/-!
# Runs of a partial step function

`step s e = none` means that `e` cannot happen in `s`.  A run is a list of
events; `run` follows it and `Along` says that a property holds at every event
of it, of the state the event is met in.  What one step keeps, the run keeps
(`run_inv`), and what an invariant gives at one event holds along the run
(`along_of_inv`).
-/

namespace Growbox.EventRun

section
variable {σ ε : Type}

/-- The state after the events; `none` when one of them could not happen. -/
def run (step : σ → ε → Option σ) : σ → List ε → Option σ
  | s, [] => some s
  | s, e :: es => (step s e).bind fun s' => run step s' es

/-- `P` holds of every event of the run and the state it is met in. -/
def Along (step : σ → ε → Option σ) (P : σ → ε → Prop) : σ → List ε → Prop
  | _, [] => True
  | s, e :: es => P s e ∧ ∀ s', step s e = some s' → Along step P s' es

/-- A step function that is always possible. -/
def total (f : σ → ε → σ) (s : σ) (e : ε) : Option σ := some (f s e)

variable {step : σ → ε → Option σ} {P Q C : σ → ε → Prop} {Inv : σ → Prop}

/-- A run can be followed to see whether a decidable property holds along it. -/
instance decidableAlong [∀ s e, Decidable (P s e)] : ∀ s es, Decidable (Along step P s es)
  | _, [] => isTrue trivial
  | s, e :: es =>
    match h : step s e with
    | none => decidable_of_iff (P s e) ⟨fun hp => ⟨hp, fun _ ht => by simp [h] at ht⟩, And.left⟩
    | some s' =>
      have := decidableAlong s' es
      decidable_of_iff (P s e ∧ Along step P s' es)
        ⟨fun hp => ⟨hp.1, fun _ ht => Option.some.inj (h.symm.trans ht) ▸ hp.2⟩,
          fun hp => ⟨hp.1, hp.2 s' h⟩⟩

@[simp] theorem run_nil (s : σ) : run step s [] = some s := rfl

@[simp] theorem along_nil (s : σ) : Along step P s [] := trivial

theorem run_cons_some {s s' : σ} {e : ε} (es : List ε) (h : step s e = some s') :
    run step s (e :: es) = run step s' es := by
  rw [run, h, Option.bind_some]

theorem run_append (s : σ) (es fs : List ε) :
    run step s (es ++ fs) = (run step s es).bind fun s' => run step s' fs := by
  induction es generalizing s with
  | nil => rfl
  | cons e es ih =>
    simp only [List.cons_append, run]
    cases step s e with
    | none => rfl
    | some s' => exact ih s'

theorem run_snoc (s : σ) (es : List ε) (e : ε) :
    run step s (es ++ [e]) = (run step s es).bind fun s' => step s' e := by
  rw [run_append]
  congr 1
  funext s'
  exact Option.bind_fun_some _

theorem along_append (s : σ) (es fs : List ε) :
    Along step P s (es ++ fs) ↔
      Along step P s es ∧ ∀ s', run step s es = some s' → Along step P s' fs := by
  induction es generalizing s with
  | nil => simp
  | cons e es ih =>
    simp only [List.cons_append, Along, run]
    constructor
    · rintro ⟨hp, hr⟩
      refine ⟨⟨hp, fun s' h => ((ih s').mp (hr s' h)).1⟩, fun s'' h => ?_⟩
      obtain ⟨s', hs, hrun⟩ := Option.bind_eq_some_iff.mp h
      exact ((ih s').mp (hr s' hs)).2 s'' hrun
    · rintro ⟨⟨hp, hr⟩, hf⟩
      refine ⟨hp, fun s' h => (ih s').mpr ⟨hr s' h, fun s'' hrun => hf s'' ?_⟩⟩
      rw [h, Option.bind_some, hrun]

/-- **What one step keeps, a run keeps**, as long as the events meet `C`. -/
theorem run_inv (hstep : ∀ s e s', Inv s → C s e → step s e = some s' → Inv s')
    (s s' : σ) (es : List ε) (hs : Inv s) (hc : Along step C s es) (hr : run step s es = some s') :
    Inv s' := by
  induction es generalizing s with
  | nil =>
    rw [run_nil, Option.some.injEq] at hr
    exact hr ▸ hs
  | cons e es ih =>
    obtain ⟨t, ht, hrun⟩ := Option.bind_eq_some_iff.mp hr
    exact ih t (hstep s e t hs hc.1 ht) (hc.2 t ht) hrun

/-- What holds of every event of the list holds along the run. -/
theorem along_of_forall {p : ε → Prop} (s : σ) (es : List ε) (h : ∀ e ∈ es, p e) :
    Along step (fun _ e => p e) s es := by
  induction es generalizing s with
  | nil => exact trivial
  | cons e es ih =>
    obtain ⟨he, hes⟩ := List.forall_mem_cons.mp h
    exact ⟨he, fun t _ => ih t hes⟩

theorem along_true (s : σ) (es : List ε) : Along step (fun _ _ => True) s es := by
  induction es generalizing s with
  | nil => exact trivial
  | cons e es ih => exact ⟨trivial, fun t _ => ih t⟩

/-- What every step keeps, every run keeps. -/
theorem run_keeps (hstep : ∀ s e s', Inv s → step s e = some s' → Inv s') (s s' : σ) (es : List ε)
    (hs : Inv s) (hr : run step s es = some s') : Inv s' :=
  run_inv (fun s e s' hs _ => hstep s e s' hs) s s' es hs (along_true s es) hr

/-- A property of single steps that the invariant gives holds along the run. -/
theorem along_of_inv (hstep : ∀ s e s', Inv s → C s e → step s e = some s' → Inv s')
    (hp : ∀ s e, Inv s → C s e → P s e) (s : σ) (es : List ε) (hs : Inv s)
    (hc : Along step C s es) : Along step P s es := by
  induction es generalizing s with
  | nil => exact trivial
  | cons e es ih =>
    exact ⟨hp s e hs hc.1, fun t ht => ih t (hstep s e t hs hc.1 ht) (hc.2 t ht)⟩

/-- Two properties that hold along a run hold along it together. -/
theorem along_and {s : σ} {es : List ε} (hp : Along step P s es) (hq : Along step Q s es) :
    Along step (fun s e => P s e ∧ Q s e) s es := by
  induction es generalizing s with
  | nil => exact trivial
  | cons e es ih => exact ⟨⟨hp.1, hq.1⟩, fun t ht => ih (hp.2 t ht) (hq.2 t ht)⟩

/-- `Along`, read as a statement about every prefix of the run. -/
theorem along_iff (s : σ) (es : List ε) :
    Along step P s es ↔
      ∀ pre e post s', es = pre ++ e :: post → run step s pre = some s' → P s' e := by
  constructor
  · rintro h pre e post s' rfl hr
    exact (((along_append s pre (e :: post)).mp h).2 s' hr).1
  · intro h
    induction es generalizing s with
    | nil => exact trivial
    | cons e es ih =>
      refine ⟨h [] e es s rfl rfl, fun t ht => ih t fun pre e' post s' he hr => ?_⟩
      exact h (e :: pre) e' post s' (by rw [he]; rfl) (by rw [run_cons_some pre ht, hr])

/-- **Where a condition decides every step, it decides the run**: from a state with the
invariant, a step leads to a good state exactly when it meets `C`, and then keeps the
invariant.  So the good runs are those that meet `C` all along. -/
theorem along_iff_good {G : σ → Prop} (hinv : ∀ s, Inv s → G s)
    (hstep : ∀ s e s', Inv s → C s e → step s e = some s' → Inv s')
    (hgood : ∀ s e s', Inv s → step s e = some s' → G s' → C s e) (s s' : σ) (es : List ε) (hs : Inv s)
    (hr : run step s es = some s') :
    Along step C s es ↔ ∀ pre post t, es = pre ++ post → run step s pre = some t → G t := by
  constructor
  · rintro hc pre post t rfl ht
    exact hinv t (run_inv hstep s t pre hs ((along_append s pre post).mp hc).1 ht)
  · intro h
    induction es generalizing s with
    | nil => exact trivial
    | cons e es ih =>
      obtain ⟨t, ht, hrun⟩ := Option.bind_eq_some_iff.mp hr
      have hone : run step s [e] = some t := by rw [run_cons_some [] ht, run_nil]
      have hc : C s e := hgood s e t hs ht (h [e] es t rfl hone)
      refine ⟨hc, fun t' ht' => ?_⟩
      obtain rfl := Option.some.inj (ht.symm.trans ht')
      refine ih t (hstep s e t hs hc ht) hrun fun pre post u he hu => ?_
      exact h (e :: pre) post u (by rw [he]; rfl) (by rw [run_cons_some pre ht, hu])

/-! ## Steps that are always possible -/

variable {f : σ → ε → σ}

theorem run_total (s : σ) (es : List ε) : run (total f) s es = some (es.foldl f s) := by
  induction es generalizing s with
  | nil => rfl
  | cons e es ih => exact ih (f s e)

theorem along_total_iff (s : σ) (es : List ε) :
    Along (total f) P s es ↔ ∀ pre e post, es = pre ++ e :: post → P (pre.foldl f s) e := by
  simp only [along_iff, run_total, Option.some.injEq]
  constructor
  · intro h pre e post he
    exact h pre e post _ he rfl
  · rintro h pre e post s' he rfl
    exact h pre e post he

@[simp] theorem along_total_cons (s : σ) (e : ε) (es : List ε) :
    Along (total f) P s (e :: es) ↔ P s e ∧ Along (total f) P (f s e) es := by
  constructor
  · rintro ⟨hp, hr⟩
    exact ⟨hp, hr _ rfl⟩
  · rintro ⟨hp, hr⟩
    refine ⟨hp, ?_⟩
    rintro s' ⟨⟩
    exact hr

/-- `run_inv` for steps that are always possible. -/
theorem foldl_inv (Inv : σ → Prop) (C : σ → ε → Prop) (hstep : ∀ s e, Inv s → C s e → Inv (f s e))
    (s : σ) (es : List ε) (hs : Inv s) (hc : Along (total f) C s es) : Inv (es.foldl f s) := by
  refine run_inv ?_ s _ es hs hc (run_total s es)
  rintro s e s' hi hc ⟨⟩
  exact hstep s e hi hc

/-- What every step keeps, every run keeps. -/
theorem foldl_keeps (Inv : σ → Prop) (hstep : ∀ s e, Inv s → Inv (f s e)) (s : σ) (es : List ε)
    (hs : Inv s) : Inv (es.foldl f s) :=
  foldl_inv Inv (fun _ _ => True) (fun s e hi _ => hstep s e hi) s es hs (along_true s es)

/-! ## Values written along a run -/

/-- The value the last event that writes one leaves, `d` when none does. -/
def lastWritten {α : Type} (w : ε → Option α) (d : α) (es : List ε) : α :=
  (es.filterMap w).getLastD d

theorem lastWritten_cons {α : Type} (w : ε → Option α) (d : α) (e : ε) (es : List ε) :
    lastWritten w d (e :: es) = lastWritten w ((w e).getD d) es := by
  unfold lastWritten
  rw [List.filterMap_cons]
  cases w e with
  | none => rfl
  | some a => rw [List.getLastD_cons]; rfl

/-- What ties the last written value to the state, step by step, ties them after a run. -/
theorem run_lastWritten {α : Type} (w : ε → Option α) (R : α → σ → Prop)
    (h : ∀ a s e s', R a s → step s e = some s' → R ((w e).getD a) s') (a : α) (s s' : σ)
    (es : List ε) (hs : R a s) (hr : run step s es = some s') : R (lastWritten w a es) s' := by
  induction es generalizing a s with
  | nil =>
    rw [run_nil, Option.some.injEq] at hr
    exact hr ▸ hs
  | cons e es ih =>
    obtain ⟨t, ht, hrun⟩ := Option.bind_eq_some_iff.mp hr
    rw [lastWritten_cons]
    exact ih _ t (h a s e t hs ht) hrun

/-- `run_lastWritten` for steps that are always possible. -/
theorem foldl_lastWritten {α : Type} (w : ε → Option α) (R : α → σ → Prop)
    (h : ∀ a s e, R a s → R ((w e).getD a) (f s e)) (a : α) (s : σ) (es : List ε) (hs : R a s) :
    R (lastWritten w a es) (es.foldl f s) := by
  refine run_lastWritten w R ?_ a s _ es hs (run_total s es)
  rintro a s e s' hr ⟨⟩
  exact h a s e hr

/-- A reading that every event overwrites or keeps is the last written value. -/
theorem foldl_eq_lastWritten {α : Type} (get : σ → α) (w : ε → Option α)
    (h : ∀ s e, get (f s e) = (w e).getD (get s)) (s : σ) (es : List ε) :
    get (es.foldl f s) = lastWritten w (get s) es := by
  refine foldl_lastWritten w (fun a s => get s = a) ?_ (get s) s es rfl
  rintro _ s e rfl
  exact h s e

end

end Growbox.EventRun
