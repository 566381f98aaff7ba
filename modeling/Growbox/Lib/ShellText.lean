/-!
# Text for the shell

The shell reads a command character by character: a quotation mark, a backslash or a
dollar sign decides how it reads what follows.  `structureFrom` lists the characters
that it acts on, each with where it stands.  Of a text that is partly fixed and partly
from outside, `structure_eq_template` says when the structure is that of the fixed
part alone.
-/

namespace Growbox.ShellText

/-! ## Reading -/

inductive Quote where
  | unquoted | double | single
  deriving DecidableEq, Repr

/-- Inside a quotation or outside of any, after a backslash, or after a dollar sign. -/
inductive Mode where
  | within (q : Quote)
  | escaped (q : Quote)
  | dollar (q : Quote)
  deriving DecidableEq, Repr

def doubleMark : Char := Char.ofNat 34
def singleMark : Char := Char.ofNat 39
def backslash : Char := Char.ofNat 92

def Quote.next (c : Char) : Quote → Mode
  | .single => .within (if c = singleMark then .unquoted else .single)
  | .double =>
    if c = backslash then .escaped .double
    else if c = '$' then .dollar .double
    else .within (if c = doubleMark then .unquoted else .double)
  | .unquoted =>
    if c = backslash then .escaped .unquoted
    else if c = '$' then .dollar .unquoted
    else .within (if c = doubleMark then .double else if c = singleMark then .single else .unquoted)

/-- Unquoted, all but what words are made of: blanks, operators, patterns, marks.  In double
quotation marks only expansions and the marks. -/
def Quote.acts (c : Char) : Quote → Bool
  | .unquoted => !(c.isAlphanum || "+,-./:@_".toList.contains c)
  | .double => "$`".toList.contains c || c == doubleMark || c == backslash
  | .single => c == singleMark

def Mode.step (c : Char) : Mode → Mode
  | .within q => q.next c
  | .dollar q => q.next c
  | .escaped q => .within q

/-- The character after a backslash or a dollar sign always counts. -/
def Mode.acts (c : Char) : Mode → Bool
  | .within q => q.acts c
  | _ => true

def run (m : Mode) (s : List Char) : Mode := s.foldl (fun m c => m.step c) m

/-- The characters that the shell acts on, with where they stand. -/
def structureFrom : Mode → List Char → List (Mode × Char)
  | _, [] => []
  | m, c :: cs =>
    if m.acts c then (m, c) :: structureFrom (m.step c) cs else structureFrom (m.step c) cs

/-- A command is read from outside any quotation. -/
def shellStructure (s : List Char) : List (Mode × Char) := structureFrom (.within .unquoted) s

/-! ## Text from outside -/

/-- A character, and whether it is from outside. -/
structure Mark where
  char : Char
  outside : Bool
  deriving DecidableEq, Repr

abbrev Marked := List Mark

def fixed (s : List Char) : Marked := s.map fun c => ⟨c, false⟩

def outside (s : List Char) : Marked := s.map fun c => ⟨c, true⟩

def text (cmd : Marked) : List Char := cmd.map Mark.char

/-- The text with nothing from outside in it. -/
def template (cmd : Marked) : List Char := text (cmd.filter fun x => !x.outside)

/-- What is from outside consists of such characters. -/
def OutsideAll (p : Char → Prop) (cmd : Marked) : Prop := ∀ x ∈ cmd, x.outside = true → p x.char

def Mode.Settled : Mode → Prop
  | .within _ => True
  | _ => False

/-- Nothing from outside stands after a backslash or a dollar sign of the fixed part. -/
def Undisturbed : Mode → Marked → Prop
  | _, [] => True
  | m, x :: xs =>
    if x.outside = true then m.Settled ∧ Undisturbed m xs else Undisturbed (m.step x.char) xs

/-- Wherever it stands, the shell takes the character as it is. -/
def Inert (c : Char) : Prop := ∀ q : Quote, q.acts c = false ∧ q.next c = .within q

/-! ## Lemmas -/

theorem run_append (m : Mode) (s t : List Char) : run m (s ++ t) = run (run m s) t :=
  List.foldl_append

/-- Only a backslash and a dollar sign reach beyond themselves. -/
theorem settled_step {c : Char} (hb : c ≠ backslash) (hd : c ≠ '$') (m : Mode) :
    (m.step c).Settled := by
  have hnext : ∀ q : Quote, (q.next c).Settled := fun q => by
    cases q with
    | single => trivial
    | double =>
      rw [Quote.next, if_neg hb, if_neg hd]
      trivial
    | unquoted =>
      rw [Quote.next, if_neg hb, if_neg hd]
      trivial
  cases m with
  | within q => exact hnext q
  | dollar q => exact hnext q
  | escaped q => trivial

theorem settled_run {s : List Char} {c : Char} (hs : s.getLast? = some c) (hb : c ≠ backslash)
    (hd : c ≠ '$') (m : Mode) : (run m s).Settled := by
  obtain ⟨t, rfl⟩ := List.getLast?_eq_some_iff.mp hs
  rw [run_append]
  exact settled_step hb hd _

theorem undisturbed_fixed (m : Mode) (s : List Char) : Undisturbed m (fixed s) := by
  induction s generalizing m with
  | nil => trivial
  | cons c s ih => exact ih (m.step c)

theorem undisturbed_fixed_append (m : Mode) (s : List Char) (cmd : Marked) :
    Undisturbed m (fixed s ++ cmd) ↔ Undisturbed (run m s) cmd := by
  induction s generalizing m with
  | nil => rfl
  | cons c s ih => exact ih (m.step c)

theorem undisturbed_outside_append {m : Mode} (hm : m.Settled) (s : List Char) (cmd : Marked) :
    Undisturbed m (outside s ++ cmd) ↔ Undisturbed m cmd := by
  induction s with
  | nil => rfl
  | cons c s ih => exact (and_iff_right hm).trans ih

/-- A value from outside, after a fixed text that settles the mode. -/
theorem undisturbed_slot {s : List Char} {c : Char} (hs : s.getLast? = some c) (hb : c ≠ backslash)
    (hd : c ≠ '$') (m : Mode) (value : List Char) (cmd : Marked) :
    Undisturbed m (fixed s ++ (outside value ++ cmd)) ↔ Undisturbed (run m s) cmd := by
  rw [undisturbed_fixed_append, undisturbed_outside_append (settled_run hs hb hd m)]

theorem outsideAll_append {p : Char → Prop} {a b : Marked} :
    OutsideAll p (a ++ b) ↔ OutsideAll p a ∧ OutsideAll p b := List.forall_mem_append

theorem outsideAll_fixed (p : Char → Prop) (s : List Char) : OutsideAll p (fixed s) ↔ True := by
  simp [OutsideAll, fixed]

theorem outsideAll_outside {p : Char → Prop} {s : List Char} :
    OutsideAll p (outside s) ↔ ∀ c ∈ s, p c := by
  simp [OutsideAll, outside]

theorem inert_of_isDigit {c : Char} (h : c.isDigit = true) : Inert c := by
  have hne : ∀ d : Char, d.isDigit = false → c ≠ d := fun d hd he => by
    rw [he, hd] at h
    cases h
  have hb := hne backslash rfl
  have hd := hne '$' rfl
  have hdm := hne doubleMark rfl
  have hsm := hne singleMark rfl
  have ht := hne (Char.ofNat 96) rfl
  intro q
  cases q with
  | unquoted => simp [Quote.acts, Quote.next, Char.isAlphanum, h, hb, hd, hdm, hsm]
  | double => simp [Quote.acts, Quote.next, hb, hd, hdm, ht]
  | single => simp [Quote.acts, Quote.next, hsm]

/-- **Inert characters from outside leave the structure of the fixed text**, if none of them
stands where the fixed text makes it count. -/
theorem structure_eq_template {m : Mode} {cmd : Marked} (hun : Undisturbed m cmd)
    (hin : OutsideAll Inert cmd) : structureFrom m (text cmd) = structureFrom m (template cmd) := by
  induction cmd generalizing m with
  | nil => rfl
  | cons x xs ih =>
    obtain ⟨c, o⟩ := x
    have hxs : OutsideAll Inert xs := fun y hy => hin y (List.mem_cons_of_mem _ hy)
    cases o with
    | false =>
      have hrest := ih (m := m.step c) hun hxs
      show structureFrom m (c :: text xs) = structureFrom m (c :: template xs)
      unfold structureFrom
      rw [hrest]
    | true =>
      obtain ⟨hm, hrest⟩ := hun
      have hc := hin _ List.mem_cons_self rfl
      cases m with
      | within q =>
        show structureFrom (.within q) (c :: text xs) = structureFrom (.within q) (template xs)
        rw [structureFrom, show (Mode.within q).acts c = false from (hc q).1,
          show (Mode.within q).step c = .within q from (hc q).2]
        exact ih hrest hxs
      | escaped q => exact hm.elim
      | dollar q => exact hm.elim

end Growbox.ShellText
