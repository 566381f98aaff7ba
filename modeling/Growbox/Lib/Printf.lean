import Mathlib.Data.List.Basic

/-!
# Formats

A format is a text in which `%%` stands for one percent sign and `%s` for the
next argument.  Any other directive, and `%s` with no argument left, asks for
something that was not passed: what comes out is not settled by the format, and
the result is `none`.

A text without a percent sign is its own result (`vprintf_plain`).  Formatting
with no arguments halves the percent signs (`count_vprintf`), so a text that
comes out as it went in had none.
-/

namespace Growbox.Printf

/-- What a percent sign and `d` put out, and the arguments left. -/
def directive (d : Char) (args : List (List Char)) : Option (List Char × List (List Char)) :=
  if d = '%' then some (['%'], args)
  else if d = 's' then args.head?.map fun a => (a, args.tail)
  else none

/-- What `printf` makes of a format and its arguments. -/
def vprintf : List Char → List (List Char) → Option (List Char)
  | [], _ => some []
  | [c], _ => if c = '%' then none else some [c]
  | c :: d :: fmt, args =>
    if c = '%' then (directive d args).bind fun r => (vprintf fmt r.2).map (r.1 ++ ·)
    else (vprintf (d :: fmt) args).map (c :: ·)

theorem vprintf_cons {c : Char} (h : c ≠ '%') (fmt : List Char) (args : List (List Char)) :
    vprintf (c :: fmt) args = (vprintf fmt args).map (c :: ·) := by
  cases fmt with
  | nil => simp only [vprintf, if_neg h, Option.map_some]
  | cons d fmt => rw [vprintf, if_neg h]

/-- What comes before the first directive is copied. -/
theorem vprintf_append {p : List Char} (h : '%' ∉ p) (fmt : List Char) (args : List (List Char)) :
    vprintf (p ++ fmt) args = (vprintf fmt args).map (p ++ ·) := by
  induction p with
  | nil => exact (congrFun Option.map_id _).symm
  | cons c p ih =>
    rw [List.mem_cons, not_or] at h
    rw [List.cons_append, vprintf_cons (Ne.symm h.1), ih h.2, Option.map_map]
    rfl

@[simp] theorem vprintf_plain {p : List Char} (h : '%' ∉ p) (args : List (List Char)) :
    vprintf p args = some p := by
  have := vprintf_append h [] args
  rwa [List.append_nil, vprintf, Option.map_some, List.append_nil] at this

/-- `%s` is the next argument, whatever it holds. -/
theorem vprintf_arg (fmt a : List Char) (args : List (List Char)) :
    vprintf ("%s".toList ++ fmt) (a :: args) = (vprintf fmt args).map (a ++ ·) := by
  show vprintf ('%' :: 's' :: fmt) (a :: args) = _
  rw [vprintf, if_pos rfl]
  rfl

theorem directive_nil {d : Char} {r : List Char × List (List Char)} (h : directive d [] = some r) :
    d = '%' ∧ r = (['%'], []) := by
  unfold directive at h
  split at h
  · next hd => exact ⟨hd, (Option.some.inj h).symm⟩
  · split at h <;> cases h

/-- **Without arguments every percent sign that comes out took two.** -/
theorem count_vprintf : ∀ {fmt out : List Char}, vprintf fmt [] = some out →
    fmt.count '%' = 2 * out.count '%'
  | [], _, h => by
    cases h
    rfl
  | [c], _, h => by
    rw [vprintf] at h
    split at h
    · cases h
    · next hc =>
      cases h
      rw [List.count_cons_of_ne hc, List.count_nil]
  | c :: d :: fmt, out, h => by
    rw [vprintf] at h
    split at h
    · next hc =>
      obtain ⟨r, hr, hmap⟩ := Option.bind_eq_some_iff.mp h
      obtain ⟨rfl, rfl⟩ := directive_nil hr
      obtain ⟨tail, htail, rfl⟩ := Option.map_eq_some_iff.mp hmap
      rw [hc, List.count_cons_self, List.count_cons_self, count_vprintf htail,
        List.singleton_append, List.count_cons_self, Nat.mul_add]
    · next hc =>
      obtain ⟨tail, htail, rfl⟩ := Option.map_eq_some_iff.mp h
      rw [List.count_cons_of_ne hc, List.count_cons_of_ne hc]
      exact count_vprintf htail

/-- A text with a percent sign comes out with fewer. -/
theorem count_vprintf_lt {fmt out : List Char} (h : vprintf fmt [] = some out) (hp : '%' ∈ fmt) :
    out.count '%' < fmt.count '%' := by
  have hcount := count_vprintf h
  have hpos : 0 < fmt.count '%' := List.count_pos_iff.mpr hp
  omega

/-- Percent signs are not added. -/
theorem count_vprintf_le {fmt out : List Char} (h : vprintf fmt [] = some out) :
    out.count '%' ≤ fmt.count '%' := by
  rw [count_vprintf h]
  exact Nat.le_mul_of_pos_left _ (by decide)

end Growbox.Printf
