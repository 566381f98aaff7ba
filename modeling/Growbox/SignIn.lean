import Growbox.Httpserv
import Growbox.Lib.FirstMatch

/-!
# `user_sign_in`: which bodies sign in

The name is what is between the first `username=` and the first `&pass=` after it, the
password is the rest.  `userSignIn_iff` says which bodies are accepted, `sign_in_exact` that
a body made of a name and a password is accepted for these only.
-/

namespace Growbox

/-! ## Searching -/

/-- `strstr` finds the first place. -/
theorem strstr_eq_some_iff {needle s t : CStr} :
    strstr needle s = some t ↔ ∃ before, s = before ++ t ∧ First needle before t := by
  induction s with
  | nil =>
    unfold strstr
    constructor
    · intro h
      obtain ⟨hempty, ht⟩ := Option.ite_none_right_eq_some.mp h
      obtain rfl := Option.some.inj ht
      rw [List.isEmpty_iff.mp hempty]
      exact ⟨[], rfl, first_nil.mpr List.nil_prefix⟩
    · rintro ⟨before, he, hfirst⟩
      obtain ⟨-, rfl⟩ := List.append_eq_nil_iff.mp he.symm
      rw [List.prefix_nil.mp hfirst.here]
      rfl
  | cons c s ih =>
    unfold strstr
    by_cases hp : needle.isPrefixOf (c :: s) = true
    · have hstart : needle <+: c :: s := List.isPrefixOf_iff_prefix.mp hp
      rw [if_pos hp]
      constructor
      · intro h
        obtain rfl := Option.some.inj h
        exact ⟨[], rfl, first_nil.mpr hstart⟩
      · rintro ⟨before, he, hfirst⟩
        cases before with
        | nil => rw [he, List.nil_append]
        | cons a before =>
          obtain ⟨rfl, rfl⟩ := List.cons.inj he
          exact absurd hstart (first_cons.mp hfirst).1
    · have hstart : ¬ needle <+: c :: s := fun h => hp (List.isPrefixOf_iff_prefix.mpr h)
      rw [if_neg hp, ih]
      constructor
      · rintro ⟨before, rfl, hfirst⟩
        exact ⟨c :: before, rfl, first_cons.mpr ⟨hstart, hfirst⟩⟩
      · rintro ⟨before, he, hfirst⟩
        cases before with
        | nil =>
          rw [List.nil_append] at he
          exact absurd (he ▸ first_nil.mp hfirst) hstart
        | cons a before =>
          obtain ⟨rfl, rfl⟩ := List.cons.inj he
          exact ⟨before, rfl, (first_cons.mp hfirst).2⟩

/-! ## Bodies -/

/-- The body of a name and a password. -/
def loginText (login pass : CStr) : CStr := "username=".toList ++ login ++ ("&pass=".toList ++ pass)

/-- The name contains the mark of the password. -/
def HasMark (login : CStr) : Prop := "&pass=".toList <:+: login

/-- The first mark is after a name without one. -/
theorem first_mark {login : CStr} (h : ¬ HasMark login) (pass : CStr) :
    First "&pass=".toList ("username=".toList ++ login) ("&pass=".toList ++ pass) := by
  have hname : '&' ∉ "username=".toList := by decide
  have hmark : '&' ∉ "pass=".toList := by decide
  exact first_of_not_infix hmark (fun hin => h (infix_of_infix_append hname hin)) pass

/-- The name before `&pass=` is not cut short, as there is no `&` in `username=`. -/
theorem username_prefix_of_split {name passPtr : CStr} (hlog : "username=".toList <+: name ++ passPtr)
    (hpass : "&pass=".toList <+: passPtr) : "username=".toList <+: name := by
  obtain ⟨rest, hrest⟩ := hlog
  obtain ⟨pass, rfl⟩ := hpass
  have hlong : 9 ≤ name.length := by
    by_contra hlt
    have hat : ("username=".toList ++ rest)[name.length]? = some '&' := by
      rw [hrest, List.getElem?_append_right (Nat.le_refl _), Nat.sub_self]
      rfl
    rw [List.getElem?_append_left (Nat.lt_of_not_le hlt)] at hat
    exact absurd (List.mem_of_getElem? hat) (by decide)
  exact List.prefix_of_prefix_length_le ⟨rest, hrest⟩ ⟨_, rfl⟩ hlong

theorem take_before (name rest : CStr) :
    (name ++ rest).take ((name ++ rest).length - rest.length) = name := by
  rw [List.length_append, Nat.add_sub_cancel, List.take_left]

/-- **A body is accepted when it ends in the name and the password**, its first `username=`
being there, and the name has no mark. -/
theorem userSignIn_iff (body log pass : CStr) :
    userSignIn body log pass = true ↔ ¬ HasMark log ∧
      ∃ before, body = before ++ loginText log pass ∧
        First "username=".toList before (loginText log pass) := by
  constructor
  · intro h
    unfold userSignIn at h
    split at h
    · cases h
    · next logPtr hlog =>
      split at h
      · cases h
      · next passPtr hpass =>
        obtain ⟨before, rfl, hfirst⟩ := strstr_eq_some_iff.mp hlog
        obtain ⟨name, rfl, hmark⟩ := strstr_eq_some_iff.mp hpass
        obtain ⟨hlogin, hpassword⟩ := Bool.and_eq_true_iff.mp h
        rw [take_before] at hlogin
        obtain ⟨login, rfl⟩ := username_prefix_of_split hfirst.here hmark.here
        obtain ⟨rest, rfl⟩ := hmark.here
        obtain rfl : login = log := eq_of_beq hlogin
        obtain rfl : rest = pass := eq_of_beq hpassword
        exact ⟨hmark.not_infix, before, rfl, hfirst⟩
  · rintro ⟨hno, before, rfl, hfirst⟩
    have hlog := strstr_eq_some_iff.mpr ⟨before, rfl, hfirst⟩
    have hpass : strstr "&pass=".toList (loginText log pass) = some ("&pass=".toList ++ pass) :=
      strstr_eq_some_iff.mpr ⟨_, rfl, first_mark hno pass⟩
    have hname : (loginText log pass).take
        ((loginText log pass).length - ("&pass=".toList ++ pass).length) = "username=".toList ++ log :=
      take_before _ _
    have hlog9 : ("username=".toList ++ log).drop 9 = log := List.drop_left' (by decide)
    have hpass6 : ("&pass=".toList ++ pass).drop 6 = pass := List.drop_left' (by decide)
    unfold userSignIn
    rw [hlog]
    simp only [hpass, hname, hlog9, hpass6, beq_self_eq_true, Bool.and_self]

/-- **Sign-in accepts exactly the configured pair**: a body of a name without the mark and a
password for these two, and any body only if it is the pair from its first `username=` on. -/
theorem sign_in_exact (log pass : CStr) :
    (∀ login p, ¬ HasMark login →
        (userSignIn (loginText login p) log pass = true ↔ login = log ∧ p = pass)) ∧
      ∀ body, userSignIn body log pass = true →
        ∃ before, body = before ++ loginText log pass ∧
          First "username=".toList before (loginText log pass) := by
  refine ⟨fun login p hno => ?_, fun body h => ((userSignIn_iff body log pass).mp h).2⟩
  have hstart (login p : CStr) : First "username=".toList [] (loginText login p) :=
    first_nil.mpr ⟨login ++ ("&pass=".toList ++ p), (List.append_assoc ..).symm⟩
  constructor
  · intro h
    obtain ⟨hno', before, he, hfirst⟩ := (userSignIn_iff _ log pass).mp h
    obtain ⟨-, he⟩ := (hstart login p).unique hfirst he
    obtain ⟨hname, hrest⟩ := (first_mark hno p).unique (first_mark hno' pass) he
    exact ⟨List.append_cancel_left hname, List.append_cancel_left hrest⟩
  · rintro ⟨rfl, rfl⟩
    exact (userSignIn_iff _ login p).mpr ⟨hno, [], rfl, hstart login p⟩

/-- A password that contains both marks. -/
theorem sign_in_with_marks_in_password :
    userSignIn (loginText "root".toList "username=a&pass=b".toList) "root".toList
      "username=a&pass=b".toList = true := by
  refine ((sign_in_exact "root".toList "username=a&pass=b".toList).1 "root".toList
    "username=a&pass=b".toList ?_).mpr ⟨rfl, rfl⟩
  intro h
  exact absurd h.length_le (by decide)

end Growbox
