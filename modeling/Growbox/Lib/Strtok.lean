import Growbox.Lib.Block
import Mathlib.Data.List.TakeWhile

/-!
# `strtok`

`strtok` skips delimiters, takes what is before the next one, and overwrites that one
with a terminator; the place after it is where the next call goes on.  A text is some
delimiters and a token, alone or with a delimiter and a rest after it (`split_cases`), and
`strtok_last` and `strtok_cut` say what a call does with either.
-/

namespace Growbox.Strtok

/-- The C string at a place of the memory. -/
def cstrAt (mem : List Char) (p : Nat) : List Char := (mem.drop p).takeWhile fun c => !(c == nul)

/-- The first token of a text, `[]` when it has none. -/
def tokenOf (delim : Char) (s : List Char) : List Char :=
  (s.dropWhile fun c => c == delim).takeWhile fun c => !(c == delim)

/-- What is after the first token and one delimiter. -/
def restOf (delim : Char) (s : List Char) : List Char :=
  ((s.dropWhile fun c => c == delim).dropWhile fun c => !(c == delim)).drop 1

/-- What a call returns, the memory after it, and the place the next call goes on from. -/
structure Result where
  token : Option (List Char)
  mem : List Char
  save : Nat

/-- `strtok(p, delim)`, and with the saved place `strtok(NULL, delim)`. -/
def strtok (delim : Char) (mem : List Char) (p : Nat) : Result :=
  let s := cstrAt mem p
  let start := p + (s.takeWhile fun c => c == delim).length
  let stop := start + (tokenOf delim s).length
  if tokenOf delim s = [] then ⟨none, mem, start⟩
  else if mem.getD stop nul = delim then ⟨some (tokenOf delim s), mem.set stop nul, stop + 1⟩
  else ⟨some (tokenOf delim s), mem, stop⟩

/-! ## Texts -/

/-- Delimiters, and at most one token. -/
structure OneToken (delim : Char) (skip token : List Char) : Prop where
  skip : ∀ c ∈ skip, c = delim
  token : delim ∉ token

theorem oneToken_of_not_mem {delim : Char} {token : List Char} (h : delim ∉ token) :
    OneToken delim [] token :=
  ⟨fun _ hc => absurd hc List.not_mem_nil, h⟩

section
variable {delim : Char} {skip token : List Char}

theorem dropWhile_skip (h : OneToken delim skip token) (r : List Char)
    (hr : ∀ c, r.head? = some c → c ≠ delim) :
    (skip ++ r).dropWhile (fun c => c == delim) = r := by
  rw [List.dropWhile_append_of_pos fun c hc => beq_iff_eq.mpr (h.skip c hc)]
  cases r with
  | nil => rfl
  | cons c r => exact List.dropWhile_cons_of_neg (by simpa using hr c rfl)

theorem takeWhile_skip (h : OneToken delim skip token) (r : List Char)
    (hr : ∀ c, r.head? = some c → c ≠ delim) :
    (skip ++ r).takeWhile (fun c => c == delim) = skip := by
  rw [List.takeWhile_append_of_pos fun c hc => beq_iff_eq.mpr (h.skip c hc)]
  cases r with
  | nil => exact List.append_nil _
  | cons c r =>
    rw [List.takeWhile_cons_of_neg (by simpa using hr c rfl), List.append_nil]

theorem head_token (h : OneToken delim skip token) (c : Char) (hc : token.head? = some c) :
    c ≠ delim := by
  rintro rfl
  exact h.token (List.mem_of_mem_head? hc)

theorem tokenOf_last (h : OneToken delim skip token) : tokenOf delim (skip ++ token) = token := by
  rw [tokenOf, dropWhile_skip h token (head_token h)]
  exact Block.takeWhile_eq_self h.token

theorem restOf_last (h : OneToken delim skip token) : restOf delim (skip ++ token) = [] := by
  rw [restOf, dropWhile_skip h token (head_token h), List.dropWhile_eq_nil_iff.mpr (Block.not_blank h.token)]
  rfl

theorem head_token_append (h : OneToken delim skip token) (hne : token ≠ []) (r : List Char) (c : Char)
    (hc : (token ++ r).head? = some c) : c ≠ delim := by
  refine head_token h c ?_
  rwa [List.head?_append_of_ne_nil _ hne] at hc

theorem tokenOf_cut (h : OneToken delim skip token) (hne : token ≠ []) (r : List Char) :
    tokenOf delim (skip ++ (token ++ delim :: r)) = token := by
  rw [tokenOf, dropWhile_skip h _ (head_token_append h hne _), Block.takeWhile_append_blank h.token]

theorem restOf_cut (h : OneToken delim skip token) (hne : token ≠ []) (r : List Char) :
    restOf delim (skip ++ (token ++ delim :: r)) = r := by
  rw [restOf, dropWhile_skip h _ (head_token_append h hne _),
    List.dropWhile_append_of_pos (Block.not_blank h.token), List.dropWhile_cons_of_neg (by simp)]
  rfl

/-- A text is delimiters and a token, alone or before a delimiter and a rest. -/
theorem split_cases (delim : Char) (s : List Char) :
    ∃ skip token, OneToken delim skip token ∧
      (s = skip ++ token ∨ (token ≠ [] ∧ ∃ r, s = skip ++ (token ++ delim :: r))) := by
  have hs := List.takeWhile_append_dropWhile (p := fun c => c == delim) (l := s)
  have ht := List.takeWhile_append_dropWhile (p := fun c => !(c == delim))
    (l := s.dropWhile fun c => c == delim)
  refine ⟨s.takeWhile fun c => c == delim, tokenOf delim s, ⟨fun c hc => ?_, fun hmem => ?_⟩, ?_⟩
  · simpa using List.mem_takeWhile_imp hc
  · have := List.mem_takeWhile_imp hmem
    simp at this
  · cases hrest : (s.dropWhile fun c => c == delim).dropWhile fun c => !(c == delim) with
    | nil =>
      refine .inl ?_
      rw [hrest, List.append_nil] at ht
      rw [tokenOf, ht, hs]
    | cons c r =>
      have hc : c = delim := by
        have := List.head?_dropWhile_not (fun c => !(c == delim)) (s.dropWhile fun c => c == delim)
        rw [hrest] at this
        simpa using this
      rw [hrest] at ht
      refine .inr ⟨fun hnil => ?_, r, ?_⟩
      · -- a delimiter would have been skipped
        have := List.head?_dropWhile_not (fun c => c == delim) s
        rw [← ht, show (s.dropWhile fun c => c == delim).takeWhile (fun c => !(c == delim)) = []
          from hnil] at this
        simp [hc] at this
      · have hrt : delim :: r = c :: r := by rw [hc]
        rw [hrt, tokenOf, ht, hs]

/-! ## Memory -/

theorem cstrAt_append (front : List Char) {s tail : List Char} (hs : nul ∉ s) :
    cstrAt (front ++ (s ++ nul :: tail)) front.length = s := by
  rw [cstrAt, List.drop_left, Block.takeWhile_append_blank hs]

theorem getD_length_append (l : List Char) (c : Char) (r : List Char) :
    (l ++ c :: r).getD l.length nul = c := by
  rw [List.getD_eq_getElem?_getD, List.getElem?_append_right (Nat.le_refl _), Nat.sub_self]
  rfl

variable (front tail : List Char)

/-- The last token is found where it is, and nothing changes. -/
theorem strtok_last (h : OneToken delim skip token) (hd : delim ≠ nul)
    (hnul : nul ∉ skip ++ token) :
    strtok delim (front ++ (skip ++ token ++ nul :: tail)) front.length =
      ⟨if token = [] then none else some token, front ++ (skip ++ token) ++ nul :: tail,
        (front ++ (skip ++ token)).length⟩ := by
  have hlen : front.length + skip.length + token.length = (front ++ (skip ++ token)).length := by
    simp only [List.length_append]
    omega
  have hstop : (front ++ (skip ++ token ++ nul :: tail)).getD
      (front.length + skip.length + token.length) nul = nul := by
    rw [hlen, ← List.append_assoc front, getD_length_append]
  unfold strtok
  simp only [cstrAt_append _ hnul, takeWhile_skip h token (head_token h), tokenOf_last h, hstop]
  rw [List.append_assoc front (skip ++ token)]
  by_cases hne : token = []
  · rw [if_pos hne, if_pos hne, hne, List.append_nil, List.length_append]
  · rw [if_neg hne, if_neg hne, if_neg hd.symm, hlen]

/-- A token with a delimiter after it is cut off there. -/
theorem strtok_cut (h : OneToken delim skip token) (hne : token ≠ []) {r : List Char}
    (hnul : nul ∉ skip ++ (token ++ delim :: r)) :
    strtok delim (front ++ (skip ++ (token ++ delim :: r) ++ nul :: tail)) front.length =
      ⟨some token, front ++ (skip ++ token) ++ nul :: (r ++ nul :: tail),
        (front ++ (skip ++ token) ++ [nul]).length⟩ := by
  have hmem : front ++ (skip ++ (token ++ delim :: r) ++ nul :: tail) =
      (front ++ (skip ++ token)) ++ delim :: (r ++ nul :: tail) := by
    simp only [List.append_assoc, List.cons_append]
  have hlen : front.length + skip.length + token.length = (front ++ (skip ++ token)).length := by
    simp only [List.length_append]
    omega
  unfold strtok
  simp only [cstrAt_append _ hnul, takeWhile_skip h _ (head_token_append h hne _), tokenOf_cut h hne,
    if_neg hne]
  have hsave : (front ++ (skip ++ token) ++ [nul]).length = (front ++ (skip ++ token)).length + 1 :=
    List.length_append
  rw [hlen, hmem, hsave, if_pos (getD_length_append ..), List.set_append_right _ _ (Nat.le_refl _),
    Nat.sub_self]
  rfl

/-- A text in which nothing but delimiters comes before a delimiter has no rest, nor has any
text taken from it. -/
theorem restOf_eq_nil_of_sublist (h : OneToken delim skip token) {x : List Char}
    (hx : List.Sublist x (skip ++ token)) : restOf delim x = [] := by
  obtain ⟨skip', token', h', rfl | ⟨hne, r, rfl⟩⟩ := split_cases delim x
  · exact restOf_last h'
  · obtain ⟨c, cs, rfl⟩ := List.exists_cons_of_ne_nil hne
    have hc : c ≠ delim := fun he => h'.token (he ▸ List.mem_cons_self)
    have hpair : List.Sublist [c, delim] (skip' ++ (c :: cs ++ delim :: r)) := by
      refine List.Sublist.trans ?_ (List.sublist_append_right ..)
      exact (List.singleton_sublist.mpr List.mem_cons_self).append
        (List.singleton_sublist.mpr List.mem_cons_self)
    obtain ⟨l, l', he, hl, hl'⟩ := List.sublist_append_iff.mp (hpair.trans hx)
    cases l with
    | nil =>
      -- the delimiter would be in the token
      rw [List.nil_append] at he
      rw [← he] at hl'
      exact absurd (hl'.subset (List.mem_cons_of_mem _ List.mem_cons_self)) h.token
    | cons c' l =>
      obtain ⟨rfl, -⟩ := List.cons.inj he
      exact absurd (h.skip c (hl.subset List.mem_cons_self)) hc

variable (delim) in
/-- **What a call does to a text**: it returns the first token, and stands before the rest.
Before the place it stands at are delimiters and a token, and a terminator if the token was
cut off. -/
theorem strtok_at (hd : delim ≠ nul) {s : List Char} (hs : nul ∉ s) :
    ∃ skip token done, OneToken delim skip token ∧ nul ∉ skip ++ token ∧
      ((done = skip ++ token ∧ restOf delim s = []) ∨ done = skip ++ token ++ [nul]) ∧
      done.length + (restOf delim s).length = s.length ∧ nul ∉ restOf delim s ∧
      strtok delim (front ++ (s ++ nul :: tail)) front.length =
        ⟨if tokenOf delim s = [] then none else some (tokenOf delim s),
          front ++ done ++ (restOf delim s ++ nul :: tail), (front ++ done).length⟩ := by
  obtain ⟨skip, token, h, rfl | ⟨hne, r, rfl⟩⟩ := split_cases delim s
  · refine ⟨skip, token, skip ++ token, h, hs, .inl ⟨rfl, restOf_last h⟩, ?_, ?_, ?_⟩
    · rw [restOf_last h]
      rfl
    · rw [restOf_last h]
      exact List.not_mem_nil
    · rw [strtok_last front tail h hd hs, tokenOf_last h, restOf_last h, List.nil_append]
  · have hsub : nul ∉ skip ++ token ∧ nul ∉ r := by
      simp only [List.mem_append, List.mem_cons, not_or] at hs ⊢
      exact ⟨⟨hs.1, hs.2.1⟩, hs.2.2.2⟩
    refine ⟨skip, token, skip ++ token ++ [nul], h, hsub.1, .inr rfl, ?_, ?_, ?_⟩
    · rw [restOf_cut h hne]
      simp only [List.length_append, List.length_cons, List.length_nil]
      omega
    · rw [restOf_cut h hne]
      exact hsub.2
    · rw [strtok_cut front tail h hne hs, tokenOf_cut h hne, restOf_cut h hne, if_neg hne]
      simp only [List.append_assoc, List.singleton_append]

end

end Growbox.Strtok
