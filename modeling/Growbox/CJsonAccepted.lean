import Growbox.CJsonText

/-!
# `cJSON.c`: the texts that are accepted

Of a number with more than 63 characters the parser reads a part, and goes on in the middle of
it.  No comma and no bracket is there, so inside a list that is an error: an object that is
accepted is read as the tree of its text, however its numbers are written (`cJsonParse_accepted`).
-/

namespace Growbox

open JsonText NumberText Double ParseBuffer

/-- In front of a character that belongs to a number. -/
def Midway (b : ParseBuffer) : Prop := ∃ c t, b.At (c :: t) ∧ Numeral.IsNumeralChar c

/-- What is read is `o`, up to `rest`, if not only a part of a number is. -/
def ReadsIfOk {α : Type} (r : Except ParseFault (α × ParseBuffer)) (o : Option α) (rest : List Char) : Prop :=
  ∀ a b, r = .ok (a, b) → (o = some a ∧ b.At rest) ∨ Midway b

theorem Reads.of_ok {α : Type} {r : Except ParseFault (α × ParseBuffer)} {o : Option α} {rest : List Char}
    (h : Reads r o rest) {a : α} {b : ParseBuffer} (hrun : r = .ok (a, b)) : o = some a ∧ b.At rest := by
  cases o with
  | none =>
    rw [show r = .error .failed from h] at hrun
    cases hrun
  | some a' =>
    obtain ⟨b', hrun', hat⟩ := h
    obtain ⟨rfl, rfl⟩ := Prod.mk.inj (Except.ok.inj (hrun'.symm.trans hrun))
    exact ⟨rfl, hat⟩

theorem Reads.ifOk {α : Type} {r : Except ParseFault (α × ParseBuffer)} {o : Option α} {rest : List Char}
    (h : Reads r o rest) : ReadsIfOk r o rest := fun _ _ hrun => .inl (h.of_ok hrun)

/-- Only a part of a long number is read. -/
theorem parseNumber_long {n : Numeral} {r : List Char} {b : ParseBuffer} (h : n.Valid) (hb : b.At (n.text ++ r))
    (hlen : 63 < n.text.length) {a : CJson} {b' : ParseBuffer} (hrun : parseNumber b = .ok (a, b')) : Midway b' := by
  unfold parseNumber at hrun
  dsimp only at hrun
  rw [hb.rest] at hrun
  generalize hcopy : ((n.text ++ r ++ [nul]).take 63).takeWhile isNumberChar = copy at hrun
  have hshort : copy.length ≤ 63 := by
    rw [← hcopy]
    exact (List.takeWhile_prefix _).length_le.trans (List.length_take_le _ _)
  cases hread : strtod copy with
  | none =>
    rw [hread] at hrun
    cases hrun
  | some res =>
    obtain ⟨number, afterEnd⟩ := res
    rw [hread] at hrun
    obtain ⟨-, rfl⟩ := Prod.mk.inj (Except.ok.inj hrun)
    have hk : copy.length - afterEnd.length < n.text.length := by omega
    generalize copy.length - afterEnd.length = k at hk
    have hsplit : n.text ++ r = n.text.take k ++ (n.text[k] :: (n.text.drop (k + 1) ++ r)) := by
      rw [← List.cons_append, List.cons_getElem_drop_succ, ← List.append_assoc, List.take_append_drop]
    have hat := At.advance (b := b) (w := n.text.take k) (hsplit ▸ hb)
    rw [List.length_take_of_le hk.le] at hat
    exact ⟨_, _, hat, h.isNumeralChar _ (List.getElem_mem hk)⟩

theorem blank_lt {c : Char} (h : Numeral.IsNumeralChar c) : 32 < c.toNat := by
  rcases h with h | h
  · exact Nat.lt_of_lt_of_le (by decide) (Char.isDigit_iff_toNat.mp h).1
  · simp only [List.mem_cons, List.not_mem_nil, or_false] at h
    rcases h with rfl | rfl | rfl | rfl | rfl <;> decide

/-- There is nothing to skip in the middle of a number. -/
theorem Midway.skipWhitespace {b : ParseBuffer} (h : Midway b) : Midway b.skipWhitespace := by
  obtain ⟨c, t, hat, hc⟩ := h
  exact ⟨c, t, At.skip_ws hat (.none _) (blank_lt hc), hc⟩

/-- What may follow a value is not there. -/
theorem Midway.not_sees {b : ParseBuffer} (h : Midway b) {d : Char} (hd : IsFollow d) : ¬ b.sees d = true := by
  obtain ⟨c, t, hat, hc⟩ := h
  refine At.not_sees hat ?_ fun he => not_isNumeralChar_of_isFollow hd (he ▸ hc)
  rintro rfl
  exact absurd hd (by unfold IsFollow; decide)

section
variable {α : Type} {parseItem : ParseBuffer → Except ParseFault (α × ParseBuffer)} {o : Option α}
  {os : Option (List α)} {b : ParseBuffer} {c opening close : Char} {s t t' u r : List Char} {n : Nat}

/-- A round of the loop. -/
theorem parseList_ok {items : List α} {b' : ParseBuffer} (h : parseList parseItem n b = .ok (items, b')) :
    ∃ m item b₁, n = m + 1 ∧ parseItem (b.advance 1).skipWhitespace = .ok (item, b₁) ∧
      if b₁.skipWhitespace.sees ',' then
        ∃ rest, parseList parseItem m b₁.skipWhitespace = .ok (rest, b') ∧ items = item :: rest
      else items = [item] ∧ b' = b₁.skipWhitespace := by
  cases n with
  | zero => cases h
  | succ m =>
    rw [parseList] at h
    obtain ⟨⟨item, b₁⟩, hitem, hrest⟩ := bind_ok h
    refine ⟨m, item, b₁, rfl, hitem, ?_⟩
    dsimp only at hrest
    split at hrest
    · next hcomma =>
      obtain ⟨⟨rest, b₂⟩, hlist, hpure⟩ := bind_ok hrest
      cases hpure
      rw [if_pos hcomma]
      exact ⟨rest, hlist, rfl⟩
    · next hcomma =>
      cases hrest
      rw [if_neg hcomma]
      exact ⟨rfl, rfl⟩

theorem parseList_last_ifOk (hat : (b.advance 1).skipWhitespace.At s)
    (hitem : ∀ b, ParseBuffer.At b s → ReadsIfOk (parseItem b) o t) (h : Ws t (close :: r))
    (hclose : 32 < close.toNat) (hcomma : close ≠ ',') :
    ReadsIfOk (parseList parseItem n b) (o >>= fun item => some [item]) (close :: r) := by
  intro items b' hrun
  obtain ⟨m, item, b₁, -, hrun, hround⟩ := parseList_ok hrun
  rcases hitem _ hat item b₁ hrun with ⟨rfl, hat₁⟩ | hmid
  · have hend := At.skip_ws hat₁ h hclose
    rw [if_neg (At.not_sees hend (by decide) hcomma)] at hround
    obtain ⟨rfl, rfl⟩ := hround
    exact .inl ⟨rfl, hend⟩
  · rw [if_neg (hmid.skipWhitespace.not_sees (by unfold IsFollow; decide))] at hround
    exact .inr (hround.2 ▸ hmid.skipWhitespace)

theorem parseList_more_ifOk (hat : (b.advance 1).skipWhitespace.At s)
    (hitem : ∀ b, ParseBuffer.At b s → ReadsIfOk (parseItem b) o t) (h : Ws t (',' :: t')) (h' : Ws t' (c :: u))
    (hc : 32 < c.toNat) (hlist : ∀ n b, (b.advance 1).skipWhitespace.At (c :: u) →
      ReadsIfOk (parseList parseItem n b) os r) :
    ReadsIfOk (parseList parseItem n b) (o >>= fun item => os >>= fun items => some (item :: items)) r := by
  intro items b' hrun
  obtain ⟨m, item, b₁, -, hrun, hround⟩ := parseList_ok hrun
  rcases hitem _ hat item b₁ hrun with ⟨rfl, hat₁⟩ | hmid
  · have hend := At.skip_ws hat₁ h (by decide)
    rw [if_pos (At.sees hend (by decide))] at hround
    obtain ⟨rest, hrest, rfl⟩ := hround
    rcases hlist m _ (At.skip_ws hend.advance_one h' hc) rest b' hrest with ⟨rfl, hat'⟩ | hmid
    · exact .inl ⟨rfl, hat'⟩
    · exact .inr hmid
  · rw [if_neg (hmid.skipWhitespace.not_sees (by unfold IsFollow; decide))] at hround
    exact .inr (hround.2 ▸ hmid.skipWhitespace)

/-- **A list that is accepted** has no number that was read in part. -/
theorem parseClosed_accepted (hb : b.At (opening :: s)) (h : Ws s (c :: t)) (hc : 32 < c.toNat) (hne : c ≠ close)
    (hclose : close ≠ nul) (hfollow : IsFollow close) (hlist : ∀ n b, (b.advance 1).skipWhitespace.At (c :: t) →
      ReadsIfOk (parseList parseItem n b) os (close :: r)) {items : List α} {b' : ParseBuffer}
    (hrun : parseClosed close parseItem b = .ok (items, b')) : os = some items ∧ b'.At r := by
  have hat := At.skip_ws hb.advance_one h hc
  have hlen := hat.length_eq
  unfold parseClosed at hrun
  dsimp only at hrun
  rw [if_neg (At.not_sees hat hclose hne), if_neg (by omega)] at hrun
  obtain ⟨⟨items', b₁⟩, hloop, hend⟩ := bind_ok hrun
  dsimp only at hend
  split at hend
  · next hsees =>
    cases hend
    have hstart : ParseBuffer.At (ParseBuffer.advance { (b.advance 1).skipWhitespace with
        offset := (b.advance 1).skipWhitespace.offset - 1 } 1).skipWhitespace (c :: t) := by
      rw [advance_back (offset_pos hb.advance_one)]
      exact At.skip_ws hat (.none _) hc
    rcases hlist _ _ hstart items b₁ hloop with ⟨rfl, hat'⟩ | hmid
    · exact ⟨rfl, hat'.advance_one⟩
    · exact absurd hsees (hmid.not_sees hfollow)
  · cases hend

end

theorem parseValue_number_ifOk {n : Numeral} {r : List Char} {b : ParseBuffer} (hb : b.At (n.text ++ r))
    (h : n.Valid) (hr : Follows r) (levels : Nat) :
    ReadsIfOk (parseValue levels b) (some (.number (nearest n.value))) r := by
  by_cases hlen : n.text.length ≤ 63
  · exact (parseValue_number hb h hr hlen levels).ifOk
  · intro a b' hrun
    rw [parseValue_eq_parseNumber hb h] at hrun
    exact .inr (parseNumber_long h hb (by omega) hrun)

/-- What is behind the bracket of an object decides whether it is accepted. -/
theorem parseValue_members {s t r : List Char} {ms : List (List StrItem × Json)} {levels : Nat} {b : ParseBuffer}
    (hb : b.At ('{' :: s)) (hws : Ws s ('"' :: t)) (hlist : ∀ levels n b,
      (ParseBuffer.advance b 1).skipWhitespace.At ('"' :: t) →
        ReadsIfOk (parseList (parseMember (parseValue levels)) n b) (treeMembers levels ms) ('}' :: r))
    {a : CJson} {b' : ParseBuffer} (hrun : parseValue levels b = .ok (a, b')) :
    (Json.object ms).tree levels = some a ∧ b'.At r := by
  rw [parseValue_object hb] at hrun
  cases levels with
  | zero => cases hrun
  | succ levels =>
    obtain ⟨⟨members, b₁⟩, hclosed, hpure⟩ := bind_ok hrun
    cases hpure
    obtain ⟨hmembers, hat⟩ := parseClosed_accepted hb hws (by decide) (by decide) (by decide)
      (by unfold IsFollow; decide) (hlist levels) hclosed
    rw [Json.tree, hmembers]
    exact ⟨rfl, hat⟩

theorem parseValue_noMembers {s r : List Char} {levels : Nat} {b : ParseBuffer} (hb : b.At ('{' :: s))
    (hws : Ws s ('}' :: r)) : Reads (parseValue levels b) ((Json.object []).tree levels) r := by
  rw [parseValue_object hb]
  cases levels with
  | zero => rfl
  | succ levels => exact (parseClosed_empty hb hws (by decide)).map CJson.object

mutual

/-- **A value** that is accepted is read as its tree, or in part if it is a long number. -/
theorem parseValue_ifOk {s r : List Char} {v : Json} (h : Value s v r) (hr : Follows r) (levels : Nat)
    (b : ParseBuffer) (hb : b.At s) : ReadsIfOk (parseValue levels b) (v.tree levels) r := by
  match h with
  | .null r =>
    rw [Json.tree]
    exact (parseValue_null hb levels).ifOk
  | .true r =>
    rw [Json.tree]
    exact (parseValue_true hb levels).ifOk
  | .false r =>
    rw [Json.tree]
    exact (parseValue_false hb levels).ifOk
  | .number n hvalid htext =>
    subst htext
    rw [Json.tree]
    exact parseValue_number_ifOk hb hvalid hr levels
  | .string hchars =>
    rw [Json.tree]
    exact (parseValue_string hb hchars levels).ifOk
  | .noItems hws =>
    rw [parseValue_array hb]
    cases levels with
    | zero => exact Reads.ifOk (o := none) rfl
    | succ levels => exact ((parseClosed_empty hb hws (by decide)).map CJson.array).ifOk
  | .items hws hitems =>
    obtain ⟨c, t, rfl, hfollow, hc, hlist⟩ := parseList_items_ifOk hitems
    have hne : c ≠ ']' := by rintro rfl; exact hfollow (by unfold IsFollow; decide)
    rw [parseValue_array hb]
    cases levels with
    | zero => exact Reads.ifOk (o := none) rfl
    | succ levels =>
      intro a b' hrun
      obtain ⟨⟨items, b₁⟩, hclosed, hpure⟩ := bind_ok hrun
      cases hpure
      obtain ⟨hitems, hat⟩ := parseClosed_accepted hb hws hc hne (by decide) (by unfold IsFollow; decide)
        (hlist levels) hclosed
      rw [Json.tree, hitems]
      exact .inl ⟨rfl, hat⟩
  | .noMembers hws => exact (parseValue_noMembers hb hws).ifOk
  | .members hws hmembers =>
    obtain ⟨t, rfl, hlist⟩ := parseList_members_ifOk hmembers
    exact fun a b' hrun => .inl (parseValue_members hb hws hlist hrun)

theorem parseList_items_ifOk {s r : List Char} {vs : List Json} (h : Items s vs r) :
    ∃ c t, s = c :: t ∧ ¬ IsFollow c ∧ 32 < c.toNat ∧ ∀ levels n b,
      (ParseBuffer.advance b 1).skipWhitespace.At (c :: t) →
        ReadsIfOk (parseList (parseValue levels) n b) (treeItems levels vs) (']' :: r) := by
  match h with
  | .last hv hws =>
    have hread := parseValue_ifOk hv (follows_close hws (by unfold IsFollow; decide))
    obtain ⟨c, t, rfl, hfollow, hc, -⟩ := hv.head
    refine ⟨c, t, rfl, hfollow, hc, fun levels n b hat => ?_⟩
    rw [treeItems_single]
    exact parseList_last_ifOk hat (hread levels) hws (by decide) (by decide)
  | .more hv hws hws' hitems =>
    have hread := parseValue_ifOk hv (follows_close hws (by unfold IsFollow; decide))
    obtain ⟨c, t, rfl, hfollow, hc, -⟩ := hv.head
    obtain ⟨c', t', rfl, -, hc', hlist⟩ := parseList_items_ifOk hitems
    refine ⟨c, t, rfl, hfollow, hc, fun levels n b hat => ?_⟩
    rw [treeItems_cons]
    exact parseList_more_ifOk hat (hread levels) hws hws' hc' (hlist levels)

theorem parseMember_ifOk {s r : List Char} {m : List StrItem × Json} (h : Member s m r) (hr : Follows r) :
    (∃ t, s = '"' :: t) ∧ ∀ levels b, ParseBuffer.At b s →
      ReadsIfOk (parseMember (parseValue levels) b) (treeMember levels m) r := by
  match h with
  | .mk hname hws hws' hv =>
    have hread := parseValue_ifOk hv hr
    obtain ⟨c, t, rfl, hfollow, hc, -⟩ := hv.head
    refine ⟨⟨_, rfl⟩, fun levels b hb a b' hrun => ?_⟩
    unfold parseMember at hrun
    unfold treeMember
    obtain ⟨⟨name, b₁⟩, hstring, hrest⟩ := bind_ok hrun
    have hname := (parseString_reads hname hb).ifOk name b₁ hstring
    dsimp only at hrest
    split at hrest
    · next hsees =>
      rcases hname with ⟨hname, hat⟩ | hmid
      · obtain ⟨bytes, hmeaning, rfl⟩ := Option.map_eq_some_iff.mp hname
        have hcolon := At.skip_ws hat hws (by decide)
        obtain ⟨⟨item, b₂⟩, hvalue, hpure⟩ := bind_ok hrest
        cases hpure
        rcases hread levels _ (At.skip_ws hcolon.advance_one hws' hc) item b₂ hvalue with ⟨htree, hat₂⟩ | hmid
        · rw [hmeaning, htree]
          exact .inl ⟨rfl, hat₂⟩
        · exact .inr hmid
      · obtain ⟨d, u, hat, hd⟩ := hmid.skipWhitespace
        refine absurd hsees (At.not_sees hat (by decide) ?_)
        rintro rfl
        exact absurd hd (by unfold Numeral.IsNumeralChar; decide)
    · cases hrest

theorem parseList_members_ifOk {s r : List Char} {ms : List (List StrItem × Json)} (h : Members s ms r) :
    ∃ t, s = '"' :: t ∧ ∀ levels n b, (ParseBuffer.advance b 1).skipWhitespace.At ('"' :: t) →
      ReadsIfOk (parseList (parseMember (parseValue levels)) n b) (treeMembers levels ms) ('}' :: r) := by
  match h with
  | .last hm hws =>
    obtain ⟨⟨t, rfl⟩, hread⟩ := parseMember_ifOk hm (follows_close hws (by unfold IsFollow; decide))
    refine ⟨t, rfl, fun levels n b hat => ?_⟩
    rw [treeMembers_single]
    exact parseList_last_ifOk hat (hread levels) hws (by decide) (by decide)
  | .more hm hws hws' hmembers =>
    obtain ⟨⟨t, rfl⟩, hread⟩ := parseMember_ifOk hm (follows_close hws (by unfold IsFollow; decide))
    obtain ⟨t', rfl, hlist⟩ := parseList_members_ifOk hmembers
    refine ⟨t, rfl, fun levels n b hat => ?_⟩
    rw [treeMembers_cons]
    exact parseList_more_ifOk hat (hread levels) hws hws' (by decide) (hlist levels)

end

/-- **An object that is accepted** is read as the tree of its text. -/
theorem cJsonParse_accepted {s : List Char} {ms : List (List StrItem × Json)} {t : CJson}
    (h : IsText s (.object ms)) (hnul : nul ∉ s) (ht : cJsonParse s = some t) :
    (Json.object ms).tree nestingLimit = some t := by
  obtain ⟨u, r, hws, hvalue, -⟩ := h
  obtain ⟨c, u', rfl, -, hc, -⟩ := hvalue.head
  have hat := At.skip_ws (at_start hnul) hws hc
  unfold cJsonParse parseText at ht
  rw [skipUtf8Bom_isText hws hvalue] at ht
  dsimp only at ht
  cases hrun : parseValue nestingLimit (ParseBuffer.skipWhitespace ⟨s ++ [nul], 0⟩) with
  | error e =>
    rw [hrun] at ht
    cases ht
  | ok a =>
    obtain ⟨item, b⟩ := a
    rw [hrun] at ht
    cases ht
    generalize hu : c :: u' = u at hvalue hat
    cases hvalue with
    | noMembers hws => exact ((parseValue_noMembers hat hws).of_ok hrun).1
    | members hws hmembers =>
      obtain ⟨t, rfl, hlist⟩ := parseList_members_ifOk hmembers
      exact (parseValue_members hat hws hlist hrun).1

end Growbox
