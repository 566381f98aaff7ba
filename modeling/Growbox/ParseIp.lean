import Growbox.FlcTimes

/-!
# Addresses as texts

`get_current_ip` cuts its text with `strtok` and then copies what is left of it, which is the
first number, as the address (`addresses_never_agree`).  `parse_ip_str` of the second version
counts dots and nothing else: `parse_ip_quads_iff` says when what it accepts is a dotted quad,
and what it copies, also before an exception, fits.
Both keep the numbers as texts in slots of four bytes (`Slots`).
-/

namespace Growbox

open Decimal Strtok

/-! ## `char[4][4]` -/

/-- The sixteen bytes, and whether every text copied so far fits its slot. -/
structure Slots where
  cells : Block Char
  fits : Bool

namespace Slots

/-- After `memset`. -/
def zero : Slots := ⟨.alloc nul 16, true⟩

/-- `strcpy(slots[i], text)` -/
def strcpy (s : Slots) (i : Nat) (text : CStr) : Slots where
  cells := s.cells.write (4 * i : Nat) (cText text ++ [nul])
  fits := s.fits && decide ((cText text).length ≤ 3)

/-- The C string that begins at `slots[i]`. -/
def text (s : Slots) (i : Nat) : CStr :=
  cText ((List.range (16 - 4 * i)).map fun k => s.cells.mem (4 * i + k : Nat))

end Slots

/-- What both versions make of an address. -/
structure Ipv4 where
  asStr : CStr
  asCh : List CStr
  asByte : List UInt8
  fits : Bool

/-- `as_byte = atoi(as_ch)` -/
def asByte (asCh : CStr) : UInt8 := (atoi asCh).toUInt32.toUInt8

/-! ## `get_current_ip`, `get_current_gw` -/

/-- The calls of `strtok` after the first token, with `i` slots taken.  Every token takes some
of the text, so with as much fuel as there is text the loop comes to its end. -/
def ipTokens : (fuel : Nat) → (mem : List Char) → (save i : Nat) → Slots → Option Slots
  | 0, _, _, _, _ => none
  | fuel + 1, mem, save, i, ipv4 =>
    let r := strtok '.' mem save
    match r.token with
    | none => some ipv4
    | some istr =>
      if i < 4 then ipTokens fuel r.mem r.save (i + 1) (ipv4.strcpy i istr)
      else ipTokens fuel r.mem r.save i ipv4

/-- The text of the file, cut at `stop`, and its parts. -/
def tokenizeIp (stop : Char) (file : List Char) : Option Ipv4 :=
  let ipStr := file ++ [nul]
  let ipStr := if stop ∈ cText file then ipStr.set ((cText file).idxOf stop) nul else ipStr
  let r := strtok '.' ipStr 0
  let asStr := cstrAt r.mem 0
  let ipv4 := match r.token with
    | some istr =>
      (ipTokens (file.length + 1) r.mem r.save 1 (Slots.zero.strcpy 0 istr))
    | none => some .zero
  ipv4.map fun ipv4 =>
    { asStr
      asCh := (List.range 4).map ipv4.text
      asByte := (List.range 4).map fun i => asByte (ipv4.text i)
      fits := ipv4.fits && decide (asStr.length < 32) }

def getCurrentIp : List Char → Option Ipv4 := tokenizeIp '/'

def getCurrentGw : List Char → Option Ipv4 := tokenizeIp '\n'

namespace V2

/-! ## `parse_ip_str` -/

/-- `s.find('.', pos)`, `none` for `npos`. -/
def findDot (s : List Char) (pos : Nat) : Option Nat :=
  ((s.drop pos).findIdx? fun c => c == '.').map (pos + ·)

/-- The structure while it is filled. -/
structure IpParts where
  asCh : Slots
  asByte : List UInt8

/-- `strcpy(ip.as_ch[i], …); ip.as_byte[i] = atoi(ip.as_ch[i]);` -/
def IpParts.put (ip : IpParts) (i : Nat) (part : List Char) : IpParts where
  asCh := ip.asCh.strcpy i part
  asByte := ip.asByte.set i (Growbox.asByte ((ip.asCh.strcpy i part).text i))

/-- The turns of the loop that are left, from turn `i` and place `ppos` on; the exception leaves
the structure as it is by then. -/
def parseParts (s : List Char) : (left i ppos : Nat) → IpParts → Except IpParts (Nat × IpParts)
  | 0, _, ppos, ip => .ok (ppos, ip)
  | left + 1, i, ppos, ip =>
    match findDot s ppos with
    | none => .error ip
    | some npos => parseParts s left (i + 1) (npos + 1) (ip.put i ((s.drop ppos).take (npos - ppos)))

/-- The last part is what is left of the text. -/
def fillIp (s : List Char) : Except IpParts Ipv4 :=
  (parseParts s 3 0 0 ⟨.zero, [0, 0, 0, 0]⟩).map fun r =>
    let ip := r.2.put 3 ((s.drop r.1).take (s.length - r.1))
    ⟨s, (List.range 4).map ip.asCh.text, ip.asByte, ip.asCh.fits⟩

/-- What the caller gets; `none` is the exception. -/
def parseIpStr (s : List Char) : Option Ipv4 := (fillIp s).toOption

end V2

example : (getCurrentIp "10.0.2.15/24\n".toList).map Ipv4.asCh =
    some ["10".toList, "0".toList, "2".toList, "15".toList] := by decide +kernel

example : (V2.parseIpStr "10.0.2.15".toList).map Ipv4.asByte = some [10, 0, 2, 15] := by decide +kernel

/-! ## What a slot holds -/

namespace Slots

/-- The text is in the slot, with its terminator. -/
structure Has (s : Slots) (i : Nat) (t : CStr) : Prop where
  length_le : t.length ≤ 3
  noNul : nul ∉ t
  cell : ∀ k, k ≤ t.length → s.cells.mem (4 * i + k : Nat) = (t ++ [nul]).getD k nul

variable {s : Slots} {i j : Nat} {t u : CStr}

theorem has_strcpy (hlen : t.length ≤ 3) (hnul : nul ∉ t) : (s.strcpy i t).Has i t := by
  refine ⟨hlen, hnul, fun k hk => ?_⟩
  have hk' : k < (t ++ [nul]).length := by
    rw [List.length_append, List.length_singleton]
    omega
  unfold strcpy
  rw [cText_eq_self hnul, Int.natCast_add, Block.mem_write_inside _ _ _ hk', List.getD_eq_getElem?_getD,
    List.getElem?_eq_getElem hk']
  rfl

/-- **A text that fits its slot leaves the others alone.** -/
theorem Has.strcpy_other (h : s.Has i t) (hij : i ≠ j) (hu : u.length ≤ 3) : (s.strcpy j u).Has i t := by
  have hlen : (cText u).length ≤ 3 := Nat.le_trans (List.takeWhile_sublist _).length_le hu
  refine ⟨h.length_le, h.noNul, fun k hk => ?_⟩
  rw [← h.cell k hk]
  refine Block.mem_write_outside _ _ _ ?_
  have := h.length_le
  rw [List.length_append, List.length_singleton]
  omega

theorem Has.text_eq (h : s.Has i t) (hi : i < 4) : s.text i = t := by
  have hlen := h.length_le
  have hcells : (List.range (16 - 4 * i)).map (fun k => s.cells.mem (4 * i + k : Nat)) =
      t ++ nul ::
        ((List.range (16 - 4 * i)).map fun k => s.cells.mem (4 * i + k : Nat)).drop (t.length + 1) := by
    refine (List.take_append_drop (t.length + 1) _).symm.trans ?_
    rw [List.append_cons t nul]
    congr 1
    apply List.ext_getElem
    · simp only [List.length_take, List.length_map, List.length_range, List.length_append,
        List.length_singleton]
      omega
    · intro k hk hk'
      rw [List.length_append, List.length_singleton] at hk'
      rw [List.getElem_take, List.getElem_map, List.getElem_range, h.cell k (by omega),
        List.getD_eq_getElem?_getD, List.getElem?_eq_getElem]
      rfl
  rw [text, hcells, cText_append_nul h.noNul]

theorem fits_strcpy (hfits : s.fits = true) (hlen : t.length ≤ 3) : (s.strcpy i t).fits = true := by
  have hle : (cText t).length ≤ 3 := Nat.le_trans (List.takeWhile_sublist _).length_le hlen
  show (s.fits && decide ((cText t).length ≤ 3)) = true
  rw [hfits, decide_eq_true hle]
  rfl

/-- Four short texts, each in its slot. -/
theorem four_texts {a b c d : CStr} (ha : a.length ≤ 3 ∧ nul ∉ a) (hb : b.length ≤ 3 ∧ nul ∉ b)
    (hc : c.length ≤ 3 ∧ nul ∉ c) (hd : d.length ≤ 3 ∧ nul ∉ d) :
    let s := (((zero.strcpy 0 a).strcpy 1 b).strcpy 2 c).strcpy 3 d
    (List.range 4).map s.text = [a, b, c, d] ∧ s.fits = true := by
  intro s
  have h0 : s.Has 0 a := (((has_strcpy ha.1 ha.2).strcpy_other (by decide) hb.1).strcpy_other (by decide)
    hc.1).strcpy_other (by decide) hd.1
  have h1 : s.Has 1 b := ((has_strcpy hb.1 hb.2).strcpy_other (by decide) hc.1).strcpy_other (by decide) hd.1
  have h2 : s.Has 2 c := (has_strcpy hc.1 hc.2).strcpy_other (by decide) hd.1
  have h3 : s.Has 3 d := has_strcpy hd.1 hd.2
  constructor
  · show [s.text 0, s.text 1, s.text 2, s.text 3] = _
    rw [h0.text_eq (by decide), h1.text_eq (by decide), h2.text_eq (by decide), h3.text_eq (by decide)]
  · exact fits_strcpy (fits_strcpy (fits_strcpy (fits_strcpy rfl ha.1) hb.1) hc.1) hd.1

end Slots

/-! ## Dotted quads -/

def dotted4 (a b c d : CStr) : CStr := a ++ '.' :: (b ++ '.' :: (c ++ '.' :: d))

/-- The number of a text of digits. -/
def numberOf (t : CStr) : Nat := Nat.ofDigitChars 10 t 0

/-- A decimal number of one to three digits that is at most 255. -/
structure IsOctet (t : CStr) : Prop where
  ne_nil : t ≠ []
  length_le : t.length ≤ 3
  digits : ∀ c ∈ t, c.isDigit = true
  number_le : numberOf t ≤ 255

def IsQuad (s : CStr) : Prop :=
  ∃ a b c d, s = dotted4 a b c d ∧ IsOctet a ∧ IsOctet b ∧ IsOctet c ∧ IsOctet d

namespace IsOctet

variable {t : CStr}

theorem not_mem {c : Char} (h : IsOctet t) (hc : c.isDigit = false) : c ∉ t :=
  fun hmem => Bool.noConfusion (hc.symm.trans (h.digits c hmem))

theorem short (h : IsOctet t) : t.length ≤ 3 ∧ nul ∉ t := ⟨h.length_le, h.not_mem rfl⟩

/-- **No number of an octet is cut.** -/
theorem toNat_asByte (h : IsOctet t) : (asByte t).toNat = numberOf t := by
  have hle := h.number_le
  have hstrtol : strtol t = (numberOf t : Int) :=
    strtol_of_digits h.ne_nil h.digits (Nat.le_trans hle (by decide))
  rw [asByte, atoi, hstrtol, toUInt32_ofInt_natCast, UInt32.toNat_toUInt8, UInt32.toNat_ofNat']
  omega

end IsOctet

theorem numberOf_dec (n : Nat) : numberOf (dec n) = n := by
  rw [← decPad_zero]
  exact ofDigitChars_decPad 0 n

theorem isOctet_dec (n : UInt8) : IsOctet (dec n.toNat) := by
  have hlt := n.toNat_lt
  have hnumber := numberOf_dec n.toNat
  refine ⟨dec_ne_nil _, ?_, isDigit_of_mem_dec _, ?_⟩
  · rw [length_dec_le_iff _ _ (by decide)]
    omega
  · omega

theorem asByte_dec (n : UInt8) : asByte (dec n.toNat) = n := by
  apply UInt8.toNat_inj.mp
  rw [(isOctet_dec n).toNat_asByte, numberOf_dec]

/-! ## What `parse_ip_str` accepts -/

namespace V2

section
variable {front part rest x : List Char} (ip : IpParts) (left i : Nat)

theorem findIdx?_dot (h : '.' ∉ x) : x.findIdx? (fun c => c == '.') = none := by
  rw [List.findIdx?_eq_none_iff]
  intro c hc
  rw [← Bool.not_eq_true']
  exact Block.not_blank h c hc

theorem findDot_append (h : '.' ∉ part) :
    findDot (front ++ (part ++ '.' :: rest)) front.length = some (front.length + part.length) := by
  rw [findDot, List.drop_left, List.findIdx?_append, findIdx?_dot h, List.findIdx?_cons]
  simp

theorem findDot_none (h : '.' ∉ x) : findDot (front ++ x) front.length = none := by
  rw [findDot, List.drop_left, Option.map_eq_none_iff, findIdx?_dot h]

/-- A turn takes what is before the next dot. -/
theorem parseParts_cut (front : List Char) (h : '.' ∉ part) :
    parseParts (front ++ (part ++ '.' :: rest)) (left + 1) i front.length ip =
      parseParts ((front ++ part ++ ['.']) ++ rest) left (i + 1) (front ++ part ++ ['.']).length
        (ip.put i part) := by
  have hlen : (front ++ part ++ ['.']).length = front.length + part.length + 1 := by
    simp only [List.length_append, List.length_singleton]
  have hsplit : (front ++ part ++ ['.']) ++ rest = front ++ (part ++ '.' :: rest) := by
    simp only [List.append_assoc, List.singleton_append]
  rw [parseParts, findDot_append h, hlen, hsplit, List.drop_left]
  simp only [Nat.add_sub_cancel_left, List.take_left]

/-- The slots have not overflowed so far, whether the loop comes to its end or not. -/
def PartsFit (r : Except IpParts (Nat × IpParts)) : Prop :=
  match r with
  | .error ip => ip.asCh.fits = true
  | .ok r => r.2.asCh.fits = true

theorem fits_put (part : List Char) :
    (ip.put i part).asCh.fits = true ↔ ip.asCh.fits = true ∧ (cText part).length ≤ 3 := by
  show (ip.asCh.fits && decide ((cText part).length ≤ 3)) = true ↔ _
  rw [Bool.and_eq_true, decide_eq_true_eq]

/-- **There is an exception exactly when dots are missing.** -/
theorem parseParts_isOk_iff (front x : List Char) :
    (parseParts (front ++ x) left i front.length ip).isOk = true ↔ left ≤ x.count '.' := by
  induction left generalizing front x i ip with
  | zero => exact iff_of_true rfl (Nat.zero_le _)
  | succ left ih =>
    by_cases hdot : '.' ∈ x
    · obtain ⟨part, rest, rfl, hpart⟩ := List.eq_append_cons_of_mem hdot
      rw [parseParts_cut ip left i _ hpart, ih, List.count_append, List.count_eq_zero.mpr hpart,
        List.count_cons_self]
      omega
    · rw [parseParts, findDot_none hdot, List.count_eq_zero.mpr hdot]
      exact iff_of_false Bool.false_ne_true (Nat.not_succ_le_zero _)

/-- **Before an exception every part that a dot ends has been copied.** -/
theorem parseParts_fits_iff (front x : List Char) (hdots : x.count '.' < left) :
    PartsFit (parseParts (front ++ x) left i front.length ip) ↔
      ip.asCh.fits = true ∧ ∀ part ∈ (x.splitOn '.').dropLast, (cText part).length ≤ 3 := by
  induction left generalizing front x i ip with
  | zero => exact absurd hdots (Nat.not_lt_zero _)
  | succ left ih =>
    by_cases hdot : '.' ∈ x
    · obtain ⟨part, rest, rfl, hpart⟩ := List.eq_append_cons_of_mem hdot
      have hrest : rest.count '.' < left := by
        rw [List.count_append, List.count_eq_zero.mpr hpart, List.count_cons_self] at hdots
        omega
      rw [parseParts_cut ip left i _ hpart, ih _ _ _ _ hrest, fits_put, List.splitOn_append_cons_self_of_not_mem hpart,
        List.dropLast_cons_of_ne_nil (List.splitOn_ne_nil _ _), List.forall_mem_cons, and_assoc]
    · rw [parseParts, findDot_none hdot, List.splitOn_eq_singleton hdot]
      exact (and_iff_left (List.forall_mem_nil _)).symm

end

theorem parseIpStr_eq_none_iff (s : List Char) : parseIpStr s = none ↔ s.count '.' < 3 := by
  have h := parseParts_isOk_iff ⟨.zero, [0, 0, 0, 0]⟩ 3 0 [] s
  rw [List.nil_append, List.length_nil] at h
  unfold parseIpStr fillIp
  cases hp : parseParts s 3 0 0 ⟨.zero, [0, 0, 0, 0]⟩ with
  | error ip =>
    rw [hp] at h
    exact iff_of_true rfl (Nat.lt_of_not_le fun hle => Bool.false_ne_true (h.mpr hle))
  | ok r =>
    rw [hp] at h
    exact iff_of_false (Option.some_ne_none _) (Nat.not_lt_of_le (h.mp rfl))

theorem parseIpStr_eq_some_iff {s : List Char} {ip : Ipv4} :
    parseIpStr s = some ip ↔ fillIp s = .ok ip := by
  unfold parseIpStr
  cases fillIp s with
  | error e => exact iff_of_false nofun nofun
  | ok ip' => simp [Except.toOption]

/-- A short text is read back from the slot it was copied to. -/
theorem put_eq (ip : IpParts) {i : Nat} (hi : i < 4) {t : List Char} (ht : IsOctet t) :
    ip.put i t = ⟨ip.asCh.strcpy i t, ip.asByte.set i (Growbox.asByte t)⟩ := by
  rw [IpParts.put, (Slots.has_strcpy ht.length_le ht.short.2).text_eq hi]

/-- **A dotted quad is decoded.** -/
theorem fillIp_quad {a b c d : List Char} (ha : IsOctet a) (hb : IsOctet b) (hc : IsOctet c)
    (hd : IsOctet d) :
    fillIp (dotted4 a b c d) = .ok ⟨dotted4 a b c d, [a, b, c, d],
      [Growbox.asByte a, Growbox.asByte b, Growbox.asByte c, Growbox.asByte d], true⟩ := by
  have hdot {t : List Char} (h : IsOctet t) : '.' ∉ t := h.not_mem rfl
  obtain ⟨htexts, hfits⟩ := Slots.four_texts ha.short hb.short hc.short hd.short
  have hparts : parseParts (dotted4 a b c d) 3 0 0 ⟨.zero, [0, 0, 0, 0]⟩ =
      .ok (([] ++ a ++ ['.'] ++ b ++ ['.'] ++ c ++ ['.']).length,
        ⟨((Slots.zero.strcpy 0 a).strcpy 1 b).strcpy 2 c,
          [Growbox.asByte a, Growbox.asByte b, Growbox.asByte c, 0]⟩) := by
    refine (parseParts_cut ⟨.zero, [0, 0, 0, 0]⟩ 2 0 [] (hdot ha)).trans ?_
    rw [parseParts_cut _ 1 1 _ (hdot hb), parseParts_cut _ 0 2 _ (hdot hc), put_eq _ (by decide) ha,
      put_eq _ (by decide) hb, put_eq _ (by decide) hc]
    rfl
  have hsplit : dotted4 a b c d = [] ++ a ++ ['.'] ++ b ++ ['.'] ++ c ++ ['.'] ++ d := by
    simp only [dotted4, List.nil_append, List.append_assoc, List.cons_append]
  rw [fillIp, hparts, Except.map]
  have hdrop : (dotted4 a b c d).drop ([] ++ a ++ ['.'] ++ b ++ ['.'] ++ c ++ ['.']).length = d := by
    rw [hsplit, List.drop_left]
  have htake : d.take ((dotted4 a b c d).length -
      ([] ++ a ++ ['.'] ++ b ++ ['.'] ++ c ++ ['.']).length) = d := by
    rw [hsplit, List.length_append, Nat.add_sub_cancel_left, List.take_length]
  simp only [hdrop, htake, put_eq _ (show 3 < 4 by decide) hd]
  rw [htexts, hfits]
  rfl

/-- What is accepted is a quad, and its numbers are decoded, each inside its slot; and before
an exception nothing was copied past a slot. -/
def AcceptsQuad (s : List Char) : Prop :=
  (∀ ip, fillIp s = .ok ip → ∃ a b c d, s = dotted4 a b c d ∧
    (IsOctet a ∧ IsOctet b ∧ IsOctet c ∧ IsOctet d) ∧ ip.asCh = [a, b, c, d] ∧
    ip.asByte.map UInt8.toNat = [numberOf a, numberOf b, numberOf c, numberOf d] ∧ ip.fits = true) ∧
  ∀ ip, fillIp s = .error ip → ip.asCh.fits = true

/-- Too few dots, and no part in front of one is longer than its slot, up to a NUL. -/
def FewShortParts (s : List Char) : Prop :=
  s.count '.' < 3 ∧ ∀ part ∈ (s.splitOn '.').dropLast, (cText part).length ≤ 3

/-- With too few dots, the copies fit exactly when the parts do. -/
theorem acceptsQuad_of_fewDots {s : List Char} (hdots : s.count '.' < 3) :
    AcceptsQuad s ↔ ∀ part ∈ (s.splitOn '.').dropLast, (cText part).length ≤ 3 := by
  have hfit := parseParts_fits_iff ⟨.zero, [0, 0, 0, 0]⟩ 3 0 [] s hdots
  rw [and_iff_right (show (⟨.zero, [0, 0, 0, 0]⟩ : IpParts).asCh.fits = true from rfl),
    List.nil_append, List.length_nil] at hfit
  have hnone := (parseIpStr_eq_none_iff s).mpr hdots
  unfold AcceptsQuad
  unfold parseIpStr at hnone
  rw [← hfit]
  unfold fillIp at hnone ⊢
  cases hp : parseParts s 3 0 0 ⟨.zero, [0, 0, 0, 0]⟩ with
  | error ip =>
    constructor
    · exact fun h => h.2 ip rfl
    · rintro h
      refine ⟨fun ip' h' => (nomatch h'), fun ip' h' => ?_⟩
      cases h'
      exact h
  | ok r =>
    rw [hp] at hnone
    cases hnone

/-- **`parse_ip_str` accepts dotted quads only and copies inside its slots exactly when the
text is one, or has too few dots and short parts.** -/
theorem parse_ip_quads_iff (s : List Char) : AcceptsQuad s ↔ FewShortParts s ∨ IsQuad s := by
  by_cases hdots : s.count '.' < 3
  · have hnot : ¬ IsQuad s := by
      rintro ⟨a, b, c, d, rfl, ha, hb, hc, hd⟩
      have h := (parseIpStr_eq_none_iff _).mpr hdots
      rw [parseIpStr_eq_some_iff.mpr (fillIp_quad ha hb hc hd)] at h
      cases h
    rw [acceptsQuad_of_fewDots hdots, FewShortParts, and_iff_right hdots, or_iff_left hnot]
  · rw [or_iff_right fun h : FewShortParts s => hdots h.1]
    constructor
    · intro h
      cases hf : fillIp s with
      | error ip =>
        refine absurd ((parseIpStr_eq_none_iff s).mp ?_) hdots
        rw [parseIpStr, hf]
        rfl
      | ok ip =>
        obtain ⟨a, b, c, d, rfl, ⟨ha, hb, hc, hd⟩, -⟩ := h.1 ip hf
        exact ⟨a, b, c, d, rfl, ha, hb, hc, hd⟩
    · rintro ⟨a, b, c, d, rfl, ha, hb, hc, hd⟩
      have hf := fillIp_quad ha hb hc hd
      constructor
      · intro ip hparse
        obtain rfl := Except.ok.inj (hf.symm.trans hparse)
        refine ⟨a, b, c, d, rfl, ⟨ha, hb, hc, hd⟩, rfl, ?_, rfl⟩
        simp only [List.map_cons, List.map_nil, ha.toNat_asByte, hb.toNat_asByte, hc.toNat_asByte,
          hd.toNat_asByte]
      · intro ip hparse
        rw [hf] at hparse
        cases hparse

/-- A fifth part is left in the last slot, a number above 255 is cut, no number is a number,
and a long one does not fit, even when the text is refused after it. -/
theorem five_parts_accepted :
    (parseIpStr "1.2.3.4.5".toList).map Ipv4.asCh =
        some ["1".toList, "2".toList, "3".toList, "4.5".toList] ∧
      (parseIpStr "300.2.3.4".toList).map Ipv4.asByte = some [44, 2, 3, 4] ∧
      (parseIpStr "...".toList).isSome = true ∧
      (parseIpStr "10000.2.3.4".toList).map Ipv4.fits = some false ∧
      ¬ AcceptsQuad "10000.2".toList ∧ ¬ ∀ s, AcceptsQuad s := by
  have hfive : (parseIpStr "1.2.3.4.5".toList).map Ipv4.asCh =
      some ["1".toList, "2".toList, "3".toList, "4.5".toList] := by decide +kernel
  refine ⟨hfive, by decide +kernel, by decide +kernel, by decide +kernel, fun h => ?_, fun h => ?_⟩
  · have hfit := h.2 _ rfl
    exact absurd hfit (by decide +kernel)
  · obtain ⟨ip, hparse, hch⟩ := Option.map_eq_some_iff.mp hfive
    obtain ⟨a, b, c, d, -, ⟨-, -, -, hd⟩, htexts, -⟩ := (h _).1 ip (parseIpStr_eq_some_iff.mp hparse)
    rw [hch] at htexts
    have hlast : "4.5".toList = d := by simpa using congrArg List.getLast? htexts
    exact hd.not_mem (c := '.') rfl (hlast ▸ by decide)

end V2

/-! ## What `get_current_ip` makes of a quad -/

section
variable (front tail : List Char) {t r : List Char}

/-- A token with a dot after it. -/
theorem strtok_dot (ht : IsOctet t) (hr : nul ∉ r) :
    strtok '.' (front ++ (t ++ '.' :: r ++ nul :: tail)) front.length =
      ⟨some t, front ++ t ++ [nul] ++ (r ++ nul :: tail), (front ++ t ++ [nul]).length⟩ := by
  have hone : OneToken '.' [] t := oneToken_of_not_mem (ht.not_mem rfl)
  have hnul : nul ∉ [] ++ (t ++ '.' :: r) := by
    simp only [List.nil_append, List.mem_append, List.mem_cons, not_or]
    exact ⟨ht.not_mem rfl, by decide, hr⟩
  have hcut := strtok_cut front tail hone ht.ne_nil hnul
  simp only [List.nil_append] at hcut
  rw [hcut]
  simp only [List.append_assoc, List.singleton_append]

/-- The last token. -/
theorem strtok_end (ht : IsOctet t) :
    strtok '.' (front ++ (t ++ nul :: tail)) front.length =
      ⟨some t, front ++ t ++ nul :: tail, (front ++ t).length⟩ := by
  have hone : OneToken '.' [] t := oneToken_of_not_mem (ht.not_mem rfl)
  have hlast := strtok_last front tail hone (by decide) (ht.not_mem rfl)
  rwa [if_neg ht.ne_nil, List.nil_append] at hlast

/-- No token is left. -/
theorem strtok_none : (strtok '.' (front ++ nul :: tail) front.length).token = none := by
  have hone : OneToken '.' [] [] := oneToken_of_not_mem List.not_mem_nil
  have hlast := strtok_last front tail hone (by decide) List.not_mem_nil
  rw [if_pos rfl] at hlast
  exact congrArg Result.token hlast

end

/-- The file is cut where its address ends. -/
theorem cut_file {stop : Char} (hstop : stop ≠ nul) {addr : List Char} (hno : stop ∉ addr)
    (hnul : nul ∉ addr) (len : List Char) :
    stop ∈ cText (addr ++ stop :: len) ∧
      (addr ++ stop :: len ++ [nul]).set ((cText (addr ++ stop :: len)).idxOf stop) nul =
        addr ++ nul :: (len ++ [nul]) := by
  have hstopped : nul ∉ addr ++ [stop] := by
    rw [List.mem_append, List.mem_singleton, not_or]
    exact ⟨hnul, hstop.symm⟩
  have htext : cText (addr ++ stop :: len) = addr ++ stop :: cText len := by
    rw [List.append_cons, cText, List.takeWhile_append_of_pos (Block.not_blank hstopped), ← List.append_cons]
    rfl
  rw [htext]
  refine ⟨List.mem_append_right _ List.mem_cons_self, ?_⟩
  rw [List.idxOf_append_of_notMem hno, List.idxOf_cons_self, Nat.add_zero, List.append_assoc,
    List.set_append_right _ _ (Nat.le_refl _), Nat.sub_self]
  rfl

theorem not_mem_dotted4 {x : Char} (hx : x.isDigit = false) (hdot : x ≠ '.') {a b c d : CStr}
    (ha : IsOctet a) (hb : IsOctet b) (hc : IsOctet c) (hd : IsOctet d) : x ∉ dotted4 a b c d := by
  simp only [dotted4, List.mem_append, List.mem_cons, not_or]
  exact ⟨ha.not_mem hx, hdot, hb.not_mem hx, hdot, hc.not_mem hx, hdot, hd.not_mem hx⟩

/-- The loop takes the three tokens after the first. -/
theorem ipTokens_quad (front tail : List Char) {b c d : CStr} (hb : IsOctet b) (hc : IsOctet c)
    (hd : IsOctet d) (slots : Slots) (n : Nat) :
    ipTokens (n + 4) (front ++ (b ++ '.' :: (c ++ '.' :: d) ++ nul :: tail)) front.length 1 slots =
      some (((slots.strcpy 1 b).strcpy 2 c).strcpy 3 d) := by
  have hrest : nul ∉ c ++ '.' :: d := by
    simp only [List.mem_append, List.mem_cons, not_or]
    exact ⟨hc.short.2, by decide, hd.short.2⟩
  have h2 := strtok_dot front tail hb hrest
  have h3 := strtok_dot (front ++ b ++ [nul]) tail hc hd.short.2
  have h4 := strtok_end (front ++ b ++ [nul] ++ c ++ [nul]) tail hd
  have h5 := strtok_none (front ++ b ++ [nul] ++ c ++ [nul] ++ d) tail
  rw [ipTokens, h2]
  dsimp only
  rw [if_pos (by decide), ipTokens, h3]
  dsimp only
  rw [if_pos (by decide), ipTokens, h4]
  dsimp only
  rw [if_pos (by decide), ipTokens, h5]

/-- **The first version decodes a dotted quad too, but its address is the first number.** -/
theorem tokenizeIp_quad (stop : Char) (hstop : stop ≠ nul ∧ stop ≠ '.' ∧ stop.isDigit = false)
    {a b c d : CStr} (ha : IsOctet a) (hb : IsOctet b) (hc : IsOctet c) (hd : IsOctet d)
    (len : List Char) :
    tokenizeIp stop (dotted4 a b c d ++ stop :: len) = some ⟨a, [a, b, c, d],
      [asByte a, asByte b, asByte c, asByte d], true⟩ := by
  obtain ⟨hmem, hset⟩ := cut_file hstop.1 (not_mem_dotted4 hstop.2.2 hstop.2.1 ha hb hc hd)
    (not_mem_dotted4 rfl (by decide) ha hb hc hd) len
  obtain ⟨htexts, hfits⟩ := Slots.four_texts ha.short hb.short hc.short hd.short
  have hrest : nul ∉ b ++ '.' :: (c ++ '.' :: d) := by
    simp only [List.mem_append, List.mem_cons, not_or]
    exact ⟨hb.short.2, by decide, hc.short.2, by decide, hd.short.2⟩
  have hfirst : strtok '.' (dotted4 a b c d ++ nul :: (len ++ [nul])) 0 =
      ⟨some a, a ++ [nul] ++ (b ++ '.' :: (c ++ '.' :: d) ++ nul :: (len ++ [nul])), (a ++ [nul]).length⟩ :=
    strtok_dot [] (len ++ [nul]) ha hrest
  have hstr : cstrAt (a ++ [nul] ++ (b ++ '.' :: (c ++ '.' :: d) ++ nul :: (len ++ [nul]))) 0 = a := by
    rw [List.append_assoc a]
    exact cstrAt_append [] ha.short.2
  obtain ⟨n, hn⟩ : ∃ n, (dotted4 a b c d ++ stop :: len).length + 1 = n + 4 := by
    refine ⟨(dotted4 a b c d ++ stop :: len).length - 3, ?_⟩
    simp only [dotted4, List.length_append, List.length_cons]
    omega
  have htokens := ipTokens_quad (a ++ [nul]) (len ++ [nul]) hb hc hd (Slots.zero.strcpy 0 a) n
  have hshort : a.length < 32 := Nat.lt_of_le_of_lt ha.length_le (by decide)
  have hbytes := congrArg (List.map asByte) htexts
  rw [List.map_map] at hbytes
  unfold tokenizeIp
  simp only [if_pos hmem, hset, hfirst, hn, htokens, Option.map_some, hstr, htexts, hfits,
    decide_eq_true hshort, Bool.and_self]
  exact congrArg (fun bytes => some (⟨a, [a, b, c, d], bytes, true⟩ : Ipv4)) hbytes

/-! ## Both versions -/

/-- The address as `dec` prints its bytes. -/
def addressText (a b c d : UInt8) : CStr := dotted4 (dec a.toNat) (dec b.toNat) (dec c.toNat) (dec d.toNat)

/-- The numbers of the address as texts and as bytes, each inside its slot. -/
def Ipv4.HasNumbers (ip : Ipv4) (a b c d : UInt8) : Prop :=
  ip.asCh = [dec a.toNat, dec b.toNat, dec c.toNat, dec d.toNat] ∧ ip.asByte = [a, b, c, d] ∧ ip.fits = true

/-- The two versions give the numbers and the text of the address. -/
def AddressAgrees (a b c d : UInt8) (len : List Char) : Prop :=
  (∃ ip, getCurrentIp (addressText a b c d ++ '/' :: len) = some ip ∧
      ip.HasNumbers a b c d ∧ ip.asStr = addressText a b c d) ∧
    ∃ ip, V2.parseIpStr (addressText a b c d) = some ip ∧
      ip.HasNumbers a b c d ∧ ip.asStr = addressText a b c d

/-- **Both versions decode the numbers of every address, but never agree on its text**: the first
one copies it when only its first number is left. -/
theorem addresses_never_agree (a b c d : UInt8) (len : List Char) :
    (∃ ip, getCurrentIp (addressText a b c d ++ '/' :: len) = some ip ∧
        ip.HasNumbers a b c d ∧ ip.asStr = dec a.toNat) ∧
      (∃ ip, V2.parseIpStr (addressText a b c d) = some ip ∧
        ip.HasNumbers a b c d ∧ ip.asStr = addressText a b c d) ∧
      ¬ AddressAgrees a b c d len := by
  have hv1 : getCurrentIp (addressText a b c d ++ '/' :: len) = _ :=
    tokenizeIp_quad '/' (by decide) (isOctet_dec a) (isOctet_dec b) (isOctet_dec c) (isOctet_dec d) len
  have hv2 := V2.parseIpStr_eq_some_iff.mpr
    (V2.fillIp_quad (isOctet_dec a) (isOctet_dec b) (isOctet_dec c) (isOctet_dec d))
  simp only [asByte_dec] at hv1 hv2
  refine ⟨⟨_, hv1, ⟨rfl, rfl, rfl⟩, rfl⟩, ⟨_, hv2, ⟨rfl, rfl, rfl⟩, rfl⟩, ?_⟩
  rintro ⟨⟨ip, hip, -, hstr⟩, -⟩
  obtain rfl := Option.some.inj (hv1.symm.trans hip)
  have hstr : dec a.toNat = addressText a b c d := hstr
  have hdot : '.' ∈ dec a.toNat := by
    rw [hstr]
    exact List.mem_append_right _ List.mem_cons_self
  exact (isOctet_dec a).not_mem rfl hdot

/-- The first version gives `"192"` for 192.168.0.10. -/
theorem first_number_as_address :
    (getCurrentIp "192.168.0.10/24\n".toList).map Ipv4.asStr = some "192".toList ∧
      (V2.parseIpStr "192.168.0.10".toList).map Ipv4.asStr = some "192.168.0.10".toList ∧
      ¬ AddressAgrees 192 168 0 10 "24\n".toList := by
  have hv1 : (getCurrentIp "192.168.0.10/24\n".toList).map Ipv4.asStr = some "192".toList := by
    decide +kernel
  refine ⟨hv1, by decide +kernel, ?_⟩
  rintro ⟨⟨ip, hip, -, hstr⟩, -⟩
  have hfile : addressText 192 168 0 10 ++ '/' :: "24\n".toList = "192.168.0.10/24\n".toList := by
    decide +kernel
  rw [← hfile, hip, Option.map_some, hstr] at hv1
  exact absurd hv1 (by decide +kernel)

end Growbox
