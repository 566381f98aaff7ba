import Growbox.Jsont
import Growbox.Lib.Block
import Growbox.Lib.NumberText

/-!
# `cJSON.c`: parsing

The parser moves an offset over a text and its terminator.  Some of its reads are not checked
against the length, and a string is decoded into memory whose size is estimated by a first pass
over it, which does not see an escape with four digits the way the second one does.  No access
is undefined all the same, and every loop ends (`parse_defined`).
-/

namespace Growbox

open NumberText JsonText

/-! ## The buffer -/

/-- `false` was returned, or there was an access outside of the memory.  A list that has not ended
within its bound counts as undefined too; the second pass over a string cannot run out of its own
(`decodeString`). -/
inductive ParseFault where
  | failed | undefined
  deriving DecidableEq, Repr

/-- `content` holds the text and its terminator, `length` characters. -/
structure ParseBuffer where
  content : List Char
  offset : Nat

/-- What is skipped between tokens: more than the whitespace of JSON. -/
def isBlank (c : Char) : Bool := decide (c.toNat ≤ 32)

namespace ParseBuffer

def length (b : ParseBuffer) : Nat := b.content.length

/-- `buffer_at_offset(buffer)[index]` -/
def charAt (b : ParseBuffer) (index : Nat) : Except ParseFault Char :=
  match b.content[b.offset + index]? with
  | some c => .ok c
  | none => .error .undefined

/-- `can_access_at_index(buffer, 0)`, and the character there is `c`. -/
def sees (b : ParseBuffer) (c : Char) : Bool :=
  decide (b.offset < b.length) && decide (b.content[b.offset]? = some c)

/-- `can_read` and `strncmp` -/
def startsWith (b : ParseBuffer) (word : List Char) : Bool :=
  decide (b.offset + word.length ≤ b.length) && decide ((b.content.drop b.offset).take word.length = word)

def advance (b : ParseBuffer) (n : Nat) : ParseBuffer := { b with offset := b.offset + n }

/-- `buffer_skip_whitespace`: the terminator counts as whitespace, but is gone back to. -/
def skipWhitespace (b : ParseBuffer) : ParseBuffer :=
  let offset := b.offset + ((b.content.drop b.offset).takeWhile isBlank).length
  { b with offset := if offset = b.length then offset - 1 else offset }

/-- `skip_utf8_bom` -/
def skipUtf8Bom (b : ParseBuffer) : ParseBuffer :=
  if b.offset + 4 < b.length ∧ (b.content.drop b.offset).take 3 = [Char.ofNat 0xEF, Char.ofNat 0xBB, Char.ofNat 0xBF]
  then b.advance 3 else b

end ParseBuffer

/-! ## Numbers -/

def isNumberChar (c : Char) : Bool := "0123456789+-eE.".toList.contains c

/-- At most 63 characters are copied for `strtod`. -/
def parseNumber (b : ParseBuffer) : Except ParseFault (CJson × ParseBuffer) :=
  let numberCString := ((b.content.drop b.offset).take 63).takeWhile isNumberChar
  match strtod numberCString with
  | none => .error .failed
  | some (number, afterEnd) => .ok (.number number, b.advance (numberCString.length - afterEnd.length))

/-! ## Strings -/

def hexDigit (c : Char) : Option Nat :=
  if '0' ≤ c ∧ c ≤ '9' then some (c.toNat - '0'.toNat)
  else if 'A' ≤ c ∧ c ≤ 'F' then some (10 + c.toNat - 'A'.toNat)
  else if 'a' ≤ c ∧ c ≤ 'f' then some (10 + c.toNat - 'a'.toNat)
  else none

/-- `parse_hex4` from the number so far; 0 where there is no digit. -/
def parseHex (h : Nat) : List Char → Nat
  | [] => h
  | c :: input =>
    match hexDigit c with
    | some d => parseHex (h <<< 4 + d) input
    | none => 0

def parseHex4 (input : List Char) : Nat := parseHex 0 input

/-- The last `n` of the bytes, from the last one on, and what is left of the code point. -/
def continuation (codepoint : Nat) : Nat → Nat × List Char
  | 0 => (codepoint, [])
  | n + 1 =>
    let (rest, bytes) := continuation (codepoint >>> 6) n
    (rest, bytes ++ [Char.ofNat ((codepoint ||| 0x80) &&& 0xBF)])

def encodeUtf8 (codepoint : Nat) : Option (List Char) :=
  if codepoint < 0x80 then some [Char.ofNat (codepoint &&& 0x7F)]
  else
    let encode (length mark : Nat) : List Char :=
      let (rest, bytes) := continuation codepoint (length - 1)
      Char.ofNat ((rest ||| mark) &&& 0xFF) :: bytes
    if codepoint < 0x800 then some (encode 2 0xC0)
    else if codepoint < 0x10000 then some (encode 3 0xE0)
    else if codepoint ≤ 0x10FFFF then some (encode 4 0xF0)
    else none

/-- The characters of `[first, first + n)`. -/
def ParseBuffer.slice (b : ParseBuffer) (first n : Nat) : Except ParseFault (List Char) :=
  if first + n ≤ b.length then .ok ((b.content.drop first).take n) else .error .undefined

/-- The length of the sequence and the bytes it stands for. -/
def encoded (sequenceLength codepoint : Nat) : Except ParseFault (Nat × List Char) :=
  match encodeUtf8 codepoint with
  | some bytes => .ok (sequenceLength, bytes)
  | none => .error .failed

/-- The second half of a pair, at `secondSequence`. -/
def surrogatePair (b : ParseBuffer) (firstCode secondSequence inputEnd : Nat) :
    Except ParseFault (Nat × List Char) :=
  if inputEnd < secondSequence + 6 then .error .failed
  else do
    let mark ← b.slice secondSequence 2
    if mark ≠ ['\\', 'u'] then .error .failed
    else do
      let digits ← b.slice (secondSequence + 2) 4
      let secondCode := parseHex4 digits
      if secondCode < 0xDC00 ∨ 0xDFFF < secondCode then .error .failed
      else encoded 12 (0x10000 + ((firstCode &&& 0x3FF) <<< 10 ||| (secondCode &&& 0x3FF)))

def utf16LiteralToUtf8 (b : ParseBuffer) (inputPointer inputEnd : Nat) : Except ParseFault (Nat × List Char) :=
  if inputEnd < inputPointer + 6 then .error .failed
  else do
    let digits ← b.slice (inputPointer + 2) 4
    let firstCode := parseHex4 digits
    if 0xDC00 ≤ firstCode ∧ firstCode ≤ 0xDFFF then .error .failed
    else if 0xD800 ≤ firstCode ∧ firstCode ≤ 0xDBFF then
      surrogatePair b firstCode (inputPointer + 6) inputEnd
    else encoded 6 firstCode

/-- The first pass, over what is left of the buffer: where the string ends, and how many
backslashes it skips the next character of. -/
def scanString (inputEnd skippedBytes : Nat) : List Char → Option (Nat × Nat)
  | [] => none
  | c :: rest =>
    if c = '"' then some (inputEnd, skippedBytes)
    else if c = '\\' then
      match rest with
      | [] => none
      | _ :: rest => scanString (inputEnd + 2) (skippedBytes + 1) rest
    else scanString (inputEnd + 1) skippedBytes rest

@[simp] theorem scanString_quote (e k : Nat) (t : List Char) : scanString e k ('"' :: t) = some (e, k) := by
  rw [scanString.eq_def]
  exact if_pos rfl

theorem scanString_cons {c : Char} (hquote : c ≠ '"') (hback : c ≠ '\\') (e k : Nat) (t : List Char) :
    scanString e k (c :: t) = scanString (e + 1) k t := by
  rw [scanString.eq_def]
  dsimp only
  rw [if_neg hquote, if_neg hback]

@[simp] theorem scanString_escape (c : Char) (e k : Nat) (t : List Char) :
    scanString e k ('\\' :: c :: t) = scanString (e + 2) (k + 1) t := by
  rw [scanString.eq_def]
  rfl

/-- Bytes go to the memory of `size`. -/
def emit (size : Nat) (output bytes : List Char) : Except ParseFault (List Char) :=
  if output.length + bytes.length ≤ size then .ok (output ++ bytes) else .error .undefined

def unescape (c : Char) : Option Char :=
  if c = 'b' then some (Char.ofNat 8)
  else if c = 'f' then some (Char.ofNat 12)
  else if c = 'n' then some '\n'
  else if c = 'r' then some '\r'
  else if c = 't' then some '\t'
  else if c = '"' ∨ c = '\\' ∨ c = '/' then some c
  else none

/-- The second pass; every round takes a character, so there are at most as many as are left. -/
def decodeString (b : ParseBuffer) (size inputEnd : Nat) :
    Nat → Nat → List Char → Except ParseFault (List Char)
  | 0, _, output => .ok output
  | n + 1, inputPointer, output =>
    if inputPointer < inputEnd then do
      let c ← { b with offset := inputPointer }.charAt 0
      if c ≠ '\\' then do
        let output ← emit size output [c]
        decodeString b size inputEnd n (inputPointer + 1) output
      else do
        let e ← { b with offset := inputPointer }.charAt 1
        match unescape e with
        | some d => do
          let output ← emit size output [d]
          decodeString b size inputEnd n (inputPointer + 2) output
        | none =>
          if e = 'u' then do
            let (sequenceLength, bytes) ← utf16LiteralToUtf8 b inputPointer inputEnd
            let output ← emit size output bytes
            decodeString b size inputEnd n (inputPointer + sequenceLength) output
          else .error .failed
    else .ok output

def parseString (b : ParseBuffer) : Except ParseFault (CStr × ParseBuffer) := do
  let c ← b.charAt 0
  if c = '"' then
    match scanString (b.offset + 1) 0 (b.content.drop (b.offset + 1)) with
    | none => .error .failed
    | some (inputEnd, skippedBytes) => do
      let size := inputEnd - b.offset - skippedBytes + 1
      let output ← decodeString b size inputEnd (inputEnd - (b.offset + 1)) (b.offset + 1) []
      let output ← emit size output [nul]
      return (cText output, { b with offset := inputEnd + 1 })
  else .error .failed

/-! ## Values -/

/-- The loop of `parse_array` and `parse_object`; `n` bounds its rounds. -/
def parseList {α : Type} (parseItem : ParseBuffer → Except ParseFault (α × ParseBuffer)) :
    Nat → ParseBuffer → Except ParseFault (List α × ParseBuffer)
  | 0, _ => .error .undefined
  | n + 1, b => do
    let (item, b) ← parseItem (b.advance 1).skipWhitespace
    let b := b.skipWhitespace
    if b.sees ',' then do
      let (items, b) ← parseList parseItem n b
      return (item :: items, b)
    else return ([item], b)

/-- From the opening bracket to the closing one.  The offset is set back before the loop. -/
def parseClosed {α : Type} (close : Char) (parseItem : ParseBuffer → Except ParseFault (α × ParseBuffer))
    (b : ParseBuffer) : Except ParseFault (List α × ParseBuffer) :=
  let b := (b.advance 1).skipWhitespace
  if b.sees close then .ok ([], b.advance 1)
  else if b.length ≤ b.offset then .error .failed
  else do
    let (items, b) ← parseList parseItem b.length { b with offset := b.offset - 1 }
    if b.sees close then .ok (items, b.advance 1) else .error .failed

def parseArray (parseValue : ParseBuffer → Except ParseFault (CJson × ParseBuffer)) (b : ParseBuffer) :
    Except ParseFault (CJson × ParseBuffer) := do
  let c ← b.charAt 0
  if c = '[' then do
    let (items, b) ← parseClosed ']' parseValue b
    return (.array items, b)
  else .error .failed

/-- A name and a value. -/
def parseMember (parseValue : ParseBuffer → Except ParseFault (CJson × ParseBuffer)) (b : ParseBuffer) :
    Except ParseFault ((String × CJson) × ParseBuffer) := do
  let (name, b) ← parseString b
  let b := b.skipWhitespace
  if b.sees ':' then do
    let (item, b) ← parseValue (b.advance 1).skipWhitespace
    return ((String.ofList name, item), b)
  else .error .failed

def parseObject (parseValue : ParseBuffer → Except ParseFault (CJson × ParseBuffer)) (b : ParseBuffer) :
    Except ParseFault (CJson × ParseBuffer) :=
  if b.sees '{' then do
    let (members, b) ← parseClosed '}' (parseMember parseValue) b
    return (.object members, b)
  else .error .failed

def nestingLimit : Nat := 1000

/-- `levels` more may be nested: `CJSON_NESTING_LIMIT` less the depth. -/
def parseValue (levels : Nat) (b : ParseBuffer) : Except ParseFault (CJson × ParseBuffer) :=
  if b.startsWith "null".toList then .ok (.null, b.advance 4)
  else if b.startsWith "false".toList then .ok (.bool false, b.advance 5)
  else if b.startsWith "true".toList then .ok (.bool true, b.advance 4)
  else if b.sees '"' then do
    let (s, b) ← parseString b
    return (.string s, b)
  else if "-0123456789".toList.any b.sees then parseNumber b
  else if b.sees '[' then
    match levels with
    | 0 => .error .failed
    | levels + 1 => parseArray (parseValue levels) b
  else if b.sees '{' then
    match levels with
    | 0 => .error .failed
    | levels + 1 => parseObject (parseValue levels) b
  else .error .failed

/-- What follows the value is not looked at. -/
def parseText (value : CStr) : Except ParseFault CJson := do
  let b := ParseBuffer.skipUtf8Bom ⟨value ++ [nul], 0⟩
  let (item, _) ← parseValue nestingLimit b.skipWhitespace
  return item

/-- `cJSON_Parse` -/
def cJsonParse (value : CStr) : Body := (parseText value).toOption

/-! ## Where the offset is -/

namespace ParseBuffer

/-- The offset is in front of `s`, which goes on up to the terminator. -/
structure At (b : ParseBuffer) (s : List Char) : Prop where
  rest : b.content.drop b.offset = s ++ [nul]
  plain : nul ∉ s

variable {b : ParseBuffer} {s : List Char}

theorem At.length_eq (h : b.At s) : b.length = b.offset + s.length + 1 := by
  have hlen := congrArg List.length h.rest
  rw [List.length_drop, List.length_append, List.length_singleton] at hlen
  unfold length
  omega

theorem At.getElem? (h : b.At s) (i : Nat) : b.content[b.offset + i]? = (s ++ [nul])[i]? := by
  rw [← h.rest, List.getElem?_drop]

theorem At.charAt (h : b.At s) {i : Nat} {c : Char} (hc : (s ++ [nul])[i]? = some c) : b.charAt i = .ok c := by
  unfold ParseBuffer.charAt
  rw [h.getElem?, hc]

theorem At.sees_iff (h : b.At s) {c : Char} (hc : c ≠ nul) : b.sees c = true ↔ ∃ t, s = c :: t := by
  have hlen := h.length_eq
  have hget := h.getElem? 0
  rw [Nat.add_zero] at hget
  unfold sees
  rw [hget, Bool.and_eq_true, decide_eq_true_eq, decide_eq_true_eq]
  cases s with
  | nil => simp [hc.symm]
  | cons d t =>
    simp only [List.cons_append, List.getElem?_cons_zero, Option.some.injEq, List.cons.injEq]
    constructor
    · rintro ⟨-, rfl⟩
      exact ⟨t, rfl, rfl⟩
    · rintro ⟨t', rfl, -⟩
      exact ⟨by omega, rfl⟩

theorem At.advance {w : List Char} (h : b.At (w ++ s)) : (b.advance w.length).At s where
  rest := by
    show b.content.drop (b.offset + w.length) = _
    rw [← List.drop_drop, h.rest, List.append_assoc, List.drop_left]
  plain := fun hmem => h.plain (List.mem_append_right _ hmem)

theorem At.advance_one {c : Char} (h : b.At (c :: s)) : (b.advance 1).At s := At.advance (w := [c]) h

theorem At.startsWith_iff (h : b.At s) {w : List Char} (hw : nul ∉ w) : b.startsWith w = true ↔ w <+: s := by
  have hlen := h.length_eq
  unfold startsWith
  rw [Bool.and_eq_true, decide_eq_true_eq, decide_eq_true_eq, h.rest]
  constructor
  · rintro ⟨-, heq⟩
    have hpre : w <+: s ++ [nul] := heq ▸ List.take_prefix _ _
    rcases List.prefix_concat_iff.mp hpre with hall | hpre
    · exact absurd (hall ▸ List.mem_append_right s (List.mem_singleton_self nul)) hw
    · exact hpre
  · rintro ⟨t, rfl⟩
    rw [List.length_append] at hlen
    refine ⟨by omega, ?_⟩
    rw [List.append_assoc, List.take_left]

theorem At.skipWhitespace (h : b.At s) : b.skipWhitespace.At (s.dropWhile isBlank) := by
  have hlen := h.length_eq
  refine ⟨?_, fun hmem => h.plain ((List.dropWhile_suffix _).subset hmem)⟩
  have hblank : ∀ c ∈ s.takeWhile isBlank, isBlank c = true := fun c hc => List.mem_takeWhile_imp hc
  have hsplit := List.takeWhile_append_dropWhile (p := isBlank) (l := s)
  have hhead := List.head?_dropWhile_not isBlank s
  unfold ParseBuffer.skipWhitespace
  dsimp only
  rw [h.rest]
  generalize s.takeWhile isBlank = w at hblank hsplit
  generalize s.dropWhile isBlank = t at hsplit hhead
  subst hsplit
  rw [List.length_append] at hlen
  rw [List.append_assoc, List.takeWhile_append_of_pos hblank, List.length_append]
  cases t with
  | nil =>
    -- the terminator is passed and gone back to
    have hnul : (([] : List Char) ++ [nul]).takeWhile isBlank = [nul] := by decide
    rw [hnul, List.length_singleton, if_pos (by rw [hlen]; rfl),
      show b.offset + (w.length + 1) - 1 = b.offset + w.length by omega, ← List.drop_drop, h.rest,
      List.append_assoc, List.drop_left]
  | cons c t =>
    have hc : ¬ isBlank c = true := by simpa using hhead
    rw [List.length_cons] at hlen
    rw [List.cons_append, List.takeWhile_cons_of_neg hc, List.length_nil, Nat.add_zero, if_neg (by omega),
      ← List.drop_drop, h.rest, List.append_assoc, List.drop_left, List.cons_append]

end ParseBuffer

/-! ## The size of a string -/

/-- The backslashes that the first pass skips a character after, over `w`.  `skipped`: the first
character of `w` is one that is skipped. -/
def escapes : Bool → List Char → Nat
  | _, [] => 0
  | true, _ :: w => escapes false w
  | false, c :: w => if c = '\\' then escapes true w + 1 else escapes false w

/-- Whether the first pass skips the character behind `w`. -/
def skipsNext : Bool → List Char → Bool
  | skipped, [] => skipped
  | true, _ :: w => skipsNext false w
  | false, c :: w => if c = '\\' then skipsNext true w else skipsNext false w

theorem escapes_append (q : Bool) (w w' : List Char) :
    escapes q (w ++ w') = escapes q w + escapes (skipsNext q w) w' := by
  induction w generalizing q with
  | nil => simp [escapes, skipsNext]
  | cons c w ih =>
    cases q with
    | true => exact ih false
    | false =>
      simp only [List.cons_append, escapes, skipsNext]
      split_ifs
      · rw [ih]
        omega
      · exact ih false

theorem skipsNext_append (q : Bool) (w w' : List Char) :
    skipsNext q (w ++ w') = skipsNext (skipsNext q w) w' := by
  induction w generalizing q with
  | nil => rfl
  | cons c w ih =>
    cases q with
    | true => exact ih false
    | false =>
      simp only [List.cons_append, skipsNext]
      split_ifs
      · exact ih true
      · exact ih false

/-- A backslash is counted with the character behind it. -/
theorem two_mul_escapes_le (w : List Char) :
    2 * escapes false w ≤ w.length + 1 ∧ 2 * escapes true w ≤ w.length := by
  induction w with
  | nil => simp [escapes]
  | cons c w ih =>
    simp only [escapes, List.length_cons]
    constructor
    · split_ifs <;> omega
    · omega

theorem escapes_le (q : Bool) (w : List Char) : escapes q w ≤ w.length := by
  have h := two_mul_escapes_le w
  cases w with
  | nil => cases q <;> simp [escapes]
  | cons c w =>
    rw [List.length_cons] at h ⊢
    cases q <;> omega

/-- **The first pass** ends at a quotation mark that it does not skip. -/
theorem scanString_some {r : List Char} {e k e' k' : Nat} (h : scanString e k r = some (e', k')) :
    ∃ w t, r = w ++ '"' :: t ∧ e' = e + w.length ∧ k' = k + escapes false w ∧ skipsNext false w = false := by
  fun_induction scanString e k r with
  | case1 => cases h
  | case2 e k rest =>
    cases h
    exact ⟨[], rest, rfl, rfl, rfl, rfl⟩
  | case3 => cases h
  | case4 e k c rest hquote ih =>
    obtain ⟨w, t, rfl, rfl, rfl, hend⟩ := ih h
    refine ⟨'\\' :: c :: w, t, rfl, ?_, ?_, ?_⟩
    · simp only [List.length_cons]
      omega
    · simp only [escapes, if_pos]
      omega
    · simpa only [skipsNext, if_pos] using hend
  | case5 e k c rest hquote hback ih =>
    obtain ⟨w, t, rfl, rfl, rfl, hend⟩ := ih h
    refine ⟨c :: w, t, rfl, ?_, ?_, ?_⟩
    · simp only [List.length_cons]
      omega
    · simp only [escapes, if_neg hback]
    · simpa only [skipsNext, if_neg hback] using hend

/-! ## Bytes of a code point -/

theorem char_le_iff (c d : Char) : c ≤ d ↔ c.toNat ≤ d.toNat := Iff.rfl

theorem hexDigit_lt {c : Char} {d : Nat} (h : hexDigit c = some d) : d < 16 := by
  have h0 : '0'.toNat = 48 ∧ '9'.toNat = 57 ∧ 'A'.toNat = 65 ∧ 'F'.toNat = 70 ∧ 'a'.toNat = 97 ∧
    'f'.toNat = 102 := by decide
  unfold hexDigit at h
  simp only [char_le_iff] at h
  split_ifs at h with h1 h2 h3 <;> cases h <;> omega

theorem parseHex_lt : ∀ (cs : List Char) (h : Nat), parseHex h cs < (h + 1) * 16 ^ cs.length
  | [], h => by simp [parseHex]
  | c :: cs, h => by
    have hpos : 0 < (h + 1) * 16 ^ (c :: cs).length := by positivity
    rw [parseHex]
    cases hc : hexDigit c with
    | none => exact hpos
    | some d =>
      have hd := hexDigit_lt hc
      refine (parseHex_lt cs (h <<< 4 + d)).trans_le ?_
      rw [List.length_cons, pow_succ', ← mul_assoc]
      refine Nat.mul_le_mul_right _ ?_
      rw [Nat.shiftLeft_eq]
      omega

theorem parseHex4_lt {cs : List Char} (h : cs.length = 4) : parseHex4 cs < 65536 := by
  have := parseHex_lt cs 0
  rwa [h] at this

theorem length_continuation (codepoint n : Nat) : (continuation codepoint n).2.length = n := by
  induction n generalizing codepoint with
  | zero => rfl
  | succ n ih => simp [continuation, ih]

theorem length_encodeUtf8_le {codepoint : Nat} {bytes : List Char} (h : encodeUtf8 codepoint = some bytes) :
    bytes.length ≤ 4 ∧ (codepoint < 65536 → bytes.length ≤ 3) := by
  unfold encodeUtf8 at h
  dsimp only at h
  split_ifs at h with h1 h2 h3 h4
  all_goals
    cases h
    simp only [List.length_cons, List.length_nil, length_continuation]
    omega

/-! ## Accesses of the second pass -/

/-- No access is undefined, and what comes out satisfies `Q`. -/
def Defined {α : Type} (r : Except ParseFault α) (Q : α → Prop) : Prop :=
  match r with
  | .ok a => Q a
  | .error .failed => True
  | .error .undefined => False

theorem Defined.bind {α β : Type} {r : Except ParseFault α} {k : α → Except ParseFault β} {Q : α → Prop}
    {Q' : β → Prop} (h : Defined r Q) (hk : ∀ a, Q a → Defined (k a) Q') : Defined (r >>= k) Q' := by
  match r with
  | .ok a => exact hk a h
  | .error .failed => trivial
  | .error .undefined => exact h

theorem Defined.mono {α : Type} {r : Except ParseFault α} {Q Q' : α → Prop} (h : Defined r Q)
    (hQ : ∀ a, Q a → Q' a) : Defined r Q' := by
  match r with
  | .ok a => exact hQ a h
  | .error .failed => trivial
  | .error .undefined => exact h

theorem slice_spec {b : ParseBuffer} {first n : Nat} (h : first + n ≤ b.length) :
    Defined (b.slice first n) fun cs => cs.length = n := by
  unfold ParseBuffer.slice
  rw [if_pos h]
  show ((b.content.drop first).take n).length = n
  rw [List.length_take, List.length_drop]
  unfold ParseBuffer.length at h
  omega

/-- Three bytes for six characters, four for twelve. -/
def LiteralFits (r : Nat × List Char) : Prop := r.1 = 6 ∧ r.2.length ≤ 3 ∨ r.1 = 12 ∧ r.2.length ≤ 4

theorem encoded_spec {n codepoint e i : Nat} (he : i + n ≤ e) (hn : n = 6 ∧ codepoint < 65536 ∨ n = 12) :
    Defined (encoded n codepoint) fun r => i + r.1 ≤ e ∧ LiteralFits r := by
  unfold encoded
  cases hbytes : encodeUtf8 codepoint with
  | none => trivial
  | some bytes =>
    obtain ⟨hfour, hthree⟩ := length_encodeUtf8_le hbytes
    refine ⟨he, ?_⟩
    rcases hn with ⟨rfl, hlt⟩ | rfl
    · exact .inl ⟨rfl, hthree hlt⟩
    · exact .inr ⟨rfl, hfour⟩

theorem surrogatePair_spec {b : ParseBuffer} {firstCode i e : Nat} (he : e ≤ b.length) :
    Defined (surrogatePair b firstCode (i + 6) e) fun r => i + r.1 ≤ e ∧ LiteralFits r := by
  unfold surrogatePair
  by_cases hshort : e < i + 6 + 6
  · rw [if_pos hshort]
    trivial
  rw [if_neg hshort]
  refine (slice_spec (by omega)).bind fun mark _ => ?_
  by_cases hmark : mark ≠ ['\\', 'u']
  · rw [if_pos hmark]
    trivial
  rw [if_neg hmark]
  refine (slice_spec (by omega)).bind fun digits _ => ?_
  dsimp only
  by_cases hsecond : parseHex4 digits < 0xDC00 ∨ 0xDFFF < parseHex4 digits
  · rw [if_pos hsecond]
    trivial
  rw [if_neg hsecond]
  exact encoded_spec (by omega) (.inr rfl)

theorem utf16LiteralToUtf8_spec {b : ParseBuffer} {i e : Nat} (he : e ≤ b.length) :
    Defined (utf16LiteralToUtf8 b i e) fun r => i + r.1 ≤ e ∧ LiteralFits r := by
  unfold utf16LiteralToUtf8
  by_cases hshort : e < i + 6
  · rw [if_pos hshort]
    trivial
  rw [if_neg hshort]
  refine (slice_spec (by omega)).bind fun digits hdigits => ?_
  dsimp only
  split_ifs with hlow hhigh
  · trivial
  · exact surrogatePair_spec he
  · exact encoded_spec (by omega) (.inl ⟨rfl, parseHex4_lt hdigits⟩)

theorem emit_spec {size : Nat} {output bytes : List Char} (h : output.length + bytes.length ≤ size) :
    Defined (emit size output bytes) fun o => o.length = output.length + bytes.length := by
  unfold emit
  rw [if_pos h]
  exact List.length_append

/-- **The second pass** writes no more than the first has counted: with `w` in front of it up to the
end of the string, there is room for every character of `w` that is no counted backslash. -/
theorem decodeString_spec {b : ParseBuffer} {size e : Nat} {t : List Char} (bound : Nat) (hsize : bound ≤ size) :
    ∀ (n : Nat) (q : Bool) (w output : List Char) (i : Nat), b.content.drop i = w ++ '"' :: t → e = i + w.length →
      skipsNext q w = false → output.length + w.length ≤ bound + escapes q w → w.length ≤ n →
        Defined (decodeString b size e n i output) fun o => o.length ≤ bound
  | 0, q, w, output, i, _, _, _, hroom, _ => by
    have := escapes_le q w
    show output.length ≤ bound
    omega
  | n + 1, q, w, output, i, hdrop, he, hq, hroom, hn => by
    have hcount := escapes_le q w
    have hlen : e < b.length := by
      have := congrArg List.length hdrop
      simp only [List.length_drop, List.length_append, List.length_cons] at this
      unfold ParseBuffer.length
      omega
    -- a step over `v`, after which the first pass is in the state behind `v`
    have hstep : ∀ (v w' bytes : List Char), w = v ++ w' → 0 < v.length → bytes.length + escapes q v ≤ v.length →
        Defined (emit size output bytes >>= fun o => decodeString b size e n (i + v.length) o)
          fun o => o.length ≤ bound := by
      rintro v w' bytes rfl hv hbytes
      rw [escapes_append] at hroom hcount
      have hcount' := escapes_le (skipsNext q v) w'
      rw [List.length_append] at he hroom hn
      refine (emit_spec (by omega)).bind fun o ho => ?_
      refine decodeString_spec (t := t) bound hsize n (skipsNext q v) w' o (i + v.length) ?_ (by omega)
        (by rwa [← skipsNext_append]) (by omega) (by omega)
      rw [← List.drop_drop, hdrop, List.append_assoc, List.drop_left]
    have hread : ∀ {j : Nat} {c : Char}, (w ++ '"' :: t)[j]? = some c →
        { b with offset := i }.charAt j = .ok c := by
      intro j c hj
      unfold ParseBuffer.charAt
      rw [← List.getElem?_drop, hdrop, hj]
    rw [decodeString]
    split_ifs with hi
    · obtain ⟨c, w', rfl⟩ : ∃ c w', w = c :: w' := List.exists_cons_of_ne_nil (by rintro rfl; simp at he; omega)
      rw [hread rfl]
      show Defined (if c ≠ '\\' then _ else _) _
      by_cases hc : c ≠ '\\'
      · rw [if_pos hc]
        refine hstep [c] w' [c] rfl (by simp) ?_
        cases q <;> simp [escapes, hc]
      rw [if_neg hc]
      rw [ne_eq, not_not] at hc
      subst hc
      cases w' with
      | nil =>
        -- the first pass has skipped this backslash, so the quotation mark at the end is taken with it
        have hq' : q = true := by
          cases q with
          | true => rfl
          | false => exact absurd hq (by decide)
        subst hq'
        rw [hread (j := 1) rfl]
        show Defined (emit size output ['"'] >>= fun o => decodeString b size e n (i + 2) o) _
        simp only [escapes, List.length_singleton] at hroom he
        refine (emit_spec (by simp; omega)).bind fun o ho => ?_
        have hend : decodeString b size e n (i + 2) o = .ok o := by
          cases n with
          | zero => rfl
          | succ n => rw [decodeString, if_neg (by omega)]
        rw [hend]
        show o.length ≤ bound
        rw [List.length_singleton] at ho
        omega
      | cons x w' =>
        rw [hread (j := 1) rfl]
        show Defined (match unescape x with
          | some d => _
          | none => _) _
        cases hx : unescape x with
        | some d =>
          refine hstep ['\\', x] w' [d] rfl (by simp) ?_
          have hcounted := two_mul_escapes_le ['\\', x]
          simp only [List.length_cons, List.length_nil] at hcounted ⊢
          cases q <;> omega
        | none =>
          dsimp only
          split_ifs with hu
          · refine (utf16LiteralToUtf8_spec hlen.le).bind fun r hr => ?_
            obtain ⟨hend, hfits⟩ := hr
            have hsplit := List.take_append_drop r.1 ('\\' :: x :: w')
            have htake : (('\\' :: x :: w').take r.1).length = r.1 := List.length_take_of_le (by omega)
            have hcounted := two_mul_escapes_le (('\\' :: x :: w').take r.1)
            rw [htake] at hcounted
            have := hstep _ _ r.2 hsplit.symm (by rw [htake]; rcases hfits with h | h <;> omega)
              (by rw [htake]; rcases hfits with h | h <;> cases q <;> omega)
            rwa [htake] at this
          · trivial
    · have hnil : w.length = 0 := by omega
      show output.length ≤ bound
      omega

/-! ## Accesses of the parser -/

/-- The parser gets over at least one character of the text. -/
def Parses {α : Type} (r : Except ParseFault (α × ParseBuffer)) (s : List Char) : Prop :=
  Defined r fun a => ∃ s', a.2.At s' ∧ s'.length < s.length

theorem Parses.pure {α : Type} {s s' : List Char} (a : α) {b : ParseBuffer} (h : b.At s')
    (hlt : s'.length < s.length) : Parses (.ok (a, b)) s := ⟨s', h, hlt⟩

theorem Parses.bind {α β : Type} {r : Except ParseFault (α × ParseBuffer)} {s : List Char}
    {k : α × ParseBuffer → Except ParseFault (β × ParseBuffer)} (h : Parses r s)
    (hk : ∀ a b s', ParseBuffer.At b s' → s'.length < s.length → Parses (k (a, b)) s) : Parses (r >>= k) s :=
  Defined.bind h fun a ⟨s', hat, hlt⟩ => hk a.1 a.2 s' hat hlt

section
variable {b : ParseBuffer} {s : List Char}

open ParseBuffer (At)

/-- The quotation mark at the end of a string is not the terminator. -/
theorem scanString_text {e k : Nat} {r : Nat × Nat} (h : scanString e k (s ++ [nul]) = some r) :
    ∃ w t, s = w ++ '"' :: t ∧ r = (e + w.length, k + escapes false w) ∧ skipsNext false w = false := by
  obtain ⟨w, t, hw, he, hk, hq⟩ := @scanString_some _ _ _ r.1 r.2 h
  refine ⟨w, t.dropLast, ?_, Prod.ext he hk, hq⟩
  have hne : t ≠ [] := by
    rintro rfl
    have hlast := congrArg List.getLast? hw
    simp [nul] at hlast
  have hcut := congrArg List.dropLast hw
  rwa [List.dropLast_concat, List.dropLast_append_of_ne_nil (List.cons_ne_nil _ _),
    List.dropLast_cons_of_ne_nil hne] at hcut

theorem parseString_spec (h : b.At s) : Parses (parseString b) s := by
  unfold parseString
  cases s with
  | nil =>
    rw [h.charAt (i := 0) rfl]
    trivial
  | cons c s =>
    rw [h.charAt (i := 0) rfl]
    show Defined (if c = '"' then _ else _) _
    by_cases hc : ¬ c = '"'
    · rw [if_neg hc]
      trivial
    rw [if_pos (not_not.mp hc)]
    have hat := h.advance_one
    have hdrop : b.content.drop (b.offset + 1) = s ++ [nul] := hat.rest
    rw [hdrop]
    show Defined (match scanString (b.offset + 1) 0 (s ++ [nul]) with
      | none => _
      | some (e, k) => _) _
    cases hscan : scanString (b.offset + 1) 0 (s ++ [nul]) with
    | none => trivial
    | some r =>
      obtain ⟨w, t, rfl, rfl, hq⟩ := scanString_text hscan
      have hcount := escapes_le false w
      dsimp only
      refine Defined.bind (decodeString_spec (t := t ++ [nul]) (w.length - escapes false w) (by omega) _
        false w [] _ (by rw [hdrop]; simp) rfl hq (by simp; omega) (by omega)) fun o ho => ?_
      refine (emit_spec (by simp; omega)).bind fun o' _ => ?_
      refine ⟨t, ?_, by simp; omega⟩
      have hat' := At.advance (w := w ++ ['"']) (s := t) (b := b.advance 1) (by simpa using hat)
      have hoffset : b.offset + 1 + w.length + 1 = b.offset + 1 + (w ++ ['"']).length := by
        rw [List.length_append]
        rfl
      show At { b with offset := b.offset + 1 + w.length + 1 } t
      rw [hoffset]
      exact hat'

/-- The characters that are copied are of the text. -/
theorem numberChars_prefix (s : List Char) : ((s ++ [nul]).take 63).takeWhile isNumberChar <+: s := by
  have hpre : ((s ++ [nul]).take 63).takeWhile isNumberChar <+: s ++ [nul] :=
    (List.takeWhile_prefix _).trans (List.take_prefix _ _)
  have hnul : nul ∉ ((s ++ [nul]).take 63).takeWhile isNumberChar := fun hmem =>
    absurd (List.mem_takeWhile_imp hmem) (by decide)
  rcases List.prefix_concat_iff.mp hpre with hall | hpre
  · rw [hall] at hnul
    exact absurd (List.mem_append_right s (List.mem_singleton_self nul)) hnul
  · exact hpre

theorem parseNumber_spec (h : b.At s) : Parses (parseNumber b) s := by
  have hprefix := numberChars_prefix s
  unfold parseNumber
  dsimp only
  rw [h.rest]
  obtain ⟨t, ht⟩ := hprefix
  generalize ((s ++ [nul]).take 63).takeWhile isNumberChar = w at ht
  subst ht
  cases hread : strtod w with
  | none => trivial
  | some r =>
    obtain ⟨number, afterEnd⟩ := r
    obtain ⟨⟨n, r⟩, hscan, hr⟩ := Option.map_eq_some_iff.mp hread
    cases hr
    obtain ⟨⟨v, hv⟩, hlt⟩ := scan_suffix hscan
    subst hv
    rw [List.length_append] at hlt
    refine ⟨r ++ t, ?_, by simp only [List.length_append]; omega⟩
    have hat := At.advance (w := v) (s := r ++ t) (b := b) (by rwa [← List.append_assoc])
    rwa [List.length_append, Nat.add_sub_cancel]

theorem At.skip (h : b.At s) : ∃ t, b.skipWhitespace.At t ∧ t.length ≤ s.length :=
  ⟨_, h.skipWhitespace, (List.dropWhile_suffix _).length_le⟩

/-- A character that is seen is gone over. -/
theorem At.advance_sees (h : b.At s) {c : Char} (hc : c ≠ nul) (hs : b.sees c = true) :
    ∃ t, (b.advance 1).At t ∧ t.length < s.length := by
  obtain ⟨t, rfl⟩ := (h.sees_iff hc).mp hs
  exact ⟨t, h.advance_one, by simp⟩

/-- The step back in front of the loops is undone by their first round. -/
theorem advance_back (hpos : 0 < b.offset) : ParseBuffer.advance { b with offset := b.offset - 1 } 1 = b := by
  unfold ParseBuffer.advance
  dsimp only
  rw [Nat.sub_one_add_one (Nat.ne_of_gt hpos)]

theorem offset_pos (h : (b.advance 1).At s) : 0 < (b.advance 1).skipWhitespace.offset := by
  have hlen := h.length_eq
  have hoff : (b.advance 1).offset = b.offset + 1 := rfl
  unfold ParseBuffer.skipWhitespace
  dsimp only
  split_ifs <;> omega

section
variable {α : Type} {parseItem : ParseBuffer → Except ParseFault (α × ParseBuffer)}
  (hitem : ∀ (b : ParseBuffer) (s : List Char), b.At s → Parses (parseItem b) s)

include hitem

/-- **Every round takes a character**, so the rounds are enough. -/
theorem parseList_spec : ∀ (n : Nat) (b : ParseBuffer) (s : List Char), (b.advance 1).At s → s.length < n →
    Parses (parseList parseItem n b) s
  | n + 1, b, s, h, hn => by
    obtain ⟨t, ht, hle⟩ := At.skip h
    unfold parseList
    refine Parses.bind ((hitem _ t ht).mono fun a ⟨u, hu, hlt⟩ => ⟨u, hu, hlt.trans_le hle⟩) fun item b₁ s₁ h₁ hlt₁ => ?_
    obtain ⟨t₁, ht₁, hle₁⟩ := At.skip h₁
    dsimp only
    split_ifs with hcomma
    · obtain ⟨t₂, ht₂, hlt₂⟩ := At.advance_sees ht₁ (by decide) hcomma
      refine Parses.bind ((parseList_spec n _ t₂ ht₂ (by omega)).mono
        fun a ⟨u, hu, hlt⟩ => ⟨u, hu, by omega⟩) fun items b₂ s₂ h₂ hlt₃ => ?_
      exact Parses.pure _ h₂ hlt₃
    · exact Parses.pure _ ht₁ (by omega)

theorem parseClosed_spec {c close : Char} (hclose : close ≠ nul) (h : b.At (c :: s)) :
    Parses (parseClosed close parseItem b) (c :: s) := by
  have hat := h.advance_one
  obtain ⟨t, ht, hle⟩ := At.skip hat
  have hpos := offset_pos hat
  have hlen := ht.length_eq
  unfold parseClosed
  dsimp only
  split_ifs with hempty hend
  · obtain ⟨t', ht', hlt⟩ := At.advance_sees ht hclose hempty
    exact Parses.pure _ ht' (by rw [List.length_cons]; omega)
  · trivial
  · refine Parses.bind ((parseList_spec hitem _ _ t (by rwa [advance_back hpos]) (by omega)).mono
      fun a ⟨u, hu, hlt⟩ => ⟨u, hu, by rw [List.length_cons]; omega⟩) fun items b₁ s₁ h₁ hlt₁ => ?_
    dsimp only
    split_ifs with hsees
    · obtain ⟨t', ht', hlt⟩ := At.advance_sees h₁ hclose hsees
      exact Parses.pure _ ht' (by omega)
    · trivial

end

section
variable {pv : ParseBuffer → Except ParseFault (CJson × ParseBuffer)}
  (hpv : ∀ (b : ParseBuffer) (s : List Char), b.At s → Parses (pv b) s)

include hpv

theorem parseMember_spec (b : ParseBuffer) (s : List Char) (h : b.At s) : Parses (parseMember pv b) s := by
  unfold parseMember
  refine (parseString_spec h).bind fun name b₁ s₁ h₁ hlt₁ => ?_
  obtain ⟨t₁, ht₁, hle₁⟩ := At.skip h₁
  dsimp only
  split_ifs with hcolon
  · obtain ⟨t₂, ht₂, hlt₂⟩ := At.advance_sees ht₁ (by decide) hcolon
    obtain ⟨t₃, ht₃, hle₃⟩ := At.skip ht₂
    refine Parses.bind ((hpv _ t₃ ht₃).mono fun a ⟨u, hu, hlt⟩ => ⟨u, hu, by omega⟩) fun item b₂ s₂ h₂ hlt₃ => ?_
    exact Parses.pure _ h₂ hlt₃
  · trivial

theorem parseArray_spec {t : List Char} (h : b.At ('[' :: t)) : Parses (parseArray pv b) ('[' :: t) := by
  unfold parseArray
  rw [h.charAt (i := 0) rfl]
  exact (parseClosed_spec hpv (by decide) h).bind fun items b₁ s₁ h₁ hlt => Parses.pure _ h₁ hlt

theorem parseObject_spec {t : List Char} (h : b.At ('{' :: t)) : Parses (parseObject pv b) ('{' :: t) := by
  unfold parseObject
  rw [if_pos ((h.sees_iff (by decide)).mpr ⟨t, rfl⟩)]
  exact (parseClosed_spec (parseMember_spec hpv) (by decide) h).bind fun members b₁ s₁ h₁ hlt => Parses.pure _ h₁ hlt

end

/-- A word that the text begins with. -/
theorem At.advance_word (h : b.At s) {w : List Char} (hw : nul ∉ w) (hpos : 0 < w.length)
    (hs : b.startsWith w = true) (v : CJson) : Parses (.ok (v, b.advance w.length)) s := by
  obtain ⟨t, rfl⟩ := (h.startsWith_iff hw).mp hs
  exact Parses.pure _ h.advance (by rw [List.length_append]; omega)

theorem parseValue_spec : ∀ (levels : Nat) (b : ParseBuffer) (s : List Char), b.At s → Parses (parseValue levels b) s := by
  intro levels
  induction levels with
  | zero =>
    intro b s h
    unfold parseValue
    split_ifs with hnull hfalse htrue hquote hnumber harray hobject
    · exact At.advance_word h (by decide) (by decide) hnull _
    · exact At.advance_word h (by decide) (by decide) hfalse _
    · exact At.advance_word h (by decide) (by decide) htrue _
    · exact (parseString_spec h).bind fun name b₁ s₁ h₁ hlt => Parses.pure _ h₁ hlt
    · exact parseNumber_spec h
    · trivial
    · trivial
    · trivial
  | succ levels ih =>
    intro b s h
    unfold parseValue
    split_ifs with hnull hfalse htrue hquote hnumber harray hobject
    · exact At.advance_word h (by decide) (by decide) hnull _
    · exact At.advance_word h (by decide) (by decide) hfalse _
    · exact At.advance_word h (by decide) (by decide) htrue _
    · exact (parseString_spec h).bind fun name b₁ s₁ h₁ hlt => Parses.pure _ h₁ hlt
    · exact parseNumber_spec h
    · obtain ⟨t, rfl⟩ := (h.sees_iff (by decide)).mp harray
      exact parseArray_spec ih h
    · obtain ⟨t, rfl⟩ := (h.sees_iff (by decide)).mp hobject
      exact parseObject_spec ih h
    · trivial

end

theorem at_start {value : CStr} (h : nul ∉ value) : ParseBuffer.At ⟨value ++ [nul], 0⟩ value := ⟨rfl, h⟩

def bom : List Char := [Char.ofNat 0xEF, Char.ofNat 0xBB, Char.ofNat 0xBF]

theorem at_skipUtf8Bom {b : ParseBuffer} {s : List Char} (h : b.At s) : ∃ t, b.skipUtf8Bom.At t := by
  unfold ParseBuffer.skipUtf8Bom
  split_ifs with hbom
  · have hpre : bom <+: s ++ [nul] := by
      rw [← h.rest]
      have hcut := List.take_prefix 3 (b.content.drop b.offset)
      rwa [hbom.2] at hcut
    rcases List.prefix_concat_iff.mp hpre with hall | ⟨t, rfl⟩
    · exact absurd (hall ▸ List.mem_append_right s (List.mem_singleton_self nul)) (by decide)
    · exact ⟨t, h.advance⟩
  · exact ⟨s, h⟩

/-- **No text makes the parser go wrong**: it reads inside the text and its terminator, writes
inside the memory of its strings, and comes to an end. -/
theorem parse_defined (value : CStr) (h : nul ∉ value) : parseText value ≠ .error .undefined := by
  obtain ⟨t, ht⟩ := at_skipUtf8Bom (at_start h)
  have hspec := parseValue_spec nestingLimit _ _ ht.skipWhitespace
  intro hundefined
  unfold parseText at hundefined
  dsimp only at hundefined
  match hv : parseValue nestingLimit (ParseBuffer.skipUtf8Bom ⟨value ++ [nul], 0⟩).skipWhitespace with
  | .ok (item, b) =>
    rw [hv] at hundefined
    cases hundefined
  | .error .failed =>
    rw [hv] at hundefined
    cases hundefined
  | .error .undefined =>
    rw [hv] at hspec
    exact hspec

theorem parse_defined_halfString : parseText "\x7b\"a\":[\"\\uD8".toList ≠ .error .undefined :=
  parse_defined _ (by decide)

end Growbox
