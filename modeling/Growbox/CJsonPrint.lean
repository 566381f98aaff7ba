import Growbox.Jsont
import Growbox.Lib.Block
import Growbox.Lib.NumberText

/-!
# `cJSON.c`: printing

The printer writes into a buffer that it enlarges as it goes.  Each piece is terminated, and the
offset is moved behind it later by `update_offset`, which looks for the terminator.  `render` is
the text without the buffer.  Whatever the memory of the buffer held before, and whether or not
it can be enlarged, no cell outside of it is touched, and what is returned is the text
(`cJsonPrint_iff`).
-/

namespace Growbox

open NumberText Double Decimal

/-! ## The buffer -/

/-- A function returned `false`, or it went outside of its memory. -/
inductive PrintFault where
  | failed | undefined
  deriving DecidableEq, Repr

/-- What `malloc` and `realloc` answer, and what is in a cell they hand out. -/
structure Heap where
  malloc : Bool
  grows : Nat → Bool
  shrinks : Bool
  fresh : Nat → Char

/-- `length` is that of `buffer`. -/
structure Printbuffer where
  buffer : List Char
  offset : Nat
  depth : Nat
  noalloc : Bool
  format : Bool

def intMax : Nat := 2147483647

namespace Printbuffer

def length (p : Printbuffer) : Nat := p.buffer.length

/-- What is written begins at the offset and `i`. -/
def store (p : Printbuffer) (i : Nat) (piece : List Char) : Except PrintFault Printbuffer :=
  if p.offset + i + piece.length ≤ p.length then
    .ok { p with buffer := overlay p.buffer (p.offset + i) piece }
  else .error .undefined

/-- The `realloc` of `ensure`. -/
def reallocate (h : Heap) (p : Printbuffer) (newsize : Nat) : Except PrintFault Printbuffer :=
  if h.grows newsize then
    .ok { p with buffer := p.buffer ++ (List.range (newsize - p.length)).map fun i => h.fresh (p.length + i) }
  else .error .failed

def ensure (h : Heap) (p : Printbuffer) (needed : Nat) : Except PrintFault Printbuffer :=
  if 0 < p.length ∧ p.length ≤ p.offset then .error .failed
  else if intMax < needed then .error .failed
  else if needed + p.offset + 1 ≤ p.length then .ok p
  else if p.noalloc then .error .failed
  else if intMax / 2 < needed + p.offset + 1 then
    if needed + p.offset + 1 ≤ intMax then reallocate h p intMax else .error .failed
  else reallocate h p ((needed + p.offset + 1) * 2)

/-- `strlen` stops at the first terminator. -/
def updateOffset (p : Printbuffer) : Except PrintFault Printbuffer :=
  let written := (p.buffer.drop p.offset).takeWhile fun c => !(c == nul)
  if p.offset + written.length < p.length then .ok { p with offset := p.offset + written.length }
  else .error .undefined

end Printbuffer

/-! ## Values -/

/-- A piece and its terminator, not counted yet: `null`, `false`, `true`, and what closes a list. -/
def printTerminated (h : Heap) (piece : List Char) (p : Printbuffer) : Except PrintFault Printbuffer := do
  let p ← p.ensure h (piece.length + 1)
  p.store 0 (piece ++ [nul])

/-- 15 digits where they are enough, else 17.  (A negative zero, which has none here, is printed `-0`.) -/
def numberText (d : Rat) : List Char :=
  if huge ≤ |d| then "null".toList
  else
    match strtod (printG 15 d).text with
    | some (test, _) => if test ≠ d then (printG 17 d).text else (printG 15 d).text
    | none => (printG 17 d).text

/-- `number_buffer` has 26 cells. -/
def printNumber (h : Heap) (d : Rat) (p : Printbuffer) : Except PrintFault Printbuffer := do
  let text := numberText d
  if 26 < text.length + 1 then throw .undefined
  if 25 < text.length then throw .failed
  let p ← p.ensure h (text.length + 1)
  let p ← p.store 0 (text ++ [nul])
  return { p with offset := p.offset + text.length }

/-- The second character of an escape of two. -/
def shortEscape (c : Char) : Option Char :=
  if c = '\\' then some '\\'
  else if c = '"' then some '"'
  else if c = Char.ofNat 8 then some 'b'
  else if c = Char.ofNat 12 then some 'f'
  else if c = '\n' then some 'n'
  else if c = '\r' then some 'r'
  else if c = '\t' then some 't'
  else none

/-- How many characters more than one an escape takes. -/
def escapeCharacters (c : Char) : Nat :=
  if (shortEscape c).isSome then 1 else if c.toNat < 32 then 5 else 0

/-- `%04x` -/
def hex4 (n : Nat) : List Char :=
  List.replicate (4 - (Nat.toDigits 16 n).length) '0' ++ Nat.toDigits 16 n

/-- The loop that copies the string, with `output_pointer` at `i`. -/
def printEscaped (p : Printbuffer) (i : Nat) : CStr → Except PrintFault Printbuffer
  | [] => .ok p
  | c :: s =>
    if 31 < c.toNat ∧ c ≠ '"' ∧ c ≠ '\\' then do
      let p ← p.store i [c]
      printEscaped p (i + 1) s
    else do
      let p ← p.store i ['\\']
      match shortEscape c with
      | some e => do
        let p ← p.store (i + 1) [e]
        printEscaped p (i + 2) s
      | none => do
        let p ← p.store (i + 1) ('u' :: hex4 c.toNat ++ [nul])
        printEscaped p (i + 6) s

def printStringPtr (h : Heap) (input : CStr) (p : Printbuffer) : Except PrintFault Printbuffer := do
  let escapes := (input.map escapeCharacters).sum
  let outputLength := input.length + escapes
  let p ← p.ensure h (outputLength + 3)
  if escapes = 0 then
    let p ← p.store 0 ['"']
    let p ← p.store 1 input
    p.store (outputLength + 1) ['"', nul]
  else do
    let p ← p.store 0 ['"']
    let p ← printEscaped p 1 input
    p.store (outputLength + 1) ['"', nul]

/-- A piece that is counted at once, after `needed` cells were asked for. -/
def printPiece (h : Heap) (needed : Nat) (piece terminator : List Char) (p : Printbuffer) :
    Except PrintFault Printbuffer := do
  let p ← p.ensure h needed
  let p ← p.store 0 (piece ++ terminator)
  return { p with offset := p.offset + piece.length }

def comma (format : Bool) : List Char := ',' :: if format then [' '] else []

def brace (format : Bool) : List Char := '{' :: if format then ['\n'] else []

def tabs (format : Bool) (depth : Nat) : List Char := if format then List.replicate depth '\t' else []

def colon (format : Bool) : List Char := ':' :: if format then ['\t'] else []

def memberEnd (format last : Bool) : List Char := (if last then [] else [',']) ++ if format then ['\n'] else []

/-- The comma between two elements. -/
def printComma (h : Heap) (last : Bool) (p : Printbuffer) : Except PrintFault Printbuffer :=
  if last then .ok p else printPiece h ((comma p.format).length + 1) (comma p.format) [nul] p

/-- The tabs in front of a member. -/
def printTabs (h : Heap) (p : Printbuffer) : Except PrintFault Printbuffer :=
  if p.format then printPiece h p.depth (tabs p.format p.depth) [] p else .ok p

mutual

def printValue (h : Heap) : CJson → Printbuffer → Except PrintFault Printbuffer
  | .null, p => printTerminated h "null".toList p
  | .bool false, p => printTerminated h "false".toList p
  | .bool true, p => printTerminated h "true".toList p
  | .number d, p => printNumber h d p
  | .string s, p => printStringPtr h s p
  -- `print_array`
  | .array items, p => do
    let p ← printPiece h 1 ['['] [] p
    let p ← printElements h items { p with depth := p.depth + 1 }
    let p ← printTerminated h [']'] p
    return { p with depth := p.depth - 1 }
  -- `print_object`, which asks for one cell more than it opens with
  | .object members, p => do
    let p ← printPiece h ((brace p.format).length + 1) (brace p.format) [] p
    let p ← printMembers h members { p with depth := p.depth + 1 }
    let p ← printTerminated h (tabs p.format (p.depth - 1) ++ ['}']) p
    return { p with depth := p.depth - 1 }

/-- The loop of `print_array`. -/
def printElements (h : Heap) : List CJson → Printbuffer → Except PrintFault Printbuffer
  | [], p => .ok p
  | v :: vs, p => do
    let p ← printValue h v p
    let p ← p.updateOffset
    let p ← printComma h vs.isEmpty p
    printElements h vs p

/-- The loop of `print_object`. -/
def printMembers (h : Heap) : List (String × CJson) → Printbuffer → Except PrintFault Printbuffer
  | [], p => .ok p
  | (name, v) :: ms, p => do
    let p ← printTabs h p
    let p ← printStringPtr h name.toList p
    let p ← p.updateOffset
    let p ← printPiece h (colon p.format).length (colon p.format) [] p
    let p ← printValue h v p
    let p ← p.updateOffset
    let p ← printPiece h ((memberEnd p.format ms.isEmpty).length + 1) (memberEnd p.format ms.isEmpty) [nul] p
    printMembers h ms p

end

/-- `print`: the string that is returned. -/
def cJsonPrint (h : Heap) (format : Bool) (item : CJson) : Except PrintFault CStr := do
  if !h.malloc then throw .failed
  let p ← printValue h item ⟨(List.range 256).map h.fresh, 0, 0, false, format⟩
  let p ← p.updateOffset
  if !h.shrinks then throw .failed
  -- the block now ends behind the offset
  let printed := (p.buffer.take (p.offset + 1)).takeWhile fun c => !(c == nul)
  if printed.length < p.offset + 1 then return printed else throw .undefined

/-! ## The text -/

def escape (c : Char) : List Char :=
  if 31 < c.toNat ∧ c ≠ '"' ∧ c ≠ '\\' then [c]
  else
    match shortEscape c with
    | some e => ['\\', e]
    | none => '\\' :: 'u' :: hex4 c.toNat

def renderString (s : CStr) : List Char := '"' :: (s.flatMap escape ++ ['"'])

mutual

/-- The text of a value `depth` values down. -/
def render (format : Bool) (depth : Nat) : CJson → List Char
  | .null => "null".toList
  | .bool false => "false".toList
  | .bool true => "true".toList
  | .number d => numberText d
  | .string s => renderString s
  | .array items => '[' :: (renderElements format (depth + 1) items ++ [']'])
  | .object members =>
    brace format ++ (renderMembers format (depth + 1) members ++ (tabs format depth ++ ['}']))

def renderElements (format : Bool) (depth : Nat) : List CJson → List Char
  | [] => []
  | v :: vs =>
    render format depth v ++
      ((if vs.isEmpty then [] else comma format) ++ renderElements format depth vs)

def renderMembers (format : Bool) (depth : Nat) : List (String × CJson) → List Char
  | [] => []
  | (name, v) :: ms =>
    tabs format depth ++ (renderString name.toList ++ (colon format ++ (render format depth v ++
      (memberEnd format ms.isEmpty ++ renderMembers format depth ms))))

end

/-- C strings, and doubles or what is too large for one. -/
inductive CJson.Writable : CJson → Prop
  | null : Writable .null
  | bool (b : Bool) : Writable (.bool b)
  | number {d : Rat} : IsDouble d ∨ |d| = huge → Writable (.number d)
  | string {s : CStr} : nul ∉ s → Writable (.string s)
  | array {items : List CJson} : (∀ v ∈ items, v.Writable) → Writable (.array items)
  | object {members : List (String × CJson)} :
      (∀ m ∈ members, nul ∉ m.1.toList) → (∀ m ∈ members, m.2.Writable) → Writable (.object members)

/-! ## What holds of the buffer -/

namespace Printbuffer

/-- The text so far stands in front of the offset, and there is a cell behind it. -/
structure Ready (p : Printbuffer) (text : List Char) : Prop where
  offset : p.offset = text.length
  buffer : text <+: p.buffer
  room : text.length < p.length
  length : p.length ≤ intMax
  alloc : p.noalloc = false

/-- The text ends in a terminator and has a cell to spare; a part of it is not counted yet. -/
structure Written (p : Printbuffer) (text : List Char) : Prop where
  offset : p.offset ≤ text.length
  plain : nul ∉ text.drop p.offset
  buffer : text ++ [nul] <+: p.buffer
  room : text.length + 2 ≤ p.length
  length : p.length ≤ intMax
  alloc : p.noalloc = false

end Printbuffer

/-- There is memory for a text of `n` characters. -/
def Heap.Fits (h : Heap) (n : Nat) : Prop := (∀ size, h.grows size = true) ∧ n + 2 ≤ intMax

/-- No access is undefined, what comes out satisfies `Q`, and only without memory nothing does. -/
def Yields {α : Type} (r : Except PrintFault α) (fits : Prop) (Q : α → Prop) : Prop :=
  match r with
  | .ok a => Q a
  | .error .failed => ¬ fits
  | .error .undefined => False

theorem Yields.bind {α β : Type} {r : Except PrintFault α} {k : α → Except PrintFault β} {fits fits' : Prop}
    {Q : α → Prop} {Q' : β → Prop} (h : Yields r fits Q) (hfits : fits' → fits)
    (hk : ∀ a, Q a → Yields (k a) fits' Q') : Yields (r >>= k) fits' Q' := by
  match r with
  | .ok a => exact hk a h
  | .error .failed => exact fun hf => h (hfits hf)
  | .error .undefined => exact h

theorem Yields.mono {α : Type} {r : Except PrintFault α} {fits fits' : Prop} {Q Q' : α → Prop}
    (h : Yields r fits Q) (hfits : fits' → fits) (hQ : ∀ a, Q a → Q' a) : Yields r fits' Q' := by
  match r with
  | .ok a => exact hQ a h
  | .error .failed => exact fun hf => h (hfits hf)
  | .error .undefined => exact h

theorem overlay_prefix {text rest : List Char} (piece : List Char) :
    overlay (text ++ rest) text.length piece = text ++ (piece ++ rest.drop piece.length) := by
  rw [overlay, List.take_left, ← List.drop_drop, List.drop_left, List.append_assoc]

namespace Printbuffer

variable {h : Heap} {p : Printbuffer} {text : List Char}

/-- Neither depth nor format change. -/
def Same (p p' : Printbuffer) : Prop := p'.depth = p.depth ∧ p'.format = p.format

/-- **Room is made** for what is needed and one cell more, and the text stays. -/
theorem ensure_spec (hp : p.Ready text) (needed : Nat) :
    Yields (p.ensure h needed) (h.Fits (text.length + needed - 1)) fun p' =>
      p'.Ready text ∧ text.length + needed + 1 ≤ p'.length ∧ p.Same p' := by
  have hreallocate : ∀ newsize, needed + p.offset + 1 ≤ newsize → p.length ≤ newsize → newsize ≤ intMax →
      Yields (p.reallocate h newsize) (h.Fits (text.length + needed - 1)) fun p' =>
        p'.Ready text ∧ text.length + needed + 1 ≤ p'.length ∧ p.Same p' := by
    intro newsize hneeded hlen hmax
    unfold reallocate
    split_ifs with hgrows
    · have hlength : (p.buffer ++ (List.range (newsize - p.length)).map fun i => h.fresh (p.length + i)).length =
          newsize := by
        rw [List.length_append, List.length_map, List.length_range]
        unfold length at hlen ⊢
        omega
      refine ⟨⟨hp.offset, hp.buffer.trans (List.prefix_append _ _), ?_, ?_, hp.alloc⟩, ?_, rfl, rfl⟩
      · have := hp.room
        show text.length < (p.buffer ++ _).length
        omega
      · show (p.buffer ++ _).length ≤ intMax
        omega
      · have := hp.offset
        show _ ≤ (p.buffer ++ _).length
        omega
    · exact fun hf => hgrows (hf.1 newsize)
  have hoffset := hp.offset
  have hroom := hp.room
  have hmax := hp.length
  have hnot : intMax < text.length + needed + 1 → ¬ h.Fits (text.length + needed - 1) := by
    intro hlt hf
    have := hf.2
    omega
  unfold ensure
  split_ifs with hfull hneeded hfit halloc hhalf hint
  · omega
  · exact hnot (by omega)
  · exact ⟨hp, by omega, rfl, rfl⟩
  · exact absurd halloc (by simp [hp.alloc])
  · exact hreallocate intMax hint hmax le_rfl
  · exact hnot (by omega)
  · refine hreallocate _ (by omega) (by omega) ?_
    unfold intMax at hhalf ⊢
    omega

/-- A piece is laid behind what stands in the buffer; nothing else changes. -/
structure Laid (p p' : Printbuffer) (w : List Char) : Prop where
  buffer : w <+: p'.buffer
  length : p'.length = p.length
  offset : p'.offset = p.offset
  alloc : p'.noalloc = p.noalloc
  same : p.Same p'

theorem Laid.trans {p p' p'' : Printbuffer} {w w' : List Char} (h : p.Laid p' w) (h' : p'.Laid p'' w') :
    p.Laid p'' w' where
  buffer := h'.buffer
  length := h'.length.trans h.length
  offset := h'.offset.trans h.offset
  alloc := h'.alloc.trans h.alloc
  same := ⟨h'.same.1.trans h.same.1, h'.same.2.trans h.same.2⟩

theorem Laid.weaken {p p' : Printbuffer} {w w' : List Char} (h : p.Laid p' w) (hw : w' <+: w) :
    p.Laid p' w' := { h with buffer := hw.trans h.buffer }

/-- A store behind what stands in the buffer. -/
theorem store_spec {w : List Char} (hw : w <+: p.buffer) {i : Nat} (hi : p.offset + i = w.length)
    {piece : List Char} (hroom : w.length + piece.length ≤ p.length) (fits : Prop) :
    Yields (p.store i piece) fits fun p' => p.Laid p' (w ++ piece) := by
  obtain ⟨rest, hrest⟩ := hw
  unfold store
  rw [if_pos (by omega), hi, ← hrest, overlay_prefix]
  refine ⟨⟨_, List.append_assoc _ _ _⟩, ?_, rfl, rfl, rfl, rfl⟩
  unfold length at hroom ⊢
  rw [← hrest, List.length_append] at hroom ⊢
  simp only [List.length_append, List.length_drop]
  omega

/-- A text that is laid behind the offset with its terminator is written. -/
theorem Laid.written {p' : Printbuffer} {w : List Char} (hp : p.Ready text) (hlaid : p.Laid p' (text ++ w ++ [nul]))
    (hplain : nul ∉ w) (hroom : text.length + w.length + 2 ≤ p.length) : p'.Written (text ++ w) where
  offset := by
    rw [hlaid.offset, hp.offset, List.length_append]
    omega
  plain := by rwa [hlaid.offset, hp.offset, List.drop_left]
  buffer := hlaid.buffer
  room := by
    rw [hlaid.length, List.length_append]
    exact hroom
  length := hlaid.length ▸ hp.length
  alloc := hlaid.alloc.trans hp.alloc

/-- **The offset is moved** behind what was written. -/
theorem updateOffset_spec (hp : p.Written text) (fits : Prop) :
    Yields p.updateOffset fits fun p' => p'.Ready text ∧ p.Same p' ∧ p'.buffer = p.buffer := by
  obtain ⟨rest, hrest⟩ := hp.buffer
  have hwritten : ((p.buffer.drop p.offset).takeWhile fun c => !(c == nul)) = text.drop p.offset := by
    rw [← hrest, List.append_assoc, List.drop_append_of_le_length hp.offset]
    exact Block.takeWhile_append_blank hp.plain rest
  have hlen : p.offset + (text.drop p.offset).length = text.length := by
    have := hp.offset
    rw [List.length_drop]
    omega
  have hroom := hp.room
  unfold updateOffset
  dsimp only
  rw [hwritten, hlen, if_pos (by omega)]
  exact ⟨⟨rfl, ⟨_, (List.append_assoc _ _ _).symm.trans hrest⟩, Nat.lt_of_lt_of_le (by omega) hroom, hp.length,
    hp.alloc⟩, ⟨rfl, rfl⟩, rfl⟩

end Printbuffer

/-! ## Strings -/

theorem hex4_facts : ∀ n < 32, (hex4 n).length = 4 ∧ (hex4 n).all (fun c => decide (31 < c.toNat)) = true := by
  decide

theorem shortEscape_of_plain {c : Char} (h : 31 < c.toNat ∧ c ≠ '"' ∧ c ≠ '\\') : shortEscape c = none := by
  have hctrl : ∀ d : Char, d.toNat < 32 → c ≠ d := by
    rintro d hd rfl
    omega
  unfold shortEscape
  rw [if_neg h.2.2, if_neg h.2.1, if_neg (hctrl _ (by decide)), if_neg (hctrl _ (by decide)),
    if_neg (hctrl _ (by decide)), if_neg (hctrl _ (by decide)), if_neg (hctrl _ (by decide))]

/-- Without an escape of two, what is escaped is a control character. -/
theorem lt_of_shortEscape {c : Char} (h : ¬ (31 < c.toNat ∧ c ≠ '"' ∧ c ≠ '\\')) (hs : shortEscape c = none) :
    c.toNat < 32 := by
  by_contra hge
  have hback : c ≠ '\\' := by
    rintro rfl
    exact absurd hs (by decide)
  have hquote : c ≠ '"' := by
    rintro rfl
    exact absurd hs (by decide)
  exact h ⟨by omega, hquote, hback⟩

theorem length_escape (c : Char) : (escape c).length = 1 + escapeCharacters c := by
  unfold escape escapeCharacters
  split_ifs with hplain hsome hlow hsome hlow
  · rw [shortEscape_of_plain hplain] at hsome
    exact absurd hsome (by decide)
  · omega
  · rfl
  · obtain ⟨e, he⟩ := Option.isSome_iff_exists.mp hsome
    rw [he]
    rfl
  · rw [Option.not_isSome_iff_eq_none.mp hsome]
    simp [(hex4_facts _ hlow).1]
  · exact absurd (lt_of_shortEscape hplain (Option.not_isSome_iff_eq_none.mp hsome)) hlow

theorem escape_of_none {c : Char} (h : escapeCharacters c = 0) : escape c = [c] := by
  unfold escapeCharacters at h
  split_ifs at h with hsome hlow
  unfold escape
  rw [if_pos]
  by_contra hplain
  exact hlow (lt_of_shortEscape hplain (Option.not_isSome_iff_eq_none.mp hsome))

/-- What is counted before is what is written then. -/
theorem length_flatMap_escape (s : CStr) : (s.flatMap escape).length = s.length + (s.map escapeCharacters).sum := by
  induction s with
  | nil => rfl
  | cons c s ih =>
    simp only [List.flatMap_cons, List.length_append, length_escape, ih, List.length_cons, List.map_cons,
      List.sum_cons]
    omega

theorem flatMap_escape_of_none {s : CStr} (h : (s.map escapeCharacters).sum = 0) : s.flatMap escape = s := by
  induction s with
  | nil => rfl
  | cons c s ih =>
    rw [List.map_cons, List.sum_cons, Nat.add_eq_zero_iff] at h
    rw [List.flatMap_cons, escape_of_none h.1, ih h.2]
    rfl

/-- No control character but those that texts are laid out with. -/
def Shown (c : Char) : Prop := 31 < c.toNat ∨ c = '\n' ∨ c = '\t'

theorem nul_not_mem_of_shown {l : List Char} (h : ∀ c ∈ l, Shown c) : nul ∉ l := fun hmem =>
  absurd (h nul hmem) (by unfold Shown; decide)

theorem shown_escape (c : Char) : ∀ x ∈ escape c, Shown x := by
  unfold escape
  split_ifs with hplain
  · rw [List.forall_mem_singleton]
    exact .inl hplain.1
  · cases hs : shortEscape c with
    | none =>
      have hhex := (hex4_facts _ (lt_of_shortEscape hplain hs)).2
      simp only [List.forall_mem_cons]
      exact ⟨.inl (by decide), .inl (by decide), fun x hx => .inl (of_decide_eq_true (List.all_eq_true.mp hhex x hx))⟩
    | some e =>
      have he : 31 < e.toNat := by
        unfold shortEscape at hs
        split_ifs at hs <;> cases hs <;> decide
      simp only [List.forall_mem_cons, List.not_mem_nil, false_imp_iff, implies_true, and_true]
      exact ⟨.inl (by decide), .inl he⟩

theorem shown_renderString (s : CStr) : ∀ x ∈ renderString s, Shown x := by
  have hinner : ∀ x ∈ s.flatMap escape, Shown x := by
    intro x hx
    obtain ⟨c, -, hmem⟩ := List.mem_flatMap.mp hx
    exact shown_escape c x hmem
  simp only [renderString, List.forall_mem_cons, List.forall_mem_append, List.not_mem_nil, false_imp_iff,
    implies_true, and_true]
  exact ⟨.inl (by decide), hinner, .inl (by decide)⟩

namespace Printbuffer

variable {h : Heap} {p : Printbuffer} {text : List Char}

/-- The loop lays down the escapes; the terminator behind the last of them is written over. -/
theorem printEscaped_spec (fits : Prop) : ∀ (s : CStr) (p : Printbuffer) (w : List Char) (i : Nat), w <+: p.buffer →
    p.offset + i = w.length → w.length + (s.flatMap escape).length + 1 ≤ p.length →
      Yields (printEscaped p i s) fits fun p' => p.Laid p' (w ++ s.flatMap escape)
  | [], p, w, i, hw, _, _ => ⟨by simpa using hw, rfl, rfl, rfl, rfl, rfl⟩
  | c :: s, p, w, i, hw, hi, hroom => by
    rw [List.flatMap_cons, List.length_append] at hroom
    -- the rest of the string, once this character is there
    have hrest : ∀ p' : Printbuffer, p.Laid p' (w ++ escape c) →
        Yields (printEscaped p' (i + (escape c).length) s) fits
          fun p'' => p.Laid p'' (w ++ (c :: s).flatMap escape) := by
      intro p' hlaid
      have ih := printEscaped_spec fits s p' (w ++ escape c) (i + (escape c).length) hlaid.buffer
        (by rw [hlaid.offset, List.length_append]; omega)
        (by rw [hlaid.length, List.length_append]; omega)
      refine ih.mono id fun p'' h'' => ?_
      rw [List.flatMap_cons, ← List.append_assoc]
      exact hlaid.trans h''
    rw [printEscaped]
    split_ifs with hplain
    · have hesc : escape c = [c] := if_pos hplain
      rw [hesc] at hrest hroom
      rw [List.length_singleton] at hroom
      exact (store_spec hw hi (by rw [List.length_singleton]; omega) fits).bind id fun p' hlaid => hrest p' hlaid
    · cases hs : shortEscape c with
      | some e =>
        have hesc : escape c = ['\\', e] := by
          rw [escape, if_neg hplain, hs]
        rw [hesc] at hrest hroom
        simp only [List.length_cons, List.length_nil] at hroom
        refine (store_spec hw hi (by rw [List.length_singleton]; omega) fits).bind id fun p₁ h₁ => ?_
        refine (store_spec h₁.buffer (i := i + 1) (by rw [h₁.offset, List.length_append]; simp; omega)
          (by rw [h₁.length, List.length_append]; simp; omega) fits).bind id fun p₂ h₂ => ?_
        refine hrest p₂ ((h₁.trans h₂).weaken ?_)
        rw [List.append_assoc]
        exact List.prefix_rfl
      | none =>
        have hesc : escape c = '\\' :: 'u' :: hex4 c.toNat := by
          rw [escape, if_neg hplain, hs]
        have hhex := (hex4_facts _ (lt_of_shortEscape hplain hs)).1
        rw [hesc] at hrest hroom
        simp only [List.length_cons, hhex] at hrest hroom
        refine (store_spec hw hi (by rw [List.length_singleton]; omega) fits).bind id fun p₁ h₁ => ?_
        refine (store_spec h₁.buffer (i := i + 1) (by rw [h₁.offset, List.length_append]; simp; omega)
          (by rw [h₁.length, List.length_append]; simp [hhex]; omega) fits).bind id fun p₂ h₂ => ?_
        refine hrest p₂ ((h₁.trans h₂).weaken ?_)
        simp only [List.append_assoc, List.cons_append, List.nil_append]
        exact ⟨[nul], by simp⟩

/-- A text that is stored with its terminator, after room was made for both. -/
theorem store_written (fits : Prop) {w : List Char} (hp : p.Ready text) (hplain : nul ∉ w)
    (hroom : text.length + w.length + 2 ≤ p.length) :
    Yields (p.store 0 (w ++ [nul])) fits fun p' => p'.Written (text ++ w) ∧ p.Same p' ∧ p'.offset = p.offset := by
  refine (store_spec hp.buffer (i := 0) (by rw [hp.offset]; omega) (by simp; omega) fits).mono id ?_
  intro p' hlaid
  rw [← List.append_assoc] at hlaid
  exact ⟨hlaid.written hp hplain hroom, hlaid.same, hlaid.offset⟩

theorem Written.moved {n : Nat} (hp : p.Written text) (hn : p.offset + n = text.length) :
    Written { p with offset := p.offset + n } text where
  offset := hn.le
  plain := by
    show nul ∉ text.drop (p.offset + n)
    rw [hn, List.drop_length]
    exact List.not_mem_nil
  buffer := hp.buffer
  room := hp.room
  length := hp.length
  alloc := hp.alloc

theorem Ready.deepen {d n : Nat} (hp : p.Ready text) (hn : n = p.offset) :
    Ready { p with depth := d, offset := n } text := by
  subst hn
  exact ⟨hp.offset, hp.buffer, hp.room, hp.length, hp.alloc⟩

theorem Written.deepen {d : Nat} (hp : p.Written text) : Written { p with depth := d } text :=
  ⟨hp.offset, hp.plain, hp.buffer, hp.room, hp.length, hp.alloc⟩

theorem Same.trans {p p' p'' : Printbuffer} (h : p.Same p') (h' : p'.Same p'') : p.Same p'' :=
  ⟨h'.1.trans h.1, h'.2.trans h.2⟩

end Printbuffer

open Printbuffer

section
variable {h : Heap} {p : Printbuffer} {text : List Char}

theorem Heap.Fits.mono {n m : Nat} (hnm : n ≤ m) (hf : h.Fits m) : h.Fits n :=
  ⟨hf.1, Nat.le_trans (Nat.add_le_add_right hnm 2) hf.2⟩

theorem printTerminated_spec (hp : p.Ready text) {w : List Char} (hw : nul ∉ w) :
    Yields (printTerminated h w p) (h.Fits (text.length + w.length)) fun p' =>
      p'.Written (text ++ w) ∧ p.Same p' := by
  refine (ensure_spec hp (w.length + 1)).bind (Heap.Fits.mono (by omega)) fun p₁ h₁ => ?_
  obtain ⟨hready, hroom, hsame⟩ := h₁
  exact (store_written _ hready hw (by omega)).mono id fun p' h' => ⟨h'.1, hsame.trans h'.2.1⟩

theorem numberText_eq {d : Rat} (hd : IsDouble d) : numberText d = (printG 15 d).text ∨
    numberText d = (printG 17 d).text := by
  unfold numberText
  rw [if_neg (not_le.mpr hd.abs_lt_huge)]
  split
  · split_ifs
    · exact .inr rfl
    · exact .inl rfl
  · exact .inr rfl

theorem numberText_huge {d : Rat} (hd : |d| = huge) : numberText d = "null".toList := if_pos hd.ge

theorem length_numberText_le {d : Rat} (hd : IsDouble d ∨ |d| = huge) : (numberText d).length ≤ 24 := by
  rcases hd with hd | hd
  · rcases numberText_eq hd with h | h <;> rw [h]
    · exact (length_printG_le (by norm_num) hd).trans (by norm_num)
    · exact length_printG_le (by norm_num) hd
  · rw [numberText_huge hd]
    decide

theorem shown_numberText {d : Rat} (hd : IsDouble d ∨ |d| = huge) : ∀ c ∈ numberText d, Shown c := by
  rcases hd with hd | hd
  · have hchar : ∀ p, 0 < p → ∀ c ∈ (printG p d).text, Shown c := by
      intro p hp c hc
      left
      obtain hdigit | hsign := (printG_valid hp d).isNumeralChar c hc
      · have : 48 ≤ c.toNat := (Char.isDigit_iff_toNat.mp hdigit).1
        omega
      · simp only [List.mem_cons, List.not_mem_nil, or_false] at hsign
        rcases hsign with rfl | rfl | rfl | rfl | rfl <;> decide
    rcases numberText_eq hd with h | h <;> rw [h]
    · exact hchar 15 (by norm_num)
    · exact hchar 17 (by norm_num)
  · rw [numberText_huge hd]
    simp [Shown]

theorem printNumber_spec (hp : p.Ready text) {d : Rat} (hd : IsDouble d ∨ |d| = huge) :
    Yields (printNumber h d p) (h.Fits (text.length + (numberText d).length)) fun p' =>
      p'.Written (text ++ numberText d) ∧ p.Same p' := by
  have hlen := length_numberText_le hd
  unfold printNumber
  dsimp only
  rw [if_neg (by omega), if_neg (by omega)]
  refine (ensure_spec hp ((numberText d).length + 1)).bind (Heap.Fits.mono (by omega)) fun p₁ h₁ => ?_
  obtain ⟨hready, hroom, hsame⟩ := h₁
  refine (store_written _ hready (nul_not_mem_of_shown (shown_numberText hd)) (by omega)).bind id fun p₂ h₂ => ?_
  obtain ⟨hwritten, hsame₂, hoffset⟩ := h₂
  exact ⟨hwritten.moved (by rw [hoffset, hready.offset, List.length_append]), hsame.trans hsame₂⟩

theorem printStringPtr_spec (hp : p.Ready text) (s : CStr) :
    Yields (printStringPtr h s p) (h.Fits (text.length + (renderString s).length)) fun p' =>
      p'.Written (text ++ renderString s) ∧ p.Same p' := by
  have hesc := length_flatMap_escape s
  have hlen : (renderString s).length = (s.flatMap escape).length + 2 := by
    simp [renderString]
  unfold printStringPtr
  dsimp only
  refine (ensure_spec hp _).bind (Heap.Fits.mono (by omega)) fun p₁ h₁ => ?_
  obtain ⟨hready, hroom, hsame⟩ := h₁
  -- both ways lay down the same
  have hend : ∀ p₂ : Printbuffer, p₁.Laid p₂ (text ++ ['"'] ++ s.flatMap escape) →
      Yields (p₂.store (s.length + (s.map escapeCharacters).sum + 1) ['"', nul])
        (h.Fits (text.length + (renderString s).length)) fun p' => p'.Written (text ++ renderString s) ∧ p.Same p' := by
    intro p₂ hlaid
    refine (store_spec hlaid.buffer ?_ ?_ _).mono id fun p₃ h₃ => ?_
    · rw [hlaid.offset, hready.offset, List.length_append, List.length_append, hesc]
      simp
      omega
    · rw [hlaid.length, List.length_append, List.length_append, hesc]
      simp
      omega
    · have hall := hlaid.trans h₃
      have heq : text ++ ['"'] ++ s.flatMap escape ++ ['"', nul] = text ++ renderString s ++ [nul] := by
        simp [renderString]
      rw [heq] at hall
      exact ⟨hall.written hready (nul_not_mem_of_shown (shown_renderString s)) (by omega), hsame.trans hall.same⟩
  have hquote : Yields (p₁.store 0 ['"']) (h.Fits (text.length + (renderString s).length))
      fun p' => p₁.Laid p' (text ++ ['"']) :=
    store_spec hready.buffer (by rw [hready.offset]; omega) (by rw [List.length_singleton]; omega) _
  split_ifs with hnone
  · refine hquote.bind id fun p₂ h₂ => ?_
    refine (store_spec h₂.buffer (by rw [h₂.offset, hready.offset, List.length_append]; rfl)
      (by rw [h₂.length, List.length_append]; simp; omega) _).bind id fun p₃ h₃ => ?_
    refine hend p₃ ?_
    rw [flatMap_escape_of_none hnone]
    exact h₂.trans h₃
  · refine hquote.bind id fun p₂ h₂ => ?_
    refine (printEscaped_spec _ s p₂ _ 1 h₂.buffer (by rw [h₂.offset, hready.offset, List.length_append]; rfl)
      (by rw [h₂.length, List.length_append, hesc]; simp; omega)).bind id fun p₃ h₃ => ?_
    exact hend p₃ (h₂.trans h₃)

/-- **A piece that is counted at once.** -/
theorem printPiece_spec (hp : p.Ready text) {needed : Nat} {piece terminator : List Char}
    (hlow : piece.length + terminator.length ≤ needed) (hhigh : needed ≤ piece.length + 1) :
    Yields (printPiece h needed piece terminator p) (h.Fits (text.length + piece.length)) fun p' =>
      p'.Ready (text ++ piece) ∧ p.Same p' := by
  unfold printPiece
  refine (ensure_spec hp _).bind (Heap.Fits.mono (by omega)) fun p₁ h₁ => ?_
  obtain ⟨hready, hroom, hsame⟩ := h₁
  refine (store_spec hready.buffer (by rw [hready.offset]; omega) (by rw [List.length_append]; omega) _).bind id
    fun p₂ h₂ => ?_
  refine ⟨⟨?_, ?_, ?_, ?_, h₂.alloc.trans hready.alloc⟩, hsame.trans h₂.same⟩
  · show p₂.offset + piece.length = _
    rw [h₂.offset, hready.offset, List.length_append]
  · rw [← List.append_assoc] at h₂
    exact (List.prefix_append _ _).trans h₂.buffer
  · show _ < p₂.length
    rw [h₂.length, List.length_append]
    omega
  · show p₂.length ≤ intMax
    rw [h₂.length]
    exact hready.length

theorem printComma_spec (hp : p.Ready text) (last : Bool) :
    Yields (printComma h last p) (h.Fits (text.length + (if last then [] else comma p.format).length)) fun p' =>
      p'.Ready (text ++ if last then [] else comma p.format) ∧ p.Same p' := by
  unfold printComma
  cases last with
  | true => exact ⟨by simpa using hp, rfl, rfl⟩
  | false => exact printPiece_spec hp (by simp) (by simp)

theorem printTabs_spec (hp : p.Ready text) :
    Yields (printTabs h p) (h.Fits (text.length + (tabs p.format p.depth).length)) fun p' =>
      p'.Ready (text ++ tabs p.format p.depth) ∧ p.Same p' := by
  unfold printTabs
  split_ifs with hformat
  · exact printPiece_spec hp (by simp [tabs, hformat]) (by simp [tabs, hformat])
  · exact ⟨by simpa [tabs, hformat] using hp, rfl, rfl⟩

end

theorem shown_close (format : Bool) (depth : Nat) : ∀ c ∈ tabs format depth ++ ['}'], Shown c := by
  rw [List.forall_mem_append, List.forall_mem_singleton]
  refine ⟨fun c hc => ?_, .inl (by decide)⟩
  unfold tabs at hc
  split_ifs at hc
  · exact .inr (.inr (List.eq_of_mem_replicate hc))
  · cases hc

mutual

/-- **A value is written as its text.** -/
theorem printValue_spec (h : Heap) : ∀ (t : CJson), t.Writable → ∀ (p : Printbuffer) (text : List Char),
    p.Ready text → Yields (printValue h t p) (h.Fits (text.length + (render p.format p.depth t).length)) fun p' =>
      p'.Written (text ++ render p.format p.depth t) ∧ p.Same p'
  | .null, _, p, text, hp => by
    simp only [printValue, render]
    exact printTerminated_spec hp (by decide)
  | .bool false, _, p, text, hp => by
    simp only [printValue, render]
    exact printTerminated_spec hp (by decide)
  | .bool true, _, p, text, hp => by
    simp only [printValue, render]
    exact printTerminated_spec hp (by decide)
  | .number d, ht, p, text, hp => by
    cases ht with
    | number hd =>
      simp only [printValue, render]
      exact printNumber_spec hp hd
  | .string s, _, p, text, hp => by
    simp only [printValue, render]
    exact printStringPtr_spec hp s
  | .array items, ht, p, text, hp => by
    cases ht with
    | array hitems =>
      simp only [printValue, render]
      refine (printPiece_spec hp (by simp) (by simp)).bind (Heap.Fits.mono (by simp)) fun p₁ h₁ => ?_
      have hloop := printElements_spec h items hitems _ _ (h₁.1.deepen (d := p₁.depth + 1) rfl)
      dsimp only at hloop
      rw [h₁.2.1, h₁.2.2] at hloop ⊢
      refine hloop.bind (Heap.Fits.mono (by simp; omega)) fun p₂ h₂ => ?_
      refine (printTerminated_spec h₂.1 (by decide)).bind (Heap.Fits.mono ?_) fun p₃ h₃ => ?_
      · simp only [List.length_append, List.length_cons, List.length_nil]
        omega
      have hsame := Same.trans h₂.2 h₃.2
      refine ⟨?_, ?_, hsame.2⟩
      · have hw := h₃.1.deepen (d := p₃.depth - 1)
        simpa using hw
      · show p₃.depth - 1 = p.depth
        rw [hsame.1]
        rfl
  | .object members, ht, p, text, hp => by
    cases ht with
    | object _ hmembers =>
      simp only [printValue, render]
      refine (printPiece_spec hp (by simp) (by simp)).bind (Heap.Fits.mono (by simp)) fun p₁ h₁ => ?_
      have hloop := printMembers_spec h members hmembers _ _ (h₁.1.deepen (d := p₁.depth + 1) rfl)
      dsimp only at hloop
      rw [h₁.2.1, h₁.2.2] at hloop ⊢
      refine hloop.bind (Heap.Fits.mono (by simp; omega)) fun p₂ h₂ => ?_
      have hformat : p₂.format = p.format := h₂.2.2
      have hdepth : p₂.depth - 1 = p.depth := by
        rw [h₂.2.1]
        rfl
      rw [hformat, hdepth]
      refine (printTerminated_spec h₂.1 (nul_not_mem_of_shown (shown_close _ _))).bind (Heap.Fits.mono (by simp; omega))
        fun p₃ h₃ => ?_
      have hsame := Same.trans h₂.2 h₃.2
      refine ⟨?_, ?_, hsame.2⟩
      · have hw := h₃.1.deepen (d := p₃.depth - 1)
        simpa [List.append_assoc] using hw
      · show p₃.depth - 1 = p.depth
        rw [hsame.1]
        rfl

/-- The elements are written with commas between them. -/
theorem printElements_spec (h : Heap) : ∀ (vs : List CJson), (∀ v ∈ vs, v.Writable) → ∀ (p : Printbuffer)
    (text : List Char), p.Ready text →
      Yields (printElements h vs p) (h.Fits (text.length + (renderElements p.format p.depth vs).length)) fun p' =>
        p'.Ready (text ++ renderElements p.format p.depth vs) ∧ p.Same p'
  | [], _, p, text, hp => by
    simp only [printElements, renderElements, List.append_nil]
    exact ⟨hp, rfl, rfl⟩
  | v :: vs, hvs, p, text, hp => by
    rw [List.forall_mem_cons] at hvs
    simp only [printElements, renderElements]
    refine (printValue_spec h v hvs.1 p text hp).bind (Heap.Fits.mono (by simp)) fun p₁ h₁ => ?_
    refine (updateOffset_spec h₁.1 _).bind id fun p₂ h₂ => ?_
    have hsame := h₁.2.trans h₂.2.1
    have hcomma := printComma_spec (h := h) h₂.1 vs.isEmpty
    rw [hsame.2] at hcomma
    refine hcomma.bind (Heap.Fits.mono (by simp only [List.length_append]; omega)) fun p₃ h₃ => ?_
    have hrest := printElements_spec h vs hvs.2 p₃ _ h₃.1
    rw [h₃.2.1, h₃.2.2, hsame.1, hsame.2] at hrest
    refine hrest.mono (Heap.Fits.mono (by simp only [List.length_append]; omega)) fun p₄ h₄ => ?_
    exact ⟨by simpa only [List.append_assoc] using h₄.1, (hsame.trans h₃.2).trans h₄.2⟩

theorem printMembers_spec (h : Heap) : ∀ (ms : List (String × CJson)), (∀ m ∈ ms, m.2.Writable) →
    ∀ (p : Printbuffer) (text : List Char), p.Ready text →
      Yields (printMembers h ms p) (h.Fits (text.length + (renderMembers p.format p.depth ms).length)) fun p' =>
        p'.Ready (text ++ renderMembers p.format p.depth ms) ∧ p.Same p'
  | [], _, p, text, hp => by
    simp only [printMembers, renderMembers, List.append_nil]
    exact ⟨hp, rfl, rfl⟩
  | (name, v) :: ms, hms, p, text, hp => by
    rw [List.forall_mem_cons] at hms
    simp only [printMembers, renderMembers]
    refine (printTabs_spec hp).bind (Heap.Fits.mono (by simp)) fun p₁ h₁ => ?_
    refine (printStringPtr_spec h₁.1 name.toList).bind (Heap.Fits.mono (by simp; omega)) fun p₂ h₂ => ?_
    refine (updateOffset_spec h₂.1 _).bind id fun p₃ h₃ => ?_
    have hsame := (h₁.2.trans h₂.2).trans h₃.2.1
    rw [hsame.2]
    refine (printPiece_spec h₃.1 (by simp) (by simp)).bind (Heap.Fits.mono (by simp; omega)) fun p₄ h₄ => ?_
    have hsame₄ := hsame.trans h₄.2
    have hvalue := printValue_spec h v hms.1 p₄ _ h₄.1
    rw [hsame₄.1, hsame₄.2] at hvalue
    refine hvalue.bind (Heap.Fits.mono (by simp; omega)) fun p₅ h₅ => ?_
    refine (updateOffset_spec h₅.1 _).bind id fun p₆ h₆ => ?_
    have hsame₆ := (hsame₄.trans h₅.2).trans h₆.2.1
    rw [hsame₆.2]
    refine (printPiece_spec h₆.1 (by simp) (by simp)).bind (Heap.Fits.mono (by simp; omega)) fun p₇ h₇ => ?_
    have hsame₇ := hsame₆.trans h₇.2
    have hrest := printMembers_spec h ms hms.2 p₇ _ h₇.1
    rw [hsame₇.1, hsame₇.2] at hrest
    refine hrest.mono (Heap.Fits.mono (by simp; omega)) fun p₈ h₈ => ?_
    exact ⟨by simpa only [List.append_assoc] using h₈.1, hsame₇.trans h₈.2⟩

end

/-! ## The whole text -/

theorem shown_brace (format : Bool) : ∀ c ∈ brace format, Shown c := by
  cases format <;> simp [brace, Shown]

theorem shown_comma (format last : Bool) : ∀ c ∈ if last then [] else comma format, Shown c := by
  cases format <;> cases last <;> simp [comma, Shown]

theorem shown_colon (format : Bool) : ∀ c ∈ colon format, Shown c := by
  cases format <;> simp [colon, Shown]

theorem shown_memberEnd (format last : Bool) : ∀ c ∈ memberEnd format last, Shown c := by
  cases format <;> cases last <;> simp [memberEnd, Shown]

mutual

/-- Only newlines and tabs of the control characters are in the text. -/
theorem shown_render (format : Bool) (depth : Nat) : ∀ t : CJson, t.Writable → ∀ c ∈ render format depth t, Shown c
  | .null, _ => by simp [render, Shown]
  | .bool false, _ => by simp [render, Shown]
  | .bool true, _ => by simp [render, Shown]
  | .number d, ht => by
    cases ht with
    | number hd =>
      rw [render]
      exact shown_numberText hd
  | .string s, _ => by
    rw [render]
    exact shown_renderString s
  | .array items, ht => by
    cases ht with
    | array hitems =>
      have hloop := shown_renderElements format (depth + 1) items hitems
      rw [render, List.forall_mem_cons, List.forall_mem_append, List.forall_mem_singleton]
      exact ⟨.inl (by decide), hloop, .inl (by decide)⟩
  | .object members, ht => by
    cases ht with
    | object _ hmembers =>
      have hloop := shown_renderMembers format (depth + 1) members hmembers
      rw [render, List.forall_mem_append, List.forall_mem_append]
      exact ⟨shown_brace format, hloop, shown_close format depth⟩

theorem shown_renderElements (format : Bool) (depth : Nat) : ∀ vs : List CJson, (∀ v ∈ vs, v.Writable) →
    ∀ c ∈ renderElements format depth vs, Shown c
  | [], _ => by simp [renderElements]
  | v :: vs, hvs => by
    rw [List.forall_mem_cons] at hvs
    rw [renderElements, List.forall_mem_append, List.forall_mem_append]
    exact ⟨shown_render format depth v hvs.1, shown_comma format _, shown_renderElements format depth vs hvs.2⟩

theorem shown_renderMembers (format : Bool) (depth : Nat) : ∀ ms : List (String × CJson),
    (∀ m ∈ ms, m.2.Writable) → ∀ c ∈ renderMembers format depth ms, Shown c
  | [], _ => by simp [renderMembers]
  | (name, v) :: ms, hms => by
    rw [List.forall_mem_cons] at hms
    have htabs := (List.forall_mem_append.mp (shown_close format depth)).1
    simp only [renderMembers, List.forall_mem_append]
    exact ⟨htabs, shown_renderString _, shown_colon format, shown_render format depth v hms.1,
      shown_memberEnd format _, shown_renderMembers format depth ms hms.2⟩

end

/-- The text is a C string. -/
theorem nul_not_mem_render (format : Bool) (depth : Nat) (t : CJson) (ht : t.Writable) : nul ∉ render format depth t :=
  nul_not_mem_of_shown (shown_render format depth t ht)

theorem cJsonPrint_spec (h : Heap) (format : Bool) {t : CJson} (ht : t.Writable) :
    Yields (cJsonPrint h format t)
      (h.malloc = true ∧ h.shrinks = true ∧ h.Fits (render format 0 t).length) fun s =>
        s = render format 0 t ∧ (render format 0 t).length + 2 ≤ intMax := by
  have hfresh : Printbuffer.Ready ⟨(List.range 256).map h.fresh, 0, 0, false, format⟩ [] :=
    ⟨rfl, List.nil_prefix, by simp [Printbuffer.length], by simp [Printbuffer.length, intMax], rfl⟩
  unfold cJsonPrint
  cases hmalloc : h.malloc with
  | false => exact fun hm => by cases hm.1
  | true =>
    refine (printValue_spec h t ht _ [] hfresh).bind (fun hm => by simpa using hm.2.2) fun p₁ h₁ => ?_
    refine (updateOffset_spec h₁.1 _).bind id fun p₂ h₂ => ?_
    cases hshrinks : h.shrinks with
    | false => exact fun hm => by cases hm.2.1
    | true =>
      rw [List.nil_append] at h₁ h₂
      dsimp only at h₁ h₂
      obtain ⟨rest, hrest⟩ := h₁.1.buffer
      have hcut : (p₂.buffer.take (p₂.offset + 1)).takeWhile (fun c => !(c == nul)) = render format 0 t := by
        rw [h₂.2.2, h₂.1.offset, ← hrest, List.take_append_of_le_length (by simp), List.take_of_length_le (by simp)]
        exact Block.takeWhile_append_blank (nul_not_mem_render format 0 t ht) []
      have hlen : (render format 0 t).length < p₂.offset + 1 := by
        rw [h₂.1.offset]
        omega
      dsimp only
      rw [hcut, if_neg (by decide), if_pos hlen]
      exact ⟨rfl, Nat.le_trans h₁.1.room h₁.1.length⟩

/-- Memory without end. -/
def Heap.ample : Heap := ⟨true, fun _ => true, true, fun _ => nul⟩

theorem cJsonPrint_ample (format : Bool) {t : CJson} (ht : t.Writable)
    (hlen : (render format 0 t).length + 2 ≤ intMax) : cJsonPrint .ample format t = .ok (render format 0 t) := by
  have hspec := cJsonPrint_spec .ample format ht
  match hprint : cJsonPrint .ample format t with
  | .ok s =>
    rw [hprint] at hspec
    rw [hspec.1]
  | .error .failed =>
    rw [hprint] at hspec
    exact absurd ⟨rfl, rfl, fun _ => rfl, hlen⟩ hspec
  | .error .undefined =>
    rw [hprint] at hspec
    exact hspec.elim

end Growbox
