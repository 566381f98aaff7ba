import Growbox.CJsonParse
import Growbox.Lib.Ledger

/-!
# `cJSON.c`: the memory of a parsed text

Every item of a tree, every name and every string is in a block of its own, and `malloc` may
refuse any of them.  A function that fails has to give back what it has allocated, which is
neither what it was called with nor what the functions it called gave back.  Whatever is refused
and whatever the text is, nothing is lost and nothing is given back twice (`parse_memory`), so
a server that deletes each tree after it was read runs on in the memory it began with
(`requests_keep_memory`).
-/

namespace Growbox

open Ledger

/-! ## Items -/

/-- `type`, with the number where it is one. -/
inductive ItemType where
  | invalid
  /-- `null`, `true`, `false` and numbers -/
  | plain (value : CJson)
  | string | array | object

/-- `cJSON`: the blocks of `valuestring` and `string` with what is in them, and the list that
begins with `child`. -/
structure Item where
  block : Nat
  type : ItemType
  valuestring : Option (Nat × CStr)
  string : Option (Nat × CStr)
  child : List Item

namespace Item

/-- `cJSON_New_Item` -/
def new (block : Nat) : Item := ⟨block, .invalid, none, none, []⟩

/-- The item with a value that takes no memory. -/
def withPlain (item : Item) (value : CJson) : Item := { item with type := .plain value }

/-- The item with a string in the block `output`. -/
def withString (item : Item) (output : Nat) (s : CStr) : Item :=
  { item with type := .string, valuestring := some (output, s) }

/-- The item with a list. -/
def withChild (item : Item) (type : ItemType) (items : List Item) : Item :=
  { item with type := type, child := items }

/-- The swap of `valuestring` and `string` in `parse_object`. -/
def named (item : Item) : Item := { item with valuestring := none, string := item.valuestring }

/-- The name that the item is found by. -/
def name (item : Item) : String := String.ofList ((item.string.map Prod.snd).getD [])

end Item

/-- `if (s != NULL) deallocate(s)` -/
def Ledger.Memory.freeString (m : Memory) : Option (Nat × CStr) → Memory
  | some s => m.free s.1
  | none => m

mutual

/-- `cJSON_Delete`: one turn of its loop. -/
def Item.delete : Item → Memory → Memory
  | ⟨block, _, valuestring, string, child⟩, m =>
    (((deleteItems child m).freeString valuestring).freeString string).free block

/-- `cJSON_Delete` of a list. -/
def deleteItems : List Item → Memory → Memory
  | [], m => m
  | item :: items, m => deleteItems items (item.delete m)

end

/-! ## The parser -/

/-- What comes of the item and of the memory, and where the parser is if it has not failed. -/
abbrev ItemRes := Item × Memory × Except ParseFault ParseBuffer

/-- Parses a value into an item. -/
abbrev ItemParser := Item → ParseBuffer → Memory → ItemRes

def parseNumberIn : ItemParser := fun item b m =>
  match parseNumber b with
  | .error e => (item, m, .error e)
  | .ok (number, b) => (item.withPlain number, m, .ok b)

/-- `parse_string`, with the output in a block that is given back on failure. -/
def parseStringIn : ItemParser := fun item b m =>
  match b.charAt 0 with
  | .error e => (item, m, .error e)
  | .ok c =>
    if c = '"' then
      match scanString (b.offset + 1) 0 (b.content.drop (b.offset + 1)) with
      | none => (item, m, .error .failed)
      | some (inputEnd, skippedBytes) =>
        match m.allocate with
        | (none, m) => (item, m, .error .failed)
        | (some output, m) =>
          let size := inputEnd - b.offset - skippedBytes + 1
          match decodeString b size inputEnd (inputEnd - (b.offset + 1)) (b.offset + 1) [] >>=
              fun bytes => emit size bytes [nul] with
          | .error e => (item, m.free output, .error e)
          | .ok bytes => (item.withString output (cText bytes), m, .ok { b with offset := inputEnd + 1 })
    else (item, m, .error .failed)

/-- The loop of `parse_array` and `parse_object`; `items` is the list that begins with `head`. -/
def parseListIn (parseItem : ItemParser) :
    Nat → List Item → ParseBuffer → Memory → List Item × Memory × Except ParseFault ParseBuffer
  | 0, items, _, m => (items, m, .error .undefined)
  | n + 1, items, b, m =>
    match m.allocate with
    | (none, m) => (items, m, .error .failed)
    | (some block, m) =>
      match parseItem (.new block) (b.advance 1).skipWhitespace m with
      | (item, m, .error e) => (items ++ [item], m, .error e)
      | (item, m, .ok b) =>
        let b := b.skipWhitespace
        if b.sees ',' then parseListIn parseItem n (items ++ [item]) b m
        else (items ++ [item], m, .ok b)

/-- From the opening bracket to the closing one; on failure the list is deleted. -/
def parseClosedIn (close : Char) (type : ItemType) (parseItem : ItemParser) : ItemParser := fun item b m =>
  let b := (b.advance 1).skipWhitespace
  if b.sees close then (item.withChild type [], m, .ok (b.advance 1))
  else if b.length ≤ b.offset then (item, m, .error .failed)
  else
    match parseListIn parseItem b.length [] { b with offset := b.offset - 1 } m with
    | (items, m, .error e) => (item, deleteItems items m, .error e)
    | (items, m, .ok b) =>
      if b.sees close then (item.withChild type items, m, .ok (b.advance 1))
      else (item, deleteItems items m, .error .failed)

def parseArrayIn (parseValue : ItemParser) : ItemParser := fun item b m =>
  match b.charAt 0 with
  | .error e => (item, m, .error e)
  | .ok c => if c = '[' then parseClosedIn ']' .array parseValue item b m else (item, m, .error .failed)

/-- A name and a value. -/
def parseMemberIn (parseValue : ItemParser) : ItemParser := fun item b m =>
  match parseStringIn item b m with
  | (item, m, .error e) => (item, m, .error e)
  | (item, m, .ok b) =>
    let b := b.skipWhitespace
    if b.sees ':' then parseValue item.named (b.advance 1).skipWhitespace m
    else (item.named, m, .error .failed)

def parseObjectIn (parseValue : ItemParser) : ItemParser := fun item b m =>
  if b.sees '{' then parseClosedIn '}' .object (parseMemberIn parseValue) item b m
  else (item, m, .error .failed)

def parseValueIn (levels : Nat) : ItemParser := fun item b m =>
  if b.startsWith "null".toList then (item.withPlain .null, m, .ok (b.advance 4))
  else if b.startsWith "false".toList then (item.withPlain (.bool false), m, .ok (b.advance 5))
  else if b.startsWith "true".toList then (item.withPlain (.bool true), m, .ok (b.advance 4))
  else if b.sees '"' then parseStringIn item b m
  else if "-0123456789".toList.any b.sees then parseNumberIn item b m
  else if b.sees '[' then
    match levels with
    | 0 => (item, m, .error .failed)
    | levels + 1 => parseArrayIn (parseValueIn levels) item b m
  else if b.sees '{' then
    match levels with
    | 0 => (item, m, .error .failed)
    | levels + 1 => parseObjectIn (parseValueIn levels) item b m
  else (item, m, .error .failed)

/-- `cJSON_ParseWithOpts`, with the tree if there is one. -/
def cJsonParseIn (value : CStr) (m : Memory) : Option Item × Memory :=
  match m.allocate with
  | (none, m) => (none, m)
  | (some block, m) =>
    let b := ParseBuffer.skipUtf8Bom ⟨value ++ [nul], 0⟩
    match parseValueIn nestingLimit (.new block) b.skipWhitespace m with
    | (item, m, .error _) => (none, item.delete m)
    | (item, m, .ok _) => (some item, m)

/-! ## What is in an item -/

mutual

/-- The blocks that belong to an item. -/
def Item.blocks : Item → List Nat
  | ⟨block, _, valuestring, string, child⟩ =>
    block :: ((valuestring.map Prod.fst).toList ++ ((string.map Prod.fst).toList ++ blocksOf child))

def blocksOf : List Item → List Nat
  | [] => []
  | item :: items => item.blocks ++ blocksOf items

end

mutual

/-- The tree that is read of an item; none is read of one that was not filled. -/
def Item.tree : Item → CJson
  | ⟨_, type, valuestring, _, child⟩ =>
    match type with
    | .invalid => .null
    | .plain value => value
    | .string => .string ((valuestring.map Prod.snd).getD [])
    | .array => .array (treesOf child)
    | .object => .object (membersOf child)

def treesOf : List Item → List CJson
  | [] => []
  | item :: items => item.tree :: treesOf items

def membersOf : List Item → List (String × CJson)
  | [] => []
  | item :: items => (item.name, item.tree) :: membersOf items

end

def Item.member (item : Item) : String × CJson := (item.name, item.tree)

theorem treesOf_eq (items : List Item) : treesOf items = items.map Item.tree := by
  induction items with
  | nil => rfl
  | cons item items ih => rw [treesOf, ih, List.map_cons]

theorem membersOf_eq (items : List Item) : membersOf items = items.map Item.member := by
  induction items with
  | nil => rfl
  | cons item items ih => rw [membersOf, ih, List.map_cons, Item.member]

theorem blocksOf_append (items items' : List Item) :
    blocksOf (items ++ items') = blocksOf items ++ blocksOf items' := by
  induction items with
  | nil => rfl
  | cons item items ih => rw [List.cons_append, blocksOf, blocksOf, ih, List.append_assoc]

/-! ## An item is given back whole -/

theorem later_freeString (m : Memory) (s : Option (Nat × CStr)) : Later m (m.freeString s) := by
  cases s with
  | none => exact Later.refl m
  | some s => exact later_free m s.1

theorem holds_freeString {m : Memory} {s : Option (Nat × CStr)} {blocks : List Nat}
    (h : Holds m ((s.map Prod.fst).toList ++ blocks)) : Holds (m.freeString s) blocks := by
  cases s with
  | none => exact h
  | some s => exact h.free

mutual

theorem Item.holds_delete : ∀ (item : Item) (m : Memory) (rest : List Nat),
    Holds m (item.blocks ++ rest) → Holds (item.delete m) rest
  | ⟨block, type, valuestring, string, child⟩, m, rest, h => by
    rw [Item.delete]
    refine Holds.free (holds_freeString (holds_freeString (holds_deleteItems child m _ (h.perm ?_))))
    rw [Item.blocks]
    -- the list is deleted first, the item itself last
    rw [List.perm_iff_count]
    intro n
    simp only [List.cons_append, List.count_cons, List.count_append]
    omega

theorem holds_deleteItems : ∀ (items : List Item) (m : Memory) (rest : List Nat),
    Holds m (blocksOf items ++ rest) → Holds (deleteItems items m) rest
  | [], m, rest, h => h
  | item :: items, m, rest, h => by
    rw [deleteItems]
    refine holds_deleteItems items _ rest (item.holds_delete m _ ?_)
    rwa [blocksOf, List.append_assoc] at h

end

mutual

theorem Item.later_delete : ∀ (item : Item) (m : Memory), Later m (item.delete m)
  | ⟨block, type, valuestring, string, child⟩, m => by
    rw [Item.delete]
    exact (((later_deleteItems child m).trans (later_freeString _ _)).trans (later_freeString _ _)).trans
      (later_free _ _)

theorem later_deleteItems : ∀ (items : List Item) (m : Memory), Later m (deleteItems items m)
  | [], m => Later.refl m
  | item :: items, m => by
    rw [deleteItems]
    exact (item.later_delete m).trans (later_deleteItems items _)

end

/-! ## A string -/

/-- The value of the item is still to come. -/
structure Item.Empty (item : Item) : Prop where
  valuestring : item.valuestring = none
  child : item.child = []

theorem Item.empty_new (block : Nat) : (Item.new block).Empty := ⟨rfl, rfl⟩

/-- What `parse_string` comes to: nothing is kept, or one block that is in the item. -/
inductive StringOutcome (item : Item) (b : ParseBuffer) (m : Memory) : ItemRes → Prop where
  | fails (e : ParseFault) (m' : Memory) (later : Later m m')
    (holds : ∀ blocks, Holds m blocks → Holds m' blocks) (why : parseString b = .error e ∨ Refused m m') :
    StringOutcome item b m (item, m', .error e)
  | gives (output : Nat) (s : CStr) (b' : ParseBuffer) (m' : Memory) (later : Later m m')
    (holds : ∀ blocks, Holds m blocks → Holds m' (output :: blocks))
    (plain : parseString b = .ok (s, b')) :
    StringOutcome item b m (item.withString output s, m', .ok b')

theorem parseStringIn_outcome (item : Item) (b : ParseBuffer) (m : Memory) :
    StringOutcome item b m (parseStringIn item b m) := by
  have hkeep : ∀ e, parseString b = .error e → StringOutcome item b m (item, m, .error e) := fun e he =>
    .fails e m (Later.refl m) (fun _ h => h) (.inl he)
  unfold parseStringIn
  cases hc : b.charAt 0 with
  | error e => exact hkeep e (by simp only [parseString, hc]; rfl)
  | ok c =>
    dsimp only
    split
    · next hquote =>
      cases hscan : scanString (b.offset + 1) 0 (b.content.drop (b.offset + 1)) with
      | none => exact hkeep .failed (by simp only [parseString, hc, bind, Except.bind, if_pos hquote, hscan])
      | some p =>
        obtain ⟨inputEnd, skippedBytes⟩ := p
        dsimp only
        cases halloc : m.allocate with
        | mk o m' =>
          cases o with
          | none =>
            exact .fails .failed m' (later_allocate halloc) (fun _ h => holds_allocate_none h halloc)
              (.inr (refused_allocate halloc))
          | some output =>
            have hplain : parseString b = (decodeString b (inputEnd - b.offset - skippedBytes + 1) inputEnd
                (inputEnd - (b.offset + 1)) (b.offset + 1) [] >>= fun bytes =>
                  emit (inputEnd - b.offset - skippedBytes + 1) bytes [nul]).map fun bytes =>
                    (cText bytes, { b with offset := inputEnd + 1 }) := by
              simp only [parseString, hc, bind, Except.bind, if_pos hquote, hscan]
              cases decodeString b (inputEnd - b.offset - skippedBytes + 1) inputEnd
                (inputEnd - (b.offset + 1)) (b.offset + 1) [] with
              | error e => rfl
              | ok bytes =>
                dsimp only
                cases emit (inputEnd - b.offset - skippedBytes + 1) bytes [nul] <;> rfl
            dsimp only
            split
            · next e hdecode =>
              rw [hdecode] at hplain
              exact .fails e (m'.free output) ((later_allocate halloc).trans (later_free _ _))
                (fun _ h => (holds_allocate h halloc).free) (.inl hplain)
            · next bytes hdecode =>
              rw [hdecode] at hplain
              exact .gives output (cText bytes) _ m' (later_allocate halloc)
                (fun _ h => holds_allocate h halloc) hplain
    · next hquote => exact hkeep .failed (by simp only [parseString, hc, bind, Except.bind, if_neg hquote])

/-! ## What a parser makes of an item -/

/-- The plain parser gives what `read` reads of the item, and fails as well unless an allocation was
refused.  Whoever holds the rest of the memory holds it still. -/
structure Fills {α : Type} (read : Item → α) (plain : Except ParseFault (α × ParseBuffer)) (item : Item)
    (m : Memory) (out : ItemRes) : Prop where
  later : Later m out.2.1
  holds : ∀ rest, Holds m (item.blocks ++ rest) → Holds out.2.1 (out.1.blocks ++ rest)
  ok : ∀ b, out.2.2 = .ok b → plain = .ok (read out.1, b)
  error : ∀ e, out.2.2 = .error e → plain = .error e ∨ Refused m out.2.1

section
variable {α : Type} {read : Item → α} {plain : Except ParseFault (α × ParseBuffer)}
variable {item : Item} {m : Memory}

/-- Nothing was allocated, and the plain parser fails. -/
theorem fills_error {e : ParseFault} (h : plain = .error e) :
    Fills read plain item m (item, m, .error e) where
  later := Later.refl m
  holds _ hm := hm
  ok _ hb := by cases hb
  error _ he := by
    cases he
    exact .inl h

theorem fills_ite {c : Prop} [Decidable c] {plain' : Except ParseFault (α × ParseBuffer)}
    {out out' : ItemRes} (hpos : c → Fills read plain item m out) (hneg : ¬ c → Fills read plain' item m out') :
    Fills read (if c then plain else plain') item m (if c then out else out') := by
  by_cases hc : c
  · rw [if_pos hc, if_pos hc]
    exact hpos hc
  · rw [if_neg hc, if_neg hc]
    exact hneg hc

/-- Nothing was allocated, and the item is filled. -/
theorem fills_ok {item' : Item} {b : ParseBuffer} (hblocks : item'.blocks = item.blocks)
    (h : plain = .ok (read item', b)) : Fills read plain item m (item', m, .ok b) where
  later := Later.refl m
  holds _ hm := by rwa [hblocks]
  ok _ hb := by
    cases hb
    exact h
  error _ he := by cases he

end

theorem Item.Empty.blocks_withString {item : Item} (h : item.Empty) (output : Nat) (s : CStr) :
    (item.withString output s).blocks.Perm (output :: item.blocks) := by
  obtain ⟨block, type, valuestring, string, child⟩ := item
  obtain rfl : valuestring = none := h.valuestring
  exact List.Perm.swap ..

theorem Item.Empty.blocks_withChild {item : Item} (h : item.Empty) (type : ItemType) (items : List Item) :
    (item.withChild type items).blocks.Perm (blocksOf items ++ item.blocks) := by
  obtain ⟨block, type', valuestring, string, child⟩ := item
  obtain rfl : valuestring = none := h.valuestring
  obtain rfl : child = [] := h.child
  simp only [Item.withChild, Item.blocks, blocksOf, Option.map_none, Option.toList_none, List.nil_append,
    List.append_nil]
  rw [← List.cons_append]
  exact List.perm_append_comm

/-- The string is the value of the item. -/
theorem fills_string {item : Item} (h : item.Empty) (b : ParseBuffer) (m : Memory) :
    Fills Item.tree ((parseString b).map fun p => (.string p.1, p.2)) item m (parseStringIn item b m) := by
  have hout := parseStringIn_outcome item b m
  generalize parseStringIn item b m = out at hout
  cases hout with
  | fails e m' later holds why =>
    refine ⟨later, fun rest hm => holds _ hm, fun _ hb => (by cases hb), fun e' he => ?_⟩
    cases he
    exact why.imp (fun hp => by rw [hp]; rfl) id
  | gives output s b' m' later holds plain =>
    refine ⟨later, fun rest hm => ?_, fun b hb => ?_, fun _ he => (by cases he)⟩
    · exact (holds _ hm).perm ((h.blocks_withString output s).append_right rest).symm
    · cases hb
      rw [plain]
      rfl

/-! ## A list -/

/-- `Fills` for the loop: the new items come behind those there are. -/
structure FillsList {α : Type} (read : Item → α) (plain : Except ParseFault (List α × ParseBuffer))
    (items : List Item) (m : Memory) (out : List Item × Memory × Except ParseFault ParseBuffer) : Prop where
  later : Later m out.2.1
  holds : ∀ rest, Holds m (blocksOf items ++ rest) → Holds out.2.1 (blocksOf out.1 ++ rest)
  ok : ∀ b, out.2.2 = .ok b → ∃ new : List Item, plain = .ok (new.map read, b) ∧ out.1 = items ++ new
  error : ∀ e, out.2.2 = .error e → plain = .error e ∨ Refused m out.2.1

section
variable {α : Type} {read : Item → α} {parseItem : ItemParser}
variable {plainItem : ParseBuffer → Except ParseFault (α × ParseBuffer)}
variable (hitem : ∀ block b m, Fills read (plainItem b) (.new block) m (parseItem (.new block) b m))

include hitem

theorem fillsList_parseListIn (n : Nat) : ∀ (items : List Item) (b : ParseBuffer) (m : Memory),
    FillsList read (parseList plainItem n b) items m (parseListIn parseItem n items b m) := by
  induction n with
  | zero =>
    intro items b m
    refine ⟨Later.refl m, fun _ hm => hm, fun _ hb => (by cases hb), fun e he => ?_⟩
    cases he
    exact .inl rfl
  | succ n ih =>
    intro items b m
    unfold parseListIn
    cases halloc : m.allocate with
    | mk o m' =>
      have hlater := later_allocate halloc
      cases o with
      | none =>
        refine ⟨hlater, fun _ hm => holds_allocate_none hm halloc, fun _ hb => (by cases hb),
          fun e he => ?_⟩
        exact .inr (refused_allocate halloc)
      | some block =>
        have hone := hitem block (b.advance 1).skipWhitespace m'
        dsimp only
        generalize parseItem (.new block) (b.advance 1).skipWhitespace m' = out at hone
        obtain ⟨item, m'', r⟩ := out
        obtain ⟨hlater', hholds', hok, herror⟩ := hone
        dsimp only at hlater' hholds' hok herror
        -- the item comes behind the list, whether it was filled or not
        have hholds : ∀ rest, Holds m (blocksOf items ++ rest) →
            Holds m'' (blocksOf (items ++ [item]) ++ rest) := by
          intro rest hm
          refine (hholds' (blocksOf items ++ rest) (holds_allocate hm halloc)).perm ?_
          rw [blocksOf_append, blocksOf, blocksOf, List.append_nil, ← List.append_assoc]
          exact List.perm_append_comm.append_right rest
        cases r with
        | error e =>
          refine ⟨hlater.trans hlater', hholds, fun _ hb => (by cases hb), fun e' he => ?_⟩
          cases he
          refine (herror e rfl).imp (fun hplain => ?_) (Refused.before hlater)
          rw [parseList, hplain]
          rfl
        | ok b' =>
          have hplain := hok b' rfl
          dsimp only
          split
          · next hcomma =>
            obtain ⟨hlater'', hholds'', hok', herror'⟩ := ih (items ++ [item]) b'.skipWhitespace m''
            refine ⟨(hlater.trans hlater').trans hlater'', fun rest hm => hholds'' rest (hholds rest hm),
              fun b'' hb => ?_, fun e he => ?_⟩
            · obtain ⟨new, hnew, hlist⟩ := hok' b'' hb
              refine ⟨item :: new, ?_, by rw [hlist, List.append_assoc]; rfl⟩
              rw [parseList, hplain]
              simp only [bind, Except.bind, if_pos hcomma, hnew]
              rfl
            · refine (herror' e he).imp (fun hnew => ?_) (Refused.before (hlater.trans hlater'))
              rw [parseList, hplain]
              simp only [bind, Except.bind, if_pos hcomma, hnew]
          · next hcomma =>
            refine ⟨hlater.trans hlater', hholds, fun b'' hb => ⟨[item], ?_, rfl⟩,
              fun e he => (by cases he)⟩
            cases hb
            rw [parseList, hplain]
            simp only [bind, Except.bind, if_neg hcomma]
            rfl

/-- Up to the bracket that closes the list. -/
theorem fills_parseClosedIn (type : ItemType) (value : List α → CJson)
    (hread : ∀ item items, (Item.withChild item type items).tree = value (items.map read)) {item : Item}
    (h : item.Empty) (close : Char) (b : ParseBuffer) (m : Memory) :
    Fills Item.tree ((parseClosed close plainItem b).map fun p => (value p.1, p.2)) item m
      (parseClosedIn close type parseItem item b m) := by
  unfold parseClosedIn parseClosed
  dsimp only
  generalize (b.advance 1).skipWhitespace = b
  by_cases hclose : b.sees close = true
  · rw [if_pos hclose, if_pos hclose]
    refine fills_ok ?_ ?_
    · obtain ⟨block, type', valuestring, string, child⟩ := item
      obtain rfl : child = [] := h.child
      rfl
    · rw [hread]
      rfl
  rw [if_neg hclose, if_neg hclose]
  by_cases hend : b.length ≤ b.offset
  · rw [if_pos hend, if_pos hend]
    exact fills_error rfl
  rw [if_neg hend, if_neg hend]
  have hlist := fillsList_parseListIn hitem b.length [] { b with offset := b.offset - 1 } m
  generalize parseListIn parseItem b.length [] { b with offset := b.offset - 1 } m = out at hlist
  obtain ⟨items, m', r⟩ := out
  obtain ⟨hlater, hholds, hok, herror⟩ := hlist
  dsimp only at hlater hholds hok herror
  have hlater' := hlater.trans (later_deleteItems items m')
  have hdelete : ∀ rest, Holds m (item.blocks ++ rest) →
      Holds (deleteItems items m') (item.blocks ++ rest) :=
    fun rest hm => holds_deleteItems items m' _ (hholds _ hm)
  cases r with
  | error e =>
    refine ⟨hlater', hdelete, fun _ hb => (by cases hb), fun e' he => ?_⟩
    cases he
    refine (herror e rfl).imp (fun hplain => ?_) (Refused.after · (later_deleteItems items m'))
    rw [hplain]
    rfl
  | ok b' =>
    obtain ⟨_, hplain, rfl⟩ := hok b' rfl
    dsimp only
    by_cases hsees : b'.sees close = true
    · rw [if_pos hsees]
      refine ⟨hlater, fun rest hm => ?_, fun b'' hb => ?_, fun _ he => (by cases he)⟩
      · have hperm := (h.blocks_withChild type items).append_right rest
        rw [List.append_assoc] at hperm
        exact (hholds _ hm).perm hperm.symm
      · cases hb
        rw [hplain]
        simp only [bind, Except.bind, Except.map, if_pos hsees, hread]
    · rw [if_neg hsees]
      refine ⟨hlater', hdelete, fun _ hb => (by cases hb), fun e' he => ?_⟩
      cases he
      refine .inl ?_
      rw [hplain]
      simp only [bind, Except.bind, Except.map, if_neg hsees]

end

/-! ## A value -/

section
variable {parse : ItemParser} {plain : ParseBuffer → Except ParseFault (CJson × ParseBuffer)}
variable (hvalue : ∀ item b m, Item.Empty item → Fills Item.tree (plain b) item m (parse item b m))

include hvalue

theorem fills_parseArrayIn {item : Item} (h : item.Empty) (b : ParseBuffer) (m : Memory) :
    Fills Item.tree (parseArray plain b) item m (parseArrayIn parse item b m) := by
  unfold parseArrayIn parseArray
  cases b.charAt 0 with
  | error e => exact fills_error rfl
  | ok c =>
    simp only [bind, Except.bind]
    split
    · have := fills_parseClosedIn (fun block b m => hvalue _ b m (Item.empty_new block)) .array .array
        (fun item items => by rw [Item.withChild, Item.tree, treesOf_eq]) h ']' b m
      cases hplain : parseClosed ']' plain b <;> rw [hplain] at this <;> exact this
    · exact fills_error rfl

/-- The name is in the item when its value is parsed, and goes with the item if this fails. -/
theorem fills_parseMemberIn (hstring : ∀ item b m, (parse item b m).1.string = item.string) (block : Nat)
    (b : ParseBuffer) (m : Memory) :
    Fills Item.member (parseMember plain b) (.new block) m (parseMemberIn parse (.new block) b m) := by
  have hout := parseStringIn_outcome (.new block) b m
  unfold parseMemberIn
  generalize parseStringIn (.new block) b m = out at hout
  cases hout with
  | fails e m' later holds why =>
    refine ⟨later, fun rest hm => holds _ hm, fun _ hb => (by cases hb), fun e' he => ?_⟩
    cases he
    refine why.imp_left fun hp => ?_
    rw [parseMember, hp]
    rfl
  | gives output s b' m' later holds hp =>
    have hnamed : ∀ rest, Holds m ((Item.new block).blocks ++ rest) →
        Holds m' ((Item.named ((Item.new block).withString output s)).blocks ++ rest) := fun rest hm =>
      (holds _ hm).perm (List.Perm.swap ..)
    dsimp only
    by_cases hcolon : b'.skipWhitespace.sees ':' = true
    · rw [if_pos hcolon]
      have hv := hvalue (Item.named ((Item.new block).withString output s))
        (b'.skipWhitespace.advance 1).skipWhitespace m' ⟨rfl, rfl⟩
      have hs := hstring (Item.named ((Item.new block).withString output s))
        (b'.skipWhitespace.advance 1).skipWhitespace m'
      refine ⟨later.trans hv.later, fun rest hm => hv.holds rest (hnamed rest hm), fun b'' hb => ?_,
        fun e he => ?_⟩
      · rw [parseMember, hp]
        simp only [bind, Except.bind, if_pos hcolon, hv.ok b'' hb, Item.member, Item.name, hs]
        rfl
      · refine (hv.error e he).imp (fun hplain => ?_) (Refused.before later)
        rw [parseMember, hp]
        simp only [bind, Except.bind, if_pos hcolon, hplain]
    · rw [if_neg hcolon]
      refine ⟨later, hnamed, fun _ hb => (by cases hb), fun e he => ?_⟩
      cases he
      refine .inl ?_
      rw [parseMember, hp]
      simp only [bind, Except.bind, if_neg hcolon]

theorem fills_parseObjectIn (hstring : ∀ item b m, (parse item b m).1.string = item.string) {item : Item}
    (h : item.Empty) (b : ParseBuffer) (m : Memory) :
    Fills Item.tree (parseObject plain b) item m (parseObjectIn parse item b m) := by
  unfold parseObjectIn parseObject
  split
  · have := fills_parseClosedIn (fills_parseMemberIn hvalue hstring) .object .object
      (fun item items => by rw [Item.withChild, Item.tree, membersOf_eq]) h '}' b m
    simp only [bind, Except.bind]
    cases hplain : parseClosed '}' (parseMember plain) b <;> rw [hplain] at this <;> exact this
  · exact fills_error rfl

end

theorem fills_withPlain (item : Item) (value : CJson) (b : ParseBuffer) (m : Memory) :
    Fills Item.tree (.ok (value, b)) item m (item.withPlain value, m, .ok b) := by
  obtain ⟨block, type, valuestring, string, child⟩ := item
  refine fills_ok rfl ?_
  rw [Item.withPlain, Item.tree]

theorem fills_parseNumberIn (item : Item) (b : ParseBuffer) (m : Memory) :
    Fills Item.tree (parseNumber b) item m (parseNumberIn item b m) := by
  unfold parseNumberIn
  cases hplain : parseNumber b with
  | error e => exact fills_error rfl
  | ok p => exact fills_withPlain item p.1 p.2 m

theorem parseClosedIn_string (close : Char) (type : ItemType) (parseItem : ItemParser) (item : Item)
    (b : ParseBuffer) (m : Memory) :
    (parseClosedIn close type parseItem item b m).1.string = item.string := by
  unfold parseClosedIn
  dsimp only
  split
  · rfl
  split
  · rfl
  split
  · rfl
  · split <;> rfl

/-- A parser leaves the name of the item as it is. -/
theorem parseValueIn_string (levels : Nat) (item : Item) (b : ParseBuffer) (m : Memory) :
    (parseValueIn levels item b m).1.string = item.string := by
  have hstring : (parseStringIn item b m).1.string = item.string := by
    have hout := parseStringIn_outcome item b m
    generalize parseStringIn item b m = out at hout
    cases hout <;> rfl
  have hnumber : (parseNumberIn item b m).1.string = item.string := by
    unfold parseNumberIn
    split <;> rfl
  have harray (parse : ItemParser) : (parseArrayIn parse item b m).1.string = item.string := by
    unfold parseArrayIn
    split
    · rfl
    · split
      · exact parseClosedIn_string ..
      · rfl
  have hobject (parse : ItemParser) : (parseObjectIn parse item b m).1.string = item.string := by
    unfold parseObjectIn
    split
    · exact parseClosedIn_string ..
    · rfl
  unfold parseValueIn
  split_ifs
  · rfl
  · rfl
  · rfl
  · exact hstring
  · exact hnumber
  · cases levels with
    | zero => rfl
    | succ levels => exact harray _
  · cases levels with
    | zero => rfl
    | succ levels => exact hobject _
  · rfl

/-- **Whatever is refused, the item gets the tree of the plain parser, or that fails as well.** -/
theorem fills_parseValueIn (levels : Nat) : ∀ (item : Item) (b : ParseBuffer) (m : Memory), item.Empty →
    Fills Item.tree (parseValue levels b) item m (parseValueIn levels item b m) := by
  have hstring {item : Item} (h : item.Empty) (b : ParseBuffer) (m : Memory)
      {f : CStr × ParseBuffer → Except ParseFault (CJson × ParseBuffer)}
      (hf : ∀ p, f p = .ok (.string p.1, p.2)) :
      Fills Item.tree (parseString b >>= f) item m (parseStringIn item b m) := by
    have := fills_string h b m
    cases hplain : parseString b with
    | error e =>
      rw [hplain] at this
      exact this
    | ok p =>
      have hbind : (Except.ok p >>= f) = .ok (.string p.1, p.2) := hf p
      rw [hplain] at this
      rw [hbind]
      exact this
  induction levels with
  | zero =>
    intro item b m h
    unfold parseValueIn parseValue
    refine fills_ite (fun _ => fills_withPlain ..) fun _ => ?_
    refine fills_ite (fun _ => fills_withPlain ..) fun _ => ?_
    refine fills_ite (fun _ => fills_withPlain ..) fun _ => ?_
    refine fills_ite (fun _ => hstring h b m fun _ => rfl) fun _ => ?_
    refine fills_ite (fun _ => fills_parseNumberIn ..) fun _ => ?_
    refine fills_ite (fun _ => fills_error rfl) fun _ => ?_
    exact fills_ite (fun _ => fills_error rfl) fun _ => fills_error rfl
  | succ levels ih =>
    intro item b m h
    unfold parseValueIn parseValue
    refine fills_ite (fun _ => fills_withPlain ..) fun _ => ?_
    refine fills_ite (fun _ => fills_withPlain ..) fun _ => ?_
    refine fills_ite (fun _ => fills_withPlain ..) fun _ => ?_
    refine fills_ite (fun _ => hstring h b m fun _ => rfl) fun _ => ?_
    refine fills_ite (fun _ => fills_parseNumberIn ..) fun _ => ?_
    refine fills_ite (fun _ => fills_parseArrayIn ih h b m) fun _ => ?_
    refine fills_ite (fun _ => fills_parseObjectIn ih (parseValueIn_string levels) h b m) fun _ => ?_
    exact fills_error rfl

/-! ## A text -/

/-- What `cJSON_Parse` comes to: a tree, or nothing that is kept. -/
inductive TextOutcome (value : CStr) (m : Memory) : Option Item × Memory → Prop where
  | gives (item : Item) (m' : Memory) (later : Later m m')
    (holds : ∀ rest, Holds m rest → Holds m' (item.blocks ++ rest))
    (plain : cJsonParse value = some item.tree) :
    TextOutcome value m (some item, m')
  | fails (m' : Memory) (later : Later m m') (holds : ∀ rest, Holds m rest → Holds m' rest)
    (why : cJsonParse value = none ∨ Refused m m') : TextOutcome value m (none, m')

theorem cJsonParseIn_outcome (value : CStr) (m : Memory) : TextOutcome value m (cJsonParseIn value m) := by
  unfold cJsonParseIn
  cases halloc : m.allocate with
  | mk o m₁ =>
    have hlater := later_allocate halloc
    cases o with
    | none =>
      exact .fails m₁ hlater (fun _ hm => holds_allocate_none hm halloc) (.inr (refused_allocate halloc))
    | some block =>
      have hfills := fills_parseValueIn nestingLimit (.new block)
        (ParseBuffer.skipUtf8Bom ⟨value ++ [nul], 0⟩).skipWhitespace m₁ (Item.empty_new block)
      dsimp only
      generalize parseValueIn nestingLimit (.new block)
        (ParseBuffer.skipUtf8Bom ⟨value ++ [nul], 0⟩).skipWhitespace m₁ = out at hfills
      obtain ⟨item, m₂, r⟩ := out
      obtain ⟨hlater', hholds, hok, herror⟩ := hfills
      dsimp only at hlater' hholds hok herror
      have hgot : ∀ rest, Holds m rest → Holds m₂ (item.blocks ++ rest) := fun rest hm =>
        hholds rest (holds_allocate hm halloc)
      cases r with
      | ok b =>
        refine .gives item m₂ (hlater.trans hlater') hgot ?_
        rw [cJsonParse, parseText, hok b rfl]
        rfl
      | error e =>
        refine .fails _ ((hlater.trans hlater').trans (item.later_delete m₂))
          (fun rest hm => item.holds_delete m₂ rest (hgot rest hm)) ?_
        refine (herror e rfl).imp (fun hplain => ?_) fun hr =>
          (hr.before hlater).after (item.later_delete m₂)
        rw [cJsonParse, parseText, hplain]
        rfl

/-- **Whichever allocations are refused, a text is parsed into the tree it always has, in blocks that its
deletion gives back, or into none with nothing kept**; and there is none only if there never is or
something was refused. -/
theorem parse_memory (value : CStr) (m : Memory) (rest : List Nat) (hm : Holds m rest) :
    (∀ item m', cJsonParseIn value m = (some item, m') →
        cJsonParse value = some item.tree ∧ Holds m' (item.blocks ++ rest) ∧
          Holds (item.delete m') rest) ∧
      ∀ m', cJsonParseIn value m = (none, m') →
        Holds m' rest ∧ (cJsonParse value = none ∨ Refused m m') := by
  have hout := cJsonParseIn_outcome value m
  generalize cJsonParseIn value m = out at hout
  cases hout with
  | gives item m₁ later holds plain =>
    refine ⟨fun item' m' h => ?_, fun m' h => (by cases h)⟩
    cases h
    exact ⟨plain, holds rest hm, item.holds_delete m₁ rest (holds rest hm)⟩
  | fails m₁ later holds why =>
    refine ⟨fun item' m' h => (by cases h), fun m' h => ?_⟩
    cases h
    exact ⟨holds rest hm, why⟩

/-- A memory of which the third allocation is refused. -/
def thirdRefused : Memory := ⟨fun n => n != 2, 0, [], true⟩

theorem holds_thirdRefused : Holds thirdRefused [] := ⟨rfl, List.Perm.refl _⟩

/-- There is no block for the text of the string, and the two items go back. -/
theorem parse_memory_third_refused :
    ∃ m', cJsonParseIn "[\"a\"]".toList thirdRefused = (none, m') ∧ Holds m' [] := by
  have hnone : (cJsonParseIn "[\"a\"]".toList thirdRefused).1 = none :=
    Option.isNone_iff_eq_none.mp (by decide +kernel)
  have hpair : cJsonParseIn "[\"a\"]".toList thirdRefused = (none, _) := Prod.ext hnone rfl
  exact ⟨_, hpair, ((parse_memory _ thirdRefused [] holds_thirdRefused).2 _ hpair).1⟩

/-! ## One request after the other -/

/-- A decoder of `jsont.c`: the text is parsed, `read`, and its tree deleted. -/
def decodeIn {α : Type} (read : Body → α) (json : CStr) (m : Memory) : α × Memory :=
  match cJsonParseIn json m with
  | (none, m) => (read none, m)
  | (some root, m) => (read (some root.tree), root.delete m)

/-- What the decoders make of the requests, and the memory behind them. -/
def decodeAll {α : Type} : List ((Body → α) × CStr) → Memory → List α × Memory
  | [], m => ([], m)
  | r :: requests, m =>
    let first := decodeIn r.1 r.2 m
    let others := decodeAll requests first.2
    (first.1 :: others.1, others.2)

section
variable {α : Type}

/-- A decoder keeps nothing, and reads what it always does unless something was refused. -/
theorem decodeIn_spec (read : Body → α) (json : CStr) (m : Memory) :
    Later m (decodeIn read json m).2 ∧ (∀ rest, Holds m rest → Holds (decodeIn read json m).2 rest) ∧
      ((decodeIn read json m).1 = read (cJsonParse json) ∨
        (decodeIn read json m).1 = read none ∧ Refused m (decodeIn read json m).2) := by
  unfold decodeIn
  have hout := cJsonParseIn_outcome json m
  generalize cJsonParseIn json m = out at hout
  cases hout with
  | gives root m' later holds plain =>
    exact ⟨later.trans (root.later_delete m'), fun rest hm => root.holds_delete m' rest (holds rest hm),
      .inl (by rw [plain])⟩
  | fails m' later holds why =>
    obtain hnone | hrefused := why
    · exact ⟨later, holds, .inl (by rw [hnone])⟩
    · exact ⟨later, holds, .inr ⟨rfl, hrefused⟩⟩

theorem decodeAll_append (requests requests' : List ((Body → α) × CStr)) (m : Memory) :
    decodeAll (requests ++ requests') m =
      ((decodeAll requests m).1 ++ (decodeAll requests' (decodeAll requests m).2).1,
        (decodeAll requests' (decodeAll requests m).2).2) := by
  induction requests generalizing m with
  | nil => rfl
  | cons r requests ih => simp only [List.cons_append, decodeAll, ih]

theorem length_decodeAll (requests : List ((Body → α) × CStr)) (m : Memory) :
    (decodeAll requests m).1.length = requests.length := by
  induction requests generalizing m with
  | nil => rfl
  | cons r requests ih => exact congrArg Nat.succ (ih _)

/-- **Requests leave the memory as they found it, however many there are and whatever is refused**, and
each is read as it always is unless something was refused while it was served. -/
theorem requests_keep_memory (requests : List ((Body → α) × CStr)) (m : Memory) (rest : List Nat)
    (hm : Holds m rest) :
    Holds (decodeAll requests m).2 rest ∧ ∀ before r after, requests = before ++ r :: after →
      ∃ a, (decodeAll requests m).1[before.length]? = some a ∧ (a = r.1 (cJsonParse r.2) ∨
        a = r.1 none ∧ Refused (decodeAll before m).2 (decodeAll (before ++ [r]) m).2) := by
  constructor
  · induction requests generalizing m with
    | nil => exact hm
    | cons r requests ih => exact ih _ ((decodeIn_spec r.1 r.2 m).2.1 rest hm)
  · rintro before r after rfl
    refine ⟨(decodeIn r.1 r.2 (decodeAll before m).2).1, ?_, ?_⟩
    · rw [decodeAll_append, List.getElem?_append_right (by rw [length_decodeAll]), length_decodeAll,
        Nat.sub_self]
      rfl
    · rw [decodeAll_append]
      exact (decodeIn_spec r.1 r.2 (decodeAll before m).2).2.2

end

/-- The same power twice. -/
def sevenTwice : List ((Body → Except Jerr CoolersPwr) × CStr) :=
  List.replicate 2 (jsonToCoolersPower, "\x7b\"wind_in\":7\x7d".toList)

/-- The first request meets the refusal, the second is read. -/
theorem requests_keep_memory_third_refused :
    Holds (decodeAll sevenTwice thirdRefused).2 [] ∧
      (decodeAll sevenTwice thirdRefused).1 = [.error .parserErr, .ok ⟨7, -1⟩] :=
  ⟨(requests_keep_memory sevenTwice thirdRefused [] holds_thirdRefused).1, by decide +kernel⟩

end Growbox
