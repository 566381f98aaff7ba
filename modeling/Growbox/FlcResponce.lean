import Growbox.Lib.Block
import Growbox.Lib.EventRun

/-!
# `flc.cpp`: the bytes of an answer

`flc_get_responce` reads until a chunk ends in a newline or a read gets nothing.  How
much it asks for depends on the chunk before only, so from the third chunk on more can
come than there is room for; and it uses the result of a read as a number of bytes
even when it is -1.  `laid` is what the chunks amount to, each laid where the results
before it add up to, and `responce_safe_iff` says when that stays inside.
-/

namespace Growbox

open EventRun

/-! ## `flc_get_responce` -/

/-- What `select` answers. -/
inductive Selected where
  | failed | timeout | ready
  deriving DecidableEq, Repr

/-- The loop's variables; `ret` is the value returned, once it has returned. -/
structure Responce where
  resp : Block Char
  bufPtr : Int
  res : Int
  ret : Option Int

/-- After `memset` and `select`. -/
def startResponce (size : Nat) (sel : Selected) : Responce where
  resp := .alloc nul size
  bufPtr := 0
  res := 0
  ret :=
    match sel with
    | .failed => some 0
    | .timeout => some (-1)
    | .ready => none

/-- `resp_size - res - 1`, as the `size_t` that `read` takes. -/
def readCount (size : Nat) (res : Int) : Nat := (((size : Int) - res - 1) % 18446744073709551616).toNat

/-- The result of `read`, kept in an `int`. -/
def intRet (r : ReadRes Char) : Int := (Int32.ofInt r.ret).toInt

/-- One turn of the loop. -/
def responceTurn (st : Responce) (r : ReadRes Char) : Responce :=
  let resp := st.resp.write st.bufPtr r.bytes
  let res := intRet r
  if res = 0 then ⟨resp, st.bufPtr, res, some 0⟩
  else
    let (c, resp) := resp.read (st.bufPtr + res - 1)
    if c = '\n' then ⟨resp, st.bufPtr, res, some 0⟩
    else ⟨resp, st.bufPtr + res, res, none⟩

/-- A turn with a result that `read` can have: not more bytes than were asked for. -/
def responceStep (size : Nat) (st : Responce) (r : ReadRes Char) : Option Responce :=
  if st.ret = none ∧ r.bytes.length ≤ readCount size st.res then some (responceTurn st r) else none

/-- Nothing outside `resp` is read or written, and what is returned has a terminator. -/
def Responce.Safe (st : Responce) : Prop :=
  st.resp.sound = true ∧ (st.ret ≠ none → st.resp.Terminated nul)

/-! ## What the chunks amount to -/

/-- The sum of the results, and the bytes. -/
structure Laid where
  cursor : Int
  text : List Char

def layChunk (l : Laid) (r : ReadRes Char) : Laid :=
  ⟨l.cursor + intRet r, overlay l.text l.cursor.toNat r.bytes⟩

def laid (rs : List (ReadRes Char)) : Laid := rs.foldl layChunk ⟨0, []⟩

/-- Each chunk ends within the buffer, and a result other than 0 leaves the sum positive: a read
fails only after two bytes. -/
def ChunksFit (size : Nat) : Laid → List (ReadRes Char) → Prop
  | _, [] => True
  | l, r :: rs =>
    l.cursor + r.bytes.length ≤ size ∧ (intRet r ≠ 0 → 1 ≤ l.cursor + intRet r) ∧
      ChunksFit size (layChunk l r) rs

/-! ## The loop lays the chunks -/

/-- The buffer holds what has been laid, with the cursor inside; after the return the cursor
counts no more. -/
structure Holding (size : Nat) (l : Laid) (st : Responce) : Prop where
  size_eq : st.resp.size = size
  sound : st.resp.sound = true
  holds : st.resp.Holds nul l.text
  length_le : l.text.length ≤ size
  cursor : st.ret = none → st.bufPtr = l.cursor ∧ 0 ≤ l.cursor ∧ l.cursor ≤ l.text.length

theorem intRet_le (r : ReadRes Char) : intRet r ≤ r.bytes.length := by
  have hmod : intRet r = r.ret.bmod 4294967296 := Int32.toInt_ofInt
  rw [hmod]
  cases r with
  | failed => decide
  | got bytes =>
    show (bytes.length : Int).bmod 4294967296 ≤ bytes.length
    rw [Int.bmod_eq_emod]
    split <;> omega

theorem turn_nothing {st : Responce} {r : ReadRes Char} (h : intRet r = 0) :
    responceTurn st r = ⟨st.resp.write st.bufPtr r.bytes, st.bufPtr, intRet r, some 0⟩ := if_pos h

/-- With a result the byte before the cursor's next place is looked at. -/
theorem turn_something {st : Responce} {r : ReadRes Char} (h : intRet r ≠ 0) :
    responceTurn st r =
      let look := (st.resp.write st.bufPtr r.bytes).read (st.bufPtr + intRet r - 1)
      if look.1 = '\n' then ⟨look.2, st.bufPtr, intRet r, some 0⟩
      else ⟨look.2, st.bufPtr + intRet r, intRet r, none⟩ := if_neg h

/-- A turn stays inside exactly when its chunk fits. -/
theorem sound_turn_iff {size : Nat} {l : Laid} {st : Responce} (h : Holding size l st)
    (hret : st.ret = none) (r : ReadRes Char) :
    (responceTurn st r).resp.sound = true ↔
      l.cursor + r.bytes.length ≤ size ∧ (intRet r ≠ 0 → 1 ≤ l.cursor + intRet r) := by
  obtain ⟨hptr, h0, hle⟩ := h.cursor hret
  have hlen := h.length_le
  have hint := intRet_le r
  have hwrite : (st.resp.write st.bufPtr r.bytes).sound = true ↔ l.cursor + r.bytes.length ≤ size := by
    rw [Block.sound_write, h.size_eq, hptr]
    constructor
    · rintro ⟨-, hnil | ⟨-, hroom⟩⟩
      · rw [hnil, List.length_nil]
        omega
      · exact hroom
    · exact fun hroom => ⟨h.sound, .inr ⟨h0, hroom⟩⟩
  by_cases hres : intRet r = 0
  · rw [turn_nothing hres]
    exact ⟨fun hs => ⟨hwrite.mp hs, fun hne => absurd hres hne⟩, fun hs => hwrite.mpr hs.1⟩
  · have hlook : ((st.resp.write st.bufPtr r.bytes).read (st.bufPtr + intRet r - 1)).2.sound = true ↔
        l.cursor + r.bytes.length ≤ size ∧ (intRet r ≠ 0 → 1 ≤ l.cursor + intRet r) := by
      rw [Block.sound_read, hwrite, Block.size_write, h.size_eq, hptr]
      omega
    rw [turn_something hres]
    simp only
    split <;> exact hlook

/-- A chunk that fits is laid over what is there. -/
theorem holding_turn {size : Nat} {l : Laid} {st : Responce} (h : Holding size l st)
    (hret : st.ret = none) {r : ReadRes Char} (hroom : l.cursor + r.bytes.length ≤ size)
    (hpos : intRet r ≠ 0 → 1 ≤ l.cursor + intRet r) :
    Holding size (layChunk l r) (responceTurn st r) := by
  obtain ⟨hptr, h0, hle⟩ := h.cursor hret
  have hlen := h.length_le
  have hint := intRet_le r
  have hsound := (sound_turn_iff h hret r).mpr ⟨hroom, hpos⟩
  have hoff : l.cursor.toNat ≤ l.text.length := by omega
  have hholds : (st.resp.write st.bufPtr r.bytes).Holds nul (layChunk l r).text := by
    have hcast : (l.cursor.toNat : Int) = l.cursor := Int.toNat_of_nonneg h0
    rw [hptr, ← hcast]
    exact Block.holds_write h.holds hoff r.bytes
  have htext : (layChunk l r).text.length = max l.text.length (l.cursor.toNat + r.bytes.length) :=
    length_overlay hoff r.bytes
  have hfits : (layChunk l r).text.length ≤ size := by omega
  by_cases hres : intRet r = 0
  · rw [turn_nothing hres] at hsound ⊢
    exact ⟨h.size_eq, hsound, hholds, hfits, fun hn => absurd hn (Option.some_ne_none _)⟩
  · rw [turn_something hres] at hsound ⊢
    simp only at hsound ⊢
    revert hsound
    split <;> intro hsound
    · exact ⟨h.size_eq, hsound, hholds.read _, hfits, fun hn => absurd hn (Option.some_ne_none _)⟩
    · refine ⟨h.size_eq, hsound, hholds.read _, hfits, fun _ => ⟨?_, ?_, ?_⟩⟩
      · rw [hptr]
        rfl
      · have := hpos hres
        show 0 ≤ l.cursor + intRet r
        omega
      · show l.cursor + intRet r ≤ (layChunk l r).text.length
        omega

/-! ## Runs of the loop -/

/-- What a possible turn is. -/
theorem step_some_iff {size : Nat} {st st' : Responce} {r : ReadRes Char} :
    responceStep size st r = some st' ↔
      st.ret = none ∧ r.bytes.length ≤ readCount size st.res ∧ responceTurn st r = st' := by
  unfold responceStep
  split
  · next h => simp only [Option.some.injEq, h.1, h.2, true_and]
  · next h => simp only [reduceCtorEq, false_iff, ← and_assoc, not_and, h, false_imp_iff]

/-- An access outside is never made up for. -/
theorem sound_of_turn {st : Responce} {r : ReadRes Char}
    (h : (responceTurn st r).resp.sound = true) : st.resp.sound = true := by
  by_cases hres : intRet r = 0
  · rw [turn_nothing hres] at h
    exact ((Block.sound_write ..).mp h).1
  · rw [turn_something hres] at h
    have hlook : ((st.resp.write st.bufPtr r.bytes).read (st.bufPtr + intRet r - 1)).2.sound = true := by
      simp only at h
      split at h <;> exact h
    exact ((Block.sound_write ..).mp ((Block.sound_read ..).mp hlook).1).1

theorem sound_of_run {size : Nat} {rs : List (ReadRes Char)} {st st' : Responce}
    (hrun : run (responceStep size) st rs = some st') (h : st'.resp.sound = true) :
    st.resp.sound = true := by
  induction rs generalizing st with
  | nil =>
    cases hrun
    exact h
  | cons r rs ih =>
    obtain ⟨st₁, hstep, hrest⟩ := Option.bind_eq_some_iff.mp hrun
    obtain ⟨-, -, rfl⟩ := step_some_iff.mp hstep
    exact sound_of_turn (ih hrest)

/-- A run stays inside exactly when its chunks fit, and then the buffer holds them. -/
theorem run_holding {size : Nat} {rs : List (ReadRes Char)} {l : Laid} {st st' : Responce}
    (h : Holding size l st) (hrun : run (responceStep size) st rs = some st') :
    (st'.resp.sound = true ↔ ChunksFit size l rs) ∧
      (ChunksFit size l rs → Holding size (rs.foldl layChunk l) st') := by
  induction rs generalizing l st with
  | nil =>
    cases hrun
    exact ⟨iff_of_true h.sound trivial, fun _ => h⟩
  | cons r rs ih =>
    obtain ⟨st₁, hstep, hrest⟩ := Option.bind_eq_some_iff.mp hrun
    obtain ⟨hret, -, rfl⟩ := step_some_iff.mp hstep
    have hiff := sound_turn_iff h hret r
    by_cases hs : (responceTurn st r).resp.sound = true
    · obtain ⟨hroom, hpos⟩ := hiff.mp hs
      obtain ⟨h1, h2⟩ := ih (holding_turn h hret hroom hpos) hrest
      exact ⟨h1.trans ⟨fun hf => ⟨hroom, hpos, hf⟩, fun hf => hf.2.2⟩, fun hf => h2 hf.2.2⟩
    · have hno : ¬ ChunksFit size l (r :: rs) := fun hf => hs (hiff.mpr ⟨hf.1, hf.2.1⟩)
      exact ⟨iff_of_false (fun hs' => hs (sound_of_run hrest hs')) hno, fun hf => absurd hf hno⟩

theorem holding_start (size : Nat) (sel : Selected) :
    Holding size ⟨0, []⟩ (startResponce size sel) :=
  ⟨rfl, rfl, Block.holds_alloc size, Nat.zero_le _, fun _ => ⟨rfl, Int.le_refl _, Int.le_refl _⟩⟩

/-- **Whatever results `read` has had so far, the buffer has been kept exactly when each chunk
fits, and on the return the bytes leave room for a terminator or have one.** -/
theorem responce_safe_iff (size : Nat) (sel : Selected) (rs : List (ReadRes Char)) (st : Responce)
    (hrun : run (responceStep size) (startResponce size sel) rs = some st) :
    st.Safe ↔ ChunksFit size ⟨0, []⟩ rs ∧
      (st.ret ≠ none → (laid rs).text.length < size ∨ nul ∈ (laid rs).text) := by
  obtain ⟨hsound, hholding⟩ := run_holding (holding_start size sel) hrun
  unfold Responce.Safe
  rw [hsound]
  refine and_congr_right fun hfit => imp_congr_right fun _ => ?_
  have h := hholding hfit
  have hiff := Block.terminated_iff h.holds (h.size_eq ▸ h.length_le)
  rw [h.size_eq] at hiff
  exact hiff

/-- An answer in two chunks. -/
def twoChunks : List (ReadRes Char) :=
  [.got "\x7b\"result_code\":0,".toList, .got "\"result_text\":\"OK\"\x7d\r\n".toList]

/-- It is returned whole. -/
theorem responce_safe_two_chunks :
    ∃ st, run (responceStep 512) (startResponce 512 .ready) twoChunks = some st ∧
      st.ret = some 0 ∧ st.Safe :=
  ⟨_, rfl, by decide, (responce_safe_iff 512 .ready twoChunks _ rfl).mpr
    ⟨⟨by decide, by decide, by decide, by decide, trivial⟩, fun _ => .inl (by decide)⟩⟩

/-- A read that fails at once makes the loop look two bytes before the buffer. Of three chunks
that are no longer than what is asked for, the third goes past the end, or fills the buffer
to its last byte. -/
theorem responce_not_safe :
    (∃ st, run (responceStep 512) (startResponce 512 .ready) [.failed] = some st ∧ ¬ st.Safe) ∧
      (∃ st, run (responceStep 5) (startResponce 5 .ready)
          [.got ['a', 'a'], .got ['b'], .got ['c', 'c', 'c']] = some st ∧ ¬ st.Safe) ∧
      ∃ st, run (responceStep 4) (startResponce 4 .ready)
          [.got ['a'], .got ['b'], .got ['c', '\n']] = some st ∧ st.ret = some 0 ∧ ¬ st.Safe := by
  refine ⟨⟨_, rfl, fun h => ?_⟩, ⟨_, rfl, fun h => ?_⟩, ⟨_, rfl, by decide, fun h => ?_⟩⟩
  · exact absurd h.1 (by decide)
  · exact absurd h.1 (by decide)
  · obtain ⟨k, hk, hnul⟩ := h.2 (by decide)
    match k, hk with
    | 0, _ | 1, _ | 2, _ | 3, _ => exact absurd hnul (by decide)
    | k + 4, hk => exact absurd (show k + 4 < 4 from hk) (by omega)

end Growbox
