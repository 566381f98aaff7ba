import Growbox.Jsont
import Growbox.Lib.Block

/-!
# `utils.c`: reading a text file

`read_text_file` allocates as many bytes as `stat` has reported and one more, and asks
for a chunk after another until it has that many.  Nothing else ends the loop: the
number of bytes is a `size_t`, so the comparison with 0 that should find a failed read
is never true, and at the end of a shorter file every read adds 0.
`reads_well_iff` says which files are read as they should.
-/

namespace Growbox

/-- `CHUNK_SIZE` -/
def chunkSize : Nat := 262144

/-- A file open for reading, by what the calls of `read` come to, one after the other. -/
structure PosixFile where
  read : Nat → ReadRes Char
  le_chunkSize : ∀ i, (read i).bytes.length ≤ chunkSize
  stays_at_end : ∀ i, read i = .got [] → read (i + 1) = .got []

/-- What `n` calls have read. -/
def PosixFile.content (file : PosixFile) (n : Nat) : CStr :=
  (List.range n).flatMap fun i => (file.read i).bytes

/-! ## `read_text_file` -/

/-- The result of `read`, kept in a `size_t`. -/
def bytesRead (r : ReadRes Char) : UInt64 := UInt64.ofInt r.ret

structure ReadLoop where
  chunk : UInt64
  fdata : Block Char

/-- The loop, from call `i` on: whether it ended with the bytes complete, and the calls made;
`none` when the fuel runs out. -/
def readLoop (fsize : UInt64) (file : PosixFile) :
    Nat → Nat → ReadLoop → Option (Bool × Nat × ReadLoop)
  | 0, _, _ => none
  | fuel + 1, i, st =>
    if st.chunk < fsize then
      let r := file.read i
      let fdata := st.fdata.write st.chunk.toNat r.bytes
      if bytesRead r < 0 then some (false, i + 1, ⟨st.chunk, fdata⟩)
      else readLoop fsize file fuel (i + 1) ⟨st.chunk + bytesRead r, fdata⟩
    else some (true, i, st)

/-- A call that has returned: its text, `none` for `NULL`, the reads it made, and whether
all its writes were inside its buffer. -/
structure FileRead where
  ret : Option CStr
  calls : Nat
  sound : Bool

/-- `fdata[chunk] = '\0'`, and the return. -/
def readDone : Bool × Nat × ReadLoop → FileRead
  | (true, calls, st) =>
    let fdata := st.fdata.write st.chunk.toNat [nul]
    ⟨some (fdata.text nul), calls, fdata.sound⟩
  | (false, calls, st) => ⟨none, calls, st.fdata.sound⟩

/-- `openOk` and `callocOk`: the file can be opened, there is memory. -/
def readTextFile (openOk callocOk : Bool) (fsize : UInt64) (file : PosixFile) (fuel : Nat) :
    Option FileRead :=
  if !openOk || !callocOk then some ⟨none, 0, true⟩
  else (readLoop fsize file fuel 0 ⟨0, .alloc nul (fsize + 1).toNat⟩).map readDone

/-! ## Which files are read well -/

/-- The call returns, writes inside its buffer only, and returns `NULL` if a read failed. -/
def ReadsWell (openOk callocOk : Bool) (fsize : UInt64) (file : PosixFile) : Prop :=
  ∃ fuel out, readTextFile openOk callocOk fsize file fuel = some out ∧ out.sound = true ∧
    ((∃ i, i < out.calls ∧ file.read i = .failed) → out.ret = none)

/-- So many reads bring `fsize` bytes together, and each of them brings some. -/
def PosixFile.Brings (file : PosixFile) (fsize : UInt64) (n : Nat) : Prop :=
  (∀ i, i < n → (file.read i).bytes ≠ []) ∧ (file.content n).length = fsize.toNat

namespace PosixFile

theorem content_succ (file : PosixFile) (n : Nat) :
    file.content (n + 1) = file.content n ++ (file.read n).bytes := by
  simp only [content, List.range_succ, List.flatMap_append, List.flatMap_singleton]

theorem length_content_le (file : PosixFile) {i j : Nat} (h : i ≤ j) :
    (file.content i).length ≤ (file.content j).length := by
  obtain ⟨k, rfl⟩ := Nat.le.dest h
  clear h
  induction k with
  | zero => exact Nat.le_refl _
  | succ k ih =>
    rw [← Nat.add_assoc, content_succ, List.length_append]
    omega

end PosixFile

theorem toNat_bytesRead {file : PosixFile} {i : Nat} (h : file.read i ≠ .failed) :
    (bytesRead (file.read i)).toNat = (file.read i).bytes.length := by
  have hle := file.le_chunkSize i
  unfold chunkSize at hle
  cases hr : file.read i with
  | failed => exact absurd hr h
  | got bytes =>
    have hlt : bytes.length ≤ 262144 := by rwa [hr] at hle
    have hmod : (bytes.length : Int) % 18446744073709551616 = bytes.length :=
      Int.emod_eq_of_lt (by omega) (by omega)
    show (UInt64.ofNat ((bytes.length : Int) % 18446744073709551616).toNat).toNat = bytes.length
    rw [hmod, Int.toNat_natCast]
    exact UInt64.toNat_ofNat_of_lt' (show bytes.length < 18446744073709551616 by omega)

/-- The state before call `i`, as long as everything went well. -/
structure AtCall (fsize : UInt64) (file : PosixFile) (i : Nat) (st : ReadLoop) : Prop where
  chunk : st.chunk.toNat = (file.content i).length
  size : st.fdata.size = (fsize + 1).toNat
  sound : st.fdata.sound = true
  holds : st.fdata.Holds nul (file.content i)

section
variable {fsize : UInt64} {file : PosixFile}

theorem atCall_start : AtCall fsize file 0 ⟨0, .alloc nul (fsize + 1).toNat⟩ :=
  ⟨rfl, rfl, rfl, Block.holds_alloc _⟩

/-- A read that brings bytes for which there is room. -/
theorem atCall_next {i : Nat} {st : ReadLoop} (h : AtCall fsize file i st)
    (hr : file.read i ≠ .failed)
    (hroom : (file.content (i + 1)).length ≤ (fsize + 1).toNat) :
    AtCall fsize file (i + 1)
      ⟨st.chunk + bytesRead (file.read i), st.fdata.write st.chunk.toNat (file.read i).bytes⟩ := by
  have hlen : (file.content (i + 1)).length = st.chunk.toNat + (file.read i).bytes.length := by
    rw [file.content_succ, List.length_append, h.chunk]
  have hlt := (fsize + 1).toNat_lt
  constructor
  · show (st.chunk + bytesRead (file.read i)).toNat = _
    rw [UInt64.toNat_add, toNat_bytesRead hr, hlen]
    exact Nat.mod_eq_of_lt (by omega)
  · exact h.size
  · refine (Block.sound_write ..).mpr ⟨h.sound, .inr ⟨by omega, ?_⟩⟩
    rw [h.size]
    omega
  · rw [file.content_succ, h.chunk]
    exact Block.holds_write_end h.holds _

theorem readLoop_next {i fuel : Nat} {st : ReadLoop} (h : st.chunk < fsize) :
    readLoop fsize file (fuel + 1) i st = readLoop fsize file fuel (i + 1)
      ⟨st.chunk + bytesRead (file.read i), st.fdata.write st.chunk.toNat (file.read i).bytes⟩ := by
  rw [readLoop, if_pos h]
  -- an unsigned number is not below 0
  exact if_neg UInt64.not_lt_zero

theorem readLoop_exit {i fuel : Nat} {st : ReadLoop} (h : ¬ st.chunk < fsize) :
    readLoop fsize file (fuel + 1) i st = some (true, i, st) := by
  rw [readLoop, if_neg h]

/-- What the loop leaves behind has a later call number, and its writes include those before. -/
theorem readLoop_grows {fuel i : Nat} {st : ReadLoop} {r : Bool × Nat × ReadLoop}
    (h : readLoop fsize file fuel i st = some r) :
    r.1 = true ∧ i ≤ r.2.1 ∧ (r.2.2.fdata.sound = true → st.fdata.sound = true) := by
  induction fuel generalizing i st with
  | zero => cases h
  | succ fuel ih =>
    by_cases hlt : st.chunk < fsize
    · rw [readLoop_next hlt] at h
      obtain ⟨hok, hle, hs⟩ := ih h
      exact ⟨hok, by omega, fun hr => ((Block.sound_write ..).mp (hs hr)).1⟩
    · rw [readLoop_exit hlt] at h
      cases h
      exact ⟨rfl, Nat.le_refl _, id⟩

/-- At the end of the file the loop goes on for ever. -/
theorem readLoop_at_end {fuel i : Nat} {st : ReadLoop} (hend : file.read i = .got [])
    (hlt : st.chunk < fsize) : readLoop fsize file fuel i st = none := by
  induction fuel generalizing i st with
  | zero => rfl
  | succ fuel ih =>
    have hzero : st.chunk + bytesRead (file.read i) = st.chunk := by
      rw [hend]
      exact UInt64.add_zero _
    rw [readLoop_next hlt]
    refine ih (file.stays_at_end i hend) ?_
    rw [hzero]
    exact hlt

/-- Reads that bring what is expected are made one after the other, and then the loop ends. -/
theorem readLoop_brings {n : Nat} (hb : file.Brings fsize n) (hfs : fsize.toNat < (fsize + 1).toNat)
    (k : Nat) {i : Nat} (hn : i + k = n) {st : ReadLoop} (h : AtCall fsize file i st) :
    ∃ st', readLoop fsize file (k + 1) i st = some (true, n, st') ∧ AtCall fsize file n st' := by
  induction k generalizing i st with
  | zero =>
    obtain rfl : i = n := hn
    refine ⟨st, readLoop_exit fun hlt => ?_, h⟩
    rw [UInt64.lt_iff_toNat_lt, h.chunk, hb.2] at hlt
    exact Nat.lt_irrefl _ hlt
  | succ k ih =>
    have hsome : (file.read i).bytes ≠ [] := hb.1 i (by omega)
    have hlen := List.length_pos_iff.mpr hsome
    have hle : (file.content (i + 1)).length ≤ fsize.toNat := by
      rw [← hb.2]
      exact file.length_content_le (by omega)
    have hlt : st.chunk < fsize := by
      rw [file.content_succ, List.length_append] at hle
      rw [UInt64.lt_iff_toNat_lt, h.chunk]
      omega
    have hr : file.read i ≠ .failed := fun hf => hsome (by rw [hf]; rfl)
    rw [readLoop_next hlt]
    exact ih (by omega) (atCall_next h hr (by omega))

/-- A loop that ends has brought something with each read. -/
theorem bytes_ne_nil_of_readLoop {fuel i : Nat} {st : ReadLoop} {r : Bool × Nat × ReadLoop}
    (hlt : st.chunk < fsize) (hread : file.read i ≠ .failed)
    (hrun : readLoop fsize file fuel i st = some r) : (file.read i).bytes ≠ [] := by
  intro he
  have hend : file.read i = .got [] := by
    cases hf : file.read i with
    | failed => exact absurd hf hread
    | got bytes =>
      rw [hf] at he
      exact congrArg _ he
  rw [readLoop_at_end hend hlt] at hrun
  cases hrun

/-- At its end the loop has brought exactly what was expected, if there is room for the
terminator. -/
theorem length_content_of_exit {i : Nat} {st : ReadLoop} (h : AtCall fsize file i st)
    (hlt : ¬ st.chunk < fsize) (hsound : (readDone (true, i, st)).sound = true) :
    (file.content i).length = fsize.toNat ∧ fsize.toNat < (fsize + 1).toNat := by
  have hw := ((Block.sound_write_singleton ..).mp hsound).2
  have hge := UInt64.le_iff_toNat_le.mp (UInt64.not_lt.mp hlt)
  have hsucc : (fsize + 1).toNat = (fsize.toNat + 1) % 18446744073709551616 := UInt64.toNat_add _ _
  rw [h.size, h.chunk] at hw
  rw [h.chunk] at hge
  omega

/-- A loop that has ended well without a failed read has brought what was expected. -/
theorem brings_of_readLoop {fuel i : Nat} {st : ReadLoop} (h : AtCall fsize file i st)
    (hb : ∀ j, j < i → (file.read j).bytes ≠ []) {r : Bool × Nat × ReadLoop}
    (hrun : readLoop fsize file fuel i st = some r) (hsound : (readDone r).sound = true)
    (hok : ∀ j, j < r.2.1 → file.read j ≠ .failed) :
    file.Brings fsize r.2.1 ∧ fsize.toNat < (fsize + 1).toNat := by
  induction fuel generalizing i st with
  | zero => cases hrun
  | succ fuel ih =>
    by_cases hlt : st.chunk < fsize
    · have hcalls := (readLoop_next hlt).symm.trans hrun
      obtain ⟨htrue, hle, hs⟩ := readLoop_grows hcalls
      have hr : file.read i ≠ .failed := hok i (by omega)
      have hne := bytes_ne_nil_of_readLoop hlt hr hrun
      have hroom : (file.content (i + 1)).length ≤ (fsize + 1).toNat := by
        have hsound' : r.2.2.fdata.sound = true := by
          obtain ⟨ok, calls, st'⟩ := r
          obtain rfl : ok = true := htrue
          exact ((Block.sound_write ..).mp hsound).1
        have hw := ((Block.sound_write ..).mp (hs hsound')).2.resolve_left hne
        rw [h.size, h.chunk] at hw
        rw [file.content_succ, List.length_append]
        omega
      refine ih (atCall_next h hr hroom) (fun j hj => ?_) hcalls
      rcases Nat.lt_succ_iff_lt_or_eq.mp hj with hj | rfl
      · exact hb j hj
      · exact hne
    · rw [readLoop_exit hlt] at hrun
      cases hrun
      obtain ⟨hlen, hsucc⟩ := length_content_of_exit h hlt hsound
      exact ⟨⟨hb, hlen⟩, hsucc⟩

theorem fsize_lt_succ_iff : fsize.toNat < (fsize + 1).toNat ↔ fsize + 1 ≠ 0 := by
  have hlt := fsize.toNat_lt
  have hsucc : (fsize + 1).toNat = (fsize.toNat + 1) % 18446744073709551616 := UInt64.toNat_add _ _
  rw [ne_eq, ← UInt64.toNat_inj, UInt64.toNat_zero]
  omega

end

/-- **A file is read well exactly when some reads bring `fsize` bytes together, each of them
some**, unless it cannot be opened or there is no memory. -/
theorem reads_well_iff (openOk callocOk : Bool) (fsize : UInt64) (file : PosixFile) :
    ReadsWell openOk callocOk fsize file ↔
      openOk = false ∨ callocOk = false ∨ (fsize + 1 ≠ 0 ∧ ∃ n, file.Brings fsize n) := by
  cases openOk with
  | false => exact iff_of_true ⟨0, _, rfl, rfl, fun _ => rfl⟩ (.inl rfl)
  | true =>
  cases callocOk with
  | false => exact iff_of_true ⟨0, _, rfl, rfl, fun _ => rfl⟩ (.inr (.inl rfl))
  | true =>
    simp only [Bool.true_eq_false, false_or]
    constructor
    · rintro ⟨fuel, out, hout, hsound, hnull⟩
      obtain ⟨r, hr, rfl⟩ := Option.map_eq_some_iff.mp hout
      have htrue := (readLoop_grows hr).1
      have hret : (readDone r).ret ≠ none := by
        obtain ⟨ok, calls, st⟩ := r
        obtain rfl : ok = true := htrue
        exact Option.some_ne_none _
      have hcalls : (readDone r).calls = r.2.1 := by
        obtain ⟨ok, calls, st⟩ := r
        cases ok <;> rfl
      have hbring := brings_of_readLoop atCall_start (fun _ hj => absurd hj (Nat.not_lt_zero _)) hr
        hsound fun j hj hf => hret (hnull ⟨j, hcalls ▸ hj, hf⟩)
      exact ⟨fsize_lt_succ_iff.mp hbring.2, _, hbring.1⟩
    · rintro ⟨hfs, n, hb⟩
      have hlt := fsize_lt_succ_iff.mpr hfs
      obtain ⟨st, hrun, hst⟩ := readLoop_brings hb hlt n (Nat.zero_add n) atCall_start
      refine ⟨n + 1, readDone (true, n, st), congrArg (Option.map readDone) hrun, ?_, ?_⟩
      · refine (Block.sound_write_singleton ..).mpr ⟨hst.sound, ?_⟩
        rw [hst.size, hst.chunk, hb.2]
        exact hlt
      · rintro ⟨i, hi, hf⟩
        exact absurd (by rw [hf]; rfl) (hb.1 i hi)

/-- What is returned then is the content up to a terminator. -/
theorem readTextFile_text {fsize : UInt64} {file : PosixFile} {n : Nat} (hb : file.Brings fsize n)
    (hfs : fsize + 1 ≠ 0) :
    (readTextFile true true fsize file (n + 1)).map FileRead.ret =
      some (some ((file.content n).takeWhile fun c => !(c == nul))) := by
  have hlt := fsize_lt_succ_iff.mpr hfs
  obtain ⟨st, hrun, hst⟩ := readLoop_brings hb hlt n (Nat.zero_add n) atCall_start
  have hcall : readTextFile true true fsize file (n + 1) = some (readDone (true, n, st)) :=
    congrArg (Option.map readDone) hrun
  have hholds : (st.fdata.write st.chunk.toNat [nul]).Holds nul (file.content n ++ [nul]) := by
    rw [hst.chunk]
    exact Block.holds_write_end hst.holds _
  have hsize : (file.content n ++ [nul]).length ≤ (st.fdata.write st.chunk.toNat [nul]).size := by
    rw [List.length_append, List.length_singleton, hb.2, Block.size_write, hst.size]
    omega
  rw [hcall, Option.map_some]
  show some (some ((st.fdata.write st.chunk.toNat [nul]).text nul)) = _
  rw [Block.text_of_holds hholds hsize]
  exact congrArg (some ∘ some) (Block.takeWhile_append_replicate (file.content n) 1)

/-- The temperature of the processor as the kernel shows it: one read, then the end. -/
def cpuTempFile : PosixFile where
  read i := if i = 0 then .got "45000\n".toList else .got []
  le_chunkSize i := by
    split
    · decide
    · exact Nat.zero_le _
  stays_at_end i h := by
    split at h
    · cases h
    · rfl

/-- A file whose reads all fail. -/
def brokenFile : PosixFile where
  read _ := .failed
  le_chunkSize _ := Nat.zero_le _
  stays_at_end _ h := h

/-- A file shorter than the 4096 bytes that `stat` reports is read for ever; a read that fails
is followed by a text. -/
theorem cpu_temp_read_for_ever :
    ¬ ReadsWell true true 4096 cpuTempFile ∧ ¬ ReadsWell true true 1 brokenFile := by
  constructor
  · rintro ⟨fuel, out, hout, -⟩
    obtain ⟨r, hr, -⟩ := Option.map_eq_some_iff.mp hout
    cases fuel with
    | zero => cases hr
    | succ fuel =>
      rw [readLoop_next (by decide), readLoop_at_end rfl (by decide)] at hr
      cases hr
  · rintro ⟨fuel, out, hout, -, hnull⟩
    obtain ⟨r, hr, rfl⟩ := Option.map_eq_some_iff.mp hout
    cases fuel with
    | zero => cases hr
    | succ fuel =>
      rw [readLoop_next (by decide)] at hr
      cases fuel with
      | zero => cases hr
      | succ fuel =>
        rw [readLoop_exit (by decide)] at hr
        cases hr
        exact Option.some_ne_none _ (hnull ⟨0, Nat.one_pos, rfl⟩)

end Growbox
