import Growbox.Httpserv
import Growbox.Lib.Block

/-!
# `http_get_body`: the buffer of a body

The buffer is as large as the header says, and one more for the terminator.  It is filled
for as long as bytes come and gets the size it needs after the last of them only, so a
stream that is longer than its header is written past its end (`body_within_iff`).  What is
returned is the text that `httpGetBody` says (`text_eq_httpGetBody`).
-/

namespace Growbox

/-! ## `http_get_body` -/

/-- `data`, `none` for `NULL`, and whether every write was inside it. -/
structure BodyRead where
  ret : Option (Block Char)
  sound : Bool

/-- The loop, with `i` bytes written.  The block is reallocated after the last byte; the
terminator then goes to a null pointer if there is no memory. -/
def readBody (reallocOk : Bool) (i : Nat) (data : Block Char) : CStr → BodyRead
  | [] => ⟨some data, data.sound⟩
  | [ch] =>
    let data := data.write i [ch]
    if reallocOk then
      let data := (data.realloc (i + 2)).write (i + 1 : Nat) [nul]
      ⟨some data, data.sound⟩
    else ⟨none, false⟩
  | ch :: next :: rest => readBody reallocOk (i + 1) (data.write i [ch]) (next :: rest)

/-- `callocOk` and `reallocOk`: there is memory for the block, and for that of its last size. -/
def BodyRead.httpGetBody (r : Request) (callocOk reallocOk : Bool) : BodyRead :=
  match r.contentType, r.contentLength with
  | some _, some len =>
    let dataLen := ((strtol len) % 2 ^ 64).toNat
    if maxPostLen < dataLen then ⟨none, true⟩
    else if !callocOk then ⟨none, true⟩
    else readBody reallocOk 0 (.alloc nul (dataLen + 1)) r.input
  | _, _ => ⟨none, true⟩

/-! ## Within the buffer -/

/-- A buffer is allocated: both headers are there, the length is accepted, and there is memory. -/
def Allocates (r : Request) (len : CStr) (callocOk : Bool) : Prop :=
  r.contentType.isSome = true ∧ callocOk = true ∧ 0 ≤ strtol len ∧ strtol len ≤ maxPostLen

/-- Every write is inside the block there is, and a buffer that is allocated is returned with
a terminator and with a part of the stream, from its beginning. -/
structure ReadsWithin (r : Request) (len : CStr) (callocOk reallocOk : Bool) : Prop where
  inside : (BodyRead.httpGetBody r callocOk reallocOk).sound = true
  returns : Allocates r len callocOk →
    ∃ data, (BodyRead.httpGetBody r callocOk reallocOk).ret = some data ∧ data.Terminated nul ∧
      data.text nul <+: r.input

/-- The stream is longer than its header by at most the byte for the terminator, and there is
memory for it. -/
def FitsHeader (r : Request) (len : CStr) (reallocOk : Bool) : Prop :=
  r.input.length ≤ (strtol len).toNat + 1 ∧ (r.input ≠ [] → reallocOk = true)

/-! ## The loop -/

/-- The turn of the last byte. -/
theorem readBody_last {data : Block Char} {l : CStr} (hl : data.Holds nul l) (ch : Char) :
    ((readBody true l.length data [ch]).sound = true ↔ data.sound = true ∧ l.length < data.size) ∧
      ∃ b, (readBody true l.length data [ch]).ret = some b ∧
        b.size = (l ++ [ch]).length + 1 ∧ b.Holds nul (l ++ [ch] ++ [nul]) := by
  have hlen : (l ++ [ch]).length = l.length + 1 := List.length_append
  have hw : (data.write l.length [ch]).Holds nul (l ++ [ch]) := Block.holds_write_end hl [ch]
  have hend := Block.holds_write_end (hw.realloc (l.length + 2)) [nul]
  rw [hlen] at hend
  constructor
  · show ((((data.write l.length [ch]).realloc (l.length + 2)).write (l.length + 1 : Nat)
      [nul]).sound = true) ↔ _
    rw [Block.sound_write_singleton, Block.sound_realloc, Block.size_realloc, Block.sound_write_singleton]
    exact and_iff_left (Nat.lt_succ_self _)
  · refine ⟨_, rfl, ?_, hend⟩
    show l.length + 2 = _
    rw [hlen]

/-- **What the loop does**: its writes are inside exactly when the bytes fit and there is
memory, and then it returns them all with a terminator. -/
theorem readBody_spec (reallocOk : Bool) (data : Block Char) (l s : CStr) (hs : s ≠ [])
    (hl : data.Holds nul l) :
    ((readBody reallocOk l.length data s).sound = true ↔
        data.sound = true ∧ l.length + s.length ≤ data.size ∧ reallocOk = true) ∧
      (reallocOk = true → ∃ b, (readBody reallocOk l.length data s).ret = some b ∧
        b.size = (l ++ s).length + 1 ∧ b.Holds nul (l ++ s ++ [nul])) := by
  induction s generalizing data l with
  | nil => exact absurd rfl hs
  | cons ch s ih =>
    cases s with
    | nil =>
      cases reallocOk with
      | false =>
        refine ⟨iff_of_false Bool.false_ne_true ?_, fun h => absurd h Bool.false_ne_true⟩
        exact fun h => Bool.false_ne_true h.2.2
      | true =>
        obtain ⟨hsound, hret⟩ := readBody_last hl ch
        rw [hsound, and_iff_left rfl]
        exact ⟨Iff.rfl, fun _ => hret⟩
    | cons next rest =>
      have hw : (data.write l.length [ch]).Holds nul (l ++ [ch]) := Block.holds_write_end hl [ch]
      obtain ⟨hiff, hret⟩ := ih (data.write l.length [ch]) (l ++ [ch]) (List.cons_ne_nil _ _) hw
      rw [show (l ++ [ch]).length = l.length + 1 from List.length_append] at hiff hret
      have hstep : readBody reallocOk l.length data (ch :: next :: rest) =
          readBody reallocOk (l.length + 1) (data.write l.length [ch]) (next :: rest) := rfl
      rw [hstep]
      constructor
      · rw [hiff, Block.sound_write_singleton, Block.size_write]
        simp only [List.length_cons]
        constructor
        · rintro ⟨⟨hd, -⟩, hfit, hr⟩
          exact ⟨hd, by omega, hr⟩
        · rintro ⟨hd, hfit, hr⟩
          exact ⟨⟨hd, by omega⟩, by omega, hr⟩
      · simpa only [List.append_assoc, List.singleton_append] using hret

/-! ## The length -/

theorem strtol_bounds (s : CStr) : -9223372036854775808 ≤ strtol s ∧ strtol s ≤ 9223372036854775807 := by
  unfold strtol
  split <;> constructor <;> simp only [Int.ofNat_eq_natCast] <;> omega

/-- A negative length is a large `size_t`. -/
theorem accepted_iff (len : CStr) :
    ¬ maxPostLen < ((strtol len) % 2 ^ 64).toNat ↔ 0 ≤ strtol len ∧ strtol len ≤ maxPostLen := by
  obtain ⟨hlo, hhi⟩ := strtol_bounds len
  unfold maxPostLen
  omega

theorem toNat_dataLen {len : CStr} (h : 0 ≤ strtol len ∧ strtol len ≤ maxPostLen) :
    ((strtol len) % 2 ^ 64).toNat = (strtol len).toNat := by
  unfold maxPostLen at h
  omega

/-! ## The request -/

theorem httpGetBody_of_allocates {r : Request} {len : CStr} (hlen : r.contentLength = some len)
    {callocOk : Bool} (h : Allocates r len callocOk) (reallocOk : Bool) :
    BodyRead.httpGetBody r callocOk reallocOk =
      readBody reallocOk 0 (.alloc nul ((strtol len).toNat + 1)) r.input := by
  obtain ⟨htype, rfl, haccepted⟩ := h
  obtain ⟨type, htype⟩ := Option.isSome_iff_exists.mp htype
  have hle := (accepted_iff len).mpr haccepted
  rw [toNat_dataLen haccepted] at hle
  unfold BodyRead.httpGetBody
  rw [htype, hlen]
  simp only [toNat_dataLen haccepted, if_neg hle, Bool.not_true, Bool.false_eq_true, if_false]

/-- Without a buffer nothing is written, and nothing returned. -/
theorem httpGetBody_of_not_allocates {r : Request} {len : CStr} (hlen : r.contentLength = some len)
    {callocOk : Bool} (h : ¬ Allocates r len callocOk) (reallocOk : Bool) :
    BodyRead.httpGetBody r callocOk reallocOk = ⟨none, true⟩ := by
  unfold BodyRead.httpGetBody
  rw [hlen]
  cases htype : r.contentType with
  | none => rfl
  | some type =>
    by_cases haccepted : maxPostLen < ((strtol len) % 2 ^ 64).toNat
    · simp only [if_pos haccepted]
    · cases callocOk with
      | false => simp only [Bool.not_false, if_true, ite_self]
      | true => exact absurd ⟨by rw [htype]; rfl, rfl, (accepted_iff len).mp haccepted⟩ h

/-- A buffer that holds a stream and a terminator. -/
theorem text_of_stream {b : Block Char} {s : CStr} (hsize : b.size = s.length + 1)
    (hb : b.Holds nul (s ++ [nul])) :
    b.Terminated nul ∧ b.text nul = s.takeWhile fun c => !(c == nul) := by
  have hlen : (s ++ [nul]).length = b.size := by rw [hsize, List.length_append, List.length_singleton]
  constructor
  · exact (Block.terminated_iff hb (Nat.le_of_eq hlen)).mpr
      (.inr (List.mem_append_right _ List.mem_cons_self))
  · rw [Block.text_of_holds hb (Nat.le_of_eq hlen)]
    exact Block.takeWhile_append_replicate s 1

/-- What becomes of the block, of `size` bytes and blank. -/
theorem readBody_alloc (reallocOk : Bool) (size : Nat) (s : CStr) :
    ((readBody reallocOk 0 (.alloc nul (size + 1)) s).sound = true ↔
        s.length ≤ size + 1 ∧ (s ≠ [] → reallocOk = true)) ∧
      ((s ≠ [] → reallocOk = true) → ∃ b, (readBody reallocOk 0 (.alloc nul (size + 1)) s).ret = some b ∧
        b.Terminated nul ∧ b.text nul = s.takeWhile fun c => !(c == nul)) := by
  by_cases hs : s = []
  · subst hs
    refine ⟨iff_of_true rfl ⟨Nat.zero_le _, fun h => absurd rfl h⟩, fun _ => ⟨_, rfl, ?_⟩⟩
    have hempty : (Block.alloc nul (size + 1)).Holds nul [] := Block.holds_alloc _
    exact ⟨(Block.terminated_iff hempty (Nat.zero_le _)).mpr (.inl (Nat.succ_pos _)),
      Block.text_of_holds hempty (Nat.zero_le _)⟩
  · obtain ⟨hsound, hret⟩ := readBody_spec reallocOk (.alloc nul (size + 1)) [] s hs (Block.holds_alloc _)
    constructor
    · rw [List.length_nil, Nat.zero_add, Block.sound_alloc, Block.size_alloc] at hsound
      rw [hsound]
      simp only [true_and, ne_eq, hs, not_false_eq_true, true_imp_iff]
    · intro hr
      obtain ⟨b, hb, hsize, hholds⟩ := hret (hr hs)
      exact ⟨b, hb, text_of_stream hsize hholds⟩

theorem toNat_bne_zero (c : Char) : (c.toNat != 0) = !(c == nul) := by
  have h : c.toNat = 0 ↔ c = nul :=
    ⟨fun h => Char.ext (UInt32.toNat_inj.mp h), fun h => by rw [h]; rfl⟩
  rw [bne, Bool.not_inj_iff, Bool.eq_iff_iff, beq_iff_eq, beq_iff_eq, h]

/-- With memory, the text of the buffer is the body the handlers are given. -/
theorem text_eq_httpGetBody (r : Request) :
    (BodyRead.httpGetBody r true true).ret.map (Block.text nul) = httpGetBody r := by
  cases hlen : r.contentLength with
  | none =>
    unfold BodyRead.httpGetBody httpGetBody
    rw [hlen]
    cases r.contentType <;> rfl
  | some len =>
    by_cases h : Allocates r len true
    · obtain ⟨-, hret⟩ := readBody_alloc true (strtol len).toNat r.input
      obtain ⟨b, hb, -, htext⟩ := hret fun _ => rfl
      obtain ⟨type, htype⟩ := Option.isSome_iff_exists.mp h.1
      rw [httpGetBody_of_allocates hlen h, hb, Option.map_some, htext, httpGetBody, htype, hlen]
      simp only [if_neg ((accepted_iff len).mpr h.2.2), toNat_bne_zero]
    · rw [httpGetBody_of_not_allocates hlen h, httpGetBody, hlen]
      cases htype : r.contentType with
      | none => rfl
      | some type =>
        have hlong : maxPostLen < ((strtol len) % 2 ^ 64).toNat := by
          by_contra haccepted
          exact h ⟨by rw [htype]; rfl, rfl, (accepted_iff len).mp haccepted⟩
        simp only [if_pos hlong, Option.map_none]

/-- **A body stays within its buffer exactly when it is not longer than its header and one.** -/
theorem body_within_iff (r : Request) (len : CStr) (hlen : r.contentLength = some len)
    (callocOk reallocOk : Bool) :
    ReadsWithin r len callocOk reallocOk ↔ (Allocates r len callocOk → FitsHeader r len reallocOk) := by
  by_cases h : Allocates r len callocOk
  · obtain ⟨hsound, hret⟩ := readBody_alloc reallocOk (strtol len).toNat r.input
    rw [← httpGetBody_of_allocates hlen h reallocOk] at hsound hret
    constructor
    · exact fun hw _ => hsound.mp hw.inside
    · intro hfits
      obtain ⟨b, hb, hterm, htext⟩ := hret (hfits h).2
      refine ⟨hsound.mpr (hfits h), fun _ => ⟨b, hb, hterm, ?_⟩⟩
      rw [htext]
      exact List.takeWhile_prefix _
  · have heq := httpGetBody_of_not_allocates hlen h reallocOk
    refine iff_of_true ⟨?_, fun h' => absurd h' h⟩ fun h' => absurd h' h
    rw [heq]

/-- A request with a body. -/
def bodyRequest (len input : CStr) : Request :=
  ⟨some "POST".toList, some "/login".toList, some len, some "text/plain".toList, input⟩

/-- A body of one byte more than its header. -/
theorem body_within_one_more :
    ReadsWithin (bodyRequest "3".toList "abcd".toList) "3".toList true true :=
  (body_within_iff (bodyRequest "3".toList "abcd".toList) "3".toList rfl true true).mpr
    fun _ => ⟨by decide, fun _ => rfl⟩

/-- A body of three bytes whose header says one: the third is written past the end. -/
theorem body_past_its_buffer :
    Allocates (bodyRequest "1".toList "abc".toList) "1".toList true ∧
      (BodyRead.httpGetBody (bodyRequest "1".toList "abc".toList) true true).sound = false ∧
      ¬ ReadsWithin (bodyRequest "1".toList "abc".toList) "1".toList true true := by
  have hsound : (BodyRead.httpGetBody (bodyRequest "1".toList "abc".toList) true true).sound = false := by
    decide
  refine ⟨⟨rfl, rfl, by decide, by decide⟩, hsound, fun h => ?_⟩
  exact Bool.noConfusion (hsound.symm.trans h.inside)

end Growbox
