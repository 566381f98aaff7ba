import Growbox.FlcTimes

/-!
# `src_v2/httpserv.cpp`: `get_request_body`

The second version reads a body in pieces of 512 characters into an array of 512, and takes
each over as a C string.  A piece that fills the array has no terminator in it, so what is
in the memory behind the array is read as well (`request_body_iff`).
-/

namespace Growbox.V2

/-! ## `get_request_body` -/

/-- `body`, and whether only characters of `buf` were read for it. -/
structure BodyText where
  body : CStr
  inside : Bool
  deriving DecidableEq

/-- `body += buf.data()`, with `beyond` in the memory behind the array. -/
def appendBuf (beyond buf : CStr) (b : BodyText) : BodyText :=
  if nul ∈ buf then ⟨b.body ++ cText buf, b.inside⟩ else ⟨b.body ++ (buf ++ cText beyond), false⟩

/-- The loop, with `input` left in the stream.  `FCGX_GetStr` stores no terminator. -/
def readPieces (beyond input : CStr) (b : BodyText) : BodyText :=
  let str := input.take 512
  let buf := str ++ List.replicate (512 - str.length) nul
  let b := appendBuf beyond buf b
  if 512 ≤ str.length then readPieces beyond (input.drop 512) b else b
termination_by input.length
decreasing_by
  have : 512 ≤ (input.take 512).length := by assumption
  rw [List.length_take] at this
  rw [List.length_drop]
  omega

def getRequestBody (beyond : CStr) (req : Growbox.Request) (body : CStr) : Except CStr BodyText :=
  match req.contentType, req.contentLength with
  | some _, some _ => .ok (readPieces beyond req.input ⟨body, true⟩)
  | _, _ => .error "CONTENT_LENGTH or CONTENT_TYPE is empty\n".toList

/-! ## A piece -/

/-- The last piece has room for a terminator. -/
theorem readPieces_last (beyond : CStr) {input : CStr} (hnul : nul ∉ input) (h : input.length < 512)
    (b : BodyText) : readPieces beyond input b = ⟨b.body ++ input, b.inside⟩ := by
  have htake : input.take 512 = input := List.take_of_length_le (Nat.le_of_lt h)
  have hroom : nul ∈ input ++ List.replicate (512 - input.length) nul :=
    List.mem_append_right _ (List.mem_replicate.mpr ⟨by omega, rfl⟩)
  have hbuf := cText_cleared hnul (512 - input.length)
  rw [readPieces]
  simp only [htake, appendBuf, if_pos hroom, hbuf, if_neg (Nat.not_le.mpr h)]

/-- A full one has none. -/
theorem readPieces_full (beyond : CStr) {input : CStr} (hnul : nul ∉ input) (h : 512 ≤ input.length)
    (b : BodyText) : readPieces beyond input b =
      readPieces beyond (input.drop 512) ⟨b.body ++ (input.take 512 ++ cText beyond), false⟩ := by
  have hlen : (input.take 512).length = 512 := List.length_take_of_le h
  have hfull : nul ∉ input.take 512 := fun hmem => hnul (List.mem_of_mem_take hmem)
  rw [readPieces]
  simp only [hlen, Nat.sub_self, List.replicate_zero, List.append_nil, appendBuf, if_neg hfull,
    if_pos (Nat.le_refl _)]

/-- Induction on the pieces of a body. -/
theorem pieces_induct {motive : (input : CStr) → nul ∉ input → Prop}
    (last : ∀ input hnul, input.length < 512 → motive input hnul)
    (full : ∀ input hnul hdrop, 512 ≤ input.length → motive (input.drop 512) hdrop → motive input hnul)
    (input : CStr) (hnul : nul ∉ input) : motive input hnul := by
  induction hn : input.length using Nat.strongRecOn generalizing input with
  | ind n ih =>
    rcases Nat.lt_or_ge input.length 512 with h | h
    · exact last input hnul h
    · have hdrop : nul ∉ input.drop 512 := fun hmem => hnul (List.mem_of_mem_drop hmem)
      exact full input hnul hdrop h (ih _ (by rw [List.length_drop]; omega) _ hdrop rfl)

/-- No character of a body is lost, and with a terminator right behind the array none is added. -/
theorem readPieces_body {beyond input : CStr} (hnul : nul ∉ input) (hbeyond : cText beyond = [])
    (b : BodyText) : (readPieces beyond input b).body = b.body ++ input := by
  induction input, hnul using pieces_induct generalizing b with
  | last input hnul h => rw [readPieces_last beyond hnul h]
  | full input hnul hdrop h ih =>
    rw [readPieces_full beyond hnul h, ih, hbeyond, List.append_nil, List.append_assoc,
      List.take_append_drop]

/-- A full piece anywhere in a body leaves its mark. -/
theorem readPieces_outside (beyond : CStr) {input : CStr} (hnul : nul ∉ input) (body : CStr) :
    (readPieces beyond input ⟨body, false⟩).inside = false := by
  induction input, hnul using pieces_induct generalizing body with
  | last input hnul h => rw [readPieces_last beyond hnul h]
  | full input hnul hdrop h ih => rw [readPieces_full beyond hnul h, ih]

theorem readPieces_iff (beyond : CStr) {input : CStr} (hnul : nul ∉ input) (body : CStr) :
    readPieces beyond input ⟨body, true⟩ = ⟨body ++ input, true⟩ ↔ input.length < 512 := by
  constructor
  · intro h
    by_contra hlen
    rw [readPieces_full beyond hnul (Nat.not_lt.mp hlen)] at h
    have hdrop : nul ∉ input.drop 512 := fun hmem => hnul (List.mem_of_mem_drop hmem)
    have hout := readPieces_outside beyond hdrop (body ++ (input.take 512 ++ cText beyond))
    rw [h] at hout
    cases hout
  · exact fun h => readPieces_last beyond hnul h _

/-- **When a body is read as it is**: when both headers are there and it is shorter than the array. -/
theorem request_body_iff (beyond body : CStr) {req : Growbox.Request} (hnul : nul ∉ req.input) :
    getRequestBody beyond req body = .ok ⟨body ++ req.input, true⟩ ↔
      req.contentType.isSome = true ∧ req.contentLength.isSome = true ∧ req.input.length < 512 := by
  unfold getRequestBody
  cases req.contentType <;> cases req.contentLength <;> simp [readPieces_iff beyond hnul body]

theorem request_body_ok :
    getRequestBody "?".toList ⟨none, none, some ['2'], some "text/plain".toList, "ok".toList⟩ [] =
      .ok ⟨"ok".toList, true⟩ :=
  (request_body_iff _ [] (by decide)).mpr (by decide)

/-- Two characters are behind the array, and they are taken for the end of the body. -/
theorem full_array_read_over :
    getRequestBody "?!".toList
        ⟨none, none, some "512".toList, some "text/plain".toList, List.replicate 512 'a'⟩ [] =
      .ok ⟨List.replicate 512 'a' ++ "?!".toList, false⟩ := by
  have hnul : nul ∉ List.replicate 512 'a' := fun h => absurd (List.eq_of_mem_replicate h) (by decide)
  have hlen : (List.replicate 512 'a').length = 512 := List.length_replicate
  have hdrop : (List.replicate 512 'a').drop 512 = [] := List.drop_of_length_le (Nat.le_of_eq hlen)
  have htake : (List.replicate 512 'a').take 512 = List.replicate 512 'a' :=
    List.take_of_length_le (Nat.le_of_eq hlen)
  have hbehind : cText "?!".toList = "?!".toList := rfl
  simp only [getRequestBody]
  rw [readPieces_full _ hnul (Nat.le_of_eq hlen.symm), hdrop, htake,
    readPieces_last _ List.not_mem_nil (by decide), hbehind, List.nil_append, List.append_nil]

end Growbox.V2
