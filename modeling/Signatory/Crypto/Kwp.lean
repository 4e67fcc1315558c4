import Signatory.Lib.BigEndian
import Signatory.Lib.Rounds
import Signatory.Signer.Policy

/-!
# `crypto/kwp`

AES key wrap with padding.  `computeW` and `invertW` work in place on a buffer of two halves and on the data; of these
only the left half of the buffer and the data from the ninth byte on are carried from one step to the next (`core`), and
on them the steps of `invertW` undo those of `computeW` in reverse order (`foldl_undo`).  So what was wrapped is
unwrapped again: `Unwrap_Wrap`.
-/

namespace Signatory.Kwp

open Lib.BigEndian Lib.Rounds
open Signer (Bytes Error)

/-- `cipher.Block`; the functions are applied to blocks of 16 bytes. -/
structure Block where
  Encrypt : Bytes → Bytes
  Decrypt : Bytes → Bytes

/-- Decryption inverts encryption on every block. -/
structure Block.Inverts (block : Block) : Prop where
  length : ∀ s, s.length = 16 → (block.Encrypt s).length = 16
  length_decrypt : ∀ s, s.length = 16 → (block.Decrypt s).length = 16
  decrypt : ∀ s, s.length = 16 → block.Decrypt (block.Encrypt s) = s

def MinWrapSize : ℕ := 16
def MaxWrapSize : ℕ := 8192
def roundCount : ℕ := 6
def ivPrefix : ℕ := 0xA65959A6
def MaxInt32 : ℕ := 2 ^ 31 - 1

def wrappingSize (inputSize : ℕ) : ℕ :=
  let paddingSize := 7 - (inputSize + 7) % 8
  inputSize + paddingSize + 8

/-- `copy(dst[pos:], src)`. -/
def copyAt (dst : Bytes) (pos : ℕ) (src : Bytes) : Bytes :=
  dst.take pos ++ src.take (dst.length - pos) ++ dst.drop (pos + src.length)

/-- The constant in big endian order, at the end of the left half. -/
def roundMask (roundConst : ℕ) : Bytes := List.replicate 4 0 ++ fillBytes 4 roundConst ++ List.replicate 8 0

def xorConst (roundConst : ℕ) (buf : Bytes) : Bytes := List.zipWith (· ^^^ ·) buf (roundMask roundConst)

/-- One pass of the inner loop of `computeW`, on the buffer and the data. -/
def wrapStep (block : Block) (blockCount : ℕ) (s : Bytes × Bytes) (i j : ℕ) : Bytes × Bytes :=
  let buf := copyAt s.1 8 (s.2.drop (8 * (j + 1)))
  let buf := block.Encrypt buf
  let buf := xorConst (i * blockCount + j + 1) buf
  (buf, copyAt s.2 (8 * (j + 1)) (buf.drop 8))

/-- The two loops of `computeW`. -/
def wrapLoops (block : Block) (blockCount : ℕ) (s : Bytes × Bytes) : Bytes × Bytes :=
  (List.range roundCount).foldl
    (fun s i => (List.range blockCount).foldl (fun s j => wrapStep block blockCount s i j) s) s

/-- The buffer at the beginning of either function. -/
def firstBuf (data : Bytes) : Bytes := copyAt (List.replicate 16 0) 0 (data.take 8)

def computeW (block : Block) (iv key : Bytes) : Except Error Bytes := do
  if key.length ≤ 8 ∨ MaxInt32 - 16 < key.length ∨ iv.length ≠ 8 then
    throw { text := "kwp: computeW called with invalid parameters" }
  let data := List.replicate (wrappingSize key.length) 0
  let data := copyAt data 0 iv
  let data := copyAt data 8 key
  let blockCount := data.length / 8 - 1
  let s := wrapLoops block blockCount (firstBuf data, data)
  pure (copyAt s.2 0 (s.1.take 8))

/-- One pass of the inner loop of `invertW`. -/
def unwrapStep (block : Block) (blockCount : ℕ) (s : Bytes × Bytes) (i j : ℕ) : Bytes × Bytes :=
  let buf := copyAt s.1 8 (s.2.drop (8 * (j + 1)))
  let buf := xorConst (i * blockCount + j + 1) buf
  let buf := block.Decrypt buf
  (buf, copyAt s.2 (8 * (j + 1)) (buf.drop 8))

/-- The two loops of `invertW`. -/
def unwrapLoops (block : Block) (blockCount : ℕ) (s : Bytes × Bytes) : Bytes × Bytes :=
  (List.range roundCount).reverse.foldl
    (fun s i => (List.range blockCount).reverse.foldl (fun s j => unwrapStep block blockCount s i j) s) s

def invertW (block : Block) (wrapped : Bytes) : Except Error Bytes := do
  if wrapped.length < 24 ∨ wrapped.length % 8 ≠ 0 then throw { text := "kwp: incorrect data size" }
  let data := wrapped
  let blockCount := data.length / 8 - 1
  let s := unwrapLoops block blockCount (firstBuf data, data)
  pure (copyAt s.2 0 (s.1.take 8))

def Wrap (block : Block) (data : Bytes) : Except Error Bytes := do
  if data.length < MinWrapSize then throw { text := "kwp: key size to wrap too small" }
  if MaxWrapSize < data.length then throw { text := "kwp: key size to wrap too large" }
  let iv := fillBytes 4 ivPrefix ++ fillBytes 4 data.length
  computeW block iv data

def errIntegrity : Error := { text := "kwp: unwrap failed integrity check" }

def Unwrap (block : Block) (data : Bytes) : Except Error Bytes := do
  if data.length < wrappingSize MinWrapSize then throw { text := "kwp: wrapped key size too small" }
  if wrappingSize MaxWrapSize < data.length then throw { text := "kwp: wrapped key size too large" }
  if data.length % 8 ≠ 0 then throw { text := "kwp: wrapped key size must be a multiple of 8 bytes" }
  let unwrapped ← invertW block data
  if ofBytes (unwrapped.take 4) ≠ ivPrefix then throw errIntegrity
  let encodedSize := ofBytes ((unwrapped.drop 4).take 4)
  if wrappingSize encodedSize ≠ unwrapped.length then throw errIntegrity
  if (unwrapped.drop (8 + encodedSize)).any (· ≠ 0) then throw errIntegrity
  pure ((unwrapped.drop 8).take encodedSize)

/-- `NewKWP`, with `aes.NewCipher` as a parameter. -/
def NewKWP (NewCipher : Bytes → Except Error Block) (wrappingKey : Bytes) : Except Error Block :=
  if wrappingKey.length = 16 ∨ wrappingKey.length = 32 then
    (NewCipher wrappingKey).mapError fun e => { text := "kwp: error building AES cipher: " ++ e.text }
  else .error { text := "kwp: invalid AES key size; want 16 or 32, got " ++ toString wrappingKey.length }

/-! ## Copying -/

lemma copyAt_eq {dst src : Bytes} {pos : ℕ} (h : pos + src.length ≤ dst.length) :
    copyAt dst pos src = dst.take pos ++ src ++ dst.drop (pos + src.length) := by
  rw [copyAt, List.take_of_length_le (by omega : src.length ≤ dst.length - pos)]

lemma length_copyAt {dst src : Bytes} {pos : ℕ} (h : pos + src.length ≤ dst.length) :
    (copyAt dst pos src).length = dst.length := by
  rw [copyAt_eq h]
  simp only [List.length_append, List.length_take, List.length_drop]
  omega

lemma take_drop_copyAt {dst src : Bytes} {pos : ℕ} (h : pos + src.length ≤ dst.length) :
    ((copyAt dst pos src).drop pos).take src.length = src := by
  have hpos : (dst.take pos).length = pos := by
    rw [List.length_take]
    omega
  rw [copyAt_eq h, List.append_assoc, List.drop_left' hpos, List.take_left' rfl]

lemma copyAt_copyAt {dst src : Bytes} {pos : ℕ} (h : pos + src.length ≤ dst.length) :
    copyAt (copyAt dst pos src) pos ((dst.drop pos).take src.length) = dst := by
  have hpos : (dst.take pos).length = pos := by
    rw [List.length_take]
    omega
  have hlen : ((dst.drop pos).take src.length).length = src.length := by
    rw [List.length_take, List.length_drop]
    omega
  have htake : (copyAt dst pos src).take pos = dst.take pos := by
    rw [copyAt_eq h, List.append_assoc, List.take_left' hpos]
  have hdrop : (copyAt dst pos src).drop (pos + src.length) = dst.drop (pos + src.length) := by
    rw [copyAt_eq h, List.drop_left']
    rw [List.length_append, hpos]
  rw [copyAt_eq (by rw [hlen, length_copyAt h]; exact h), hlen, htake, hdrop, List.append_assoc, ← List.drop_drop,
    List.take_append_drop, List.take_append_drop]

lemma drop_copyAt {dst src : Bytes} {k pos : ℕ} (h : k + pos + src.length ≤ dst.length) :
    (copyAt dst (k + pos) src).drop k = copyAt (dst.drop k) pos src := by
  have hpos : (dst.take (k + pos)).length = k + pos := by
    rw [List.length_take]
    omega
  rw [copyAt_eq h, copyAt_eq (by rw [List.length_drop]; omega), List.append_assoc,
    List.drop_append_of_le_length (by omega), List.drop_take, List.drop_drop, Nat.add_sub_cancel_left, Nat.add_assoc,
    List.append_assoc]

/-! ## The constant -/

@[simp] lemma length_roundMask (roundConst : ℕ) : (roundMask roundConst).length = 16 := by simp [roundMask]

@[simp] lemma length_xorConst {roundConst : ℕ} {buf : Bytes} (h : buf.length = 16) :
    (xorConst roundConst buf).length = 16 := by simp [xorConst, h]

lemma zipWith_xor_cancel {buf mask : Bytes} (h : buf.length = mask.length) :
    List.zipWith (· ^^^ ·) (List.zipWith (· ^^^ ·) buf mask) mask = buf := by
  induction buf generalizing mask with
  | nil => simp
  | cons b buf ih =>
    cases mask with
    | nil => simp at h
    | cons m mask =>
      simp only [List.length_cons, Nat.add_right_cancel_iff] at h
      simp only [List.zipWith_cons_cons, ih h, UInt8.xor_assoc, UInt8.xor_self, UInt8.xor_zero]

lemma xorConst_xorConst {roundConst : ℕ} {buf : Bytes} (h : buf.length = 16) :
    xorConst roundConst (xorConst roundConst buf) = buf := zipWith_xor_cancel (by rw [h, length_roundMask])

/-! ## The steps on what is carried -/

/-- The left half of the buffer, and the data after it. -/
def core (s : Bytes × Bytes) : Bytes × Bytes := (s.1.take 8, s.2.drop 8)

/-- The sizes with `n` blocks of data. -/
structure Sized (n : ℕ) (s : Bytes × Bytes) : Prop where
  buf : s.1.length = 16
  data : s.2.length = 8 * (n + 1)

structure CoreSized (n : ℕ) (c : Bytes × Bytes) : Prop where
  buf : c.1.length = 8
  data : c.2.length = 8 * n

lemma Sized.core {n : ℕ} {s : Bytes × Bytes} (h : Sized n s) : CoreSized n (core s) := by
  have h₁ := h.buf
  have h₂ := h.data
  constructor
  · simp only [Kwp.core, List.length_take]
    omega
  · simp only [Kwp.core, List.length_drop]
    omega

/-- The buffer with the block `j`. -/
def loaded (c : Bytes × Bytes) (j : ℕ) : Bytes := c.1 ++ (c.2.drop (8 * j)).take 8

/-- The two halves are stored. -/
def stored (c : Bytes × Bytes) (j : ℕ) (buf : Bytes) : Bytes × Bytes := (buf.take 8, copyAt c.2 (8 * j) (buf.drop 8))

def coreWrap (block : Block) (n : ℕ) (c : Bytes × Bytes) (ij : ℕ × ℕ) : Bytes × Bytes :=
  stored c ij.2 (xorConst (ij.1 * n + ij.2 + 1) (block.Encrypt (loaded c ij.2)))

def coreUnwrap (block : Block) (n : ℕ) (c : Bytes × Bytes) (ij : ℕ × ℕ) : Bytes × Bytes :=
  stored c ij.2 (block.Decrypt (xorConst (ij.1 * n + ij.2 + 1) (loaded c ij.2)))

lemma length_loaded {n j : ℕ} {c : Bytes × Bytes} (h : CoreSized n c) (hj : j < n) : (loaded c j).length = 16 := by
  have h₁ := h.buf
  have h₂ := h.data
  simp only [loaded, List.length_append, List.length_take, List.length_drop]
  omega

lemma stored_sized {n j : ℕ} {c : Bytes × Bytes} {buf : Bytes} (h : CoreSized n c) (hj : j < n)
    (hbuf : buf.length = 16) : CoreSized n (stored c j buf) := by
  have h₂ := h.data
  have hhalf : (buf.drop 8).length = 8 := by
    rw [List.length_drop]
    omega
  constructor
  · simp only [stored, List.length_take]
    omega
  · simp only [stored]
    rw [length_copyAt (by omega), h₂]

lemma loaded_stored {n j : ℕ} {c : Bytes × Bytes} {buf : Bytes} (h : CoreSized n c) (hj : j < n)
    (hbuf : buf.length = 16) : loaded (stored c j buf) j = buf := by
  have h₂ := h.data
  have hhalf : (buf.drop 8).length = 8 := by
    rw [List.length_drop]
    omega
  have hblock : ((copyAt c.2 (8 * j) (buf.drop 8)).drop (8 * j)).take (buf.drop 8).length = buf.drop 8 :=
    take_drop_copyAt (by omega)
  rw [hhalf] at hblock
  rw [loaded, stored, hblock, List.take_append_drop]

lemma stored_loaded {n j : ℕ} {c : Bytes × Bytes} {buf : Bytes} (h : CoreSized n c) (hj : j < n)
    (hbuf : buf.length = 16) : stored (stored c j buf) j (loaded c j) = c := by
  have h₁ := h.buf
  have h₂ := h.data
  have hhalf : (buf.drop 8).length = 8 := by
    rw [List.length_drop]
    omega
  have hdata : copyAt (copyAt c.2 (8 * j) (buf.drop 8)) (8 * j) ((c.2.drop (8 * j)).take (buf.drop 8).length) = c.2 :=
    copyAt_copyAt (by omega)
  rw [hhalf] at hdata
  simp only [stored, loaded]
  rw [List.take_left' h₁, List.drop_left' h₁, hdata]

/-- The buffer that a step of either loop works on. -/
lemma copyAt_buf {n j : ℕ} {s : Bytes × Bytes} (h : Sized n s) (hj : j < n) :
    copyAt s.1 8 (s.2.drop (8 * (j + 1))) = loaded (core s) j := by
  have h₁ := h.buf
  have h₂ := h.data
  have hend : s.1.drop (8 + (s.2.drop (8 * (j + 1))).length) = [] := by
    rw [List.length_drop]
    exact List.drop_eq_nil_of_le (by omega)
  have hoff : 8 * (j + 1) = 8 + 8 * j := by omega
  rw [copyAt, hend, h₁, List.append_nil, loaded, Kwp.core, hoff]
  simp only [List.drop_drop]

/-- What a step leaves behind, on the part that is carried. -/
lemma core_stored {n j : ℕ} {s : Bytes × Bytes} {buf : Bytes} (h : Sized n s) (hj : j < n) (hbuf : buf.length = 16) :
    Sized n (buf, copyAt s.2 (8 * (j + 1)) (buf.drop 8)) ∧
      core (buf, copyAt s.2 (8 * (j + 1)) (buf.drop 8)) = stored (core s) j buf := by
  have h₂ := h.data
  have hhalf : (buf.drop 8).length = 8 := by
    rw [List.length_drop]
    omega
  have hoff : 8 * (j + 1) = 8 + 8 * j := by omega
  refine ⟨⟨hbuf, ?_⟩, ?_⟩
  · simp only
    rw [length_copyAt (by omega), h₂]
  · simp only [Kwp.core, stored]
    rw [hoff, drop_copyAt (by omega)]

lemma core_wrapStep {block : Block} (hb : block.Inverts) {n : ℕ} {s : Bytes × Bytes} {i j : ℕ} (h : Sized n s)
    (hj : j < n) :
    Sized n (wrapStep block n s i j) ∧ core (wrapStep block n s i j) = coreWrap block n (core s) (i, j) := by
  have hload := length_loaded h.core hj
  simp only [wrapStep, copyAt_buf h hj]
  exact core_stored h hj (length_xorConst (hb.length _ hload))

lemma core_unwrapStep {block : Block} (hb : block.Inverts) {n : ℕ} {s : Bytes × Bytes} {i j : ℕ} (h : Sized n s)
    (hj : j < n) :
    Sized n (unwrapStep block n s i j) ∧ core (unwrapStep block n s i j) = coreUnwrap block n (core s) (i, j) := by
  have hload := length_loaded h.core hj
  simp only [unwrapStep, copyAt_buf h hj]
  exact core_stored h hj (hb.length_decrypt _ (length_xorConst hload))

/-- **A step of `invertW` undoes that of `computeW`.** -/
lemma coreUnwrap_coreWrap {block : Block} (hb : block.Inverts) {n : ℕ} {c : Bytes × Bytes} {ij : ℕ × ℕ}
    (h : CoreSized n c) (hj : ij.2 < n) :
    CoreSized n (coreWrap block n c ij) ∧ coreUnwrap block n (coreWrap block n c ij) ij = c := by
  have hload := length_loaded h hj
  have henc := hb.length _ hload
  have hbuf : (xorConst (ij.1 * n + ij.2 + 1) (block.Encrypt (loaded c ij.2))).length = 16 := length_xorConst henc
  refine ⟨stored_sized h hj hbuf, ?_⟩
  rw [coreUnwrap, coreWrap, loaded_stored h hj hbuf, xorConst_xorConst henc, hb.decrypt _ hload,
    stored_loaded h hj hbuf]

/-! ## The loops -/

/-- The values of the two loop variables, one pass after the other. -/
def schedule (n : ℕ) : List (ℕ × ℕ) := (List.range roundCount).flatMap fun i => (List.range n).map fun j => (i, j)

lemma mem_schedule {n : ℕ} {ij : ℕ × ℕ} (h : ij ∈ schedule n) : ij.2 < n := by
  simp only [schedule, List.mem_flatMap, List.mem_map, List.mem_range] at h
  obtain ⟨i, -, j, hj, rfl⟩ := h
  exact hj

lemma wrapLoops_eq (block : Block) (n : ℕ) (s : Bytes × Bytes) :
    wrapLoops block n s = (schedule n).foldl (fun s ij => wrapStep block n s ij.1 ij.2) s := by
  simp only [wrapLoops, schedule, List.foldl_flatMap, List.foldl_map]

lemma unwrapLoops_eq (block : Block) (n : ℕ) (s : Bytes × Bytes) :
    unwrapLoops block n s = (schedule n).reverse.foldl (fun s ij => unwrapStep block n s ij.1 ij.2) s := by
  simp only [unwrapLoops, schedule, List.reverse_flatMap, List.foldl_flatMap, Function.comp_def, ← List.map_reverse,
    List.foldl_map]

lemma core_wrapLoops {block : Block} (hb : block.Inverts) {n : ℕ} {s : Bytes × Bytes} (hs : Sized n s) :
    Sized n (wrapLoops block n s) ∧ core (wrapLoops block n s) = (schedule n).foldl (coreWrap block n) (core s) := by
  rw [wrapLoops_eq]
  exact foldl_part (fun ij hij s' hs' => core_wrapStep hb hs' (mem_schedule hij)) hs

lemma core_unwrapLoops {block : Block} (hb : block.Inverts) {n : ℕ} {s : Bytes × Bytes} (hs : Sized n s) :
    Sized n (unwrapLoops block n s) ∧
      core (unwrapLoops block n s) = (schedule n).reverse.foldl (coreUnwrap block n) (core s) := by
  rw [unwrapLoops_eq]
  exact foldl_part (fun ij hij s' hs' => core_unwrapStep hb hs' (mem_schedule (List.mem_reverse.1 hij))) hs

/-- **The loops of `invertW` undo those of `computeW`** on what is carried. -/
theorem unwrapLoops_wrapLoops {block : Block} (hb : block.Inverts) {n : ℕ} {s t : Bytes × Bytes} (hs : Sized n s)
    (ht : Sized n t) (hcore : core t = core (wrapLoops block n s)) : core (unwrapLoops block n t) = core s := by
  rw [(core_unwrapLoops hb ht).2, hcore, (core_wrapLoops hb hs).2]
  exact (foldl_undo (fun ij hij c hc => coreUnwrap_coreWrap hb hc (mem_schedule hij)) hs.core).2

/-! ## The beginning and the end -/

lemma first_sized {n : ℕ} {data : Bytes} (h : data.length = 8 * (n + 1)) : Sized n (firstBuf data, data) := by
  have htake : (data.take 8).length = 8 := by
    rw [List.length_take]
    omega
  refine ⟨?_, h⟩
  simp only [firstBuf]
  rw [length_copyAt (by simp), List.length_replicate]

lemma core_first {n : ℕ} {data : Bytes} (h : data.length = 8 * (n + 1)) :
    core (firstBuf data, data) = (data.take 8, data.drop 8) := by
  have htake : (data.take 8).length = 8 := by
    rw [List.length_take]
    omega
  have hbuf : (firstBuf data).take 8 = data.take 8 := by
    rw [firstBuf, copyAt_eq (by simp), List.take_zero, List.nil_append, List.take_left' htake]
  simp only [core, hbuf]

lemma copyAt_core {n : ℕ} {s : Bytes × Bytes} (h : Sized n s) :
    copyAt s.2 0 (s.1.take 8) = (core s).1 ++ (core s).2 := by
  have h₁ := h.buf
  have h₂ := h.data
  have htake : (s.1.take 8).length = 8 := by
    rw [List.length_take]
    omega
  rw [copyAt_eq (by omega), List.take_zero, List.nil_append, htake, core]

lemma wrappingSize_eq (size : ℕ) : wrappingSize size = 8 * ((size + 7) / 8 + 1) := by
  simp only [wrappingSize]
  omega

/-- The data with the padding. -/
def padded (iv key : Bytes) : Bytes := iv ++ (key ++ List.replicate (7 - (key.length + 7) % 8) 0)

lemma copies_eq_padded {iv key : Bytes} (hiv : iv.length = 8) :
    copyAt (copyAt (List.replicate (wrappingSize key.length) 0) 0 iv) 8 key = padded iv key := by
  have hsize : wrappingSize key.length = 8 + key.length + (7 - (key.length + 7) % 8) := by
    simp only [wrappingSize]
    omega
  have h₁ : copyAt (List.replicate (wrappingSize key.length) 0) 0 iv =
      iv ++ List.replicate (key.length + (7 - (key.length + 7) % 8)) 0 := by
    rw [copyAt_eq (by rw [List.length_replicate]; omega), List.take_zero, List.nil_append, List.drop_replicate, hiv,
      hsize]
    congr 2
    omega
  rw [h₁, copyAt_eq (by simp; omega), List.take_left' hiv, List.append_assoc, padded]
  congr 2
  rw [← hiv, List.drop_append, List.drop_eq_nil_of_le (by omega), List.nil_append, Nat.add_sub_cancel_left,
    List.drop_replicate, Nat.add_sub_cancel_left]

lemma length_padded {iv key : Bytes} (hiv : iv.length = 8) : (padded iv key).length = wrappingSize key.length := by
  simp only [padded, wrappingSize, List.length_append, List.length_replicate]
  omega

/-- **`invertW` inverts `computeW`.** -/
theorem invertW_computeW {block : Block} (hb : block.Inverts) {iv key : Bytes} (hiv : iv.length = 8)
    (hmin : 8 < key.length) (hmax : key.length ≤ MaxInt32 - 16) :
    ∃ wrapped, computeW block iv key = .ok wrapped ∧ wrapped.length = wrappingSize key.length ∧
      invertW block wrapped = .ok (padded iv key) := by
  have hsize := wrappingSize_eq key.length
  have hlen : (padded iv key).length = wrappingSize key.length := length_padded hiv
  have hblocks : 2 ≤ (key.length + 7) / 8 := by omega
  generalize (key.length + 7) / 8 = n at hsize hblocks
  have hdata : (padded iv key).length = 8 * (n + 1) := hlen.trans hsize
  have hfirst := first_sized hdata
  have hwrap := (core_wrapLoops hb hfirst).1
  -- the two parts after the loops, put together and taken apart again
  have hundo : ∀ t, Sized n t → core t = core (wrapLoops block n (firstBuf (padded iv key), padded iv key)) →
      core (unwrapLoops block n t) = ((padded iv key).take 8, (padded iv key).drop 8) := by
    intro t ht hcore
    rw [unwrapLoops_wrapLoops hb hfirst ht hcore, core_first hdata]
  have hcompute : computeW block iv key =
      .ok (copyAt (wrapLoops block n (firstBuf (padded iv key), padded iv key)).2 0
        ((wrapLoops block n (firstBuf (padded iv key), padded iv key)).1.take 8)) := by
    have hcount : (padded iv key).length / 8 - 1 = n := by omega
    simp only [computeW, copies_eq_padded hiv, hcount]
    rw [if_neg (by omega)]
    rfl
  generalize wrapLoops block n (firstBuf (padded iv key), padded iv key) = s at hwrap hundo hcompute
  obtain ⟨hbuf, hrest⟩ := hwrap.core
  rw [copyAt_core hwrap] at hcompute
  have hlen' : ((core s).1 ++ (core s).2).length = 8 * (n + 1) := by
    rw [List.length_append]
    omega
  refine ⟨_, hcompute, hlen'.trans hsize.symm, ?_⟩
  have hsecond := first_sized hlen'
  have hcore := core_first hlen'
  rw [List.take_left' hbuf, List.drop_left' hbuf] at hcore
  have hunwrap := (core_unwrapLoops hb hsecond).1
  have hresult := hundo _ hsecond hcore
  have hcount : ((core s).1 ++ (core s).2).length / 8 - 1 = n := by omega
  simp only [invertW, hcount, copyAt_core hunwrap, hresult, List.take_append_drop]
  rw [if_neg (by omega)]
  rfl

/-- **What was wrapped is unwrapped again.** -/
theorem Unwrap_Wrap {block : Block} (hb : block.Inverts) {data : Bytes} (hmin : MinWrapSize ≤ data.length)
    (hmax : data.length ≤ MaxWrapSize) :
    ∃ wrapped, Wrap block data = .ok wrapped ∧ Unwrap block wrapped = .ok data := by
  have hmin' : 16 ≤ data.length := hmin
  have hmax' : data.length ≤ 8192 := hmax
  have hiv : (fillBytes 4 ivPrefix ++ fillBytes 4 data.length).length = 8 := by simp
  obtain ⟨wrapped, hcompute, hlen, hinvert⟩ := invertW_computeW hb hiv (by omega : 8 < data.length)
    (hmax'.trans (by decide))
  refine ⟨wrapped, ?_, ?_⟩
  · simp only [Wrap]
    rw [if_neg (not_lt.2 hmin), if_neg (not_lt.2 hmax), hcompute]
  · have hwrapped := wrappingSize_eq data.length
    have hminSize : wrappingSize MinWrapSize = 24 := by decide
    have hmaxSize : wrappingSize MaxWrapSize = 8200 := by decide
    have hprefix : ofBytes ((padded (fillBytes 4 ivPrefix ++ fillBytes 4 data.length) data).take 4) = ivPrefix := by
      rw [padded, List.append_assoc, List.take_left' (length_fillBytes _ _)]
      exact ofBytes_fillBytes (by decide)
    have hencoded : ofBytes (((padded (fillBytes 4 ivPrefix ++ fillBytes 4 data.length) data).drop 4).take 4) =
        data.length := by
      rw [padded, List.append_assoc, List.drop_left' (length_fillBytes _ _), List.take_left' (length_fillBytes _ _)]
      exact ofBytes_fillBytes (by norm_num; omega)
    have hrest : (padded (fillBytes 4 ivPrefix ++ fillBytes 4 data.length) data).drop 8 =
        data ++ List.replicate (7 - (data.length + 7) % 8) 0 := List.drop_left' hiv
    have hpadding : (padded (fillBytes 4 ivPrefix ++ fillBytes 4 data.length) data).drop (8 + data.length) =
        List.replicate (7 - (data.length + 7) % 8) 0 := by
      rw [← List.drop_drop, hrest, List.drop_left' rfl]
    have hzero : (List.replicate (7 - (data.length + 7) % 8) (0 : UInt8)).any (· ≠ 0) = false := by simp
    simp only [Unwrap, hinvert, hminSize, hmaxSize]
    rw [if_neg (by omega), if_neg (by omega), if_neg (by omega)]
    simp only [bind, Except.bind, hprefix, hencoded, length_padded hiv, hpadding, hzero, hrest, List.take_left' rfl]
    simp
    rfl

end Signatory.Kwp
