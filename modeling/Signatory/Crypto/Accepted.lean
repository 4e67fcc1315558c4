import Mathlib.Data.Fintype.Vector
import Signatory.Crypto.Kwp
import Signatory.Lib.Fallible

/-!
# `crypto/kwp`: what is unwrapped

The steps of `computeW` also undo those of `invertW`, so that what `Unwrap` accepts is the image under `computeW` of
what it returns: every key has one wrapped form and no other is accepted for it (`Unwrap_iff`).  `Wrap` makes all of
these but those of the keys of 9 to 15 bytes, which it refuses and `Unwrap` accepts (`wrapped_forms`).
-/

namespace Signatory.Kwp

open Lib.BigEndian Lib.Fallible Lib.Rounds
open Signer (Bytes Error)

variable {block : Block}

/-! ## The steps undone the other way -/

/-- There are finitely many blocks, so that encryption also inverts decryption. -/
lemma Block.Inverts.encrypt (hb : block.Inverts) {s : Bytes} (hs : s.length = 16) :
    block.Encrypt (block.Decrypt s) = s := by
  let encrypt (s : List.Vector UInt8 16) : List.Vector UInt8 16 := ⟨block.Encrypt s.1, hb.length s.1 s.2⟩
  have hinj : Function.Injective encrypt := by
    intro a b hab
    have h : block.Encrypt a.1 = block.Encrypt b.1 := congrArg Subtype.val hab
    exact Subtype.ext (by rw [← hb.decrypt a.1 a.2, h, hb.decrypt b.1 b.2])
  have : Finite UInt8 := Finite.of_injective UInt8.toFin fun _ _ => UInt8.toFin_inj.1
  obtain ⟨a, ha⟩ := Finite.surjective_of_injective hinj ⟨s, hs⟩
  have hs' : block.Encrypt a.1 = s := congrArg Subtype.val ha
  rw [← hs', hb.decrypt a.1 a.2]

/-- **A step of `computeW` undoes that of `invertW`.** -/
lemma coreWrap_coreUnwrap (hb : block.Inverts) {n : ℕ} {c : Bytes × Bytes} {ij : ℕ × ℕ} (h : CoreSized n c)
    (hj : ij.2 < n) :
    CoreSized n (coreUnwrap block n c ij) ∧ coreWrap block n (coreUnwrap block n c ij) ij = c := by
  have hload := length_loaded h hj
  have hxor : (xorConst (ij.1 * n + ij.2 + 1) (loaded c ij.2)).length = 16 := length_xorConst hload
  have hbuf := hb.length_decrypt _ hxor
  refine ⟨stored_sized h hj hbuf, ?_⟩
  rw [coreWrap, coreUnwrap, loaded_stored h hj hbuf, hb.encrypt hxor, xorConst_xorConst hload, stored_loaded h hj hbuf]

theorem wrapLoops_unwrapLoops (hb : block.Inverts) {n : ℕ} {s t : Bytes × Bytes} (hs : Sized n s) (ht : Sized n t)
    (hcore : core t = core (unwrapLoops block n s)) : core (wrapLoops block n t) = core s := by
  rw [(core_wrapLoops hb ht).2, hcore, (core_unwrapLoops hb hs).2]
  have h := (foldl_undo (l := (schedule n).reverse)
    (fun ij hij c hc => coreWrap_coreUnwrap hb hc (mem_schedule (List.mem_reverse.1 hij))) hs.core).2
  rwa [List.reverse_reverse] at h

/-! ## The two functions on whole buffers -/

lemma invertW_eq (hb : block.Inverts) {n : ℕ} (hn : 2 ≤ n) {wrapped : Bytes} (hlen : wrapped.length = 8 * (n + 1)) :
    invertW block wrapped = .ok ((core (unwrapLoops block n (firstBuf wrapped, wrapped))).1 ++
      (core (unwrapLoops block n (firstBuf wrapped, wrapped))).2) := by
  have hcount : wrapped.length / 8 - 1 = n := by omega
  have hsized := (core_unwrapLoops hb (first_sized hlen)).1
  simp only [invertW, hcount, copyAt_core hsized]
  rw [if_neg (by omega)]
  rfl

lemma computeW_eq (hb : block.Inverts) {n : ℕ} {iv key : Bytes} (hiv : iv.length = 8) (hmin : 8 < key.length)
    (hmax : key.length ≤ MaxInt32 - 16) (hlen : (padded iv key).length = 8 * (n + 1)) :
    computeW block iv key = .ok ((core (wrapLoops block n (firstBuf (padded iv key), padded iv key))).1 ++
      (core (wrapLoops block n (firstBuf (padded iv key), padded iv key))).2) := by
  have hcount : (padded iv key).length / 8 - 1 = n := by omega
  have hsized := (core_wrapLoops hb (first_sized hlen)).1
  simp only [computeW, copies_eq_padded hiv, hcount, copyAt_core hsized]
  rw [if_neg (by omega)]
  rfl

/-- **`computeW` inverts `invertW`.** -/
theorem computeW_of_invertW (hb : block.Inverts) {iv key wrapped : Bytes} (hiv : iv.length = 8) (hmin : 8 < key.length)
    (hmax : key.length ≤ MaxInt32 - 16) (hlen : wrapped.length = wrappingSize key.length)
    (h : invertW block wrapped = .ok (padded iv key)) : computeW block iv key = .ok wrapped := by
  have hsize := wrappingSize_eq key.length
  have hblocks : 2 ≤ (key.length + 7) / 8 := by omega
  have hpad : (padded iv key).length = wrappingSize key.length := length_padded hiv
  generalize (key.length + 7) / 8 = n at hsize hblocks
  rw [hsize] at hlen hpad
  -- the data of `computeW` are the two parts that `invertW` has left
  have hparts := Except.ok.inj ((invertW_eq hb hblocks hlen).symm.trans h)
  have hsized := (core_unwrapLoops hb (first_sized hlen)).1.core
  have hcore : core (firstBuf (padded iv key), padded iv key) =
      core (unwrapLoops block n (firstBuf wrapped, wrapped)) := by
    rw [core_first hpad, ← hparts, List.take_left' hsized.buf, List.drop_left' hsized.buf]
  rw [computeW_eq hb hiv hmin hmax hpad, wrapLoops_unwrapLoops hb (first_sized hlen) (first_sized hpad) hcore,
    core_first hlen, List.take_append_drop]

/-! ## The checks of `Unwrap` -/

/-- The initial value of `Wrap`. -/
def ivOf (data : Bytes) : Bytes := fillBytes 4 ivPrefix ++ fillBytes 4 data.length

lemma length_ivOf (data : Bytes) : (ivOf data).length = 8 := by simp [ivOf]

/-- What is checked of the unwrapped bytes `u`: they are some data with its initial value in front and its padding. -/
lemma checks_iff {u data : Bytes} :
    (ofBytes (u.take 4) = ivPrefix ∧ wrappingSize (ofBytes ((u.drop 4).take 4)) = u.length ∧
        (u.drop (8 + ofBytes ((u.drop 4).take 4))).any (· ≠ 0) = false ∧
        (u.drop 8).take (ofBytes ((u.drop 4).take 4)) = data) ↔
      data.length < 256 ^ 4 ∧ u = padded (ivOf data) data := by
  constructor
  · rintro ⟨htag, hsize, hzero, hdata⟩
    have hwrap : wrappingSize (ofBytes ((u.drop 4).take 4)) =
        8 + ofBytes ((u.drop 4).take 4) + (7 - (ofBytes ((u.drop 4).take 4) + 7) % 8) := by
      simp only [wrappingSize]
      omega
    have hlt : ofBytes ((u.drop 4).take 4) < 256 ^ 4 := by
      have h := ofBytes_lt ((u.drop 4).take 4)
      rwa [List.length_take, List.length_drop, Nat.min_eq_left (by omega)] at h
    -- the two words in front
    have hfirst : u.take 4 = fillBytes 4 ivPrefix := by
      have h := fillBytes_ofBytes (u.take 4)
      rw [htag, List.length_take, Nat.min_eq_left (by omega)] at h
      exact h.symm
    have hsecond : (u.drop 4).take 4 = fillBytes 4 (ofBytes ((u.drop 4).take 4)) := by
      have h := fillBytes_ofBytes ((u.drop 4).take 4)
      rw [List.length_take, List.length_drop, Nat.min_eq_left (by omega)] at h
      exact h.symm
    generalize ofBytes ((u.drop 4).take 4) = size at *
    have hlen : data.length = size := by
      rw [← hdata, List.length_take, List.length_drop]
      omega
    have hpadding : u.drop (8 + size) = List.replicate (7 - (size + 7) % 8) 0 := by
      rw [List.eq_replicate_iff, List.length_drop]
      refine ⟨by omega, fun b hb => ?_⟩
      have hne := List.any_eq_false.1 hzero b hb
      simpa using hne
    have hrest : u.drop 8 = data ++ List.replicate (7 - (size + 7) % 8) 0 := by
      rw [← hdata, ← hpadding, ← List.drop_drop, List.take_append_drop]
    refine ⟨hlen ▸ hlt, ?_⟩
    calc u = u.take 4 ++ ((u.drop 4).take 4 ++ (u.drop 4).drop 4) := by
          rw [List.take_append_drop, List.take_append_drop]
      _ = padded (ivOf data) data := by
          rw [hfirst, hsecond, List.drop_drop, hrest, padded, ivOf, hlen, List.append_assoc]
  · rintro ⟨hlt, rfl⟩
    have htag : (padded (ivOf data) data).take 4 = fillBytes 4 ivPrefix := by
      rw [padded, ivOf, List.append_assoc, List.take_left' (length_fillBytes _ _)]
    have hsecond : ((padded (ivOf data) data).drop 4).take 4 = fillBytes 4 data.length := by
      rw [padded, ivOf, List.append_assoc, List.drop_left' (length_fillBytes _ _),
        List.take_left' (length_fillBytes _ _)]
    have hrest : (padded (ivOf data) data).drop 8 = data ++ List.replicate (7 - (data.length + 7) % 8) 0 :=
      List.drop_left' (length_ivOf data)
    rw [htag, hsecond, ofBytes_fillBytes hlt, ← List.drop_drop, hrest, List.drop_left' rfl, List.take_left' rfl]
    exact ⟨ofBytes_fillBytes (by decide), (length_padded (length_ivOf data)).symm, by simp, rfl⟩

lemma Unwrap_ok_iff {wrapped data : Bytes} :
    Unwrap block wrapped = .ok data ↔
      24 ≤ wrapped.length ∧ wrapped.length ≤ 8200 ∧ wrapped.length % 8 = 0 ∧ data.length < 256 ^ 4 ∧
        invertW block wrapped = .ok (padded (ivOf data) data) := by
  have hmin : wrappingSize MinWrapSize = 24 := by decide
  have hmax : wrappingSize MaxWrapSize = 8200 := by decide
  simp only [Unwrap, ok_bind_iff, ok_check_bind_iff, ok_pure_iff, hmin, hmax, not_lt, not_not, Bool.not_eq_true]
  constructor
  · rintro ⟨h₁, h₂, h₃, u, hinvert, hchecks⟩
    obtain ⟨hlt, rfl⟩ := checks_iff.1 hchecks
    exact ⟨h₁, h₂, h₃, hlt, hinvert⟩
  · rintro ⟨h₁, h₂, h₃, hlt, hinvert⟩
    exact ⟨h₁, h₂, h₃, _, hinvert, checks_iff.2 ⟨hlt, rfl⟩⟩

/-! ## What is accepted -/

theorem length_of_invertW (hb : block.Inverts) {wrapped u : Bytes} (hmin : 24 ≤ wrapped.length)
    (hmod : wrapped.length % 8 = 0) (h : invertW block wrapped = .ok u) : u.length = wrapped.length := by
  have hlen : wrapped.length = 8 * ((wrapped.length / 8 - 1) + 1) := by omega
  have hsized := (core_unwrapLoops hb (first_sized hlen)).1.core
  have hu := Except.ok.inj ((invertW_eq hb (by omega) hlen).symm.trans h)
  rw [← hu, List.length_append, hsized.buf, hsized.data]
  omega

/-- **Every key of at least nine bytes has one wrapped form,** and nothing else is unwrapped to it. -/
theorem Unwrap_iff (hb : block.Inverts) {wrapped data : Bytes} :
    Unwrap block wrapped = .ok data ↔
      8 < data.length ∧ data.length ≤ MaxWrapSize ∧ computeW block (ivOf data) data = .ok wrapped := by
  have hsize := wrappingSize_eq data.length
  have hMax : MaxWrapSize = 8192 := rfl
  have hInt : MaxInt32 - 16 = 2147483631 := rfl
  rw [Unwrap_ok_iff]
  constructor
  · rintro ⟨hmin, hmax, hmod, -, hinvert⟩
    have hlen := length_of_invertW hb hmin hmod hinvert
    rw [length_padded (length_ivOf data)] at hlen
    refine ⟨by omega, by omega, ?_⟩
    exact computeW_of_invertW hb (length_ivOf data) (by omega) (by omega) hlen.symm hinvert
  · rintro ⟨hmin, hmax, hcompute⟩
    obtain ⟨wrapped', hcompute', hlen, hinvert⟩ :=
      invertW_computeW hb (length_ivOf data) hmin (by omega : data.length ≤ MaxInt32 - 16)
    obtain rfl := Except.ok.inj (hcompute.symm.trans hcompute')
    exact ⟨by omega, by omega, by omega, by norm_num; omega, hinvert⟩

lemma Wrap_ok_iff {wrapped data : Bytes} :
    Wrap block data = .ok wrapped ↔
      MinWrapSize ≤ data.length ∧ data.length ≤ MaxWrapSize ∧ computeW block (ivOf data) data = .ok wrapped := by
  simp only [Wrap, ok_check_bind_iff, not_lt, ivOf]

/-- **What is accepted is what is made, and the short keys.**  `Wrap` makes the wrapped form from which `Unwrap` gets
the key back, and no other; two wrapped forms of a key are the same; and the keys that `Unwrap` can return are those of
9 to `MaxWrapSize` bytes, though `Wrap` takes none below `MinWrapSize`. -/
theorem wrapped_forms (hb : block.Inverts) :
    (∀ wrapped data, Wrap block data = .ok wrapped ↔ MinWrapSize ≤ data.length ∧ Unwrap block wrapped = .ok data) ∧
      (∀ wrapped wrapped' data, Unwrap block wrapped = .ok data → Unwrap block wrapped' = .ok data →
        wrapped = wrapped') ∧
      ∀ data, (∃ wrapped, Unwrap block wrapped = .ok data) ↔ 8 < data.length ∧ data.length ≤ MaxWrapSize := by
  refine ⟨fun wrapped data => ?_, fun wrapped wrapped' data h h' => ?_, fun data => ⟨?_, fun ⟨hmin, hmax⟩ => ?_⟩⟩
  · rw [Wrap_ok_iff, Unwrap_iff hb]
    have hMin : MinWrapSize = 16 := rfl
    exact ⟨fun ⟨hmin, hmax, hcompute⟩ => ⟨hmin, by omega, hmax, hcompute⟩,
      fun ⟨hmin, _, hmax, hcompute⟩ => ⟨hmin, hmax, hcompute⟩⟩
  · exact Except.ok.inj (((Unwrap_iff hb).1 h).2.2.symm.trans ((Unwrap_iff hb).1 h').2.2)
  · rintro ⟨wrapped, h⟩
    obtain ⟨hmin, hmax, -⟩ := (Unwrap_iff hb).1 h
    exact ⟨hmin, hmax⟩
  · obtain ⟨wrapped, hcompute, -⟩ :=
      invertW_computeW hb (length_ivOf data) hmin (hmax.trans (by decide : MaxWrapSize ≤ MaxInt32 - 16))
    exact ⟨wrapped, (Unwrap_iff hb).2 ⟨hmin, hmax, hcompute⟩⟩

/-- A cipher that turns the block around. -/
def reversing : Block := ⟨List.reverse, List.reverse⟩

lemma reversing_inverts : reversing.Inverts :=
  ⟨fun _ hs => (List.length_reverse).trans hs, fun _ hs => (List.length_reverse).trans hs,
    fun s _ => List.reverse_reverse s⟩

theorem wrapped_forms_short :
    Wrap reversing (List.replicate 9 1) = .error { text := "kwp: key size to wrap too small" } ∧
      ∃ wrapped, Unwrap reversing wrapped = .ok (List.replicate 9 1) :=
  ⟨rfl, ((wrapped_forms reversing_inverts).2.2 (List.replicate 9 1)).2 ⟨by decide, by decide⟩⟩

end Signatory.Kwp
