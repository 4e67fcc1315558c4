import Mathlib.Tactic

/-!
# Masks of leading ones

Bytes are bits, the highest first (`bits`).  To compare two strings of bytes under a mask of `n` ones is to compare
their first `n` bits (`masked_eq_iff`).
-/

namespace Signatory.Lib.Masks

/-- The bits of a byte, the highest first. -/
def byteBits (b : UInt8) : List Bool := (List.range 8).map fun i => b.toBitVec.getMsbD i

def bits (bs : List UInt8) : List Bool := bs.flatMap byteBits

/-- A byte with `n` leading ones, fewer than eight. -/
def maskByte (n : ℕ) : UInt8 := ~~~ ((0xff : UInt8) >>> UInt8.ofNat n)

/-- `n` ones in `len` bytes. -/
def mask : ℕ → ℕ → List UInt8
  | _, 0 => []
  | n, len + 1 => if 8 ≤ n then 0xff :: mask (n - 8) len else maskByte n :: mask 0 len

def masked (bs m : List UInt8) : List UInt8 := List.zipWith (· &&& ·) bs m

/-! ## Bits -/

@[simp] lemma length_byteBits (b : UInt8) : (byteBits b).length = 8 := by simp [byteBits]

@[simp] lemma bits_cons (b : UInt8) (bs : List UInt8) : bits (b :: bs) = byteBits b ++ bits bs := List.flatMap_cons

lemma bits_append (bs bs' : List UInt8) : bits (bs ++ bs') = bits bs ++ bits bs' := List.flatMap_append

@[simp] lemma length_bits (bs : List UInt8) : (bits bs).length = 8 * bs.length := by
  induction bs with
  | nil => rfl
  | cons b bs ih => rw [bits_cons, List.length_append, ih, length_byteBits, List.length_cons]; omega

lemma bits_take (k : ℕ) (bs : List UInt8) : bits (bs.take k) = (bits bs).take (8 * k) := by
  induction k generalizing bs with
  | zero => rfl
  | succ k ih =>
    cases bs with
    | nil => simp
    | cons b bs =>
      have hfull : (byteBits b).take (8 * (k + 1)) = byteBits b := List.take_of_length_le (by simp)
      have hrest : 8 * (k + 1) - 8 = 8 * k := by omega
      rw [List.take_succ_cons, bits_cons, bits_cons, ih, List.take_append, length_byteBits, hfull, hrest]

lemma take_byteBits_eq_iff {a b : UInt8} {n : ℕ} :
    (byteBits a).take n = (byteBits b).take n ↔ ∀ i < 8, i < n → a.toBitVec.getMsbD i = b.toBitVec.getMsbD i := by
  rw [byteBits, byteBits, ← List.map_take, ← List.map_take, List.take_range, List.map_inj_left]
  simp only [List.mem_range, lt_min_iff]
  exact ⟨fun h i hi hn => h i ⟨hn, hi⟩, fun h i hi => h i hi.2 hi.1⟩

lemma byteBits_inj {a b : UInt8} (h : byteBits a = byteBits b) : a = b := by
  have hbits := take_byteBits_eq_iff.1 (congrArg (List.take 8) h)
  exact UInt8.toBitVec_inj.1 (BitVec.eq_of_getMsbD_eq fun i hi => hbits i hi hi)

lemma bits_inj {bs bs' : List UInt8} (h : bits bs = bits bs') : bs = bs' := by
  induction bs generalizing bs' with
  | nil =>
    cases bs' with
    | nil => rfl
    | cons b bs' =>
      have hlen := congrArg List.length h
      simp only [length_bits, List.length_nil, List.length_cons] at hlen
      omega
  | cons b bs ih =>
    cases bs' with
    | nil =>
      have hlen := congrArg List.length h
      simp only [length_bits, List.length_nil, List.length_cons] at hlen
      omega
    | cons b' bs' =>
      obtain ⟨hfirst, hrest⟩ := List.append_inj h (by simp)
      rw [byteBits_inj hfirst, ih hrest]

/-! ## Masks -/

@[simp] lemma length_mask (n len : ℕ) : (mask n len).length = len := by
  induction len generalizing n with
  | zero => rfl
  | succ len ih =>
    rw [mask]
    split <;> rw [List.length_cons, ih]

@[simp] lemma length_masked (bs m : List UInt8) : (masked bs m).length = min bs.length m.length := List.length_zipWith

lemma masked_masked {bs m : List UInt8} : masked (masked bs m) m = masked bs m := by
  induction bs generalizing m with
  | nil => simp [masked]
  | cons b bs ih =>
    cases m with
    | nil => simp [masked]
    | cons c m =>
      have htail := ih (m := m)
      simp only [masked, List.zipWith_cons_cons, UInt8.and_assoc, UInt8.and_self] at htail ⊢
      rw [htail]

lemma masked_drop (k : ℕ) (bs m : List UInt8) : (masked bs m).drop k = masked (bs.drop k) (m.drop k) :=
  List.drop_zipWith

lemma masked_take (k : ℕ) (bs m : List UInt8) : (masked bs m).take k = masked (bs.take k) (m.take k) :=
  List.take_zipWith

lemma mask_add {k : ℕ} (n len : ℕ) : mask (8 * k + n) (k + len) = List.replicate k 0xff ++ mask n len := by
  induction k with
  | zero => simp
  | succ k ih =>
    have hlen : k + 1 + len = k + len + 1 := by omega
    have hn : 8 * (k + 1) + n - 8 = 8 * k + n := by omega
    rw [hlen, mask, if_pos (by omega), hn, ih, List.replicate_succ, List.cons_append]

lemma mask_take (n k len : ℕ) : (mask n (k + len)).take k = mask n k := by
  induction k generalizing n with
  | zero => rfl
  | succ k ih =>
    have hlen : k + 1 + len = k + len + 1 := by omega
    rw [hlen, mask, mask]
    split <;> rw [List.take_succ_cons, ih]

lemma getMsbD_maskByte : ∀ n < 8, ∀ i < 8, (maskByte n).toBitVec.getMsbD i = decide (i < n) := by decide

lemma and_maskByte_eq_iff {a b : UInt8} {n : ℕ} (hn : n < 8) :
    a &&& maskByte n = b &&& maskByte n ↔ (byteBits a).take n = (byteBits b).take n := by
  rw [take_byteBits_eq_iff, ← UInt8.toBitVec_inj, UInt8.toBitVec_and, UInt8.toBitVec_and]
  constructor
  · intro h i hi hin
    have hget := congrArg (fun v => v.getMsbD i) h
    simpa [BitVec.getMsbD_and, getMsbD_maskByte n hn i hi, hin] using hget
  · intro h
    refine BitVec.eq_of_getMsbD_eq fun i hi => ?_
    rw [BitVec.getMsbD_and, BitVec.getMsbD_and, getMsbD_maskByte n hn i hi]
    by_cases hin : i < n
    · rw [h i hi hin]
    · simp [hin]

lemma and_allOnes (a : UInt8) : a &&& 0xff = a := by
  rw [← UInt8.toBitVec_inj, UInt8.toBitVec_and]
  exact BitVec.and_allOnes

lemma masked_replicate {bs : List UInt8} {k : ℕ} (h : bs.length ≤ k) : masked bs (List.replicate k 0xff) = bs := by
  induction bs generalizing k with
  | nil => simp [masked]
  | cons b bs ih =>
    cases k with
    | zero => simp at h
    | succ k =>
      have htail := ih (Nat.le_of_succ_le_succ h)
      rw [masked] at htail
      rw [masked, List.replicate_succ, List.zipWith_cons_cons, and_allOnes, htail]

/-- **Equal under a mask of `n` ones: the first `n` bits are the same.** -/
theorem masked_eq_iff {as bs : List UInt8} (n : ℕ) (hlen : as.length = bs.length) :
    masked as (mask n as.length) = masked bs (mask n bs.length) ↔ (bits as).take n = (bits bs).take n := by
  induction as generalizing bs n with
  | nil =>
    obtain rfl := List.eq_nil_of_length_eq_zero hlen.symm
    simp
  | cons a as ih =>
    cases bs with
    | nil => cases hlen
    | cons b bs =>
      have hlen' : as.length = bs.length := Nat.succ.inj hlen
      rw [List.length_cons, List.length_cons, bits_cons, bits_cons, List.take_append, List.take_append,
        length_byteBits, length_byteBits, List.append_eq_append_iff_of_size_eq_left (by simp), mask, mask]
      split
      next h8 =>
        have hfull : ∀ c, (byteBits c).take n = byteBits c := fun c => List.take_of_length_le (by simpa using h8)
        have hfirst : a &&& 0xff = b &&& 0xff ↔ (byteBits a).take n = (byteBits b).take n := by
          rw [and_allOnes, and_allOnes, hfull, hfull]
          exact ⟨fun h => by rw [h], byteBits_inj⟩
        rw [masked, masked, List.zipWith_cons_cons, List.zipWith_cons_cons, List.cons.injEq, hfirst]
        exact and_congr_right fun _ => ih (n - 8) hlen'
      next h8 =>
        have hzero : n - 8 = 0 := by omega
        rw [masked, masked, List.zipWith_cons_cons, List.zipWith_cons_cons, List.cons.injEq,
          and_maskByte_eq_iff (by omega), hzero]
        exact and_congr_right fun _ => ih 0 hlen'

end Signatory.Lib.Masks
