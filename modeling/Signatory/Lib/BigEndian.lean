import Mathlib.Tactic

/-!
# Natural numbers as bytes, most significant first

* `ofBytes` — the number that a byte string stands for;
* `fillBytes len n` — the lowest `len` bytes of `n`; numbers below `256 ^ len` are read back (`ofBytes_fillBytes`);
* `bytes n` — the bytes of `n` from the first one that is not zero on, which are `k` many exactly for the numbers that
  need `k` bytes (`byteLen_eq_succ`).
-/

namespace Signatory.Lib.BigEndian

def ofBytes (bs : List UInt8) : ℕ := bs.foldl (fun n b => n * 256 + b.toNat) 0

def fillBytes : ℕ → ℕ → List UInt8
  | 0, _ => []
  | len + 1, n => fillBytes len (n / 256) ++ [UInt8.ofNat n]

/-- The number of bits of `n`. -/
def bitLen (n : ℕ) : ℕ := if n = 0 then 0 else n.log2 + 1

/-- The number of bytes of `n`. -/
def byteLen (n : ℕ) : ℕ := (bitLen n + 7) / 8

def bytes (n : ℕ) : List UInt8 := fillBytes (byteLen n) n

lemma bitLen_le {n k : ℕ} : bitLen n ≤ k ↔ n < 2 ^ k := by
  unfold bitLen
  split
  case isTrue h => simp [h]
  case isFalse h => rw [Nat.add_one_le_iff, Nat.log2_lt h]

lemma byteLen_le {n k : ℕ} : byteLen n ≤ k ↔ n < 256 ^ k := by
  have hbits : byteLen n ≤ k ↔ bitLen n ≤ 8 * k := by
    unfold byteLen
    omega
  rw [hbits, bitLen_le, pow_mul]
  norm_num

@[simp] lemma length_fillBytes (len n : ℕ) : (fillBytes len n).length = len := by
  induction len generalizing n with
  | zero => rfl
  | succ len ih => simp [fillBytes, ih]

@[simp] lemma length_bytes (n : ℕ) : (bytes n).length = byteLen n := length_fillBytes _ _

lemma ofBytes_append_singleton (bs : List UInt8) (b : UInt8) : ofBytes (bs ++ [b]) = ofBytes bs * 256 + b.toNat := by
  simp [ofBytes]

lemma ofBytes_fillBytes {len n : ℕ} (h : n < 256 ^ len) : ofBytes (fillBytes len n) = n := by
  induction len generalizing n with
  | zero =>
    rw [pow_zero] at h
    obtain rfl : n = 0 := by omega
    rfl
  | succ len ih =>
    rw [pow_succ] at h
    rw [fillBytes, ofBytes_append_singleton, ih (by omega), UInt8.toNat_ofNat']
    omega

/-- What is read is filled in again, zeros in front included. -/
lemma fillBytes_ofBytes (bs : List UInt8) : fillBytes bs.length (ofBytes bs) = bs := by
  induction bs using List.reverseRecOn with
  | nil => rfl
  | append_singleton bs b ih =>
    have hb := b.toNat_lt
    have hdiv : (ofBytes bs * 256 + b.toNat) / 256 = ofBytes bs := by omega
    have hbyte : UInt8.ofNat (ofBytes bs * 256 + b.toNat) = b := by
      refine UInt8.toNat_inj.1 ?_
      rw [UInt8.toNat_ofNat']
      omega
    rw [List.length_append, List.length_singleton, ofBytes_append_singleton, fillBytes, hdiv, hbyte, ih]

lemma ofBytes_lt (bs : List UInt8) : ofBytes bs < 256 ^ bs.length := by
  induction bs using List.reverseRecOn with
  | nil => exact Nat.one_pos
  | append_singleton bs b ih =>
    have hb := b.toNat_lt
    rw [List.length_append, List.length_singleton, ofBytes_append_singleton, pow_succ]
    omega

lemma ofBytes_bytes (n : ℕ) : ofBytes (bytes n) = n := ofBytes_fillBytes (byteLen_le.1 le_rfl)

lemma bytes_ofBytes {bs : List UInt8} (h : byteLen (ofBytes bs) = bs.length) : bytes (ofBytes bs) = bs := by
  rw [bytes, h, fillBytes_ofBytes]

/-- **The shortest form has a given length** just when the number needs as many bytes. -/
lemma byteLen_eq_succ {n k : ℕ} : byteLen n = k + 1 ↔ 256 ^ k ≤ n ∧ n < 256 ^ (k + 1) := by
  have h₁ : byteLen n ≤ k + 1 ↔ n < 256 ^ (k + 1) := byteLen_le
  have h₂ : byteLen n ≤ k ↔ n < 256 ^ k := byteLen_le
  omega

end Signatory.Lib.BigEndian
