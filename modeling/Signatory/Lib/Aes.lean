import Signatory.Lib.Rounds

/-!
# AES

The block cipher of FIPS 197 on lists of bytes.  A state has 16 bytes, column after column.  Decryption takes the steps
of encryption back in reverse order: `decrypt_encrypt`, for any round keys.
-/

namespace Signatory.Lib.Aes

open Rounds

abbrev Bytes := List UInt8

/-- Multiplication by `x` modulo `x^8 + x^4 + x^3 + x + 1`. -/
def xtime (b : UInt8) : UInt8 := (b <<< 1) ^^^ if b.toBitVec.msb then 0x1b else 0

def sboxTable : Bytes := [
    0x63, 0x7c, 0x77, 0x7b, 0xf2, 0x6b, 0x6f, 0xc5, 0x30, 0x01, 0x67, 0x2b, 0xfe, 0xd7, 0xab, 0x76,
    0xca, 0x82, 0xc9, 0x7d, 0xfa, 0x59, 0x47, 0xf0, 0xad, 0xd4, 0xa2, 0xaf, 0x9c, 0xa4, 0x72, 0xc0,
    0xb7, 0xfd, 0x93, 0x26, 0x36, 0x3f, 0xf7, 0xcc, 0x34, 0xa5, 0xe5, 0xf1, 0x71, 0xd8, 0x31, 0x15,
    0x04, 0xc7, 0x23, 0xc3, 0x18, 0x96, 0x05, 0x9a, 0x07, 0x12, 0x80, 0xe2, 0xeb, 0x27, 0xb2, 0x75,
    0x09, 0x83, 0x2c, 0x1a, 0x1b, 0x6e, 0x5a, 0xa0, 0x52, 0x3b, 0xd6, 0xb3, 0x29, 0xe3, 0x2f, 0x84,
    0x53, 0xd1, 0x00, 0xed, 0x20, 0xfc, 0xb1, 0x5b, 0x6a, 0xcb, 0xbe, 0x39, 0x4a, 0x4c, 0x58, 0xcf,
    0xd0, 0xef, 0xaa, 0xfb, 0x43, 0x4d, 0x33, 0x85, 0x45, 0xf9, 0x02, 0x7f, 0x50, 0x3c, 0x9f, 0xa8,
    0x51, 0xa3, 0x40, 0x8f, 0x92, 0x9d, 0x38, 0xf5, 0xbc, 0xb6, 0xda, 0x21, 0x10, 0xff, 0xf3, 0xd2,
    0xcd, 0x0c, 0x13, 0xec, 0x5f, 0x97, 0x44, 0x17, 0xc4, 0xa7, 0x7e, 0x3d, 0x64, 0x5d, 0x19, 0x73,
    0x60, 0x81, 0x4f, 0xdc, 0x22, 0x2a, 0x90, 0x88, 0x46, 0xee, 0xb8, 0x14, 0xde, 0x5e, 0x0b, 0xdb,
    0xe0, 0x32, 0x3a, 0x0a, 0x49, 0x06, 0x24, 0x5c, 0xc2, 0xd3, 0xac, 0x62, 0x91, 0x95, 0xe4, 0x79,
    0xe7, 0xc8, 0x37, 0x6d, 0x8d, 0xd5, 0x4e, 0xa9, 0x6c, 0x56, 0xf4, 0xea, 0x65, 0x7a, 0xae, 0x08,
    0xba, 0x78, 0x25, 0x2e, 0x1c, 0xa6, 0xb4, 0xc6, 0xe8, 0xdd, 0x74, 0x1f, 0x4b, 0xbd, 0x8b, 0x8a,
    0x70, 0x3e, 0xb5, 0x66, 0x48, 0x03, 0xf6, 0x0e, 0x61, 0x35, 0x57, 0xb9, 0x86, 0xc1, 0x1d, 0x9e,
    0xe1, 0xf8, 0x98, 0x11, 0x69, 0xd9, 0x8e, 0x94, 0x9b, 0x1e, 0x87, 0xe9, 0xce, 0x55, 0x28, 0xdf,
    0x8c, 0xa1, 0x89, 0x0d, 0xbf, 0xe6, 0x42, 0x68, 0x41, 0x99, 0x2d, 0x0f, 0xb0, 0x54, 0xbb, 0x16]

def invSboxTable : Bytes := [
    0x52, 0x09, 0x6a, 0xd5, 0x30, 0x36, 0xa5, 0x38, 0xbf, 0x40, 0xa3, 0x9e, 0x81, 0xf3, 0xd7, 0xfb,
    0x7c, 0xe3, 0x39, 0x82, 0x9b, 0x2f, 0xff, 0x87, 0x34, 0x8e, 0x43, 0x44, 0xc4, 0xde, 0xe9, 0xcb,
    0x54, 0x7b, 0x94, 0x32, 0xa6, 0xc2, 0x23, 0x3d, 0xee, 0x4c, 0x95, 0x0b, 0x42, 0xfa, 0xc3, 0x4e,
    0x08, 0x2e, 0xa1, 0x66, 0x28, 0xd9, 0x24, 0xb2, 0x76, 0x5b, 0xa2, 0x49, 0x6d, 0x8b, 0xd1, 0x25,
    0x72, 0xf8, 0xf6, 0x64, 0x86, 0x68, 0x98, 0x16, 0xd4, 0xa4, 0x5c, 0xcc, 0x5d, 0x65, 0xb6, 0x92,
    0x6c, 0x70, 0x48, 0x50, 0xfd, 0xed, 0xb9, 0xda, 0x5e, 0x15, 0x46, 0x57, 0xa7, 0x8d, 0x9d, 0x84,
    0x90, 0xd8, 0xab, 0x00, 0x8c, 0xbc, 0xd3, 0x0a, 0xf7, 0xe4, 0x58, 0x05, 0xb8, 0xb3, 0x45, 0x06,
    0xd0, 0x2c, 0x1e, 0x8f, 0xca, 0x3f, 0x0f, 0x02, 0xc1, 0xaf, 0xbd, 0x03, 0x01, 0x13, 0x8a, 0x6b,
    0x3a, 0x91, 0x11, 0x41, 0x4f, 0x67, 0xdc, 0xea, 0x97, 0xf2, 0xcf, 0xce, 0xf0, 0xb4, 0xe6, 0x73,
    0x96, 0xac, 0x74, 0x22, 0xe7, 0xad, 0x35, 0x85, 0xe2, 0xf9, 0x37, 0xe8, 0x1c, 0x75, 0xdf, 0x6e,
    0x47, 0xf1, 0x1a, 0x71, 0x1d, 0x29, 0xc5, 0x89, 0x6f, 0xb7, 0x62, 0x0e, 0xaa, 0x18, 0xbe, 0x1b,
    0xfc, 0x56, 0x3e, 0x4b, 0xc6, 0xd2, 0x79, 0x20, 0x9a, 0xdb, 0xc0, 0xfe, 0x78, 0xcd, 0x5a, 0xf4,
    0x1f, 0xdd, 0xa8, 0x33, 0x88, 0x07, 0xc7, 0x31, 0xb1, 0x12, 0x10, 0x59, 0x27, 0x80, 0xec, 0x5f,
    0x60, 0x51, 0x7f, 0xa9, 0x19, 0xb5, 0x4a, 0x0d, 0x2d, 0xe5, 0x7a, 0x9f, 0x93, 0xc9, 0x9c, 0xef,
    0xa0, 0xe0, 0x3b, 0x4d, 0xae, 0x2a, 0xf5, 0xb0, 0xc8, 0xeb, 0xbb, 0x3c, 0x83, 0x53, 0x99, 0x61,
    0x17, 0x2b, 0x04, 0x7e, 0xba, 0x77, 0xd6, 0x26, 0xe1, 0x69, 0x14, 0x63, 0x55, 0x21, 0x0c, 0x7d]

def sbox (b : UInt8) : UInt8 := sboxTable.getD b.toNat 0

def invSbox (b : UInt8) : UInt8 := invSboxTable.getD b.toNat 0

def IsState (s : Bytes) : Prop := s.length = 16

/-- The state with these bytes. -/
def tabulate (f : ℕ → UInt8) : Bytes := (List.range 16).map f

def subBytes (s : Bytes) : Bytes := tabulate fun i => sbox (s.getD i 0)

def invSubBytes (s : Bytes) : Bytes := tabulate fun i => invSbox (s.getD i 0)

/-- Row `r` is moved by `r` places. -/
def shiftRows (s : Bytes) : Bytes := tabulate fun i => s.getD ((i + 4 * (i % 4)) % 16) 0

def invShiftRows (s : Bytes) : Bytes := tabulate fun i => s.getD ((i + 12 * (i % 4)) % 16) 0

/-- The place `k` rows below in the same column. -/
def below (i k : ℕ) : ℕ := 4 * (i / 4) + (i + k) % 4

/-- `2 a + 3 b + c + d`. -/
def mix (a b c d : UInt8) : UInt8 := xtime a ^^^ (xtime b ^^^ b) ^^^ c ^^^ d

def mixColumns (s : Bytes) : Bytes :=
  tabulate fun i => mix (s.getD i 0) (s.getD (below i 1) 0) (s.getD (below i 2) 0) (s.getD (below i 3) 0)

/-- `14 a + 11 b + 13 c + 9 d`. -/
def invMix (a b c d : UInt8) : UInt8 :=
  (xtime (xtime (xtime a)) ^^^ xtime (xtime a) ^^^ xtime a) ^^^ (xtime (xtime (xtime b)) ^^^ xtime b ^^^ b) ^^^
    (xtime (xtime (xtime c)) ^^^ xtime (xtime c) ^^^ c) ^^^ (xtime (xtime (xtime d)) ^^^ d)

def invMixColumns (s : Bytes) : Bytes :=
  tabulate fun i => invMix (s.getD i 0) (s.getD (below i 1) 0) (s.getD (below i 2) 0) (s.getD (below i 3) 0)

def addRoundKey (k s : Bytes) : Bytes := tabulate fun i => s.getD i 0 ^^^ k.getD i 0

def round (k s : Bytes) : Bytes := addRoundKey k (mixColumns (shiftRows (subBytes s)))

def invRound (k s : Bytes) : Bytes := invSubBytes (invShiftRows (invMixColumns (addRoundKey k s)))

/-- Encryption with the round keys `0` to `rounds`. -/
def encrypt (key : ℕ → Bytes) (rounds : ℕ) (s : Bytes) : Bytes :=
  let s := addRoundKey (key 0) s
  let s := (List.range (rounds - 1)).foldl (fun s r => round (key (r + 1)) s) s
  addRoundKey (key rounds) (shiftRows (subBytes s))

def decrypt (key : ℕ → Bytes) (rounds : ℕ) (s : Bytes) : Bytes :=
  let s := invSubBytes (invShiftRows (addRoundKey (key rounds) s))
  let s := (List.range (rounds - 1)).reverse.foldl (fun s r => invRound (key (r + 1)) s) s
  addRoundKey (key 0) s

/-! ## Each step is undone -/

lemma isState_tabulate (f : ℕ → UInt8) : IsState (tabulate f) := by simp [IsState, tabulate]

@[simp] lemma getD_tabulate (f : ℕ → UInt8) {i : ℕ} (hi : i < 16) : (tabulate f).getD i 0 = f i := by
  simp [tabulate, List.getD_eq_getElem?_getD, hi]

lemma tabulate_getD {s : Bytes} (hs : IsState s) : (tabulate fun i => s.getD i 0) = s := by
  apply List.ext_getElem
  · exact (isState_tabulate _).trans hs.symm
  · intro i h₁ h₂
    simp [tabulate, List.getD_eq_getElem?_getD, h₂]

lemma tabulate_congr {f g : ℕ → UInt8} (h : ∀ i < 16, f i = g i) : tabulate f = tabulate g :=
  List.map_congr_left fun i hi => h i (List.mem_range.1 hi)

lemma map_invSbox : sboxTable.map invSbox = (List.range 256).map UInt8.ofNat := by decide +kernel

lemma invSbox_sbox (b : UInt8) : invSbox (sbox b) = b := by
  have hb : b.toNat < 256 := UInt8.toNat_lt b
  have hlen : b.toNat < sboxTable.length := by
    have h256 : sboxTable.length = 256 := by decide +kernel
    rw [h256]
    exact hb
  have h := congrArg (fun l => l[b.toNat]?) map_invSbox
  simp only [List.getElem?_map, List.getElem?_range hb, List.getElem?_eq_getElem hlen, Option.map_some,
    Option.some.injEq] at h
  rw [sbox, List.getD_eq_getElem?_getD, List.getElem?_eq_getElem hlen, Option.getD_some, h, UInt8.ofNat_toNat]

lemma invSubBytes_subBytes {s : Bytes} (hs : IsState s) : invSubBytes (subBytes s) = s := by
  rw [invSubBytes, subBytes, ← tabulate_getD hs]
  refine tabulate_congr fun i hi => ?_
  rw [getD_tabulate _ hi, getD_tabulate _ hi, invSbox_sbox]

lemma invShiftRows_shiftRows {s : Bytes} (hs : IsState s) : invShiftRows (shiftRows s) = s := by
  have hperm : ∀ i < 16, ((i + 12 * (i % 4)) % 16 + 4 * ((i + 12 * (i % 4)) % 16 % 4)) % 16 = i := by decide
  rw [invShiftRows, shiftRows]
  conv_rhs => rw [← tabulate_getD hs]
  refine tabulate_congr fun i hi => ?_
  rw [getD_tabulate _ (Nat.mod_lt _ (by norm_num)), hperm i hi]

lemma addRoundKey_addRoundKey {s : Bytes} (hs : IsState s) (k : Bytes) : addRoundKey k (addRoundKey k s) = s := by
  rw [addRoundKey, addRoundKey]
  conv_rhs => rw [← tabulate_getD hs]
  refine tabulate_congr fun i hi => ?_
  rw [getD_tabulate _ hi, UInt8.xor_assoc, UInt8.xor_self, UInt8.xor_zero]

lemma xtime_xor (a b : UInt8) : xtime (a ^^^ b) = xtime a ^^^ xtime b := by
  simp only [xtime, UInt8.toBitVec_xor, BitVec.msb_xor, UInt8.shiftLeft_xor]
  have h27 : (if (a.toBitVec.msb ^^ b.toBitVec.msb) = true then (0x1b : UInt8) else 0) =
      (if a.toBitVec.msb = true then 0x1b else 0) ^^^ (if b.toBitVec.msb = true then 0x1b else 0) := by
    cases a.toBitVec.msb <;> cases b.toBitVec.msb <;> rfl
  rw [h27]
  ac_rfl

lemma mix_xor (a b c d a' b' c' d' : UInt8) :
    mix (a ^^^ a') (b ^^^ b') (c ^^^ c') (d ^^^ d') = mix a b c d ^^^ mix a' b' c' d' := by
  simp only [mix, xtime_xor]
  ac_rfl

lemma invMix_xor (a b c d a' b' c' d' : UInt8) :
    invMix (a ^^^ a') (b ^^^ b') (c ^^^ c') (d ^^^ d') = invMix a b c d ^^^ invMix a' b' c' d' := by
  simp only [invMix, xtime_xor]
  ac_rfl

/-- A row of the product of the two matrices. -/
def product (a b c d : UInt8) : UInt8 := invMix (mix a b c d) (mix b c d a) (mix c d a b) (mix d a b c)

lemma product_xor (a b c d a' b' c' d' : UInt8) :
    product (a ^^^ a') (b ^^^ b') (c ^^^ c') (d ^^^ d') = product a b c d ^^^ product a' b' c' d' := by
  simp only [product, mix_xor, invMix_xor]

lemma product_single (b : UInt8) :
    product b 0 0 0 = b ∧ product 0 b 0 0 = 0 ∧ product 0 0 b 0 = 0 ∧ product 0 0 0 b = 0 := by
  have h : ∀ b : Fin 256, product (UInt8.ofFin b) 0 0 0 = UInt8.ofFin b ∧ product 0 (UInt8.ofFin b) 0 0 = 0 ∧
      product 0 0 (UInt8.ofFin b) 0 = 0 ∧ product 0 0 0 (UInt8.ofFin b) = 0 := by decide +kernel
  exact h b.toFin

lemma invMix_mix (a b c d : UInt8) :
    invMix (mix a b c d) (mix b c d a) (mix c d a b) (mix d a b c) = a := by
  calc product a b c d
      = product (a ^^^ 0) (0 ^^^ b) (0 ^^^ c) (0 ^^^ d) := by simp
    _ = product a 0 0 0 ^^^ product (0 ^^^ 0) (b ^^^ 0) (0 ^^^ c) (0 ^^^ d) := by
        rw [product_xor]
        simp
    _ = product a 0 0 0 ^^^ (product 0 b 0 0 ^^^ product (0 ^^^ 0) (0 ^^^ 0) (c ^^^ 0) (0 ^^^ d)) := by
        rw [product_xor]
        simp
    _ = a := by
        rw [product_xor, (product_single a).1, (product_single b).2.1, (product_single c).2.2.1,
          (product_single d).2.2.2]
        simp

lemma invMixColumns_mixColumns {s : Bytes} (hs : IsState s) : invMixColumns (mixColumns s) = s := by
  have hbelow : ∀ i < 16, ∀ k < 4, below i k < 16 ∧ ∀ l < 4, below (below i k) l = below i ((k + l) % 4) := by decide
  have hzero : ∀ i < 16, below i 0 = i := by decide
  rw [invMixColumns, mixColumns]
  conv_rhs => rw [← tabulate_getD hs]
  refine tabulate_congr fun i hi => ?_
  obtain ⟨h₁, hb₁⟩ := hbelow i hi 1 (by norm_num)
  obtain ⟨h₂, hb₂⟩ := hbelow i hi 2 (by norm_num)
  obtain ⟨h₃, hb₃⟩ := hbelow i hi 3 (by norm_num)
  rw [getD_tabulate _ hi, getD_tabulate _ h₁, getD_tabulate _ h₂, getD_tabulate _ h₃]
  simp only [hb₁ 1 (by norm_num), hb₁ 2 (by norm_num), hb₁ 3 (by norm_num), hb₂ 1 (by norm_num), hb₂ 2 (by norm_num),
    hb₂ 3 (by norm_num), hb₃ 1 (by norm_num), hb₃ 2 (by norm_num), hb₃ 3 (by norm_num)]
  norm_num [hzero i hi]
  exact invMix_mix _ _ _ _

lemma invRound_round {s : Bytes} (hs : IsState s) (k : Bytes) : IsState (round k s) ∧ invRound k (round k s) = s := by
  have hsub : IsState (subBytes s) := isState_tabulate _
  have hshift : IsState (shiftRows (subBytes s)) := isState_tabulate _
  have hmix : IsState (mixColumns (shiftRows (subBytes s))) := isState_tabulate _
  refine ⟨isState_tabulate _, ?_⟩
  rw [invRound, round, addRoundKey_addRoundKey hmix, invMixColumns_mixColumns hshift, invShiftRows_shiftRows hsub,
    invSubBytes_subBytes hs]

/-- **Decryption inverts encryption.** -/
theorem decrypt_encrypt (key : ℕ → Bytes) (rounds : ℕ) {s : Bytes} (hs : IsState s) :
    decrypt key rounds (encrypt key rounds s) = s := by
  have hfirst : IsState (addRoundKey (key 0) s) := isState_tabulate _
  obtain ⟨hmiddle, hundo⟩ := @foldl_undo _ _ (List.range (rounds - 1)) (fun s r => round (key (r + 1)) s)
    (fun s r => invRound (key (r + 1)) s) IsState (fun r _ t ht => invRound_round ht (key (r + 1))) _ hfirst
  rw [decrypt, encrypt]
  generalize (List.range (rounds - 1)).foldl (fun s r => round (key (r + 1)) s) (addRoundKey (key 0) s) = m
    at hmiddle hundo ⊢
  have hsub : IsState (subBytes m) := isState_tabulate _
  have hshift : IsState (shiftRows (subBytes m)) := isState_tabulate _
  rw [addRoundKey_addRoundKey hshift, invShiftRows_shiftRows hsub, invSubBytes_subBytes hmiddle, hundo,
    addRoundKey_addRoundKey hs]

lemma isState_encrypt (key : ℕ → Bytes) (rounds : ℕ) (s : Bytes) : IsState (encrypt key rounds s) := by
  simp only [encrypt, addRoundKey]
  exact isState_tabulate _

lemma isState_decrypt (key : ℕ → Bytes) (rounds : ℕ) (s : Bytes) : IsState (decrypt key rounds s) := by
  simp only [decrypt, addRoundKey]
  exact isState_tabulate _

/-! ## The round keys -/

/-- The words of the key schedule after the first `nk`, one at a time. -/
def expand (nk : ℕ) : ℕ → List Bytes → List Bytes
  | 0, words => words
  | fuel + 1, words =>
    let i := words.length
    let last := words.getD (i - 1) []
    let temp :=
      if i % nk = 0 then
        List.zipWith (· ^^^ ·) ((last.drop 1 ++ last.take 1).map sbox) [(xtime^[i / nk - 1]) 1, 0, 0, 0]
      else if 6 < nk ∧ i % nk = 4 then last.map sbox
      else last
    expand nk fuel (words ++ [List.zipWith (· ^^^ ·) (words.getD (i - nk) []) temp])

def rounds (key : Bytes) : ℕ := key.length / 4 + 6

/-- The round keys of a key of 16, 24 or 32 bytes. -/
def roundKeys (key : Bytes) : ℕ → Bytes :=
  let nk := key.length / 4
  let words := (List.range nk).map fun i => (key.drop (4 * i)).take 4
  let words := expand nk (4 * (rounds key + 1) - nk) words
  fun r => (words.drop (4 * r)).take 4 |>.flatten

-- the example of FIPS 197 for keys of 256 bits
example : encrypt (roundKeys ((List.range 32).map UInt8.ofNat)) 14 ((List.range 16).map fun i => UInt8.ofNat (17 * i)) =
    [0x8e, 0xa2, 0xb7, 0xca, 0x51, 0x67, 0x45, 0xbf, 0xea, 0xfc, 0x49, 0x90, 0x4b, 0x49, 0x60, 0x89] := by
  decide +kernel

end Signatory.Lib.Aes
