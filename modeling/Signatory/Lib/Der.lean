import Signatory.Lib.BigEndian

/-!
# DER elements

An element is an identifier byte, the length of its contents in the shortest form, and the contents (X.690).  Only
identifiers of one byte are considered.  What is written is read back, whatever follows it: `read_element`,
`readOid_oid`, `readInteger_small`, `readBits_bits`.  Nothing else is read: `read_iff`.
-/

namespace Signatory.Lib.Der

open BigEndian

/-! ## Elements -/

/-- The length bytes: one below 128, else the number of bytes of the length and these bytes. -/
def lengthBytes (n : ℕ) : List UInt8 :=
  if n < 128 then [UInt8.ofNat n] else UInt8.ofNat (128 + byteLen n) :: bytes n

def element (tag : UInt8) (body : List UInt8) : List UInt8 := tag :: (lengthBytes body.length ++ body)

/-- The length has at most 126 bytes, so that their number fits the first one. -/
def HasDerLength (body : List UInt8) : Prop := byteLen body.length ≤ 126

/-- The identifier is not one of several bytes. -/
def LowTag (tag : UInt8) : Prop := tag.toNat % 32 ≠ 31

instance : DecidablePred LowTag := fun tag => inferInstanceAs (Decidable (tag.toNat % 32 ≠ 31))

def readLength : List UInt8 → Option (ℕ × List UInt8)
  | [] => none
  | b :: s =>
    if b.toNat < 128 then some (b.toNat, s)
    else
      let k := b.toNat - 128
      let n := ofBytes (s.take k)
      -- lengths take four bytes at most, and must be in the shortest form
      if k = 0 ∨ 4 < k ∨ s.length < k ∨ n < 128 ∨ byteLen n ≠ k then none
      else some (n, s.drop k)

/-- The contents of the first element, if it has this tag, and what follows. -/
def read (tag : UInt8) : List UInt8 → Option (List UInt8 × List UInt8)
  | [] => none
  | t :: s =>
    if t ≠ tag ∨ ¬ LowTag t then none
    else
      match readLength s with
      | none => none
      | some (n, s) => if s.length < n then none else some (s.take n, s.drop n)

lemma readLength_lengthBytes {n : ℕ} (h : n < 2 ^ 32) (rest : List UInt8) :
    readLength (lengthBytes n ++ rest) = some (n, rest) := by
  unfold lengthBytes
  split
  case isTrue hshort =>
    have hn : (UInt8.ofNat n).toNat = n := by
      rw [UInt8.toNat_ofNat']
      omega
    simp only [List.singleton_append, readLength, hn, if_pos hshort]
  case isFalse hlong =>
    have hle : byteLen n ≤ 4 := byteLen_le.2 (by norm_num; exact h)
    have hpos : byteLen n ≠ 0 := by
      intro h0
      have := byteLen_le.1 h0.le
      rw [pow_zero] at this
      omega
    have hb : (UInt8.ofNat (128 + byteLen n)).toNat = 128 + byteLen n := by
      rw [UInt8.toNat_ofNat']
      omega
    have htake : (bytes n ++ rest).take (byteLen n) = bytes n := List.take_left' (length_bytes n)
    have hdrop : (bytes n ++ rest).drop (byteLen n) = rest := List.drop_left' (length_bytes n)
    simp only [List.cons_append, readLength, hb, Nat.add_sub_cancel_left, htake, hdrop, ofBytes_bytes]
    rw [if_neg (by omega), if_neg]
    rintro (h | h | h | h | h)
    · exact hpos h
    · omega
    · simp at h
    · exact hlong h
    · exact h rfl

/-- **An element is read back**, whatever follows it. -/
theorem read_element {tag : UInt8} {body : List UInt8} (htag : LowTag tag) (hlen : body.length < 2 ^ 32)
    (rest : List UInt8) : read tag (element tag body ++ rest) = some (body, rest) := by
  have hlength := readLength_lengthBytes hlen (body ++ rest)
  simp only [element, List.cons_append, List.append_assoc, read, hlength]
  rw [if_neg (by simp [htag]), if_neg (by simp), List.take_left' rfl, List.drop_left' rfl]

lemma readLength_iff {s rest : List UInt8} {n : ℕ} :
    readLength s = some (n, rest) ↔ n < 2 ^ 32 ∧ s = lengthBytes n ++ rest := by
  constructor
  · intro h
    cases s with
    | nil => cases h
    | cons b s =>
      have hb := b.toNat_lt
      rw [readLength] at h
      split at h
      next hshort =>
        obtain ⟨rfl, rfl⟩ := Prod.mk.inj (Option.some.inj h)
        rw [lengthBytes, if_pos hshort, UInt8.ofNat_toNat]
        exact ⟨by omega, rfl⟩
      next hlong =>
        dsimp only at h
        split at h
        next => cases h
        next hform =>
          obtain ⟨rfl, rfl⟩ := Prod.mk.inj (Option.some.inj h)
          simp only [not_or, not_lt, not_not] at hform
          obtain ⟨-, hfour, hroom, hbig, hlen⟩ := hform
          have htake : (s.take (b.toNat - 128)).length = b.toNat - 128 := List.length_take_of_le hroom
          have hbytes := bytes_ofBytes (hlen.trans htake.symm)
          constructor
          · calc ofBytes (s.take (b.toNat - 128)) < 256 ^ 4 := byteLen_le.1 (hlen.le.trans hfour)
              _ = 2 ^ 32 := by norm_num
          · rw [lengthBytes, if_neg (by omega), hlen, hbytes, show 128 + (b.toNat - 128) = b.toNat by omega,
              UInt8.ofNat_toNat, List.cons_append, List.take_append_drop]
  · rintro ⟨hn, rfl⟩
    exact readLength_lengthBytes hn rest

/-- **What is read is an element.** -/
theorem read_iff {tag : UInt8} {s body rest : List UInt8} :
    read tag s = some (body, rest) ↔ LowTag tag ∧ body.length < 2 ^ 32 ∧ s = element tag body ++ rest := by
  constructor
  · intro h
    cases s with
    | nil => cases h
    | cons t s =>
      rw [read] at h
      split at h
      next => cases h
      next htag =>
        obtain ⟨rfl, hlow⟩ : t = tag ∧ LowTag t := by simpa only [not_or, not_not] using htag
        split at h
        next => cases h
        next n s' hlength =>
          obtain ⟨hn, rfl⟩ := readLength_iff.1 hlength
          split at h
          next => cases h
          next hroom =>
            obtain ⟨rfl, rfl⟩ := Prod.mk.inj (Option.some.inj h)
            have htake : (s'.take n).length = n := List.length_take_of_le (not_lt.1 hroom)
            rw [element, htake, List.cons_append, List.append_assoc, List.take_append_drop]
            exact ⟨hlow, hn, rfl⟩
  · rintro ⟨htag, hlen, rfl⟩
    exact read_element htag hlen rest

lemma read_element_long {tag : UInt8} {body : List UInt8} (hlong : 2 ^ 32 ≤ body.length) (henc : HasDerLength body)
    (rest : List UInt8) : read tag (element tag body ++ rest) = none := by
  have hbytes : 4 < byteLen body.length := by
    by_contra h
    have := byteLen_le.1 (not_lt.1 h)
    norm_num at this
    omega
  have hb : (UInt8.ofNat (128 + byteLen body.length)).toNat = 128 + byteLen body.length := by
    unfold HasDerLength at henc
    rw [UInt8.toNat_ofNat']
    omega
  have hlength : readLength (lengthBytes body.length ++ (body ++ rest)) = none := by
    rw [lengthBytes, if_neg (by omega), List.cons_append]
    simp only [readLength, hb, Nat.add_sub_cancel_left]
    rw [if_neg (by omega), if_pos (Or.inr (Or.inl hbytes))]
  simp only [element, List.cons_append, List.append_assoc, read, hlength, ite_self]

lemma length_lengthBytes_le {n : ℕ} (h : n < 2 ^ 32) : (lengthBytes n).length ≤ 5 := by
  have hle : byteLen n ≤ 4 := byteLen_le.2 (by norm_num; exact h)
  unfold lengthBytes
  split
  · simp
  · simp; omega

lemma length_element_le {tag : UInt8} {body : List UInt8} {n : ℕ} (h : body.length ≤ n) (hn : n < 2 ^ 32) :
    (element tag body).length ≤ n + 6 := by
  have := length_lengthBytes_le (h.trans_lt hn)
  simp only [element, List.length_cons, List.length_append]
  omega

/-! ## Object identifiers -/

/-- The bytes of an arc but the last one, each of which says that another one follows. -/
def continued : ℕ → ℕ → List UInt8
  | 0, _ => []
  | fuel + 1, n => if n = 0 then [] else continued fuel (n / 128) ++ [UInt8.ofNat (128 + n % 128)]

/-- An arc in base 128. -/
def arc (n : ℕ) : List UInt8 := continued (n / 128) (n / 128) ++ [UInt8.ofNat (n % 128)]

/-- The contents of an object identifier; the first two arcs are written as one. -/
def oid : List ℕ → List UInt8
  | a :: b :: arcs => arc (40 * a + b) ++ arcs.flatMap arc
  | _ => []

/-- One arc, with the value `n` of the bytes before and whether there are any. -/
def readArc (first : Bool) (n : ℕ) : List UInt8 → Option (ℕ × List UInt8)
  | [] => none
  | b :: s =>
    if first ∧ b = 128 then none
    else if b.toNat < 128 then some (n * 128 + b.toNat, s)
    else readArc false (n * 128 + (b.toNat - 128)) s

def readArcs : ℕ → List UInt8 → Option (List ℕ)
  | 0, s => if s = [] then some [] else none
  | fuel + 1, s =>
    if s = [] then some []
    else
      match readArc true 0 s with
      | none => none
      | some (n, s) => (readArcs fuel s).map (n :: ·)

def readOid (body : List UInt8) : Option (List ℕ) :=
  match readArcs body.length body with
  | some (n :: arcs) => if n < 80 then some (n / 40 :: n % 40 :: arcs) else some (2 :: (n - 80) :: arcs)
  | _ => none

lemma readArc_continued {fuel n : ℕ} (hfuel : n ≤ fuel) (s : List UInt8) :
    readArc true 0 (continued fuel n ++ s) = readArc (n == 0) n s := by
  induction fuel generalizing n s with
  | zero =>
    obtain rfl : n = 0 := by omega
    rfl
  | succ fuel ih =>
    unfold continued
    split
    case isTrue h => rw [h]; rfl
    case isFalse h =>
      have hb : (UInt8.ofNat (128 + n % 128)).toNat = 128 + n % 128 := by
        rw [UInt8.toNat_ofNat']
        omega
      -- the first byte of all is not the one that stands for a zero in front
      have hfirst : ¬ ((n / 128 == 0) = true ∧ UInt8.ofNat (128 + n % 128) = 128) := by
        rintro ⟨h0, h128⟩
        have h0' : n / 128 = 0 := by simpa using h0
        have := congrArg UInt8.toNat h128
        rw [hb] at this
        have h128' : (128 : UInt8).toNat = 128 := rfl
        omega
      have hn : n / 128 * 128 + (128 + n % 128 - 128) = n := by omega
      have hfalse : (n == 0) = false := by simpa using h
      rw [List.append_assoc, List.singleton_append, ih (by omega), readArc, if_neg hfirst, hb, if_neg (by omega), hn,
        hfalse]

lemma readArc_arc (n : ℕ) (s : List UInt8) : readArc true 0 (arc n ++ s) = some (n, s) := by
  have hb : (UInt8.ofNat (n % 128)).toNat = n % 128 := by
    rw [UInt8.toNat_ofNat']
    omega
  have h128 : UInt8.ofNat (n % 128) ≠ 128 := by
    intro h
    have := congrArg UInt8.toNat h
    rw [hb] at this
    have h128' : (128 : UInt8).toNat = 128 := rfl
    omega
  rw [arc, List.append_assoc, List.singleton_append, readArc_continued le_rfl, readArc, if_neg (fun h => h128 h.2), hb,
    if_pos (by omega)]
  simp only [Option.some.injEq, Prod.mk.injEq, and_true]
  omega

lemma readArcs_flatMap {arcs : List ℕ} {fuel : ℕ} (hfuel : arcs.length ≤ fuel) :
    readArcs fuel (arcs.flatMap arc) = some arcs := by
  induction arcs generalizing fuel with
  | nil => cases fuel <;> rfl
  | cons n arcs ih =>
    cases fuel with
    | zero => simp at hfuel
    | succ fuel =>
      have hne : arc n ++ arcs.flatMap arc ≠ [] := by simp [arc]
      rw [List.flatMap_cons, readArcs, if_neg hne, readArc_arc]
      simp only [ih (Nat.le_of_succ_le_succ hfuel), Option.map_some]

lemma length_le_flatMap_arc (arcs : List ℕ) : arcs.length ≤ (arcs.flatMap arc).length := by
  induction arcs with
  | nil => exact le_rfl
  | cons n arcs ih =>
    rw [List.flatMap_cons, List.length_append, List.length_cons]
    have : 1 ≤ (arc n).length := by simp [arc]
    omega

/-- What X.660 asks of the first two arcs. -/
def ValidOid : List ℕ → Prop
  | a :: b :: _ => a < 2 ∧ b < 40 ∨ a = 2
  | _ => False

instance : DecidablePred ValidOid := fun o => by
  unfold ValidOid
  split <;> infer_instance

/-- **An object identifier is read back.** -/
theorem readOid_oid {o : List ℕ} (h : ValidOid o) : readOid (oid o) = some o := by
  match o, h with
  | a :: b :: arcs, h =>
    have hbytes : oid (a :: b :: arcs) = ((40 * a + b) :: arcs).flatMap arc := rfl
    unfold readOid
    rw [hbytes, readArcs_flatMap (length_le_flatMap_arc _)]
    simp only
    obtain ⟨ha, hb⟩ | rfl := h
    · rw [if_pos (by omega)]
      congr 2
      · omega
      · congr 1
        omega
    · rw [if_neg (by omega)]
      congr 2
      congr 1
      omega

/-! ## Integers and bit strings -/

/-- The contents of a natural number: a byte of zero in front keeps the sign bit clear. -/
def natural (n : ℕ) : List UInt8 := if bitLen n = 8 * byteLen n then 0 :: bytes n else bytes n

lemma length_natural_le {n k : ℕ} (h : n < 256 ^ k) : (natural n).length ≤ k + 1 := by
  have hlen := byteLen_le.2 h
  unfold natural
  split
  · simp only [List.length_cons, length_bytes]
    omega
  · rw [length_bytes]
    omega

/-- The contents of an integer, in two's complement. -/
def integer : ℤ → List UInt8
  | .ofNat n => natural n
  | .negSucc n =>
    let k := bitLen n / 8 + 1
    fillBytes k (256 ^ k - (n + 1))

/-- An integer of at most eight bytes in the shortest form, in two's complement. -/
def readInteger (body : List UInt8) : Option ℤ :=
  match body with
  | [] => none
  | b :: s =>
    if 8 < body.length ∨ b = 0 ∧ (∃ c ∈ s.head?, c.toNat < 128) ∨ b = 255 ∧ (∃ c ∈ s.head?, 128 ≤ c.toNat) then none
    else if b.toNat < 128 then some (ofBytes body)
    else some (ofBytes body - 256 ^ body.length)

/-- An integer of any length in the shortest form. -/
def readBigInteger (body : List UInt8) : Option ℤ :=
  match body with
  | [] => none
  | b :: s =>
    if b = 0 ∧ (∃ c ∈ s.head?, c.toNat < 128) ∨ b = 255 ∧ (∃ c ∈ s.head?, 128 ≤ c.toNat) then none
    else if b.toNat < 128 then some (ofBytes body)
    else some (ofBytes body - 256 ^ body.length)

lemma integer_small {v : ℕ} (h : v < 128) : integer v = [UInt8.ofNat v] := by
  show natural v = _
  interval_cases v <;> rfl

lemma readInteger_small {v : ℕ} (h : v < 128) : readInteger [UInt8.ofNat v] = some (v : ℤ) := by
  have hv : (UInt8.ofNat v).toNat = v := by
    rw [UInt8.toNat_ofNat']
    omega
  simp [readInteger, ofBytes, hv, h]

/-- The bits of a bit string, the last byte filled up with zeros. -/
structure BitString where
  bytes : List UInt8
  bitLength : ℕ

/-- The contents of a bit string of whole bytes. -/
def bits (bs : List UInt8) : List UInt8 := 0 :: bs

def readBits : List UInt8 → Option BitString
  | [] => none
  | padding :: bs =>
    if 7 < padding.toNat ∨ bs = [] ∧ padding ≠ 0 ∨ (∃ b ∈ bs.getLast?, b.toNat % 2 ^ padding.toNat ≠ 0) then none
    else some ⟨bs, 8 * bs.length - padding.toNat⟩

lemma readBits_bits (bs : List UInt8) : readBits (bits bs) = some ⟨bs, 8 * bs.length⟩ := by
  have hzero : (0 : UInt8).toNat = 0 := rfl
  simp [bits, readBits, hzero, Nat.mod_one]

end Signatory.Lib.Der
