import Mathlib.Tactic

/-!
# Base64

Bytes as characters of an alphabet of 64, three bytes as four characters, with or without the padding at the end
(RFC 4648).  The decoder ignores line ends and the bits that are left over.  What was encoded is decoded again:
`decode_encode`.
-/

namespace Signatory.Lib.Base64

/-- The character of the padding. -/
def pad : UInt8 := 0x3d

def isLineEnd (c : UInt8) : Bool := c = 0x0a || c = 0x0d

structure Encoding where
  alphabet : List UInt8
  padded : Bool

/-- The alphabet can be told from the padding and from line ends. -/
structure Encoding.Lawful (e : Encoding) : Prop where
  length : e.alphabet.length = 64
  nodup : e.alphabet.Nodup
  pad_notMem : pad ∉ e.alphabet
  lineEnd : ∀ c ∈ e.alphabet, isLineEnd c = false

/-- The characters `A` to `Z`, `a` to `z` and `0` to `9`. -/
def alphanumeric : List UInt8 :=
  [65, 66, 67, 68, 69, 70, 71, 72, 73, 74, 75, 76, 77, 78, 79, 80, 81, 82, 83, 84, 85, 86, 87, 88, 89, 90,
    97, 98, 99, 100, 101, 102, 103, 104, 105, 106, 107, 108, 109, 110, 111, 112, 113, 114, 115, 116, 117, 118, 119,
    120, 121, 122, 48, 49, 50, 51, 52, 53, 54, 55, 56, 57]

/-- With `+` and `/`, and padding. -/
def StdEncoding : Encoding := ⟨alphanumeric ++ [0x2b, 0x2f], true⟩

/-- With `-` and `_`, and no padding. -/
def RawURLEncoding : Encoding := ⟨alphanumeric ++ [0x2d, 0x5f], false⟩

namespace Encoding

variable (e : Encoding)

def char (v : ℕ) : UInt8 := e.alphabet.getD v 0

def value (c : UInt8) : Option ℕ := if c ∈ e.alphabet then some (e.alphabet.idxOf c) else none

def padding (n : ℕ) : List UInt8 := if e.padded then List.replicate n pad else []

/-- The four groups of six bits in three bytes. -/
def sextets (a b c : UInt8) : List ℕ :=
  let n := a.toNat * 2 ^ 16 + b.toNat * 2 ^ 8 + c.toNat
  [n / 2 ^ 18 % 64, n / 2 ^ 12 % 64, n / 2 ^ 6 % 64, n % 64]

def encode : List UInt8 → List UInt8
  | [] => []
  | [a] => ((sextets a 0 0).take 2).map e.char ++ e.padding 2
  | [a, b] => ((sextets a b 0).take 3).map e.char ++ e.padding 1
  | a :: b :: c :: s => (sextets a b c).map e.char ++ encode s

/-- The values of two, three or four characters. -/
def quantum (cs : List UInt8) : Option ℕ := do
  let vs ← cs.mapM e.value
  pure ((vs ++ List.replicate (4 - vs.length) 0).foldl (fun n v => n * 64 + v) 0)

/-- The first `len` of the three bytes of a quantum. -/
def quantumBytes (len n : ℕ) : List UInt8 :=
  [UInt8.ofNat (n / 2 ^ 16), UInt8.ofNat (n / 2 ^ 8), UInt8.ofNat n].take len

def decodeQuanta : List UInt8 → Option (List UInt8)
  | [] => some []
  | [_] => none
  | [a, b] => if e.padded then none else (e.quantum [a, b]).map (quantumBytes 1)
  | [a, b, c] => if e.padded then none else (e.quantum [a, b, c]).map (quantumBytes 2)
  | a :: b :: c :: d :: s =>
    if e.padded ∧ c = pad then if d = pad ∧ s = [] then (e.quantum [a, b]).map (quantumBytes 1) else none
    else if e.padded ∧ d = pad then if s = [] then (e.quantum [a, b, c]).map (quantumBytes 2) else none
    else do
      let n ← e.quantum [a, b, c, d]
      let rest ← decodeQuanta s
      pure (quantumBytes 3 n ++ rest)

def decode (s : List UInt8) : Option (List UInt8) := e.decodeQuanta (s.filter fun c => !isLineEnd c)

end Encoding

lemma stdEncoding_lawful : StdEncoding.Lawful := ⟨by decide, by decide +kernel, by decide, by decide +kernel⟩

lemma rawURLEncoding_lawful : RawURLEncoding.Lawful := ⟨by decide, by decide +kernel, by decide, by decide +kernel⟩

namespace Encoding

variable {e : Encoding} (he : e.Lawful)

include he

lemma value_char {v : ℕ} (hv : v < 64) : e.value (e.char v) = some v := by
  have hlen : v < e.alphabet.length := by
    rw [he.length]
    exact hv
  have hchar : e.char v = e.alphabet[v] := by
    simp [char, List.getD_eq_getElem?_getD, hlen]
  rw [value, hchar, if_pos (List.getElem_mem hlen), he.nodup.idxOf_getElem v hlen]

lemma char_mem {v : ℕ} (hv : v < 64) : e.char v ∈ e.alphabet := by
  have hlen : v < e.alphabet.length := by
    rw [he.length]
    exact hv
  simp [char, List.getD_eq_getElem?_getD, hlen]

lemma char_ne_pad {v : ℕ} (hv : v < 64) : e.char v ≠ pad := fun h => he.pad_notMem (h ▸ char_mem he hv)

omit he in
lemma sextets_lt {a b c : UInt8} : ∀ v ∈ sextets a b c, v < 64 := by
  intro v hv
  simp only [sextets, List.mem_cons, List.not_mem_nil, or_false] at hv
  omega

lemma mem_encode (s : List UInt8) : ∀ c ∈ e.encode s, c ∈ e.alphabet ∨ c = pad := by
  have hpadding : ∀ n, ∀ c ∈ e.padding n, c ∈ e.alphabet ∨ c = pad := by
    intro n c hc
    unfold padding at hc
    split at hc
    · exact Or.inr (List.eq_of_mem_replicate hc)
    · simp at hc
  have hchars : ∀ vs : List ℕ, (∀ v ∈ vs, v < 64) → ∀ c ∈ vs.map e.char, c ∈ e.alphabet ∨ c = pad := by
    intro vs hvs c hc
    obtain ⟨v, hv, rfl⟩ := List.mem_map.1 hc
    exact Or.inl (char_mem he (hvs v hv))
  intro c hc
  fun_induction e.encode s with
  | case1 => simp at hc
  | case2 a =>
    rcases List.mem_append.1 hc with hc | hc
    · exact hchars _ (fun v hv => sextets_lt v (List.mem_of_mem_take hv)) c hc
    · exact hpadding 2 c hc
  | case3 a b =>
    rcases List.mem_append.1 hc with hc | hc
    · exact hchars _ (fun v hv => sextets_lt v (List.mem_of_mem_take hv)) c hc
    · exact hpadding 1 c hc
  | case4 a b d s ih =>
    rcases List.mem_append.1 hc with hc | hc
    · exact hchars _ sextets_lt c hc
    · exact ih hc

lemma encode_lineEnd (s : List UInt8) : ∀ c ∈ e.encode s, isLineEnd c = false := by
  intro c hc
  rcases mem_encode he s c hc with hc | rfl
  · exact he.lineEnd c hc
  · rfl

lemma quantum_chars {vs : List ℕ} (hvs : ∀ v ∈ vs, v < 64) :
    e.quantum (vs.map e.char) =
      some ((vs ++ List.replicate (4 - vs.length) 0).foldl (fun n v => n * 64 + v) 0) := by
  have hmap : (vs.map e.char).mapM e.value = some vs := by
    induction vs with
    | nil => rfl
    | cons v vs ih =>
      rw [List.map_cons, List.mapM_cons, value_char he (hvs v List.mem_cons_self),
        ih fun w hw => hvs w (List.mem_cons_of_mem v hw)]
      rfl
  rw [quantum, hmap]
  rfl

omit he in
lemma ofNat_eq {a : UInt8} {n : ℕ} (h : n % 256 = a.toNat) : UInt8.ofNat n = a := by
  apply UInt8.toNat_inj.1
  rw [UInt8.toNat_ofNat']
  exact h

omit he in
lemma foldl_sixBits {n : ℕ} (hn : n < 2 ^ 24) :
    [n / 2 ^ 18 % 64, n / 2 ^ 12 % 64, n / 2 ^ 6 % 64, n % 64].foldl (fun n v => n * 64 + v) 0 = n := by
  simp only [List.foldl_cons, List.foldl_nil]
  omega

omit he in
lemma foldl_sextets (a b c : UInt8) : (sextets a b c).foldl (fun n v => n * 64 + v) 0 =
    a.toNat * 2 ^ 16 + b.toNat * 2 ^ 8 + c.toNat := by
  have ha := a.toNat_lt
  have hb := b.toNat_lt
  have hc := c.toNat_lt
  have hn : a.toNat * 2 ^ 16 + b.toNat * 2 ^ 8 + c.toNat < 2 ^ 24 := by omega
  exact foldl_sixBits hn

omit he in
/-- The sextets that are not written are zero. -/
lemma take_sextets (a b c : UInt8) (k : ℕ) (hk : k = 1 ∧ b = 0 ∧ c = 0 ∨ k = 2 ∧ c = 0 ∨ k = 3) :
    (sextets a b c).take (k + 1) ++ List.replicate (4 - ((sextets a b c).take (k + 1)).length) 0 = sextets a b c := by
  have hzero : (0 : UInt8).toNat = 0 := rfl
  rcases hk with ⟨rfl, rfl, rfl⟩ | ⟨rfl, rfl⟩ | rfl
  · have hthird : (a.toNat * 2 ^ 16 + 0 * 2 ^ 8 + 0) / 2 ^ 6 % 64 = 0 := by omega
    have hfourth : (a.toNat * 2 ^ 16 + 0 * 2 ^ 8 + 0) % 64 = 0 := by omega
    unfold sextets
    rw [hzero]
    simp only [hthird, hfourth]
    rfl
  · have hfourth : (a.toNat * 2 ^ 16 + b.toNat * 2 ^ 8 + 0) % 64 = 0 := by omega
    unfold sextets
    rw [hzero]
    simp only [hfourth]
    rfl
  · rfl

omit he in
lemma quantumBytes_eq (a b c : UInt8) (k : ℕ) :
    quantumBytes k (a.toNat * 2 ^ 16 + b.toNat * 2 ^ 8 + c.toNat) = [a, b, c].take k := by
  have ha := a.toNat_lt
  have hb := b.toNat_lt
  have hc := c.toNat_lt
  have hfirst : UInt8.ofNat ((a.toNat * 2 ^ 16 + b.toNat * 2 ^ 8 + c.toNat) / 2 ^ 16) = a := ofNat_eq (by omega)
  have hsecond : UInt8.ofNat ((a.toNat * 2 ^ 16 + b.toNat * 2 ^ 8 + c.toNat) / 2 ^ 8) = b := ofNat_eq (by omega)
  have hthird : UInt8.ofNat (a.toNat * 2 ^ 16 + b.toNat * 2 ^ 8 + c.toNat) = c := ofNat_eq (by omega)
  rw [quantumBytes, hfirst, hsecond, hthird]

/-- The bytes of a quantum are the first of the three. -/
lemma quantum_sextets (a b c : UInt8) (k : ℕ) (hk : k = 1 ∧ b = 0 ∧ c = 0 ∨ k = 2 ∧ c = 0 ∨ k = 3) :
    (e.quantum (((sextets a b c).take (k + 1)).map e.char)).map (quantumBytes k) = some ([a, b, c].take k) := by
  rw [quantum_chars he fun v hv => sextets_lt v (List.mem_of_mem_take hv), take_sextets a b c k hk, foldl_sextets,
    Option.map_some, quantumBytes_eq]

lemma decodeQuanta_encode (s : List UInt8) : e.decodeQuanta (e.encode s) = some s := by
  have hpad : ∀ {a b c : UInt8} {v}, v ∈ sextets a b c → e.char v ≠ pad := fun hv => char_ne_pad he (sextets_lt _ hv)
  fun_induction e.encode s with
  | case1 => rfl
  | case2 a =>
    have hq := quantum_sextets he a 0 0 1 (Or.inl ⟨rfl, rfl, rfl⟩)
    simp only [sextets, List.take, List.map] at hq ⊢
    unfold padding
    split
    case isTrue hp => simpa [decodeQuanta, hp] using hq
    case isFalse hp => simpa [decodeQuanta, hp] using hq
  | case3 a b =>
    have hq := quantum_sextets he a b 0 2 (Or.inr (Or.inl ⟨rfl, rfl⟩))
    have hc := hpad (a := a) (b := b) (c := 0) (List.mem_cons_of_mem _ (List.mem_cons_of_mem _ List.mem_cons_self))
    simp only [sextets, List.take, List.map] at hq hc ⊢
    unfold padding
    split
    case isTrue hp =>
      simp only [List.replicate, List.cons_append, List.nil_append, decodeQuanta, hc, and_false, if_false, hp, and_self,
        if_true]
      exact hq
    case isFalse hp => simpa [decodeQuanta, hp] using hq
  | case4 a b d s ih =>
    have hq := quantum_sextets he a b d 3 (Or.inr (Or.inr rfl))
    have hc := hpad (a := a) (b := b) (c := d) (List.mem_cons_of_mem _ (List.mem_cons_of_mem _ List.mem_cons_self))
    have hd := hpad (a := a) (b := b) (c := d)
      (List.mem_cons_of_mem _ (List.mem_cons_of_mem _ (List.mem_cons_of_mem _ List.mem_cons_self)))
    obtain ⟨n, hn, hbytes⟩ := Option.map_eq_some_iff.1 hq
    simp only [sextets, List.take, List.map] at hn hc hd ⊢
    simp only [List.cons_append, List.nil_append, decodeQuanta, hc, hd, and_false, if_false, hn, ih,
      Option.bind_eq_bind, Option.bind_some, Option.pure_def, hbytes]
    rfl

/-- **What was encoded is decoded again**, also with line ends in between. -/
theorem decode_of_filter {s t : List UInt8} (ht : t.filter (fun c => !isLineEnd c) = e.encode s) :
    e.decode t = some s := by
  rw [decode, ht, decodeQuanta_encode he]

theorem decode_encode (s : List UInt8) : e.decode (e.encode s) = some s := by
  refine decode_of_filter he (List.filter_eq_self.2 fun c hc => ?_)
  rw [encode_lineEnd he s c hc]
  rfl

end Encoding

end Signatory.Lib.Base64
