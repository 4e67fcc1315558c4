import Mathlib.Data.Nat.Bitwise
import Signatory.Lib.Ascii
import Signatory.Lib.Bounds
import Signatory.Lib.Decimal
import Signatory.Lib.Split
import Signatory.Vault.Ledger.App

/-!
# `pkg/vault/ledger/tezosapp`: derivation types and paths

The index of a component and its hardened flag share a word of 32 bits, and `ParseBIP32` accepts every index that fits
the word, whether it leaves room for the flag or not.  An empty component is beyond the bounds of its own text.
-/

namespace Signatory.Vault.Ledger.Tezosapp

open Lib Lib.Ascii Lib.Bounds
open Signer (Bytes)

/-! ## Derivation types -/

def DerivationType.String (d : DerivationType) : Signer.Bytes :=
  if d = DerivationED25519 then ascii "ed25519"
  else if d = DerivationSECP256K1 then ascii "secp256k1"
  else if d = DerivationSECP256R1 then ascii "P-256"
  else if d = DerivationBIP32ED25519 then ascii "bip32-ed25519"
  else ascii "(" ++ Decimal.format d.toNat ++ ascii ")"

/-- `DerivationTypeFromString`; the error has the text. -/
def DerivationTypeFromString (lowerRunes : Bytes → Bytes) (str : Bytes) : Option DerivationType :=
  let s := toLower lowerRunes str
  if s = ascii "ed25519" then some DerivationED25519
  else if s = ascii "secp256k1" then some DerivationSECP256K1
  else if s = ascii "p-256" ∨ s = ascii "secp256r1" then some DerivationSECP256R1
  else if s = ascii "bip25519" ∨ s = ascii "bip32-ed25519" then some DerivationBIP32ED25519
  else none

/-- One of the four types that have a name. -/
def DerivationType.Named (d : DerivationType) : Prop :=
  d = DerivationED25519 ∨ d = DerivationSECP256K1 ∨ d = DerivationSECP256R1 ∨ d = DerivationBIP32ED25519

lemma named_of_fromString {lowerRunes : Bytes → Bytes} {str : Bytes} {d : DerivationType}
    (h : DerivationTypeFromString lowerRunes str = some d) : DerivationType.Named d := by
  unfold DerivationTypeFromString at h
  dsimp only at h
  split_ifs at h
  · exact Or.inl (Option.some.inj h).symm
  · exact Or.inr (Or.inl (Option.some.inj h).symm)
  · exact Or.inr (Or.inr (Or.inl (Option.some.inj h).symm))
  · exact Or.inr (Or.inr (Or.inr (Option.some.inj h).symm))

/-- **A name is read as its type**, whatever is done to other texts. -/
lemma fromString_String (lowerRunes : Bytes → Bytes) {d : DerivationType} (h : DerivationType.Named d) :
    DerivationTypeFromString lowerRunes (DerivationType.String d) = some d := by
  rcases h with rfl | rfl | rfl | rfl <;> rfl

/-! ## Paths as text -/

def slash : UInt8 := 0x2f

def quote : UInt8 := 0x27

def BIP32H : UInt32 := 0x80000000

def TezosBIP32Root : BIP32 := [44 ||| BIP32H, 1729 ||| BIP32H]

/-- One component. -/
def componentString (p : UInt32) : Bytes :=
  if p &&& BIP32H ≠ 0 then Decimal.format (p &&& ~~~BIP32H).toNat ++ [quote] else Decimal.format p.toNat

def BIP32.String (b : BIP32) : Signer.Bytes :=
  b.foldl (fun res p => (if res.length ≠ 0 then res ++ [slash] else res) ++ componentString p) []

/-- The greatest `uint32`. -/
def maxUint32 : ℕ := 2 ^ 32 - 1

/-- A component without its marker, and whether it has one. -/
def unmarked (p : Bytes) (last : UInt8) : Bytes × Bool :=
  if last = quote ∨ last = 0x68 then (p.dropLast, true) else (p, false)

/-- One turn of the loop of `ParseBIP32`. -/
def parseComponent (p : Bytes) : Except Panic (Option UInt32) := do
  let last ← index p (p.length - 1)
  let (p, hardened) := unmarked p last
  pure ((Decimal.parse maxUint32 p).map fun v => UInt32.ofNat v ||| if hardened then BIP32H else 0)

/-- The loop; `nil` is returned at the first component that is no number. -/
def parseComponents : List Bytes → Except Panic (Option BIP32)
  | [] => .ok (some [])
  | p :: parts => do
    match ← parseComponent p with
    | none => pure none
    | some v => do
      let rest ← parseComponents parts
      pure (rest.map fun path => v :: path)

def ParseBIP32 (src : Bytes) : Except Panic (Option BIP32) :=
  match Split.split slash src with
  | [] => .ok none
  | part :: parts => parseComponents (if part = ascii "m" then parts else part :: parts)

/-! ## What is written -/

/-- The components of a path, without a leading `m`. -/
def components (src : Bytes) : List Bytes :=
  match Split.split slash src with
  | [] => []
  | part :: parts => if part = ascii "m" then parts else part :: parts

lemma ParseBIP32_eq (src : Bytes) : ParseBIP32 src = parseComponents (components src) := by
  obtain ⟨part, parts, hsplit⟩ := List.exists_cons_of_ne_nil (Split.split_ne_nil slash src)
  rw [ParseBIP32, components, hsplit]

/-- The index and the marker of a component, as they are written. -/
def written (p : Bytes) : Option (ℕ × Bool) := do
  let last ← p.getLast?
  let (p, hardened) := unmarked p last
  let v ← Decimal.parse maxUint32 p
  pure (v, hardened)

lemma written_le {p : Bytes} {c : ℕ × Bool} (h : written p = some c) : c.1 ≤ maxUint32 := by
  unfold written at h
  obtain ⟨last, -, h⟩ := Option.bind_eq_some_iff.1 h
  obtain ⟨v, hv, h⟩ := Option.bind_eq_some_iff.1 h
  obtain rfl := Option.some.inj h
  exact Decimal.parse_le hv

lemma mapM_written_le {parts : List Bytes} {cs : List (ℕ × Bool)} (h : parts.mapM written = some cs) :
    ∀ c ∈ cs, c.1 ≤ maxUint32 := by
  induction parts generalizing cs with
  | nil =>
    obtain rfl := Option.some.inj h
    nofun
  | cons p parts ih =>
    rw [List.mapM_cons] at h
    obtain ⟨c, hc, h⟩ := Option.bind_eq_some_iff.1 h
    obtain ⟨ds, hds, h⟩ := Option.bind_eq_some_iff.1 h
    obtain rfl := Option.some.inj h
    exact List.forall_mem_cons.2 ⟨written_le hc, ih hds⟩

/-- The word that they are stored in. -/
def word (c : ℕ × Bool) : UInt32 := UInt32.ofNat c.1 ||| if c.2 then BIP32H else 0

lemma parseComponent_eq {p : Bytes} (h : p ≠ []) : parseComponent p = .ok ((written p).map word) := by
  obtain rfl | ⟨front, last, rfl⟩ := p.eq_nil_or_concat'
  · exact absurd rfl h
  · rw [parseComponent, index_last, written, List.getLast?_concat]
    dsimp only [bind, Except.bind, Option.bind]
    obtain ⟨p, hardened⟩ := unmarked (front ++ [last]) last
    dsimp only
    cases Decimal.parse maxUint32 p with
    | none => rfl
    | some v => rfl

/-- The first component that is not a number, with or without a marker, is empty. -/
def StopsAtEmpty (parts : List Bytes) : Prop :=
  ∃ before after, parts = before ++ [] :: after ∧ ∀ p ∈ before, written p ≠ none

lemma not_stopsAtEmpty_nil : ¬ StopsAtEmpty [] := by
  rintro ⟨before, after, h, -⟩
  simp at h

lemma stopsAtEmpty_cons {p : Bytes} (hp : p ≠ []) (parts : List Bytes) :
    StopsAtEmpty (p :: parts) ↔ written p ≠ none ∧ StopsAtEmpty parts := by
  constructor
  · rintro ⟨before, after, h, hread⟩
    cases before with
    | nil =>
      rw [List.nil_append, List.cons.injEq] at h
      exact absurd h.1 hp
    | cons q before =>
      rw [List.cons_append, List.cons.injEq] at h
      obtain ⟨rfl, rfl⟩ := h
      exact ⟨hread p List.mem_cons_self, before, after, rfl, fun q hq => hread q (List.mem_cons_of_mem _ hq)⟩
  · rintro ⟨hfirst, before, after, rfl, hread⟩
    exact ⟨p :: before, after, rfl, List.forall_mem_cons.2 ⟨hfirst, hread⟩⟩

/-- **When a path is parsed**: there is a panic at the first empty component, unless `nil` was returned before it. -/
lemma parseComponents_cases (parts : List Bytes) :
    (StopsAtEmpty parts ∧ parseComponents parts = .error .index) ∨
      (¬ StopsAtEmpty parts ∧ parseComponents parts = .ok ((parts.mapM written).map fun cs => cs.map word)) := by
  induction parts with
  | nil => exact Or.inr ⟨not_stopsAtEmpty_nil, rfl⟩
  | cons p parts ih =>
    by_cases hp : p = []
    · subst hp
      exact Or.inl ⟨⟨[], parts, rfl, by simp⟩, rfl⟩
    · rw [stopsAtEmpty_cons hp, parseComponents, parseComponent_eq hp, List.mapM_cons]
      cases hwritten : written p with
      | none => exact Or.inr ⟨fun h => h.1 rfl, rfl⟩
      | some c =>
        rcases ih with ⟨hstops, hparse⟩ | ⟨hstops, hparse⟩
        · refine Or.inl ⟨⟨by simp, hstops⟩, ?_⟩
          show (parseComponents parts >>= _) = _
          rw [hparse]
          rfl
        · refine Or.inr ⟨fun h => hstops h.2, ?_⟩
          show (parseComponents parts >>= _) = _
          rw [hparse]
          cases parts.mapM written with
          | none => rfl
          | some cs => rfl

/-- **Paths as they are read.** -/
lemma ParseBIP32_cases (src : Bytes) :
    (StopsAtEmpty (components src) ∧ ParseBIP32 src = .error .index) ∨
      (¬ StopsAtEmpty (components src) ∧
        ParseBIP32 src = .ok (((components src).mapM written).map fun cs => cs.map word)) := by
  rw [ParseBIP32_eq]
  exact parseComponents_cases _

/-! ## Words -/

/-- The index and the marker that a word is printed with. -/
def unword (p : UInt32) : ℕ × Bool := ((p &&& ~~~BIP32H).toNat, decide (p &&& BIP32H ≠ 0))

lemma toNat_unhardened (p : UInt32) : (p &&& ~~~BIP32H).toNat = p.toNat % 2 ^ 31 := by
  have hmask : (~~~BIP32H).toNat = 2 ^ 31 - 1 := rfl
  rw [UInt32.toNat_and, hmask, Nat.and_two_pow_sub_one_eq_mod]

lemma hardened_iff (p : UInt32) : p &&& BIP32H ≠ 0 ↔ 2 ^ 31 ≤ p.toNat := by
  have hflag : BIP32H.toNat = 2 ^ 31 := rfl
  have hbit : p.toNat.testBit 31 = decide (2 ^ 31 ≤ p.toNat) := by
    have hlt := p.toNat_lt
    rw [Nat.testBit_eq_decide_div_mod_eq, decide_eq_decide]
    omega
  rw [Ne, ← UInt32.toNat_inj, UInt32.toNat_and, hflag, Nat.and_two_pow, hbit]
  simp

lemma toNat_word {c : ℕ × Bool} (h : c.1 < 2 ^ 31) : (word c).toNat = c.1 + if c.2 then 2 ^ 31 else 0 := by
  obtain ⟨v, marker⟩ := c
  have hv : (UInt32.ofNat v).toNat = v := by
    rw [UInt32.toNat_ofNat']
    omega
  cases marker with
  | false =>
    show (UInt32.ofNat v ||| 0).toNat = v
    rw [UInt32.or_zero, hv]
  | true =>
    have hflag : BIP32H.toNat = 2 ^ 31 * 1 := rfl
    show (UInt32.ofNat v ||| BIP32H).toNat = v + 2 ^ 31
    rw [UInt32.toNat_or, hv, hflag, Nat.or_comm, ← Nat.two_pow_add_eq_or_of_lt h]
    omega

/-- An index that takes the bit of the flag is its own word, with or without a marker. -/
lemma toNat_word_of_le {c : ℕ × Bool} (h : 2 ^ 31 ≤ c.1) (hmax : c.1 ≤ maxUint32) : (word c).toNat = c.1 := by
  obtain ⟨v, marker⟩ := c
  dsimp only [maxUint32] at h hmax
  have hv : (UInt32.ofNat v).toNat = v := by
    rw [UInt32.toNat_ofNat']
    omega
  cases marker with
  | false =>
    show (UInt32.ofNat v ||| 0).toNat = v
    rw [UInt32.or_zero, hv]
  | true =>
    have hflag : BIP32H.toNat = 2 ^ 31 * 1 := rfl
    have hsplit : v = 2 ^ 31 * 1 ||| (v - 2 ^ 31) := by
      rw [← Nat.two_pow_add_eq_or_of_lt (by omega)]
      omega
    show (UInt32.ofNat v ||| BIP32H).toNat = v
    rw [UInt32.toNat_or, hv, hflag, Nat.or_comm, hsplit, ← Nat.or_assoc, Nat.or_self]

lemma eq_of_word_eq {c d : ℕ × Bool} (hc : c.1 ≤ maxUint32) (hd : d.1 ≤ maxUint32) (hword : word c = word d)
    (hflag : 2 ^ 31 ≤ c.1 ↔ 2 ^ 31 ≤ d.1) (hmarker : c.2 = d.2) : c = d := by
  have hnat : (word c).toNat = (word d).toNat := congrArg UInt32.toNat hword
  refine Prod.ext ?_ hmarker
  by_cases h : 2 ^ 31 ≤ c.1
  · rwa [toNat_word_of_le h hc, toNat_word_of_le (hflag.1 h) hd] at hnat
  · rw [toNat_word (by omega), toNat_word (by omega), hmarker] at hnat
    omega

lemma unword_lt (p : UInt32) : (unword p).1 < 2 ^ 31 := by
  rw [unword, toNat_unhardened]
  exact Nat.mod_lt _ (by decide)

lemma unword_snd (p : UInt32) : (unword p).2 = decide (2 ^ 31 ≤ p.toNat) := decide_eq_decide.2 (hardened_iff p)

lemma word_unword (p : UInt32) : word (unword p) = p := by
  have hlt := p.toNat_lt
  rw [← UInt32.toNat_inj, toNat_word (unword_lt p), unword_snd, unword, toNat_unhardened]
  simp only [decide_eq_true_eq]
  split <;> omega

/-- **Nothing is lost of an index that leaves room for the flag.** -/
lemma unword_word {c : ℕ × Bool} (h : c.1 < 2 ^ 31) : unword (word c) = c := by
  have hword := toNat_word h
  obtain ⟨v, marker⟩ := c
  dsimp only at h hword
  refine Prod.ext ?_ ?_
  · show (word (v, marker) &&& ~~~BIP32H).toNat = v
    rw [toNat_unhardened, hword]
    split <;> omega
  · rw [unword_snd, hword]
    cases marker with
    | false => exact decide_eq_false (by simpa using h)
    | true => exact decide_eq_true (by simp)

/-! ## Paths that are printed -/

lemma mem_componentString {p : UInt32} {c : UInt8} (h : c ∈ componentString p) : Decimal.IsDigit c ∨ c = quote := by
  unfold componentString at h
  split at h
  · rcases List.mem_append.1 h with h | h
    · exact Or.inl (Decimal.isDigit_of_mem_format c h)
    · exact Or.inr (List.mem_singleton.1 h)
  · exact Or.inl (Decimal.isDigit_of_mem_format c h)

lemma componentString_ne_nil (p : UInt32) : componentString p ≠ [] := by
  unfold componentString
  split
  · simp
  · exact Decimal.format_ne_nil _

lemma notMem_componentString {p : UInt32} {c : UInt8} (hdigit : ¬ Decimal.IsDigit c) (hquote : c ≠ quote) :
    c ∉ componentString p :=
  fun h => (mem_componentString h).elim hdigit hquote

lemma written_componentString (p : UInt32) : written (componentString p) = some (unword p) := by
  have hparse (q : UInt32) : Decimal.parse maxUint32 (Decimal.format q.toNat) = some q.toNat :=
    Decimal.parse_format (Nat.le_pred_of_lt q.toNat_lt)
  unfold componentString
  split
  next h =>
    rw [written, List.getLast?_concat]
    show ((Decimal.parse maxUint32 (Decimal.format (p &&& ~~~BIP32H).toNat ++ [quote]).dropLast).bind fun v =>
      some (v, true)) = some (unword p)
    rw [List.dropLast_concat, hparse]
    exact congrArg some (Prod.ext rfl (decide_eq_true h).symm)
  next h =>
    obtain hnil | ⟨front, last, hlast⟩ := (Decimal.format p.toNat).eq_nil_or_concat'
    · exact absurd hnil (Decimal.format_ne_nil _)
    · have hdigit : Decimal.IsDigit last := by
        refine Decimal.isDigit_of_mem_format (n := p.toNat) last ?_
        rw [hlast]
        simp
      have hmarker : ¬ (last = quote ∨ last = 0x68) := by
        rintro (rfl | rfl)
        · exact absurd hdigit (by decide)
        · exact absurd hdigit (by decide)
      have hplain : p.toNat % 2 ^ 31 = p.toNat := by
        rw [hardened_iff] at h
        omega
      rw [written, hlast, List.getLast?_concat]
      dsimp only [Option.bind_eq_bind, Option.bind_some]
      rw [unmarked, if_neg hmarker, ← hlast]
      dsimp only
      rw [hparse]
      refine congrArg some (Prod.ext ?_ (decide_eq_false h).symm)
      show p.toNat = (p &&& ~~~BIP32H).toNat
      rw [toNat_unhardened, hplain]

lemma String_concat (b : BIP32) (p : UInt32) :
    BIP32.String (b ++ [p]) =
      (if (BIP32.String b).length ≠ 0 then BIP32.String b ++ [slash] else BIP32.String b) ++ componentString p := by
  rw [BIP32.String, List.foldl_append]
  rfl

lemma String_ne_nil {b : BIP32} (h : b ≠ []) : BIP32.String b ≠ [] := by
  obtain rfl | ⟨front, last, rfl⟩ := b.eq_nil_or_concat'
  · exact absurd rfl h
  · rw [String_concat]
    exact List.append_ne_nil_of_right_ne_nil _ (componentString_ne_nil last)

/-- The components of what is printed; the separators are written by the components after the first one. -/
lemma split_String {b : BIP32} (h : b ≠ []) : Split.split slash (BIP32.String b) = b.map componentString := by
  have hslash (p : UInt32) : Split.split slash (componentString p) = [componentString p] :=
    Split.split_of_notMem _ (notMem_componentString (by decide) (by decide))
  induction b using List.reverseRecOn with
  | nil => exact absurd rfl h
  | append_singleton b p ih =>
    rw [String_concat]
    by_cases hb : b = []
    · subst hb
      exact hslash p
    · have hlength : (BIP32.String b).length ≠ 0 := fun h => String_ne_nil hb (List.length_eq_zero_iff.1 h)
      rw [if_pos hlength, List.append_assoc, List.singleton_append, Split.split_append, ih hb, hslash]
      simp

lemma components_String {b : BIP32} (h : b ≠ []) : components (BIP32.String b) = b.map componentString := by
  obtain ⟨p, b, rfl⟩ := List.exists_cons_of_ne_nil h
  have hm : componentString p ≠ ascii "m" := by
    intro hm
    have hmem : (0x6d : UInt8) ∈ componentString p := by
      rw [hm]
      decide
    exact notMem_componentString (by decide) (by decide) hmem
  rw [components, split_String h, List.map_cons]
  exact if_neg hm

lemma mapM_written_String (b : BIP32) : (b.map componentString).mapM written = some (b.map unword) := by
  induction b with
  | nil => rfl
  | cons p b ih =>
    rw [List.map_cons, List.mapM_cons, written_componentString, ih]
    rfl

/-- **What is printed is read back**, but for the empty path. -/
lemma ParseBIP32_String {b : BIP32} (h : b ≠ []) : ParseBIP32 (BIP32.String b) = .ok (some b) := by
  have hwords : (b.map unword).map word = b := by
    rw [List.map_map]
    exact List.map_id'' word_unword b
  rcases ParseBIP32_cases (BIP32.String b) with ⟨⟨before, after, hparts, -⟩, -⟩ | ⟨-, hparse⟩
  · have hmem : [] ∈ b.map componentString := by
      rw [← components_String h, hparts]
      simp
    obtain ⟨p, -, hp⟩ := List.mem_map.1 hmem
    exact absurd hp (componentString_ne_nil p)
  · rw [hparse, components_String h, mapM_written_String, Option.map_some, hwords]

end Signatory.Vault.Ledger.Tezosapp
