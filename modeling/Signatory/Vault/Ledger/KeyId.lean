import Signatory.Vault.Ledger.Bip32

/-!
# `pkg/vault/ledger`: key ids

A key of a device is named by a derivation type and a path below `44'/1729'`.  `parseKeyID_total` says which texts end
the program, and `parseKeyID_canonical` which of them name a key by another index than its own.
-/

namespace Signatory.Vault.Ledger

open Lib Lib.Ascii Lib.Bounds Tezosapp
open Signer (Bytes)

structure KeyID where
  path : BIP32
  dt : DerivationType
  deriving DecidableEq

inductive KeyIDError where
  | keyID (s : Bytes)
  | derivation (str : Bytes)
  | path (p : Bytes)
  | notHardened
  | root
  deriving DecidableEq

def KeyIDError.text : KeyIDError → Bytes
  | .keyID s => ascii "error parsing key id: " ++ s
  | .derivation str => ascii "unknown key derivation type: " ++ str
  | .path p => ascii "error parsing key path: " ++ p
  | .notHardened => ascii "only hardened derivation is supported"
  | .root => ascii "root key isn't allowed to use"

/-- The end of `parseKeyID`. -/
def keyIDOf (dt : DerivationType) (path : BIP32) : Except KeyIDError KeyID :=
  if ∃ p ∈ path, p &&& BIP32H = 0 then .error .notHardened
  else
    let path :=
      if path.length < 2 ∨ path[0]? ≠ TezosBIP32Root[0]? ∨ path[1]? ≠ TezosBIP32Root[1]? then TezosBIP32Root ++ path
      else path
    if path.length = 2 then .error .root else .ok { dt := dt, path := path }

def parseKeyID (lowerRunes : Bytes → Bytes) (s : Bytes) : Except Panic (Except KeyIDError KeyID) :=
  match Split.splitFirst slash s with
  | none => .ok (.error (.keyID s))
  | some (name, rest) =>
    match DerivationTypeFromString lowerRunes name with
    | none => .ok (.error (.derivation name))
    | some dt => do
      match ← ParseBIP32 rest with
      | none => pure (.error (.path rest))
      | some path => pure (keyIDOf dt path)

def KeyID.String (k : KeyID) : Bytes := DerivationType.String k.dt ++ slash :: BIP32.String k.path

/-! ## What is asked of a key id -/

structure KeyID.WellFormed (k : KeyID) : Prop where
  named : DerivationType.Named k.dt
  root : TezosBIP32Root <+: k.path
  length : 3 ≤ k.path.length
  hardened : ∀ p ∈ k.path, p &&& BIP32H ≠ 0

/-- A derivation type is read, and then an empty component. -/
def ReadsEmpty (lowerRunes : Bytes → Bytes) (s : Bytes) : Prop :=
  ∃ name rest dt, Split.splitFirst slash s = some (name, rest) ∧ DerivationTypeFromString lowerRunes name = some dt ∧
    StopsAtEmpty (components rest)

/-- A path with the root before it, unless it has it. -/
def rooted {α : Type} [DecidableEq α] (root path : List α) : List α := if root <+: path then path else root ++ path

/-- What a text says: the derivation type, and each index with its marker from the root on. -/
def writtenAs (lowerRunes : Bytes → Bytes) (s : Bytes) : Option (DerivationType × List (ℕ × Bool)) := do
  let (name, rest) ← Split.splitFirst slash s
  let dt ← DerivationTypeFromString lowerRunes name
  let cs ← (components rest).mapM written
  pure (dt, rooted [(44, true), (1729, true)] cs)

/-- Every index leaves room for the flag. -/
def Plain (lowerRunes : Bytes → Bytes) (s : Bytes) : Prop :=
  ∀ dt cs, writtenAs lowerRunes s = some (dt, cs) → ∀ c ∈ cs, c.1 < 2 ^ 31

/-- From the root on, whether an index takes the bit of the flag, and its marker. -/
def flagsOf (lowerRunes : Bytes → Bytes) (s : Bytes) : Option (List (Bool × Bool)) :=
  (writtenAs lowerRunes s).map fun w => w.2.map fun c => (decide (2 ^ 31 ≤ c.1), c.2)

/-! ## The root -/

lemma isPrefix_rooted {α : Type} [DecidableEq α] (root path : List α) : root <+: rooted root path := by
  unfold rooted
  split
  next h => exact h
  · exact List.prefix_append _ _

lemma mem_rooted {α : Type} [DecidableEq α] {root path : List α} {a : α} (h : a ∈ rooted root path) :
    a ∈ root ∨ a ∈ path := by
  unfold rooted at h
  split at h
  · exact Or.inr h
  · exact List.mem_append.1 h

lemma mem_rooted_of_mem {α : Type} [DecidableEq α] (root : List α) {path : List α} {a : α} (h : a ∈ path) :
    a ∈ rooted root path := by
  unfold rooted
  split
  · exact h
  · exact List.mem_append_right _ h

lemma map_rooted {α β : Type} [DecidableEq α] [DecidableEq β] {f : α → β} {g : β → α} (h : Function.LeftInverse g f)
    (root path : List α) : rooted (root.map f) (path.map f) = (rooted root path).map f := by
  have hiff : root.map f <+: path.map f ↔ root <+: path := by
    constructor
    · intro hprefix
      have hback := hprefix.map g
      rwa [List.map_map, List.map_map, h.comp_eq_id, List.map_id, List.map_id] at hback
    · intro hprefix
      exact hprefix.map f
  unfold rooted
  by_cases hprefix : root <+: path
  · rw [if_pos hprefix, if_pos (hiff.2 hprefix)]
  · rw [if_neg hprefix, if_neg (mt hiff.1 hprefix), List.map_append]

lemma root_hardened : ∀ p ∈ TezosBIP32Root, p &&& BIP32H ≠ 0 := by
  intro p hp
  rcases List.mem_pair.1 hp with rfl | rfl
  · decide
  · decide

lemma hasRoot_iff (path : BIP32) :
    (path.length < 2 ∨ path[0]? ≠ TezosBIP32Root[0]? ∨ path[1]? ≠ TezosBIP32Root[1]?) ↔
      ¬ TezosBIP32Root <+: path := by
  match path with
  | [] => decide
  | [p] => simp [TezosBIP32Root]
  | p :: q :: rest =>
    have hlength : ¬ (p :: q :: rest).length < 2 := by simp
    have hroot : TezosBIP32Root <+: p :: q :: rest ↔ p = 44 ||| BIP32H ∧ q = 1729 ||| BIP32H := by
      rw [TezosBIP32Root, List.cons_prefix_cons, List.cons_prefix_cons]
      simp [eq_comm]
    rw [hroot, not_and_or]
    simp [TezosBIP32Root]

lemma keyIDOf_ok_iff {dt : DerivationType} {path : BIP32} {k : KeyID} :
    keyIDOf dt path = .ok k ↔
      (∀ p ∈ path, p &&& BIP32H ≠ 0) ∧ (rooted TezosBIP32Root path).length ≠ 2 ∧
        k = { dt := dt, path := rooted TezosBIP32Root path } := by
  have hpath :
      (if path.length < 2 ∨ path[0]? ≠ TezosBIP32Root[0]? ∨ path[1]? ≠ TezosBIP32Root[1]? then TezosBIP32Root ++ path
        else path) = rooted TezosBIP32Root path := by
    rw [rooted, ite_congr (propext (hasRoot_iff path)) (fun _ => rfl) (fun _ => rfl), ite_not]
  unfold keyIDOf
  dsimp only
  rw [hpath]
  split
  next h =>
    obtain ⟨p, hp, hplain⟩ := h
    exact ⟨nofun, fun h => absurd hplain (h.1 p hp)⟩
  next h =>
    have hhardened : ∀ p ∈ path, p &&& BIP32H ≠ 0 := fun p hp hplain => h ⟨p, hp, hplain⟩
    split
    next hroot => exact ⟨nofun, fun h => absurd hroot h.2.1⟩
    next hroot => exact ⟨fun h => ⟨hhardened, hroot, (Except.ok.inj h).symm⟩, fun h => congrArg Except.ok h.2.2.symm⟩

/-! ## Key ids as they are read -/

section Parse

variable {lowerRunes : Bytes → Bytes} {s : Bytes} {k : KeyID}

/-- **When a key id is parsed**: there is a panic at an empty component, and what is returned is what is written. -/
lemma parseKeyID_cases (lowerRunes : Bytes → Bytes) (s : Bytes) :
    (ReadsEmpty lowerRunes s ∧ parseKeyID lowerRunes s = .error .index) ∨
      (¬ ReadsEmpty lowerRunes s ∧ ∃ err, parseKeyID lowerRunes s = .ok (.error err)) ∨
      (¬ ReadsEmpty lowerRunes s ∧ ∃ name rest dt cs, Split.splitFirst slash s = some (name, rest) ∧
        DerivationTypeFromString lowerRunes name = some dt ∧ (components rest).mapM written = some cs ∧
        parseKeyID lowerRunes s = .ok (keyIDOf dt (cs.map word))) := by
  unfold ReadsEmpty parseKeyID
  cases hparts : Split.splitFirst slash s with
  | none => exact Or.inr (Or.inl ⟨by simp, _, rfl⟩)
  | some parts =>
    obtain ⟨name, rest⟩ := parts
    dsimp only
    cases hdt : DerivationTypeFromString lowerRunes name with
    | none => exact Or.inr (Or.inl ⟨by simp [hdt], _, rfl⟩)
    | some dt =>
      dsimp only
      rcases ParseBIP32_cases rest with ⟨hempty, hparse⟩ | ⟨hempty, hparse⟩
      · rw [hparse]
        exact Or.inl ⟨⟨name, rest, dt, rfl, hdt, hempty⟩, rfl⟩
      · have hreads : ¬ ∃ name' rest' dt', some (name, rest) = some (name', rest') ∧
            DerivationTypeFromString lowerRunes name' = some dt' ∧ StopsAtEmpty (components rest') := by
          rintro ⟨name', rest', dt', hsome, -, hstops⟩
          obtain ⟨rfl, rfl⟩ := Prod.mk.inj (Option.some.inj hsome)
          exact hempty hstops
        rw [hparse]
        cases hcs : (components rest).mapM written with
        | none => exact Or.inr (Or.inl ⟨hreads, _, rfl⟩)
        | some cs => exact Or.inr (Or.inr ⟨hreads, name, rest, dt, cs, rfl, hdt, hcs, rfl⟩)

lemma parseKeyID_ok (h : parseKeyID lowerRunes s = .ok (.ok k)) :
    ∃ name rest cs, Split.splitFirst slash s = some (name, rest) ∧
      DerivationTypeFromString lowerRunes name = some k.dt ∧ (components rest).mapM written = some cs ∧
      keyIDOf k.dt (cs.map word) = .ok k := by
  rcases parseKeyID_cases lowerRunes s with ⟨-, hp⟩ | ⟨-, err, hp⟩ | ⟨-, name, rest, dt, cs, hparts, hdt, hcs, hp⟩
  · rw [hp] at h
    cases h
  · rw [hp] at h
    cases h
  · rw [hp] at h
    have hkey := Except.ok.inj h
    obtain rfl : k.dt = dt := congrArg KeyID.dt (keyIDOf_ok_iff.1 hkey).2.2
    exact ⟨name, rest, cs, hparts, hdt, hcs, hkey⟩

lemma wellFormed_of_parseKeyID (h : parseKeyID lowerRunes s = .ok (.ok k)) : k.WellFormed := by
  obtain ⟨name, rest, cs, -, hdt, -, hkey⟩ := parseKeyID_ok h
  obtain ⟨hhardened, hlength, hk⟩ := keyIDOf_ok_iff.1 hkey
  have hpath : k.path = rooted TezosBIP32Root (cs.map word) := congrArg KeyID.path hk
  have hprefix : TezosBIP32Root <+: k.path := hpath ▸ isPrefix_rooted _ _
  refine ⟨named_of_fromString hdt, hprefix, ?_, fun p hp => ?_⟩
  · have hle : 2 ≤ k.path.length := hprefix.length_le
    rw [← hpath] at hlength
    omega
  · rw [hpath] at hp
    rcases mem_rooted hp with hp | hp
    · exact root_hardened p hp
    · exact hhardened p hp

end Parse

/-- **Which texts end the program.**  An empty component does, and a key id that is returned is well formed. -/
theorem parseKeyID_total (lowerRunes : Bytes → Bytes) (s : Bytes) :
    ((∃ path, ParseBIP32 s = .ok path) ↔ ¬ StopsAtEmpty (components s)) ∧
      ((∃ r, parseKeyID lowerRunes s = .ok r) ↔ ¬ ReadsEmpty lowerRunes s) ∧
      ∀ k, parseKeyID lowerRunes s = .ok (.ok k) → k.WellFormed := by
  refine ⟨?_, ?_, fun k => wellFormed_of_parseKeyID⟩
  · rcases ParseBIP32_cases s with ⟨hempty, hparse⟩ | ⟨hempty, hparse⟩
    · rw [hparse]
      exact ⟨nofun, fun h => absurd hempty h⟩
    · exact ⟨fun _ => hempty, fun _ => ⟨_, hparse⟩⟩
  · rcases parseKeyID_cases lowerRunes s with ⟨hempty, hp⟩ | ⟨hempty, err, hp⟩ | ⟨hempty, _, _, dt, cs, -, -, -, hp⟩
    · rw [hp]
      exact ⟨nofun, fun h => absurd hempty h⟩
    · exact ⟨fun _ => hempty, fun _ => ⟨_, hp⟩⟩
    · exact ⟨fun _ => hempty, fun _ => ⟨_, hp⟩⟩

/-- A slash at the end, two slashes together, or no path at all. -/
theorem parseKeyID_panics :
    parseKeyID id (ascii "ed25519/") = .error .index ∧ parseKeyID id (ascii "ed25519/44'//0'") = .error .index ∧
      ParseBIP32 [] = .error .index := by
  exact ⟨rfl, rfl, rfl⟩

/-! ## Key ids as they are printed -/

section Canonical

variable {lowerRunes : Bytes → Bytes} {s : Bytes} {k : KeyID}

lemma slash_notMem_String {d : DerivationType} (h : DerivationType.Named d) : slash ∉ DerivationType.String d := by
  rcases h with rfl | rfl | rfl | rfl <;> decide

lemma splitFirst_String (h : k.WellFormed) :
    Split.splitFirst slash k.String = some (DerivationType.String k.dt, BIP32.String k.path) :=
  Split.splitFirst_append slash (slash_notMem_String h.named) _

lemma path_ne_nil (h : k.WellFormed) : k.path ≠ [] := by
  intro hnil
  have hlength := h.length
  rw [hnil] at hlength
  exact absurd hlength (by decide)

lemma rooted_path (h : k.WellFormed) : rooted TezosBIP32Root k.path = k.path := if_pos h.root

/-- **A key id that is printed is read back.** -/
lemma parseKeyID_String (lowerRunes : Bytes → Bytes) (h : k.WellFormed) :
    parseKeyID lowerRunes k.String = .ok (.ok k) := by
  have hkey : keyIDOf k.dt k.path = .ok k := by
    refine keyIDOf_ok_iff.2 ⟨h.hardened, ?_, ?_⟩
    · have hlength := h.length
      rw [rooted_path h]
      omega
    · rw [rooted_path h]
  unfold parseKeyID
  rw [splitFirst_String h]
  dsimp only
  rw [fromString_String lowerRunes h.named]
  dsimp only
  rw [ParseBIP32_String (path_ne_nil h), ← hkey]
  rfl

lemma rooted_map_unword (path : BIP32) :
    rooted [(44, true), (1729, true)] (path.map unword) = (rooted TezosBIP32Root path).map unword :=
  map_rooted word_unword TezosBIP32Root path

lemma writtenAs_eq {name rest : Bytes} {dt : DerivationType} {cs : List (ℕ × Bool)}
    (hparts : Split.splitFirst slash s = some (name, rest)) (hdt : DerivationTypeFromString lowerRunes name = some dt)
    (hcs : (components rest).mapM written = some cs) :
    writtenAs lowerRunes s = some (dt, rooted [(44, true), (1729, true)] cs) := by
  rw [writtenAs, hparts]
  show (DerivationTypeFromString lowerRunes name >>= _) = _
  rw [hdt]
  show ((components rest).mapM written >>= _) = _
  rw [hcs]
  rfl

lemma writtenAs_String (lowerRunes : Bytes → Bytes) (h : k.WellFormed) :
    writtenAs lowerRunes k.String = some (k.dt, k.path.map unword) := by
  have hcs : (components (BIP32.String k.path)).mapM written = some (k.path.map unword) := by
    rw [components_String (path_ne_nil h), mapM_written_String]
  rw [writtenAs_eq (splitFirst_String h) (fromString_String lowerRunes h.named) hcs, rooted_map_unword, rooted_path h]

lemma writtenAs_of_parseKeyID (h : parseKeyID lowerRunes s = .ok (.ok k)) :
    ∃ cs, writtenAs lowerRunes s = some (k.dt, rooted [(44, true), (1729, true)] cs) ∧
      (∀ c ∈ cs, c.1 ≤ maxUint32) ∧ k.path = rooted TezosBIP32Root (cs.map word) := by
  obtain ⟨name, rest, cs, hparts, hdt, hcs, hkey⟩ := parseKeyID_ok h
  refine ⟨cs, writtenAs_eq hparts hdt hcs, mapM_written_le hcs, ?_⟩
  exact congrArg KeyID.path (keyIDOf_ok_iff.1 hkey).2.2

/-- What is written are the words of the key id.  Where the root is there only as words, it is counted twice. -/
lemma words_writtenAs (h : parseKeyID lowerRunes s = .ok (.ok k)) :
    ∃ cs, writtenAs lowerRunes s = some (k.dt, cs) ∧ (∀ c ∈ cs, c.1 ≤ maxUint32) ∧
      (cs.map word = k.path ∨ cs.map word = TezosBIP32Root ++ k.path) := by
  obtain ⟨cs, hwritten, hcs, hpath⟩ := writtenAs_of_parseKeyID h
  refine ⟨_, hwritten, fun c hc => ?_, ?_⟩
  · rcases mem_rooted hc with hc | hc
    · have hroot : ∀ c ∈ [(44, true), (1729, true)], c.1 ≤ maxUint32 := by decide
      exact hroot c hc
    · exact hcs c hc
  · by_cases hwords : TezosBIP32Root <+: cs.map word
    · rw [hpath, rooted, rooted, if_pos hwords]
      split
      next => exact Or.inl rfl
      next => exact Or.inr List.map_append
    · have htext : ¬ [(44, true), (1729, true)] <+: cs := fun htext => hwords (htext.map word)
      rw [hpath, rooted, rooted, if_neg hwords, if_neg htext]
      exact Or.inl List.map_append

lemma eq_of_words_eq {cs ds : List (ℕ × Bool)} (hcs : ∀ c ∈ cs, c.1 ≤ maxUint32) (hds : ∀ d ∈ ds, d.1 ≤ maxUint32)
    (hwords : cs.map word = ds.map word)
    (hflags : (cs.map fun c => (decide (2 ^ 31 ≤ c.1), c.2)) = ds.map fun c => (decide (2 ^ 31 ≤ c.1), c.2)) :
    cs = ds := by
  induction cs generalizing ds with
  | nil =>
    rw [List.map_nil, eq_comm, List.map_eq_nil_iff] at hwords
    exact hwords.symm
  | cons c cs ih =>
    cases ds with
    | nil => cases hwords
    | cons d ds =>
      obtain ⟨hword, hwords⟩ := List.cons.inj hwords
      obtain ⟨hflag, hflags⟩ := List.cons.inj hflags
      obtain ⟨hflag, hmarker⟩ := Prod.mk.inj hflag
      obtain ⟨hc, hcs⟩ := List.forall_mem_cons.1 hcs
      obtain ⟨hd, hds⟩ := List.forall_mem_cons.1 hds
      rw [eq_of_word_eq hc hd hword (decide_eq_decide.1 hflag) hmarker, ih hcs hds hwords hflags]

lemma eq_of_root_or_not {α : Type} {root path l m : List α} (hl : l = path ∨ l = root ++ path)
    (hm : m = path ∨ m = root ++ path) (hlength : l.length = m.length) : l = m := by
  rcases hl with rfl | rfl <;> rcases hm with rfl | rfl
  · rfl
  · exact (List.suffix_append root l).eq_of_length hlength
  · exact ((List.suffix_append root m).eq_of_length hlength.symm).symm
  · rfl

/-- Two texts of one key say the same only if they agree about the bit of the flag. -/
lemma writtenAs_eq_iff {t : Bytes} (hs : parseKeyID lowerRunes s = .ok (.ok k))
    (ht : parseKeyID lowerRunes t = .ok (.ok k)) :
    writtenAs lowerRunes t = writtenAs lowerRunes s ↔ flagsOf lowerRunes t = flagsOf lowerRunes s := by
  obtain ⟨cs, hws, hcs, hscase⟩ := words_writtenAs hs
  obtain ⟨ds, hwt, hds, htcase⟩ := words_writtenAs ht
  unfold flagsOf
  rw [hws, hwt]
  refine ⟨fun h => by rw [h], fun h => ?_⟩
  have hflags := Option.some.inj h
  have hlength : (ds.map word).length = (cs.map word).length := by simpa using congrArg List.length hflags
  -- the root is counted twice in both of them or in neither
  have hwords := eq_of_root_or_not htcase hscase hlength
  rw [eq_of_words_eq hds hcs hwords hflags]

lemma writtenAs_of_plain (h : parseKeyID lowerRunes s = .ok (.ok k)) (hplain : Plain lowerRunes s) :
    writtenAs lowerRunes s = some (k.dt, k.path.map unword) := by
  obtain ⟨cs, hwritten, -, hpath⟩ := writtenAs_of_parseKeyID h
  have hindexes : (cs.map word).map unword = cs := by
    rw [List.map_map]
    refine (List.map_congr_left fun c hc => ?_).trans (List.map_id cs)
    exact unword_word (hplain _ _ hwritten c (mem_rooted_of_mem _ hc))
  rw [hwritten, hpath, ← rooted_map_unword, hindexes]

lemma plain_String (lowerRunes : Bytes → Bytes) (h : k.WellFormed) : Plain lowerRunes k.String := by
  intro dt cs hwritten c hc
  rw [writtenAs_String lowerRunes h] at hwritten
  obtain ⟨-, rfl⟩ := Prod.mk.inj (Option.some.inj hwritten)
  obtain ⟨p, -, rfl⟩ := List.mem_map.1 hc
  exact unword_lt p

lemma writtenAs_String_eq_iff (h : parseKeyID lowerRunes s = .ok (.ok k)) :
    writtenAs lowerRunes k.String = writtenAs lowerRunes s ↔ Plain lowerRunes s := by
  have hwf := wellFormed_of_parseKeyID h
  constructor
  · intro hsame
    have hplain := plain_String lowerRunes hwf
    unfold Plain at hplain
    rwa [hsame] at hplain
  · intro hplain
    rw [writtenAs_String lowerRunes hwf, writtenAs_of_plain h hplain]

/-- **Which texts name a key by its own indexes.**  A key id is read back from its text.  Another text of it says the
same if and only if it has the bit of the flag in the same indexes, and the printed one if it has it in none. -/
theorem parseKeyID_canonical (h : parseKeyID lowerRunes s = .ok (.ok k)) :
    parseKeyID lowerRunes k.String = .ok (.ok k) ∧
      (∀ t, parseKeyID lowerRunes t = .ok (.ok k) →
        (writtenAs lowerRunes t = writtenAs lowerRunes s ↔ flagsOf lowerRunes t = flagsOf lowerRunes s)) ∧
      (writtenAs lowerRunes k.String = writtenAs lowerRunes s ↔ Plain lowerRunes s) := by
  refine ⟨parseKeyID_String lowerRunes (wellFormed_of_parseKeyID h), fun t ht => ?_, writtenAs_String_eq_iff h⟩
  exact writtenAs_eq_iff h ht

/-- `44'/1729'/0'`. -/
def firstAccount : KeyID := { dt := DerivationED25519, path := TezosBIP32Root ++ [BIP32H] }

/-- Two texts of the first account. -/
theorem parseKeyID_canonical_first_account :
    parseKeyID id (ascii "ed25519/0'") = .ok (.ok firstAccount) ∧
      parseKeyID id (ascii "ED25519/m/44'/1729h/00h") = .ok (.ok firstAccount) ∧
      parseKeyID id firstAccount.String = .ok (.ok firstAccount) ∧
      writtenAs id (ascii "ED25519/m/44'/1729h/00h") = writtenAs id (ascii "ed25519/0'") := by
  have hs : parseKeyID id (ascii "ed25519/0'") = .ok (.ok firstAccount) := rfl
  have ht : parseKeyID id (ascii "ED25519/m/44'/1729h/00h") = .ok (.ok firstAccount) := rfl
  obtain ⟨hprinted, hsame, -⟩ := parseKeyID_canonical hs
  exact ⟨hs, ht, hprinted, (hsame _ ht).2 rfl⟩

/-- The index 2³¹ is read as the hardened index 0, with and without a marker. -/
theorem parseKeyID_beyond_flag :
    parseKeyID id (ascii "ed25519/2147483648") = .ok (.ok firstAccount) ∧
      parseKeyID id (ascii "ed25519/2147483648'") = .ok (.ok firstAccount) ∧
      parseKeyID id (ascii "ed25519/0'") = .ok (.ok firstAccount) ∧
      writtenAs id (ascii "ed25519/2147483648") ≠ writtenAs id (ascii "ed25519/0'") ∧
      writtenAs id (ascii "ed25519/2147483648'") ≠ writtenAs id (ascii "ed25519/0'") := by
  exact ⟨rfl, rfl, rfl, by decide, by decide⟩

end Canonical

end Signatory.Vault.Ledger
