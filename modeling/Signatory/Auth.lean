import Signatory.Signer.Policy

/-!
# `pkg/auth`: storages of authorized public keys

The only implementation of `AuthorizedKeysStorage` is the static one: an index by hash, and the list of hashes.

* `getPublicKey_static`: the key found for a hash is one of those given, and its hash has the same comparable form;
* `listPublicKeys_static`: the hashes listed are those of the keys given.
-/

namespace Signatory.Auth

open Hashmap Signer

/-- `ErrPublicKeyNotFound`. -/
def ErrPublicKeyNotFound : Error := Wrap { text := "public key not found" } 401

structure AuthorizedKeysStorage (PKH PK : Type) where
  GetPublicKey : PKH → Except Error PK
  ListPublicKeys : Except Error (List PKH)

variable {Enc PKH PK : Type}

variable (Enc PKH PK) in
/-- The fields of `staticAuthorizedKeys`. -/
structure StaticKeys where
  idx : HashMap Enc PK
  keys : List PKH

variable [DecidableEq Enc] [ToComparable PKH Enc]

def StaticKeys.GetPublicKey (s : StaticKeys Enc PKH PK) (keyHash : PKH) : Except Error PK :=
  match s.idx.Get keyHash with
  | none => .error ErrPublicKeyNotFound
  | some pk => .ok pk

variable (hash : PK → PKH)

/-- One round of the loop of `StaticAuthorizedKeys`. -/
def StaticKeys.add (s : StaticKeys Enc PKH PK) (pk : PK) : StaticKeys Enc PKH PK where
  idx := (s.idx.Insert (hash pk) pk).2
  keys := s.keys ++ [hash pk]

/-- The value that `StaticAuthorizedKeys` builds. -/
def staticKeys (pub : List PK) : StaticKeys Enc PKH PK := pub.foldl (StaticKeys.add hash) ⟨∅, []⟩

def StaticAuthorizedKeys (pub : List PK) : AuthorizedKeysStorage PKH PK where
  GetPublicKey := (staticKeys hash pub).GetPublicKey
  ListPublicKeys := .ok (staticKeys hash pub).keys

/-! ## What the static storage holds -/

section Static

variable {hash} {pub : List PK}

lemma keys_staticKeys : (staticKeys hash pub).keys = pub.map hash := by
  unfold staticKeys
  induction pub using List.reverseRecOn with
  | nil => rfl
  | append_singleton pub pk ih =>
    rw [List.foldl_append, List.map_append, ← ih]
    rfl

theorem listPublicKeys_static : (StaticAuthorizedKeys hash pub).ListPublicKeys = .ok (pub.map hash) := by
  rw [← keys_staticKeys]
  rfl

lemma get_staticKeys {h : PKH} {pk : PK} (hget : (staticKeys hash pub).idx.Get h = some pk) :
    pk ∈ pub ∧ toComparable (hash pk) = toComparable h := by
  unfold staticKeys at hget
  induction pub using List.reverseRecOn with
  | nil => cases hget
  | append_singleton pub pk' ih =>
    rw [List.foldl_append, List.foldl_cons, List.foldl_nil, StaticKeys.add, get_insert] at hget
    split at hget
    case isTrue hsame =>
      obtain rfl := Option.some.inj hget
      exact ⟨by simp, hsame.symm⟩
    case isFalse =>
      obtain ⟨hmem, hhash⟩ := ih hget
      exact ⟨List.mem_append_left _ hmem, hhash⟩

theorem getPublicKey_static {h : PKH} {pk : PK} (hget : (StaticAuthorizedKeys hash pub).GetPublicKey h = .ok pk) :
    pk ∈ pub ∧ toComparable (hash pk) = toComparable h := by
  refine get_staticKeys ?_
  change (staticKeys hash pub).GetPublicKey h = .ok pk at hget
  unfold StaticKeys.GetPublicKey at hget
  split at hget
  case h_1 => cases hget
  case h_2 pk' hpk' => rw [hpk', Except.ok.inj hget]

end Static

end Signatory.Auth
