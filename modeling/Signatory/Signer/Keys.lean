import Signatory.Signer.Policy
import Signatory.Lib.Command

/-!
# `pkg/signatory`: keys, vaults and the key cache

The cache is the state of the commands here.  A vault answers a listing with a list of `Next`s, and a listing of all
vaults goes through them in the order that `range` over the map of vaults happens to take.

Two assumptions on vaults are in the types: `PublicKey()` of a key reference is a function (`KeyReference`), and
importing a private key yields a reference to that key (`Importer`).  With them a `KeyVaultPair` carries the fact
that its hash is the one of its key, and a map of pairs the fact that each pair stands under its own hash.
-/

namespace Signatory.Signer

open Hashmap Lib.Command

/-- `vault.KeyReference`: its public key, and whether it is also a `vault.PossessionProver`. -/
class KeyReference (Key : Type) (PK : outParam Type) where
  publicKey : Key → PK
  isPossessionProver : Key → Bool

export KeyReference (publicKey isPossessionProver)

/-- What `KeyIterator.Next` returns before `vault.ErrDone`: a key, `vault.ErrKey`, or another error. -/
inductive Next (Key : Type) where
  | key (key : Key)
  | errKey
  | error (e : Error)

section Cache

variable {PKH PK : Type} (g : Gotez PKH PK) (Key : Type) [KeyReference Key PK]

/-- `keyVaultPair`. -/
structure KeyVaultPair where
  pkh : PKH
  key : Key
  vaultName : String
  hash_key : g.hash (publicKey key) = pkh

variable (Enc : Type) [DecidableEq Enc] [ToComparable PKH Enc]

/-- `publicKeys`, a map of pairs that is only written by inserting a pair under its hash. -/
structure PublicKeys where
  pairs : HashMap Enc (KeyVaultPair g Key)
  own : ∀ h p, pairs.lookup h = some p → toComparable p.pkh = h

/-- `keyCache`. -/
structure KeyCache where
  cache : Option (PublicKeys g Key Enc)

variable {g Key Enc}

namespace PublicKeys

def empty : PublicKeys g Key Enc := ⟨∅, fun _ _ h => by simp at h⟩

def Insert (m : PublicKeys g Key Enc) (p : KeyVaultPair g Key) : PublicKeys g Key Enc where
  pairs := (m.pairs.Insert p.pkh p).2
  own h q hq := by
    unfold HashMap.Insert at hq
    rw [GoMap.lookup_set] at hq
    split at hq
    · next e => cases hq; exact e.symm
    · exact m.own h q hq

def Get (m : PublicKeys g Key Enc) (pkh : PKH) : Option (KeyVaultPair g Key) := m.pairs.Get pkh

lemma pkh_of_get {m : PublicKeys g Key Enc} {pkh : PKH} {p : KeyVaultPair g Key} (h : m.Get pkh = some p) :
    toComparable p.pkh = toComparable pkh := m.own _ _ h

end PublicKeys

namespace KeyCache

def push (k : KeyCache g Key Enc) (pair : KeyVaultPair g Key) : KeyCache g Key Enc :=
  ⟨some ((k.cache.getD .empty).Insert pair)⟩

def get (k : KeyCache g Key Enc) (pkh : PKH) : Option (KeyVaultPair g Key) :=
  k.cache.bind fun m => m.Get pkh

def drop (_ : KeyCache g Key Enc) : KeyCache g Key Enc := ⟨none⟩

end KeyCache

/-! ## Listing and lookup -/

/-- The loop over the iterator of one vault.  Every key is pushed to the cache at once, so that the keys before an
error stay there. -/
def listVault (name : String) : List (Next Key) → PublicKeys g Key Enc → List (KeyVaultPair g Key) →
    Cmd (KeyCache g Key Enc) Error (PublicKeys g Key Enc × List (KeyVaultPair g Key))
  | [], ret, vaultKeys => pure (ret, vaultKeys)
  | .key key :: rest, ret, vaultKeys => do
    let p : KeyVaultPair g Key := ⟨g.hash (publicKey key), key, name, rfl⟩
    modify (·.push p)
    listVault name rest (ret.Insert p) (vaultKeys ++ [p])
  | .errKey :: rest, ret, vaultKeys => listVault name rest ret vaultKeys
  | .error e :: _, _, _ => throw e

/-- The loop of `listPublicKeys` over the vaults. -/
def listVaults : List (String × List (Next Key)) → PublicKeys g Key Enc → List (KeyVaultPair g Key) →
    Cmd (KeyCache g Key Enc) Error (PublicKeys g Key Enc × List (KeyVaultPair g Key))
  | [], ret, list => pure (ret, list)
  | (name, iter) :: vaults, ret, list => do
    let (ret, vaultKeys) ← listVault name iter ret []
    listVaults vaults ret (list ++ vaultKeys)

def listPublicKeys (vaults : List (String × List (Next Key))) :
    Cmd (KeyCache g Key Enc) Error (PublicKeys g Key Enc × List (KeyVaultPair g Key)) :=
  listVaults vaults .empty []

def ErrVaultNotFound : Error := Wrap { text := "this key not found in any vault" } 404

def getPublicKey (vaults : List (String × List (Next Key))) (keyHash : PKH) :
    Cmd (KeyCache g Key Enc) Error (KeyVaultPair g Key) := do
  match (← get).get keyHash with
  | some cached => pure cached
  | none =>
    let (keys, _) ← listPublicKeys vaults
    match keys.Get keyHash with
    | some p => pure p
    | none => throw ErrVaultNotFound

/-- **The key that is found has the hash that was asked for**, up to its comparable form, whatever was in the cache
and whatever the vaults answer. -/
theorem pkh_of_getPublicKey {vaults : List (String × List (Next Key))} {keyHash : PKH}
    {k k' : KeyCache g Key Enc} {p : KeyVaultPair g Key}
    (h : exec (getPublicKey vaults keyHash) k = (.ok p, k')) : toComparable p.pkh = toComparable keyHash := by
  have hspec : wp (getPublicKey vaults keyHash)
      (fun p (_ : KeyCache g Key Enc) => toComparable p.pkh = toComparable keyHash) (fun _ _ => True) k := by
    simp only [getPublicKey, wp_bind, wp_get]
    cases hcached : k.get keyHash with
    | some cached =>
      obtain ⟨m, -, hm⟩ := Option.bind_eq_some_iff.1 hcached
      exact PublicKeys.pkh_of_get hm
    | none =>
      simp only [wp_bind]
      refine wp_of_exec _ (fun r k₁ _ => ?_) (fun _ _ _ => trivial)
      cases hfound : r.1.Get keyHash with
      | some p => simpa [hfound] using PublicKeys.pkh_of_get hfound
      | none => simp
  exact wp_post hspec h

/-! ## Keys for the outside -/

/-- `PublicKey`: a key reference with what the configuration says about it. -/
structure PublicKey (PKH Key : Type) where
  key : Key
  hash : PKH
  policy : Option (PublicKeyPolicy PKH)
  active : Bool

/-- The `PublicKey` literal of `ListPublicKeys`, `GetPublicKey`, `Import` and `Generate`. -/
def publicKeyOf (policy : Policy Enc PKH) (key : Key) (hash : PKH) : PublicKey PKH Key where
  key := key
  hash := hash
  policy := fetchPolicyOrDefault policy hash
  active := (fetchPolicyOrDefault policy hash).isSome

def ListPublicKeys (policy : Policy Enc PKH) (vaults : List (String × List (Next Key))) :
    Cmd (KeyCache g Key Enc) Error (List (PublicKey PKH Key)) := do
  let (_, list) ← listPublicKeys vaults
  pure (list.map fun p => publicKeyOf policy p.key p.pkh)

def GetPublicKey (policy : Policy Enc PKH) (vaults : List (String × List (Next Key))) (keyHash : PKH) :
    Cmd (KeyCache g Key Enc) Error (PublicKey PKH Key) := do
  let p ← getPublicKey vaults keyHash
  pure (publicKeyOf policy p.key keyHash)

/-- `vault.Importer`, on private keys that are given by their public keys. -/
abbrev Importer (Key : Type) {PK : Type} [KeyReference Key PK] :=
  (pub : PK) → Except Error { ref : Key // publicKey ref = pub }

/-- `Import`: there is no vault of this name, it is no `Importer` or it is one; the text given parses to a private
key or not. -/
def Import (policy : Policy Enc PKH) (importerName : String) (vault : Option (Option (Importer Key)))
    (priv : Except Error PK) : Cmd (KeyCache g Key Enc) Error (PublicKey PKH Key) := do
  match vault with
  | none => throw { text := "import: vault " ++ importerName ++ " is not found" }
  | some none => throw { text := "import: vault " ++ importerName ++ " doesn't support import operation" }
  | some (some importer) =>
    let pub ← priv
    let ref ← importer pub
    modify (·.push ⟨g.hash pub, ref.1, "", by rw [ref.2]⟩)
    pure (publicKeyOf policy ref.1 (g.hash pub))

/-- The loop of `Generate`. -/
def generateLoop (policy : Policy Enc PKH) : List (Next Key) → List (PublicKey PKH Key) →
    Cmd (KeyCache g Key Enc) Error (List (PublicKey PKH Key))
  | [], keys => pure keys
  | .key key :: rest, keys => do
    let pkh := g.hash (publicKey key)
    modify (·.push ⟨pkh, key, "", rfl⟩)
    generateLoop policy rest (keys ++ [publicKeyOf policy key pkh])
  | .errKey :: rest, keys => generateLoop policy rest keys
  | .error e :: _, _ => throw e

/-- `Generate`: there is no vault of this name, it is no `Generator`, or it answers. -/
def Generate (policy : Policy Enc PKH) (name : String)
    (vault : Option (Option (Except Error (List (Next Key))))) :
    Cmd (KeyCache g Key Enc) Error (List (PublicKey PKH Key)) := do
  match vault with
  | none => throw { text := "import: vault " ++ name ++ " is not found" }
  | some none => throw { text := "import: vault " ++ name ++ " doesn't support generate operation" }
  | some (some generator) =>
    let iter ← generator
    generateLoop policy iter []

/-- `Unlock`, with the answers of the vaults that can be unlocked: the first error ends it, and the cache stays. -/
def Unlock : List (Except Error Unit) → Cmd (KeyCache g Key Enc) Error Unit
  | [] => modify (·.drop)
  | answer :: rest => do
    let () ← answer
    Unlock rest

end Cache

end Signatory.Signer
