import Signatory.Hashmap
import Signatory.Lib.Ascii
import Signatory.Lib.Base64
import Signatory.Lib.Fallible
import Signatory.Lib.Machine
import Signatory.Lib.Split
import Signatory.Signer.Policy

/-!
# `pkg/vault/hashicorp`: keys of the transit engine

A key of the engine has versions, and each rotation adds one.  A key reference has the public key of version 1, while a
request for a signature names no version and is answered with the latest one.  So a signature verifies under the public
key of its own reference exactly when the key has not been rotated by then: `signature_verifies_iff`.

The engine is modelled as far as it is documented: reading a key returns the public key of every version, by its number,
and signing takes the version that is asked for, or the latest one.  Any call may fail instead.  What a call to log in
returns is not looked at.
-/

namespace Signatory.Vault.Hashicorp

open Lib Lib.Ascii Lib.Fallible Lib.Machine
open Signer (Bytes Error)

/-! ## The client -/

/-- A value in the data of a secret. -/
inductive Value where
  | string (s : Bytes)
  | map (m : List (String × Value))
  | other

abbrev Data := List (String × Value)

/-- The data that `Transit.Sign` writes; it leaves out the version. -/
structure SignRequest where
  input : Bytes
  prehashed : Bool
  hashAlgorithm : String
  keyVersion : Option ℕ := none

/-- What the server answers to a read of `<mount>/keys/<key>` and to a write to `<mount>/sign/<key>`; there may be no
secret. -/
structure Logical where
  read : String → String → Except Error (Option Data)
  write : String → String → SignRequest → Except Error (Option Data)

structure Transit where
  c : Logical
  mountPoint : String

structure SignOpts where
  preshashed : Bool
  hash : String

/-- A type assertion that fails. -/
def panicked : Error := { text := "panic: interface conversion" }

/-- `vault.ErrKey`. -/
def ErrKey : Error := { text := "unsupported key type" }

def Transit.GetKeyWithContext (t : Transit) (keyID : String) : Except Error Bytes := do
  let some s ← t.c.read t.mountPoint keyID
    | throw { text := "no key was returned" }
  let some (.string type) := s.lookup "type"
    | throw panicked
  if type ≠ ascii "ed25519" then throw ErrKey
  let some (.map keys) := s.lookup "keys"
    | throw { text := "failed to parse keys" }
  -- whatever the latest version is
  let some (.map k) := keys.lookup "1"
    | throw panicked
  let some (.string pubKeyStr) := k.lookup "public_key"
    | throw { text := "failed to parse public key" }
  pure pubKeyStr

def Transit.Sign (t : Transit) (keyName : String) (input : Bytes) (opts : SignOpts) : Except Error Bytes := do
  let some s ← t.c.write t.mountPoint keyName {
      input := Base64.StdEncoding.encode input
      prehashed := opts.preshashed
      hashAlgorithm := opts.hash }
    | throw { text := "no signature was returned" }
  let some (.string signature) := s.lookup "signature"
    | throw panicked
  let some decoded := Base64.StdEncoding.decode (Split.lastPart 0x3a signature)
    | throw { text := "failed to decode signature" }
  pure decoded

/-! ## The vault -/

/-- What is used of `crypt`; Ed25519 keys and signatures are byte strings. -/
structure Crypt where
  DigestFunc : Bytes → Bytes
  NewPublicKeyFrom : Bytes → Except Error Bytes
  NewSignatureFromBytes : Bytes → Bytes → Except Error Bytes

/-- Keys and signatures that are accepted are wrapped as they are. -/
structure Crypt.Correct (cr : Crypt) : Prop where
  publicKey : ∀ {key pub : Bytes}, cr.NewPublicKeyFrom key = .ok pub → pub = key
  signature : ∀ {data pub sig : Bytes}, cr.NewSignatureFromBytes data pub = .ok sig → sig = data

structure VaultKey where
  id : String
  pub : Bytes
  deriving DecidableEq

variable (cr : Crypt)

def getPublicKey (t : Transit) (keyID : String) : Except Error VaultKey := do
  let wrappingPubKeyString ← t.GetKeyWithContext keyID
  let some pubKeyBytes := Base64.StdEncoding.decode wrappingPubKeyString
    | throw { text := "illegal base64 data" }
  if pubKeyBytes.length ≠ 32 then throw { text := "invalid public key length" }
  let cryptPubKey ← cr.NewPublicKeyFrom pubKeyBytes
  pure ⟨keyID, cryptPubKey⟩

def VaultKey.Sign (k : VaultKey) (t : Transit) (message : Bytes) : Except Error Bytes := do
  let sout ← t.Sign k.id (cr.DigestFunc message) ⟨false, "sha2-256"⟩
  cr.NewSignatureFromBytes sout k.pub

/-! ## The transit engine -/

/-- Ed25519, with private keys of a type `SK`. -/
structure Ed25519 (SK : Type) where
  publicKey : SK → Bytes
  sign : SK → Bytes → Bytes
  verify : Bytes → Bytes → Bytes → Bool
  verify_sign : ∀ sk message, verify (publicKey sk) message (sign sk message) = true

/-- The versions of a key: the first one, and those that rotations have added. -/
structure Versions (SK : Type) where
  first : SK
  later : List SK := []

def Versions.all {SK : Type} (v : Versions SK) : List SK := v.first :: v.later

def Versions.latest {SK : Type} (v : Versions SK) : SK := v.later.getLastD v.first

/-- A key of the engine; only the type is used of keys of other types. -/
inductive EngineKey (SK : Type) where
  | ed25519 (v : Versions SK)
  | other (type : String)

abbrev Engine (SK : Type) := GoMap String (EngineKey SK)

/-- How a call ends other than with the answer. -/
inductive Fault where
  | error (e : Error)
  | noSecret

section Engine

variable {SK : Type} (ed : Ed25519 SK)

/-- The public keys by the numbers of the versions. -/
def publicKeys (v : Versions SK) : List (String × Value) :=
  (v.all.zipIdx 1).map fun e =>
    (toString e.2, .map [("public_key", .string (Base64.StdEncoding.encode (ed.publicKey e.1)))])

def Engine.read (e : Engine SK) (keyID : String) : Option Data :=
  (e.lookup keyID).map fun
    | .ed25519 v => [("type", .string (ascii "ed25519")), ("keys", .map (publicKeys ed v))]
    | .other type => [("type", .string (ascii type))]

/-- The version that is asked for, or the latest one, and its number. -/
def Versions.signing (v : Versions SK) : Option ℕ → Option (SK × ℕ)
  | none => some (v.latest, v.all.length)
  | some n => (v.all[n - 1]?).map fun sk => (sk, n)

def Engine.sign (e : Engine SK) (keyName : String) (req : SignRequest) : Option Data := do
  let some (.ed25519 v) := e.lookup keyName
    | none
  let input ← Base64.StdEncoding.decode req.input
  let (sk, n) ← v.signing req.keyVersion
  pure [("signature", .string (ascii "vault:v" ++ ascii (toString n) ++
    0x3a :: Base64.StdEncoding.encode (ed.sign sk input)))]

/-- The engine behind a mount point, unless there is a fault. -/
def Engine.transit (e : Engine SK) (mountPoint : String) (fault : Option Fault) : Transit :=
  let answer (d : Option Data) : Except Error (Option Data) :=
    match fault with
    | none => .ok d
    | some .noSecret => .ok none
    | some (.error err) => .error err
  let c : Logical :=
    { read := fun _ keyID => answer (Engine.read ed e keyID)
      write := fun _ keyName req => answer (Engine.sign ed e keyName req) }
  ⟨c, mountPoint⟩

end Engine

/-! ## Runs -/

/-- What happens at the engine, and what the vault is asked to do. -/
inductive Input (SK : Type) where
  | create (name : String) (key : EngineKey SK)
  | rotate (name : String) (sk : SK)
  | getPublicKey (keyID : String) (fault : Option Fault)
  | sign (ref : ℕ) (message : Bytes) (fault : Option Fault)

inductive Answer where
  | none
  | key (k : VaultKey)
  | signature (k : VaultKey) (sig : Bytes)
  | failed (e : Error)
  deriving DecidableEq

/-- The engine, and the references that the vault has returned. -/
structure Sys (SK : Type) where
  engine : Engine SK := ∅
  refs : List VaultKey := []

section Run

variable {SK : Type} (ed : Ed25519 SK) (mountPoint : String)

/-- A key is made once, and rotated if it is there. -/
def rotated (e : Engine SK) (name : String) (sk : SK) : Engine SK :=
  match e.lookup name with
  | some (.ed25519 v) => e.insert name (.ed25519 { v with later := v.later ++ [sk] })
  | _ => e

def step (s : Sys SK) : Input SK → Answer × Sys SK
  | .create name key =>
    match s.engine.lookup name with
    | none => (.none, { s with engine := s.engine.insert name key })
    | some _ => (.none, s)
  | .rotate name sk => (.none, { s with engine := rotated s.engine name sk })
  | .getPublicKey keyID fault =>
    match getPublicKey cr (Engine.transit ed s.engine mountPoint fault) keyID with
    | .ok k => (.key k, { s with refs := s.refs ++ [k] })
    | .error e => (.failed e, s)
  | .sign ref message fault =>
    match s.refs[ref]? with
    | none => (.none, s)
    | some k =>
      match k.Sign cr (Engine.transit ed s.engine mountPoint fault) message with
      | .ok sig => (.signature k sig, s)
      | .error e => (.failed e, s)

end Run

/-! ## What the vault gets from the engine -/

section Answers

variable {cr} {SK : Type} {ed : Ed25519 SK} {mountPoint : String} {fault : Option Fault} {e : Engine SK}

lemma secret_ok {answer : Option Data} {d : Data}
    (h : (match fault with
      | none => .ok answer
      | some .noSecret => .ok none
      | some (.error err) => .error err : Except Error (Option Data)) = .ok (some d)) : answer = some d := by
  rcases fault with _ | err | _
  · exact Except.ok.inj h
  · cases h
  · cases h

lemma read_ok {keyID : String} {d : Data}
    (h : (Engine.transit ed e mountPoint fault).c.read mountPoint keyID = .ok (some d)) :
    Engine.read ed e keyID = some d := secret_ok h

lemma write_ok {keyName : String} {req : SignRequest} {d : Data}
    (h : (Engine.transit ed e mountPoint fault).c.write mountPoint keyName req = .ok (some d)) :
    Engine.sign ed e keyName req = some d := secret_ok h

lemma lookup_publicKeys (v : Versions SK) : (publicKeys ed v).lookup "1" =
    some (.map [("public_key", .string (Base64.StdEncoding.encode (ed.publicKey v.first)))]) := by
  have hone : ("1" == toString 1) = true := by decide
  simp only [publicKeys, Versions.all, List.zipIdx_cons, List.map_cons, List.lookup_cons, hone]

/-- The text that is returned for a key is the public key of its first version. -/
lemma getKeyWithContext_ok {keyID : String} {pubKeyStr : Bytes}
    (h : (Engine.transit ed e mountPoint fault).GetKeyWithContext keyID = .ok pubKeyStr) :
    ∃ v, e.lookup keyID = some (.ed25519 v) ∧ pubKeyStr = Base64.StdEncoding.encode (ed.publicKey v.first) := by
  unfold Transit.GetKeyWithContext at h
  obtain ⟨secret, hread, h⟩ := ok_bind_iff.1 h
  cases secret with
  | none => cases h
  | some s =>
    obtain ⟨key, hkey, hs⟩ := Option.map_eq_some_iff.1 (read_ok hread)
    cases key with
    | ed25519 v =>
      have htype : s.lookup "type" = some (.string (ascii "ed25519")) := by rw [← hs]; rfl
      have hkeys : s.lookup "keys" = some (.map (publicKeys ed v)) := by rw [← hs]; rfl
      simp only [htype, hkeys, lookup_publicKeys, List.lookup_cons, beq_self_eq_true, ok_check_bind_iff] at h
      exact ⟨v, hkey, (ok_pure_iff.1 h.2).symm⟩
    | other type =>
      have htype : s.lookup "type" = some (.string (ascii type)) := by rw [← hs]; rfl
      have hkeys : s.lookup "keys" = none := by rw [← hs]; rfl
      simp only [htype, hkeys, ok_check_bind_iff] at h
      cases h.2

/-- **A key reference has the first public key.** -/
lemma getPublicKey_ok (hcr : cr.Correct) {keyID : String} {k : VaultKey}
    (h : getPublicKey cr (Engine.transit ed e mountPoint fault) keyID = .ok k) :
    ∃ v, e.lookup k.id = some (.ed25519 v) ∧ k.pub = ed.publicKey v.first := by
  unfold getPublicKey at h
  obtain ⟨pubKeyStr, hget, h⟩ := ok_bind_iff.1 h
  obtain ⟨v, hv, rfl⟩ := getKeyWithContext_ok hget
  simp only [Base64.Encoding.decode_encode Base64.stdEncoding_lawful, ok_check_bind_iff, ok_bind_iff, ok_pure_iff] at h
  obtain ⟨-, pub, hpub, rfl⟩ := h
  exact ⟨v, hv, hcr.publicKey hpub⟩

lemma colon_notMem (b : Bytes) : (0x3a : UInt8) ∉ Base64.StdEncoding.encode b := by
  intro h
  rcases Base64.Encoding.mem_encode Base64.stdEncoding_lawful b _ h with h | h
  · exact absurd h (by decide +kernel)
  · exact absurd h (by decide)

/-- **A signature is one of the latest version.** -/
lemma sign_ok (hcr : cr.Correct) {k : VaultKey} {message sig : Bytes}
    (h : k.Sign cr (Engine.transit ed e mountPoint fault) message = .ok sig) :
    ∃ v, e.lookup k.id = some (.ed25519 v) ∧ sig = ed.sign v.latest (cr.DigestFunc message) := by
  unfold VaultKey.Sign at h
  obtain ⟨sout, hsign, hsig⟩ := ok_bind_iff.1 h
  obtain rfl := hcr.signature hsig
  unfold Transit.Sign at hsign
  obtain ⟨secret, hwrite, hsign⟩ := ok_bind_iff.1 hsign
  cases secret with
  | none => cases hsign
  | some s =>
    have hs := write_ok hwrite
    unfold Engine.sign at hs
    cases hkey : e.lookup k.id with
    | none => simp [hkey] at hs
    | some key =>
      cases key with
      | other type => simp [hkey] at hs
      | ed25519 v =>
        refine ⟨v, rfl, ?_⟩
        simp only [hkey, Base64.Encoding.decode_encode Base64.stdEncoding_lawful, Versions.signing] at hs
        obtain rfl := Option.some.inj hs
        simp only [List.lookup_cons, beq_self_eq_true, Split.lastPart_append _ _ (colon_notMem _),
          Base64.Encoding.decode_encode Base64.stdEncoding_lawful, ok_pure_iff] at hsign
        exact hsign.symm

end Answers

/-! ## Signatures of a reference -/

section References

variable {cr} {SK : Type} {ed : Ed25519 SK} {mountPoint : String}

/-- Every reference has the public key of the first version of its key. -/
def Sys.FirstKeys (ed : Ed25519 SK) (s : Sys SK) : Prop :=
  ∀ k ∈ s.refs, ∃ v, s.engine.lookup k.id = some (.ed25519 v) ∧ k.pub = ed.publicKey v.first

lemma lookup_rotated {e : Engine SK} (name : String) (sk : SK) {id : String} {v : Versions SK}
    (h : e.lookup id = some (.ed25519 v)) :
    ∃ v', (rotated e name sk).lookup id = some (.ed25519 v') ∧ v'.first = v.first := by
  unfold rotated
  split
  next w hw =>
    by_cases hid : id = name
    · subst hid
      rw [h] at hw
      cases hw
      exact ⟨_, AList.lookup_insert e, rfl⟩
    · exact ⟨v, by rw [AList.lookup_insert_ne hid, h], rfl⟩
  · exact ⟨v, h, rfl⟩

/-- A key that is made takes no other key's name. -/
lemma lookup_created {e : Engine SK} {name id : String} {key key' : EngineKey SK} (hnew : e.lookup name = none)
    (h : e.lookup id = some key) : (e.insert name key').lookup id = some key := by
  have hid : id ≠ name := by
    rintro rfl
    rw [h] at hnew
    cases hnew
  rw [AList.lookup_insert_ne hid, h]

/-- **One step.** -/
lemma firstKeys_step (hcr : cr.Correct) (s : Sys SK) (i : Input SK) (h : s.FirstKeys ed) :
    (step cr ed mountPoint s i).2.FirstKeys ed := by
  cases i with
  | create name key =>
    unfold step
    dsimp only
    split
    next hnew =>
      intro k hk
      obtain ⟨v, hv, hpub⟩ := h k hk
      exact ⟨v, lookup_created hnew hv, hpub⟩
    · exact h
  | rotate name sk =>
    intro k hk
    obtain ⟨v, hv, hpub⟩ := h k hk
    obtain ⟨v', hv', hfirst⟩ := lookup_rotated name sk hv
    exact ⟨v', hv', by rw [hpub, hfirst]⟩
  | getPublicKey keyID fault =>
    unfold step
    dsimp only
    split
    next k hk =>
      intro k' hk'
      rcases List.mem_append.1 hk' with hk' | hk'
      · exact h k' hk'
      · obtain rfl := List.mem_singleton.1 hk'
        exact getPublicKey_ok hcr hk
    · exact h
  | sign ref message fault =>
    unfold step
    dsimp only
    split
    · exact h
    · split
      · exact h
      · exact h

lemma sign_answer {s : Sys SK} {ref : ℕ} {message sig : Bytes} {fault : Option Fault} {k : VaultKey}
    (h : (step cr ed mountPoint s (.sign ref message fault)).1 = .signature k sig) :
    k ∈ s.refs ∧ k.Sign cr (Engine.transit ed s.engine mountPoint fault) message = .ok sig := by
  unfold step at h
  dsimp only at h
  split at h
  · cases h
  next k' hk' =>
    split at h
    next sig' hsig' =>
      cases h
      exact ⟨List.mem_of_getElem? hk', hsig'⟩
    · cases h

/-- **Signatures of rotated keys.**  After any run, a signature that is returned verifies under the public key of its
own reference exactly when the key has not been rotated, unless a later version happens to sign the digest with a
signature of the first one. -/
theorem signature_verifies_iff (hcr : cr.Correct) (is : List (Input SK)) (ref : ℕ) (message : Bytes)
    (fault : Option Fault) {k : VaultKey} {sig : Bytes}
    (hsig : (step cr ed mountPoint (final (step cr ed mountPoint) {} is) (.sign ref message fault)).1 =
      .signature k sig)
    (hapart : ∀ v, (final (step cr ed mountPoint) {} is).engine.lookup k.id = some (.ed25519 v) →
      ∀ sk ∈ v.later,
        ed.verify (ed.publicKey v.first) (cr.DigestFunc message) (ed.sign sk (cr.DigestFunc message)) = false) :
    ed.verify k.pub (cr.DigestFunc message) sig = true ↔
      ∃ sk, (final (step cr ed mountPoint) {} is).engine.lookup k.id = some (.ed25519 { first := sk }) := by
  have hfirst : (final (step cr ed mountPoint) {} is).FirstKeys ed :=
    inv_final (by intro k hk; cases hk) (firstKeys_step hcr) is
  generalize final (step cr ed mountPoint) {} is = s at hsig hapart hfirst ⊢
  obtain ⟨hk, hsign⟩ := sign_answer hsig
  obtain ⟨⟨first, later⟩, hv, hpub⟩ := hfirst k hk
  obtain ⟨v', hv', rfl⟩ := sign_ok hcr hsign
  obtain rfl : ⟨first, later⟩ = v' := by
    rw [hv] at hv'
    exact EngineKey.ed25519.inj (Option.some.inj hv')
  rw [hpub]
  constructor
  · intro hverify
    rcases later.eq_nil_or_concat' with rfl | ⟨before, last, rfl⟩
    · exact ⟨first, hv⟩
    · have hlast : (Versions.latest ⟨first, before ++ [last]⟩ : SK) = last := by simp [Versions.latest]
      rw [hlast, hapart _ hv last (by simp)] at hverify
      cases hverify
  · rintro ⟨sk, hsk⟩
    obtain ⟨rfl, rfl⟩ : first = sk ∧ later = [] := by
      rw [hv] at hsk
      simpa using hsk
    exact ed.verify_sign _ _

end References

/-! ## A run -/

/-- A scheme whose signatures show the public key and what is signed. -/
def plain : Ed25519 UInt8 where
  publicKey sk := List.replicate 32 sk
  sign sk message := List.replicate 32 sk ++ message
  verify pub message sig := sig == pub ++ message
  verify_sign sk message := by simp

/-- Digests are the messages themselves, and every key and signature is accepted. -/
def bare : Crypt := ⟨id, .ok, fun data _ => .ok data⟩

lemma bare_correct : bare.Correct := ⟨fun h => (Except.ok.inj h).symm, fun h => (Except.ok.inj h).symm⟩

/-- A key that is made and listed, and then rotated. -/
def listed (rotations : List UInt8) : List (Input UInt8) :=
  [.create "k" (.ed25519 { first := 7 }), .getPublicKey "k" none] ++ rotations.map fun sk => .rotate "k" sk

def afterRotations (rotations : List UInt8) : Sys UInt8 := final (step bare plain "transit") {} (listed rotations)

theorem signature_verifies_of_unrotated :
    (step bare plain "transit" (afterRotations []) (.sign 0 (List.replicate 32 1) none)).1 =
        .signature ⟨"k", List.replicate 32 7⟩ (List.replicate 32 7 ++ List.replicate 32 1) ∧
      (plain.verify (List.replicate 32 7) (List.replicate 32 1) (List.replicate 32 7 ++ List.replicate 32 1) = true ↔
        ∃ sk, (afterRotations []).engine.lookup "k" = some (.ed25519 { first := sk })) := by
  have hsig : (step bare plain "transit" (afterRotations []) (.sign 0 (List.replicate 32 1) none)).1 =
      .signature ⟨"k", List.replicate 32 7⟩ (List.replicate 32 7 ++ List.replicate 32 1) := by decide +kernel
  refine ⟨hsig, signature_verifies_iff bare_correct (listed []) 0 (List.replicate 32 1) none hsig ?_⟩
  intro v hv sk hsk
  have hnew : (afterRotations []).engine.lookup "k" = some (.ed25519 { first := 7 }) := rfl
  change (afterRotations []).engine.lookup "k" = _ at hv
  rw [hnew] at hv
  cases hv
  cases hsk

/-- After a rotation the signature is the second version's, which the reference does not verify. -/
theorem rotated_signature_refused :
    (step bare plain "transit" (afterRotations [9]) (.sign 0 (List.replicate 32 1) none)).1 =
        .signature ⟨"k", List.replicate 32 7⟩ (List.replicate 32 9 ++ List.replicate 32 1) ∧
      plain.verify (List.replicate 32 7) (bare.DigestFunc (List.replicate 32 1))
        (List.replicate 32 9 ++ List.replicate 32 1) = false := by
  decide +kernel

end Signatory.Vault.Hashicorp
