import Signatory.Request

/-!
# `pkg/signatory`: policies

The policy of a key is prepared from the configuration (`PreparePolicy`) and consulted by `matchFilter` and
`jwtVerifyUser`.  A slice of Go is an `Option` here where the code tells nil from empty.  Names of kinds are
strings, as in the configuration.  Logging and metrics are left out.

What the gotez library supplies is the parameter `Gotez`; public keys and their hashes are types of their own.
-/

namespace Signatory.Signer

open Hashmap
open Request (BallotKind OperationContents GetOperationKind ProtoSignRequest WithWatermark)

abbrev Bytes := List UInt8

/-- An `error`; one that is an `HTTPError` has a status. -/
structure Error where
  text : String
  status : Option ℕ := none
  deriving DecidableEq, Repr

/-- `errors.Wrap`: a status that is there stays. -/
def Wrap (e : Error) (status : ℕ) : Error :=
  match e.status with
  | some _ => e
  | none => { e with status := some status }

/-- What is used of gotez: texts and hashes, the names of all kinds, and the two decoders of sign requests,
which return the undecoded rest. -/
structure Gotez (PKH PK : Type) where
  chainText : ChainID → String
  pkhText : PKH → String
  hash : PK → PKH
  isBLS : PKH → Bool
  listSignRequests : List String
  listGenericOperations : List String
  listPseudoOperations : List String
  decodeV1 : Bytes → Except Error (ProtoSignRequest × Bytes)
  decodeLatest : Bytes → Except Error (ProtoSignRequest × Bytes)
  digest : Bytes → Digest

structure PublicKeyPolicy (PKH : Type) where
  allowedRequests : List String := []
  allowedOps : List String := []
  allowedChains : Option (List String) := none
  allowProofOfPossession : Bool := false
  authorizedKeyHashes : Option (List PKH) := none
  authorizedJwtUsers : Option (List String) := none

/-- `vault.SignOptions`. -/
structure SignOptions where
  version : UInt8
  deriving DecidableEq, Repr

structure SignRequest (PKH : Type) where
  clientPublicKeyHash : Option PKH
  publicKeyHash : PKH
  signOptions : SignOptions
  source : Bytes
  message : Bytes

def defaultPolicy {PKH : Type} : PublicKeyPolicy PKH where
  allowedRequests := ["block", "preattestation", "attestation"]

/-! ## The configuration -/

/-- `config.AuthorizedKeys`: a key, or a list of such. -/
inductive AuthorizedKeys (PK : Type) where
  | value (key : PK)
  | list (keys : List (AuthorizedKeys PK))

mutual

/-- `AuthorizedKeys.List`. -/
def AuthorizedKeys.toList {PK : Type} : AuthorizedKeys PK → List PK
  | .value key => [key]
  | .list keys => AuthorizedKeys.toListAll keys

def AuthorizedKeys.toListAll {PK : Type} : List (AuthorizedKeys PK) → List PK
  | [] => []
  | k :: keys => k.toList ++ AuthorizedKeys.toListAll keys

end

/-- `config.TezosPolicy`. -/
structure TezosPolicy (PK : Type) where
  allow : Option (GoMap String (List String))
  allowedOperations : Option (List String)
  allowedKinds : Option (List String)
  allowedChains : Option (List String)
  allowProofOfPossession : Bool
  authorizedKeys : Option (AuthorizedKeys PK)
  jwtUsers : Option (List String)

/-- `config.TezosConfig`; `none` is a key with a null entry. -/
abbrev TezosConfig (Enc PK : Type) := HashMap Enc (Option (TezosPolicy PK))

/-- `Policy`; `none` is the default policy. -/
abbrev Policy (Enc PKH : Type) := HashMap Enc (Option (PublicKeyPolicy PKH))

/-- `strings.Cut(s, ":")`, which `strings.SplitN(s, ":", 2)` agrees with. -/
def cut (s : String) : String × Option String :=
  match s.toList.span (· ≠ ':') with
  | (_, []) => (s, none)
  | (base, _ :: subKind) => (String.ofList base, some (String.ofList subKind))

/-- The `switch` of `fixupRequests`. -/
def fixupRequest : String → String
  | "endorsement" => "attestation"
  | "preendorsement" => "preattestation"
  | req => req

/-- The `switch` of `fixupOperations`. -/
def fixupBase : String → String
  | "endorsement" => "attestation"
  | "preendorsement" => "preattestation"
  | "double_endorsement_evidence" => "double_attestation_evidence"
  | "double_preendorsement_evidence" => "double_preattestation_evidence"
  | base => base

def fixupOperation (o : String) : String :=
  match cut o with
  | (base, some subKind) => fixupBase base ++ ":" ++ subKind
  | (base, none) => fixupBase base

/-- `sort.Strings`. -/
def sortStrings (l : List String) : List String := l.mergeSort fun a b => decide (a ≤ b)

def fixupRequests (req : List String) : List String := sortStrings (req.map fixupRequest)

def fixupOperations (ops : List String) : List String := sortStrings (ops.map fixupOperation)

section Prepare

variable {PKH PK : Type} (g : Gotez PKH PK)

def checkRequestKind : List String → Except Error Unit
  | [] => .ok ()
  | kind :: rest =>
    if kind ∈ g.listSignRequests then checkRequestKind rest
    else .error { text := "invalid request kind `" ++ kind ++ "` in `allow` list" }

/-- The body of the loop of `checkOperationKind`: only ballots have sub-kinds. -/
def availableOperation (kind : String) : Bool :=
  let availKinds := g.listGenericOperations ++ g.listPseudoOperations
  match cut kind with
  | (base, some subKind) =>
    base == "ballot" && [BallotKind.yay, .nay, .pass].any (fun b => b.String == subKind) &&
      availKinds.contains base
  | (_, none) => availKinds.contains kind

def checkOperationKind : List String → Except Error Unit
  | [] => .ok ()
  | kind :: rest =>
    if availableOperation g kind then checkOperationKind rest
    else .error { text := "invalid operation kind `" ++ kind ++ "` in `allow.generic` list" }

/-- The two lists of names that an entry configures, in the new or in the deprecated syntax; the names of
requests are fixed up and checked. -/
def preparedNames (v : TezosPolicy PK) : Except Error (List String × List String) :=
  match v.allow with
  | some allow => do
    let allowedRequests := fixupRequests allow.keys
    checkRequestKind g allowedRequests
    pure (allowedRequests, (allow.lookup "generic").elim [] sortStrings)
  | none => do
    let allowedRequests := v.allowedOperations.elim [] fixupRequests
    checkRequestKind g allowedRequests
    pure (allowedRequests, v.allowedKinds.elim [] sortStrings)

/-- What `PreparePolicy` does with an entry that is not null. -/
def prepareEntry (k : PKH) (v : TezosPolicy PK) : Except Error (PublicKeyPolicy PKH) := do
  let (allowedRequests, ops) ← preparedNames g v
  let allowedOps := fixupOperations ops
  checkOperationKind g allowedOps
  pure {
    allowedRequests, allowedOps
    allowedChains := v.allowedChains
    allowProofOfPossession := v.allowProofOfPossession && g.isBLS k
    authorizedKeyHashes := v.authorizedKeys.map fun keys => keys.toList.map g.hash
    authorizedJwtUsers := v.jwtUsers }

variable {Enc : Type} [DecidableEq Enc] [ToComparable PKH Enc]

/-- The callback of `PreparePolicy`, on the policy and the error so far. -/
def prepareStep (st : Policy Enc PKH × Option Error) (k : PKH) (v : Option (TezosPolicy PK)) :
    Bool × Policy Enc PKH × Option Error :=
  match v with
  | none => (true, (st.1.Insert k none).2, st.2) -- default policy
  | some v =>
    match prepareEntry g k v with
    | .ok pol => (true, (st.1.Insert k (some pol)).2, none)
    | .error e => (false, st.1, some e)

/-- `PreparePolicy`: the loop stops at the first error, and what is prepared so far is returned with it. -/
def PreparePolicy (src : TezosConfig Enc PK) : Policy Enc PKH × Option Error :=
  (src.ForEach (prepareStep g) (∅, none)).2

end Prepare

/-! ## The checks -/

section Check

variable {PKH PK Enc : Type} [DecidableEq Enc] [ToComparable PKH Enc] (g : Gotez PKH PK)

def fetchPolicyOrDefault (policy : Policy Enc PKH) (keyHash : PKH) : Option (PublicKeyPolicy PKH) :=
  match policy.Get keyHash with
  | none => none
  | some (some pol) => some pol
  | some none => some defaultPolicy

def strInSlice (slice : List String) (s : String) : Bool := slice.contains s

/-- `getSignRequest`: the version picks the decoder; what it leaves undecoded is dropped. -/
def getSignRequest (req : SignRequest PKH) : Except Error Request.SignRequest :=
  match req.signOptions.version with
  | 1 => (g.decodeV1 req.message).map fun r => .v1 r.1
  | _ => (g.decodeLatest req.message).map fun r => .latest r.1

/-- `getOperations`: the version picks the package whose generic request is looked for. -/
def getOperations (req : SignRequest PKH) (msg : Request.SignRequest) : Option (List OperationContents) :=
  match req.signOptions.version, msg with
  | 1, .v1 (.generic contents) => some contents
  | 1, _ => none
  | _, .latest (.generic contents) => some contents
  | _, _ => none

def matchChain (policy : PublicKeyPolicy PKH) (msg : Request.SignRequest) : Except Error Unit :=
  match policy.allowedChains, msg.asWithWatermark with
  | some chains, some m =>
    if strInSlice chains (g.chainText m.chainID) then .ok ()
    else .error { text := "chain `" ++ g.chainText m.chainID ++ "' is not allowed" }
  | _, _ => .ok ()

def matchClient (policy : PublicKeyPolicy PKH) (req : SignRequest PKH) : Except Error Unit :=
  match policy.authorizedKeyHashes, req.clientPublicKeyHash with
  | none, _ => .ok ()
  | some _, none => .error { text := "authentication required" }
  | some hashes, some client =>
    if hashes.any (fun k => toComparable k == toComparable client) then .ok ()
    else .error { text := "client `" ++ g.pkhText client ++ "' is not allowed" }

def matchRequest (policy : PublicKeyPolicy PKH) (msg : Request.SignRequest) : Except Error Unit :=
  if strInSlice policy.allowedRequests msg.SignRequestKind then .ok ()
  else .error { text := "request kind `" ++ msg.SignRequestKind ++ "' is not allowed" }

/-- The kind of an operation, as errors report it, and whether it is allowed. -/
def allowedOperation (policy : PublicKeyPolicy PKH) : OperationContents → String × Bool
  | .ballot vote =>
    let opKind := "ballot:" ++ vote.String
    (opKind, strInSlice policy.allowedOps "ballot" || strInSlice policy.allowedOps opKind)
  | op => (GetOperationKind op, strInSlice policy.allowedOps (GetOperationKind op))

def matchOperations (policy : PublicKeyPolicy PKH) : List OperationContents → Except Error Unit
  | [] => .ok ()
  | op :: ops =>
    match allowedOperation policy op with
    | (_, true) => matchOperations policy ops
    | (opKind, false) => .error { text := "operation `" ++ opKind ++ "' is not allowed" }

/-- `matchFilter`. -/
def matchFilter (policy : PublicKeyPolicy PKH) (req : SignRequest PKH) (msg : Request.SignRequest) :
    Except Error Unit := do
  matchChain g policy msg
  matchClient g policy req
  matchRequest policy msg
  matchOperations policy ((getOperations req msg).getD [])

def jwtVerifyUser (user : String) (policy : PublicKeyPolicy PKH) (req : SignRequest PKH) : Except Error Unit :=
  match policy.authorizedJwtUsers with
  | none => .ok ()
  | some users =>
    if users.any (· == user) then .ok ()
    else .error { text := "user `" ++ user ++ "' is not authorized to access " ++ g.pkhText req.publicKeyHash }

end Check

end Signatory.Signer
