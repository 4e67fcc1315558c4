import Signatory.Signer.Policy

/-!
# `pkg/signatory`: the policy hook

`callPolicyHook` asks an external service before a key is used.  The random nonce and the service are the parameter
`HookAnswers`; what JSON and gotez make of the reply is the parameter `HookCodec`.
-/

namespace Signatory.Signer

/-- `PolicyHook`; `auth` is `AuthorizedKeysStorage.GetPublicKey`. -/
structure PolicyHook (PKH PK : Type) where
  address : String
  auth : Option (PKH → Except Error PK)

structure PolicyHookRequest where
  request : Bytes
  source : Bytes
  clientKeyHash : String
  publicKeyHash : String
  nonce : Bytes

structure PolicyHookReplyPayload where
  status : ℤ
  error : String
  publicKeyHash : String
  nonce : Bytes

structure PolicyHookReply where
  payload : Bytes
  signature : String

/-- What is used of an `http.Response`. -/
structure Response where
  statusCode : ℕ
  status : String
  body : Bytes

/-- Decoders of the reply, and the check of a signature. -/
structure HookCodec (PKH PK Sig : Type) where
  decodeReply : Bytes → Except Error PolicyHookReply
  unmarshalPayload : Bytes → Except Error PolicyHookReplyPayload
  ParsePublicKeyHash : String → Except Error PKH
  ParseSignature : String → Except Error Sig
  Verify : Sig → PK → Bytes → Bool

/-- What happens outside during a call: the random nonce, and the answer to the request that is sent to an
address. -/
structure HookAnswers where
  nonce : Except Error Bytes
  post : String → PolicyHookRequest → Except Error Response

variable {PKH PK Sig : Type} (g : Gotez PKH PK) (codec : HookCodec PKH PK Sig)

/-- The status of the error that passes a refusal on. -/
def refusalStatus (resp : Response) : ℕ := if resp.statusCode / 100 = 4 then 403 else 500

/-- The checks on an authenticated reply. -/
def authenticateReply (getPublicKey : PKH → Except Error PK) (hookReq : PolicyHookRequest) (resp : Response) :
    Except Error Unit := do
  let reply ← codec.decodeReply resp.body
  let pl ← codec.unmarshalPayload reply.payload
  if pl.status ≠ resp.statusCode then
    throw { text := "the policy hook reply status must match the HTTP header" }
  if pl.nonce ≠ hookReq.nonce then
    throw (Wrap { text := "nonce mismatch" } 403)
  let pkh ← (codec.ParsePublicKeyHash pl.publicKeyHash).mapError (Wrap · 403)
  let pub ← (getPublicKey pkh).mapError (Wrap · 403)
  let sig ← codec.ParseSignature reply.signature
  if !codec.Verify sig pub reply.payload then
    throw (Wrap { text := "invalid hook reply signature" } 403)
  if resp.statusCode / 100 ≠ 2 then
    let msg := if pl.error ≠ "" then pl.error else resp.status
    throw (Wrap { text := "policy hook: " ++ msg } (refusalStatus resp))

/-- The request that is sent to the service. -/
def hookRequest (req : SignRequest PKH) (nonce : Bytes) : PolicyHookRequest where
  request := req.message
  source := req.source
  clientKeyHash := (req.clientPublicKeyHash.map g.pkhText).getD ""
  publicKeyHash := g.pkhText req.publicKeyHash
  nonce := nonce

def callPolicyHook (policyHook : Option (PolicyHook PKH PK)) (a : HookAnswers) (req : SignRequest PKH) :
    Except Error Unit :=
  match policyHook with
  | none => .ok ()
  | some hook => do
    let nonce ← a.nonce
    let hookReq := hookRequest g req nonce
    let resp ← a.post hook.address hookReq
    match hook.auth with
    | some getPublicKey => authenticateReply codec getPublicKey hookReq resp
    | none =>
      if resp.statusCode / 100 ≠ 2 then
        throw (Wrap { text := "policy hook: " ++ resp.status } (refusalStatus resp))

end Signatory.Signer
