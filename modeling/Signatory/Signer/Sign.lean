import Signatory.Signer.Keys
import Signatory.Signer.PolicyHook
import Signatory.Watermark.Mem

/-!
# `pkg/signatory`: `Sign` and `ProvePossession`

Both are commands on the state of a signatory: its key cache, the state of its watermark backend, and a log of the
calls that matter here, of the watermark backend and of key references.  The backend is any function on states of any
type, and what vaults, hook and keys answer during a call is its parameter `Answers`.  The interceptors, which call
their target exactly once, and logging are left out.

A call reads the cache once and asks the watermark backend at most once, so calls that run at the same time only change
the two parts of the state that it finds there.
-/

namespace Signatory.Signer

open Hashmap Lib.Command

/-- The calls of a watermark backend, with its answer, and of key references. -/
inductive Event (PKH Key : Type) where
  | isSafeToSign (call : Watermark.Call PKH) (answer : Except Error Unit)
  | sign (key : Key) (message : Bytes) (opts : SignOptions)
  | provePossession (key : Key)

/-- `Config`; `ω` are the states of the watermark backend. -/
structure Config (PKH PK Enc ω : Type) where
  policy : Policy Enc PKH
  watermark : ω → Watermark.Call PKH → Except Error Unit × ω
  policyHook : Option (PolicyHook PKH PK)

/-- `Signatory`, with its surroundings. -/
structure World {PKH PK : Type} (g : Gotez PKH PK) (Key Enc ω : Type) [KeyReference Key PK] [DecidableEq Enc]
    [ToComparable PKH Enc] where
  cache : KeyCache g Key Enc
  watermark : ω
  log : List (Event PKH Key)

/-- `New`: the cache is empty. -/
def New {PKH PK Key Enc ω : Type} {g : Gotez PKH PK} [KeyReference Key PK] [DecidableEq Enc] [ToComparable PKH Enc]
    (watermark : ω) : World g Key Enc ω := ⟨⟨none⟩, watermark, []⟩

/-- `watermark.ErrWatermark`. -/
def ErrWatermark : Error := { text := "watermark validation failed" }

/-- `watermark.InMemory` as the backend; it has no other error. -/
def inMemory {PKH Enc : Type} [DecidableEq Enc] [ToComparable PKH Enc] (s : Watermark.InMemory Enc)
    (call : Watermark.Call PKH) : Except Error Unit × Watermark.InMemory Enc :=
  ((s.IsSafeToSign call).1.mapError fun _ => ErrWatermark, (s.IsSafeToSign call).2)

/-- What vaults, hook and key answer during a call. -/
structure Answers (Key Sig : Type) where
  vaults : List (String × List (Next Key))
  hook : HookAnswers
  sign : Except Error Sig
  provePossession : Except Error Sig

/-- `ctx.Value("user")`: nil, a string, or something that is not a string. -/
inductive ContextUser where
  | absent
  | name (user : String)
  | other

/-- How a call ends without a signature. -/
inductive Stop where
  | error (e : Error)
  | panic

/-- The error is returned with an HTTP status. -/
def refuse {α : Type} (status : ℕ) (x : Except Error α) : Except Stop α := x.mapError fun e => .error (Wrap e status)

/-- The error is returned as it is. -/
def pass {α : Type} (x : Except Error α) : Except Stop α := x.mapError .error

section

variable {PKH PK Key Enc ω Sig : Type} (g : Gotez PKH PK) [KeyReference Key PK] [DecidableEq Enc] [ToComparable PKH Enc]

/-- The error for a key without a policy. -/
def notListed (req : SignRequest PKH) : Error :=
  Wrap { text := String.ofList ((g.pkhText req.publicKeyHash).toList.filter (· ≠ '\n')) ++
    " is not listed in config" } 403

/-- The check of the user in the context; the type assertion panics on a value that is not a string. -/
def verifyUser (ctx : ContextUser) (policy : PublicKeyPolicy PKH) (req : SignRequest PKH) : Except Stop Unit :=
  match ctx with
  | .absent => .ok ()
  | .name user => refuse 403 (jwtVerifyUser g user policy req)
  | .other => .error .panic

variable {g} (cfg : Config PKH PK Enc ω)

/-- A command on the key cache of the signatory. -/
def onCache {α : Type} (c : Cmd (KeyCache g Key Enc) Error α) : Cmd (World g Key Enc ω) Stop α :=
  within (·.cache) (fun cache w => { w with cache }) .error c

/-- `Watermark.IsSafeToSign`. -/
def isSafeToSign (call : Watermark.Call PKH) : Cmd (World g Key Enc ω) Stop Unit := do
  let answer ← modifyGet fun w =>
    ((cfg.watermark w.watermark call).1, { w with
      watermark := (cfg.watermark w.watermark call).2
      log := w.log ++ [.isSafeToSign call (cfg.watermark w.watermark call).1] })
  refuse 409 answer

/-- `KeyReference.Sign`. -/
def keySign (a : Answers Key Sig) (key : Key) (message : Bytes) (opts : SignOptions) :
    Cmd (World g Key Enc ω) Stop Sig := do
  modify fun w => { w with log := w.log ++ [.sign key message opts] }
  pass a.sign

/-- `PossessionProver.ProvePossession`. -/
def keyProvePossession (a : Answers Key Sig) (key : Key) : Cmd (World g Key Enc ω) Stop Sig := do
  modify fun w => { w with log := w.log ++ [.provePossession key] }
  pass a.provePossession

/-- The closure `signFunc` of `Sign`. -/
def signFunc (a : Answers Key Sig) (req : SignRequest PKH) (msg : Request.SignRequest) (digest : Digest)
    (message : Bytes) (key : Key) : Cmd (World g Key Enc ω) Stop Sig := do
  isSafeToSign cfg ⟨req.publicKeyHash, msg, digest⟩
  keySign a key message req.signOptions

variable (codec : HookCodec PKH PK Sig) (ctx : ContextUser) (req : SignRequest PKH) (a : Answers Key Sig)

def Sign : Cmd (World g Key Enc ω) Stop Sig := do
  match fetchPolicyOrDefault cfg.policy req.publicKeyHash with
  | none => throw (.error (notListed g req))
  | some policy =>
    verifyUser g ctx policy req
    let msg ← refuse 400 (getSignRequest g req)
    let p ← onCache (getPublicKey a.vaults req.publicKeyHash)
    refuse 403 (matchFilter g policy req msg)
    pass (callPolicyHook g codec cfg.policyHook a.hook req)
    let digest := g.digest req.message
    signFunc cfg a req msg digest req.message p.key

/-- `ProvePossession`, which decodes nothing and asks neither `matchFilter` nor the watermark backend. -/
def ProvePossession : Cmd (World g Key Enc ω) Stop Sig := do
  match fetchPolicyOrDefault cfg.policy req.publicKeyHash with
  | none => throw (.error (notListed g req))
  | some policy =>
    verifyUser g ctx policy req
    let p ← onCache (getPublicKey a.vaults req.publicKeyHash)
    if !isPossessionProver p.key then
      throw (.error (Wrap { text := "proof of possession is not supported" } 400))
    if !policy.allowProofOfPossession then
      throw (.error (Wrap { text := "proof of possession is not allowed" } 400))
    pass (callPolicyHook g codec cfg.policyHook a.hook req)
    keyProvePossession a p.key

end

end Signatory.Signer
