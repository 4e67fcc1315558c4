import Signatory.Signer.Mediation

/-!
# What is signed and what was decoded

`getSignRequest` drops the bytes that the decoder leaves.  A message with such bytes is checked as if they were not
there and signed with them.

* `signed_decoded_iff` — the messages whose signature covers only what was decoded are those on which the decoder
  leaves no bytes, or fails.
-/

namespace Signatory.Signer

open Hashmap Lib.Command
open Request (GetOperationKind ProtoSignRequest)

variable {PKH PK Key Enc ω Sig : Type} {g : Gotez PKH PK} [KeyReference Key PK] [DecidableEq Enc] [ToComparable PKH Enc]

variable (g) in
/-- `encoding.Decode` as `getSignRequest` calls it, with the bytes it leaves. -/
def decode (opts : SignOptions) (message : Bytes) : Except Error (ProtoSignRequest × Bytes) :=
  match opts.version with
  | 1 => g.decodeV1 message
  | _ => g.decodeLatest message

omit [DecidableEq Enc] [ToComparable PKH Enc] [KeyReference Key PK] in
/-- A request is decoded if the decoder of its version succeeds, whatever it leaves. -/
lemma getSignRequest_ok_iff {req : SignRequest PKH} :
    (∃ msg, getSignRequest g req = .ok msg) ↔ ∃ r, decode g req.signOptions req.message = .ok r := by
  unfold getSignRequest decode
  by_cases hversion : req.signOptions.version = 1
  · simp [hversion, Lib.Fallible.ok_map_iff]
  · simp [Lib.Fallible.ok_map_iff]

/-- A policy under which a request passes the filter. -/
def permissive (req : SignRequest PKH) (msg : Request.SignRequest) : PublicKeyPolicy PKH where
  allowedRequests := [msg.SignRequestKind]
  allowedOps := ((getOperations req msg).getD []).map GetOperationKind

lemma matchFilter_permissive (req : SignRequest PKH) (msg : Request.SignRequest) :
    matchFilter g (permissive req msg) req msg = .ok () := by
  have hoperations : ∀ op ∈ (getOperations req msg).getD [], OperationMeant (permissive req msg).allowedOps op := by
    intro op hop
    have hlisted : GetOperationKind op ∈ (permissive req msg).allowedOps := List.mem_map_of_mem hop
    cases op with
    | ballot vote => exact .inl hlisted
    | other kind => exact hlisted
  refine matchFilter_ok_iff.2 ⟨matchChain_ok_iff.2 ?_, matchClient_ok_iff.2 ?_, matchRequest_ok_iff.2 ?_,
    (matchOperations_ok_iff _).2 hoperations⟩
  · rintro chains ⟨⟩
  · rintro hashes ⟨⟩
  · exact List.mem_singleton.2 rfl

/-! ## A signatory that signs whatever decodes -/

section Open

variable (key : Key) (req : SignRequest PKH)

variable (Enc ω) in
/-- The policy of the key admits the request, the watermark backend agrees, and there is no hook. -/
def openConfig (msg : Request.SignRequest) : Config PKH PK Enc ω where
  policy := ((∅ : Policy Enc PKH).Insert req.publicKeyHash (some (permissive req msg))).2
  watermark s _ := (.ok (), s)
  policyHook := none

/-- The only vault lists the key. -/
def openAnswers : Answers Key Sig where
  vaults := [("", [.key key])]
  hook := ⟨.ok [], fun _ _ => .error { text := "" }⟩
  sign := .error { text := "" }
  provePossession := .error { text := "" }

variable (Enc g) in
lemma getPublicKey_open :
    (exec (getPublicKey [("", [.key key])] (g.hash (publicKey key))) (⟨none⟩ : KeyCache g Key Enc)).1 =
      .ok ⟨g.hash (publicKey key), key, "", rfl⟩ := by
  let p : KeyVaultPair g Key := ⟨g.hash (publicKey key), key, "", rfl⟩
  have hlisted : (PublicKeys.empty.Insert p : PublicKeys g Key Enc).Get (g.hash (publicKey key)) = some p :=
    (get_insert _ _ _ _).trans (if_pos rfl)
  rw [← wp_value]
  simp only [getPublicKey, listPublicKeys, listVaults, listVault, KeyCache.get, Option.bind_none, wp_bind, wp_get,
    wp_modify, wp_pure]
  rw [hlisted, wp_pure]

lemma cleared_open (codec : HookCodec PKH PK Sig) (s : ω) {msg : Request.SignRequest}
    (hkey : g.hash (publicKey key) = req.publicKeyHash) (hmsg : getSignRequest g req = .ok msg) :
    ∃ p, Cleared (openConfig Enc ω req msg) codec .absent req (openAnswers key) (New s : World g Key Enc ω)
      (permissive req msg) msg p := by
  have hpolicy : (openConfig Enc ω req msg : Config PKH PK Enc ω).policy.Get req.publicKeyHash =
      some (some (permissive req msg)) := (get_insert _ _ _ _).trans (if_pos rfl)
  refine ⟨⟨g.hash (publicKey key), key, "", rfl⟩,
    ⟨Or.inl hpolicy, ⟨by simp, by simp⟩, decodes_iff.2 hmsg, ?_, matchFilter_permissive _ _, rfl⟩⟩
  rw [← hkey]
  exact getPublicKey_open Enc g key

end Open

/-- **What is signed was decoded**, for a key and a request for it, under every configuration, context, state and
answer, if and only if the message is not a sign request followed by further bytes. -/
theorem signed_decoded_iff [Inhabited ω] (key : Key) (client : Option PKH) (opts : SignOptions)
    (source message : Bytes) :
    (∀ (cfg : Config PKH PK Enc ω) (codec : HookCodec PKH PK Sig) ctx a (w : World g Key Enc ω),
      Adds (fun calls => ∀ key message opts, .sign key message opts ∈ calls →
          ∃ r, decode g opts message = .ok (r, [])) w
        (exec (Sign cfg codec ctx ⟨client, g.hash (publicKey key), opts, source, message⟩ a) w).2) ↔
      ∀ r rest, decode g opts message = .ok (r, rest) → rest = [] := by
  constructor
  · intro h r rest hdecode
    let req : SignRequest PKH := ⟨client, g.hash (publicKey key), opts, source, message⟩
    obtain ⟨msg, hmsg⟩ : ∃ msg, getSignRequest g req = .ok msg := getSignRequest_ok_iff.2 ⟨(r, rest), hdecode⟩
    -- the request is signed by a signatory that lets it through
    obtain ⟨p, hcleared⟩ : ∃ p, Cleared (openConfig Enc ω req msg) (sampleCodec : HookCodec PKH PK Sig) .absent req
        (openAnswers key) (New default : World g Key Enc ω) (permissive req msg) msg p :=
      cleared_open key req _ default rfl hmsg
    obtain ⟨calls, ⟨hcalls, hmediated⟩, -⟩ := (h (openConfig Enc ω req msg) sampleCodec .absent (openAnswers key)
      (New default)).and (sign_calls _ _ _ _ _ _)
    cases hmediated with
    | refused hno => exact absurd hcleared (hno _ _ _)
    | conflict _ hwatermark => cases hwatermark
    | signed _ _ =>
      obtain ⟨r', hr'⟩ := hcalls _ _ _ (List.mem_cons_of_mem _ (List.mem_singleton.2 rfl))
      cases hdecode.symm.trans hr'
      rfl
  · intro hwhole cfg codec ctx a w
    obtain ⟨calls, hmediated, hlog⟩ :=
      sign_calls cfg codec ctx ⟨client, g.hash (publicKey key), opts, source, message⟩ a w
    refine ⟨calls, fun key' message' opts' hmem => ?_, hlog⟩
    cases hmediated with
    | refused _ => simp at hmem
    | conflict _ _ => simp at hmem
    | signed hcleared _ =>
      obtain ⟨-, rfl, rfl⟩ : _ ∧ message' = message ∧ opts' = opts := by simpa using hmem
      obtain ⟨⟨r, rest⟩, hdecode⟩ := getSignRequest_ok_iff.1 ⟨_, decodes_iff.1 hcleared.decoded⟩
      obtain rfl := hwhole r rest hdecode
      exact ⟨r, hdecode⟩

/-- A byte after a block is not seen by any check, and is signed. -/
theorem signed_undecoded_byte :
    decode sampleGotez ⟨2⟩ [17, 0] = .ok (.withWatermark ⟨"block", 0, 1, 0⟩, [0]) ∧
      .sign ⟨0⟩ [17, 0] ⟨2⟩ ∈ sampleSign none .absent (sampleRequest [17, 0]) := by
  have hsigned : sampleSign none .absent (sampleRequest [17, 0]) =
      [.isSafeToSign ⟨0, .latest (.withWatermark ⟨"block", 0, 1, 0⟩), 2⟩ (.ok ()), .sign ⟨0⟩ [17, 0] ⟨2⟩] := rfl
  rw [hsigned]
  exact ⟨rfl, List.mem_cons_of_mem _ (List.mem_singleton.2 rfl)⟩

end Signatory.Signer
