import Signatory.Signer.PolicyMeaning
import Signatory.Signer.Sign

/-!
# Every use of a key is mediated

What `Sign` and `ProvePossession` do to the outside is the list of calls they add to the log (`Adds`).

* `Cleared` — the checks of `Sign` before the watermark;
* `Mediated` — the calls of `Sign`: none if a check fails, else one of the watermark backend, and after a nil answer
  one of the key (`sign_mediated`);
* `ProofCleared` and `ProofMediated` — the same for `ProvePossession`, which has fewer checks;
* `key_use_authorized` — the restrictions on clients and users that follow.
-/

namespace Signatory.Signer

open Hashmap Lib.Command

@[simp] lemma refuse_ok_iff {α : Type} {status : ℕ} {x : Except Error α} {r : α} :
    refuse status x = .ok r ↔ x = .ok r := by
  cases x <;> simp [refuse, Except.mapError]

@[simp] lemma pass_ok_iff {α : Type} {x : Except Error α} {r : α} : pass x = .ok r ↔ x = .ok r := by
  cases x <;> simp [pass, Except.mapError]

section

variable {PKH PK Key Enc ω Sig : Type} {g : Gotez PKH PK} [KeyReference Key PK] [DecidableEq Enc] [ToComparable PKH Enc]
  (cfg : Config PKH PK Enc ω) (codec : HookCodec PKH PK Sig) (ctx : ContextUser) (req : SignRequest PKH)
  (a : Answers Key Sig) (w : World g Key Enc ω)

lemma verifyUser_ok_iff {policy : PublicKeyPolicy PKH} :
    verifyUser g ctx policy req = .ok () ↔
      ctx ≠ .other ∧ ∀ user, ctx = .name user → jwtVerifyUser g user policy req = .ok () := by
  cases ctx <;> simp [verifyUser]

/-- The calls made between the states `w` and `w'` are as `P` says. -/
def Adds (P : List (Event PKH Key) → Prop) (w w' : World g Key Enc ω) : Prop :=
  ∃ calls, P calls ∧ w'.log = w.log ++ calls

lemma Adds.none {P : List (Event PKH Key) → Prop} {w w' : World g Key Enc ω} (h : P []) (hlog : w'.log = w.log) :
    Adds P w w' := ⟨[], h, by rw [hlog, List.append_nil]⟩

lemma Adds.and {P R : List (Event PKH Key) → Prop} {w w' : World g Key Enc ω} (hP : Adds P w w') (hR : Adds R w w') :
    Adds (fun calls => P calls ∧ R calls) w w' := by
  obtain ⟨calls, hp, hlog⟩ := hP
  obtain ⟨calls', hr, hlog'⟩ := hR
  obtain rfl := List.append_cancel_left (hlog.symm.trans hlog')
  exact ⟨calls, ⟨hp, hr⟩, hlog⟩

/-! ## `Sign` -/

/-- **The checks before the watermark** pass: the key has a policy, a user in the context is a string that
`jwtVerifyUser` accepts, the message decodes, the key is found, the filter accepts and the hook agrees. -/
structure Cleared (policy : PublicKeyPolicy PKH) (msg : Request.SignRequest) (p : KeyVaultPair g Key) : Prop where
  listed : PolicyFor cfg.policy req.publicKeyHash policy
  user : ctx ≠ .other ∧ ∀ user, ctx = .name user → jwtVerifyUser g user policy req = .ok ()
  decoded : Decodes g req.signOptions req.message msg
  found : (exec (getPublicKey a.vaults req.publicKeyHash) w.cache).1 = .ok p
  filter : matchFilter g policy req msg = .ok ()
  hook : callPolicyHook g codec cfg.policyHook a.hook req = .ok ()

variable (g) in
/-- The call of the watermark backend that `Sign` makes for a decoded request. -/
abbrev watermarkCall (msg : Request.SignRequest) : Watermark.Call PKH := ⟨req.publicKeyHash, msg, g.digest req.message⟩

/-- **The calls of `Sign`** in the state `w`. -/
inductive Mediated : List (Event PKH Key) → Prop
  /-- A check fails: no call. -/
  | refused (h : ∀ policy msg p, ¬ Cleared cfg codec ctx req a w policy msg p) : Mediated []
  /-- The watermark backend answers with an error: the key is not called. -/
  | conflict {policy : PublicKeyPolicy PKH} {msg : Request.SignRequest} {p : KeyVaultPair g Key} {e : Error}
      (h : Cleared cfg codec ctx req a w policy msg p)
      (hwatermark : (cfg.watermark w.watermark (watermarkCall g req msg)).1 = .error e) :
      Mediated [.isSafeToSign (watermarkCall g req msg) (.error e)]
  /-- Everything passes: the key that was found signs the message. -/
  | signed {policy : PublicKeyPolicy PKH} {msg : Request.SignRequest} {p : KeyVaultPair g Key}
      (h : Cleared cfg codec ctx req a w policy msg p)
      (hwatermark : (cfg.watermark w.watermark (watermarkCall g req msg)).1 = .ok ()) :
      Mediated [.isSafeToSign (watermarkCall g req msg) (.ok ()), .sign p.key req.message req.signOptions]

/-- `signFunc` asks the watermark backend, and after a nil answer the key. -/
lemma log_signFunc (msg : Request.SignRequest) (key : Key) :
    (exec (signFunc cfg a req msg (g.digest req.message) req.message key) w).2.log =
      w.log ++ .isSafeToSign (watermarkCall g req msg) (cfg.watermark w.watermark (watermarkCall g req msg)).1 ::
        match (cfg.watermark w.watermark (watermarkCall g req msg)).1 with
        | .error _ => []
        | .ok _ => [.sign key req.message req.signOptions] := by
  refine (wp_state _ (fun w' : World g Key Enc ω => w'.log = _)).1 ?_
  simp only [signFunc, isSafeToSign, keySign, wp_bind, wp_modifyGet, wp_liftM, wp_modify]
  cases (cfg.watermark w.watermark (watermarkCall g req msg)).1 with
  | error e => simp [refuse, Except.mapError]
  | ok _ => simp [refuse, Except.mapError]

lemma sign_calls : Adds (Mediated cfg codec ctx req a w) w (exec (Sign cfg codec ctx req a) w).2 := by
  refine (wp_state _ (Adds (Mediated cfg codec ctx req a w) w)).1 ?_
  unfold Sign
  cases hpolicy : fetchPolicyOrDefault cfg.policy req.publicKeyHash with
  | none =>
    rw [wp_throw]
    exact .none (.refused fun policy msg p h => by cases hpolicy.symm.trans (policyFor_iff.1 h.listed)) rfl
  | some policy =>
    simp only [wp_bind, wp_liftM, onCache, wp_within]
    have hsame : ∀ {policy' msg p}, Cleared cfg codec ctx req a w policy' msg p → policy' = policy := by
      intro policy' msg p h
      exact Option.some.inj ((policyFor_iff.1 h.listed).symm.trans hpolicy)
    refine ⟨fun _ huser => ⟨fun msg hmsg => ?_, fun e hmsg => ?_⟩, fun e huser => ?_⟩
    · rw [refuse_ok_iff] at hmsg
      have hdecoded : ∀ {policy' msg' p}, Cleared cfg codec ctx req a w policy' msg' p → msg' = msg := by
        intro policy' msg' p h
        exact Except.ok.inj ((decodes_iff.1 h.decoded).symm.trans hmsg)
      refine wp_of_exec _ (fun p k hp => ⟨fun _ hfilter => ⟨fun _ hhook => ?_, fun e hhook => ?_⟩, fun e hfilter => ?_⟩)
        (fun e k hp => ?_)
      · -- every check has passed
        have hcleared : Cleared cfg codec ctx req a w policy msg p :=
          ⟨policyFor_iff.2 hpolicy, (verifyUser_ok_iff ctx req).1 huser, decodes_iff.2 hmsg, by rw [hp],
            refuse_ok_iff.1 hfilter, pass_ok_iff.1 hhook⟩
        refine (wp_state _ (Adds (Mediated cfg codec ctx req a w) w)).2 ⟨_, ?_, log_signFunc cfg req a _ msg p.key⟩
        cases hanswer : (cfg.watermark w.watermark (watermarkCall g req msg)).1 with
        | error e => exact .conflict hcleared hanswer
        | ok _ => exact .signed hcleared hanswer
      · exact .none (.refused fun _ _ _ h => by cases hhook.symm.trans (pass_ok_iff.2 h.hook)) rfl
      · refine .none (.refused fun policy' msg' p' h => ?_) rfl
        obtain ⟨rfl, rfl⟩ := And.intro (hsame h) (hdecoded h)
        cases hfilter.symm.trans (refuse_ok_iff.2 h.filter)
      · refine .none (.refused fun policy' msg' p' h => ?_) rfl
        have hfound := h.found
        rw [hp] at hfound
        cases hfound
    · exact .none (.refused fun _ _ _ h => by
        cases hmsg.symm.trans (refuse_ok_iff.2 (decodes_iff.1 h.decoded))) rfl
    · refine .none (.refused fun policy' msg' p' h => ?_) rfl
      obtain rfl := hsame h
      cases huser.symm.trans ((verifyUser_ok_iff ctx req).2 h.user)

/-- The key that was found has the hash that was asked for, if hashes are faithful map keys. -/
lemma hash_of_found (hmap : Function.Injective (toComparable : PKH → Enc)) {p : KeyVaultPair g Key}
    (h : (exec (getPublicKey a.vaults req.publicKeyHash) w.cache).1 = .ok p) :
    g.hash (publicKey p.key) = req.publicKeyHash :=
  p.hash_key.trans (hmap (pkh_of_getPublicKey (Prod.ext h rfl)))

/-- **Complete mediation.**  Whatever the configuration, the state, the context, the request and the answers of vaults,
hook, key and watermark backend: the calls that `Sign` makes are mediated, and a key that signs has the hash that was
asked for. -/
theorem sign_mediated (hmap : Function.Injective (toComparable : PKH → Enc)) :
    Adds (fun calls => Mediated cfg codec ctx req a w calls ∧
        ∀ key message opts, .sign key message opts ∈ calls → g.hash (publicKey key) = req.publicKeyHash)
      w (exec (Sign cfg codec ctx req a) w).2 := by
  obtain ⟨calls, hcalls, hlog⟩ := sign_calls cfg codec ctx req a w
  refine ⟨calls, ⟨hcalls, fun key message opts hmem => ?_⟩, hlog⟩
  cases hcalls with
  | refused _ => simp at hmem
  | conflict _ _ => simp at hmem
  | signed h _ =>
    obtain ⟨rfl, -, -⟩ : key = _ ∧ message = _ ∧ opts = _ := by simpa using hmem
    exact hash_of_found req a w hmap h.found

end

/-! ### A small signatory -/

/-- A key is its hash, and can prove that it is possessed. -/
structure SampleKey where
  hash : EncodedPublicKeyHash

instance : KeyReference SampleKey EncodedPublicKeyHash := ⟨SampleKey.hash, fun _ => true⟩

/-- The key `0` has the policy `pol`, watermarks are kept in memory, and there is no hook. -/
def sampleConfig (pol : Option (PublicKeyPolicy EncodedPublicKeyHash)) :
    Config EncodedPublicKeyHash EncodedPublicKeyHash EncodedPublicKeyHash
      (Watermark.InMemory EncodedPublicKeyHash) where
  policy := AList.singleton 0 pol
  watermark := inMemory
  policyHook := none

/-- Nothing is decoded where there is no hook. -/
def sampleCodec {PKH PK Sig : Type} : HookCodec PKH PK Sig where
  decodeReply _ := .error { text := "no hook" }
  unmarshalPayload _ := .error { text := "no hook" }
  ParsePublicKeyHash _ := .error { text := "no hook" }
  ParseSignature _ := .error { text := "no hook" }
  Verify _ _ _ := false

/-- One vault with the key `0`, which signs. -/
def sampleAnswers : Answers SampleKey Unit where
  vaults := [("vault", [.errKey, .key ⟨0⟩])]
  hook := ⟨.ok [], fun _ _ => .error { text := "no hook" }⟩
  sign := .ok ()
  provePossession := .ok ()

def sampleWorld : World sampleGotez SampleKey EncodedPublicKeyHash (Watermark.InMemory EncodedPublicKeyHash) :=
  New ⟨none⟩

/-- The calls of the small signatory when it is asked to sign. -/
def sampleSign (pol : Option (PublicKeyPolicy EncodedPublicKeyHash)) (ctx : ContextUser)
    (req : SignRequest EncodedPublicKeyHash) : List (Event EncodedPublicKeyHash SampleKey) :=
  (exec (Sign (sampleConfig pol) sampleCodec ctx req sampleAnswers) sampleWorld).2.log

/-- The calls of the small signatory when it is asked for a proof of possession. -/
def sampleProvePossession (pol : Option (PublicKeyPolicy EncodedPublicKeyHash)) (ctx : ContextUser)
    (req : SignRequest EncodedPublicKeyHash) : List (Event EncodedPublicKeyHash SampleKey) :=
  (exec (ProvePossession (sampleConfig pol) sampleCodec ctx req sampleAnswers) sampleWorld).2.log

/-- With the default policy a block is signed, after all checks. -/
theorem sign_mediated_block :
    ∃ policy msg p, Cleared (sampleConfig none) sampleCodec .absent (sampleRequest [17]) sampleAnswers sampleWorld
        policy msg p ∧
      sampleSign none .absent (sampleRequest [17]) =
        [.isSafeToSign ⟨0, msg, sampleGotez.digest [17]⟩ (.ok ()), .sign p.key [17] ⟨2⟩] ∧
      sampleGotez.hash (publicKey p.key) = 0 := by
  obtain ⟨calls, ⟨hcalls, hkey⟩, hlog⟩ := sign_mediated (sampleConfig none) sampleCodec .absent (sampleRequest [17])
    sampleAnswers sampleWorld (fun _ _ h => h)
  have hsigned : sampleSign none .absent (sampleRequest [17]) =
      [.isSafeToSign ⟨0, .latest (.withWatermark ⟨"block", 0, 1, 0⟩), 1⟩ (.ok ()), .sign ⟨0⟩ [17] ⟨2⟩] := rfl
  have hcalled : sampleSign none .absent (sampleRequest [17]) = calls := hlog
  cases hcalls with
  | refused _ => cases hsigned.symm.trans hcalled
  | conflict _ _ => cases hsigned.symm.trans hcalled
  | signed h _ => exact ⟨_, _, _, h, hcalled, hkey _ _ _ (List.mem_cons_of_mem _ (List.mem_singleton.2 rfl))⟩

/-! ## `ProvePossession` -/

section

variable {PKH PK Key Enc ω Sig : Type} {g : Gotez PKH PK} [KeyReference Key PK] [DecidableEq Enc] [ToComparable PKH Enc]
  (cfg : Config PKH PK Enc ω) (codec : HookCodec PKH PK Sig) (ctx : ContextUser) (req : SignRequest PKH)
  (a : Answers Key Sig) (w : World g Key Enc ω)

/-- **The checks of `ProvePossession`** pass. -/
structure ProofCleared (policy : PublicKeyPolicy PKH) (p : KeyVaultPair g Key) : Prop where
  listed : PolicyFor cfg.policy req.publicKeyHash policy
  user : ctx ≠ .other ∧ ∀ user, ctx = .name user → jwtVerifyUser g user policy req = .ok ()
  found : (exec (getPublicKey a.vaults req.publicKeyHash) w.cache).1 = .ok p
  prover : isPossessionProver p.key = true
  allowed : policy.allowProofOfPossession = true
  hook : callPolicyHook g codec cfg.policyHook a.hook req = .ok ()

/-- **The calls of `ProvePossession`** in the state `w`. -/
inductive ProofMediated : List (Event PKH Key) → Prop
  | refused (h : ∀ policy p, ¬ ProofCleared cfg codec ctx req a w policy p) : ProofMediated []
  | proved {policy : PublicKeyPolicy PKH} {p : KeyVaultPair g Key} (h : ProofCleared cfg codec ctx req a w policy p) :
      ProofMediated [.provePossession p.key]

lemma provePossession_calls :
    Adds (ProofMediated cfg codec ctx req a w) w (exec (ProvePossession cfg codec ctx req a) w).2 := by
  refine (wp_state _ (Adds (ProofMediated cfg codec ctx req a w) w)).1 ?_
  unfold ProvePossession
  cases hpolicy : fetchPolicyOrDefault cfg.policy req.publicKeyHash with
  | none =>
    rw [wp_throw]
    exact .none (.refused fun policy p h => by cases hpolicy.symm.trans (policyFor_iff.1 h.listed)) rfl
  | some policy =>
    have hsame : ∀ {policy' p}, ProofCleared cfg codec ctx req a w policy' p → policy' = policy := by
      intro policy' p h
      exact Option.some.inj ((policyFor_iff.1 h.listed).symm.trans hpolicy)
    simp only [wp_bind, wp_liftM, onCache, wp_within]
    refine ⟨fun _ huser => wp_of_exec _ (fun p k hp => ?_) (fun e k hp => ?_), fun e huser => ?_⟩
    · have hfound : ∀ {policy' p'}, ProofCleared cfg codec ctx req a w policy' p' → p' = p := by
        intro policy' p' h
        have hok := h.found
        rw [hp] at hok
        exact (Except.ok.inj hok).symm
      cases hprover : isPossessionProver p.key with
      | false =>
        refine .none (.refused fun policy' p' h => ?_) rfl
        obtain rfl := hfound h
        cases hprover.symm.trans h.prover
      | true =>
        cases hallowed : policy.allowProofOfPossession with
        | false =>
          refine .none (.refused fun policy' p' h => ?_) rfl
          obtain rfl := hsame h
          cases hallowed.symm.trans h.allowed
        | true =>
          simp only [Bool.not_true, Bool.false_eq_true, if_false, wp_bind, wp_liftM, keyProvePossession, wp_modify]
          refine ⟨fun _ hhook => ?_, fun e hhook => ?_⟩
          · have hcleared : ProofCleared cfg codec ctx req a w policy p :=
              ⟨policyFor_iff.2 hpolicy, (verifyUser_ok_iff ctx req).1 huser, by rw [hp], hprover, hallowed,
                pass_ok_iff.1 hhook⟩
            exact ⟨fun _ _ => ⟨_, .proved hcleared, rfl⟩, fun _ _ => ⟨_, .proved hcleared, rfl⟩⟩
          · exact .none (.refused fun _ _ h => by cases hhook.symm.trans (pass_ok_iff.2 h.hook)) rfl
    · refine .none (.refused fun policy' p' h => ?_) rfl
      have hok := h.found
      rw [hp] at hok
      cases hok
    · refine .none (.refused fun policy' p' h => ?_) rfl
      obtain rfl := hsame h
      cases huser.symm.trans ((verifyUser_ok_iff ctx req).2 h.user)

/-! ## Who may use a key -/

/-- The client that `AuthorizedKeyHashes` asks for, if set. -/
def ClientAuthorized (policy : PublicKeyPolicy PKH) (req : SignRequest PKH) : Prop :=
  ∀ hashes, policy.authorizedKeyHashes = some hashes → ∃ client, req.clientPublicKeyHash = some client ∧ client ∈ hashes

/-- The user that `AuthorizedJwtUsers` asks for, if set. -/
def UserAuthorized (policy : PublicKeyPolicy PKH) (ctx : ContextUser) : Prop :=
  ∀ users, policy.authorizedJwtUsers = some users → ∃ user, ctx = .name user ∧ user ∈ users

variable {ctx req}

lemma clientAuthorized_of_matchFilter (hmap : Function.Injective (toComparable : PKH → Enc))
    {policy : PublicKeyPolicy PKH} {msg : Request.SignRequest} (h : matchFilter g policy req msg = .ok ()) :
    ClientAuthorized policy req := by
  intro hashes hhashes
  obtain ⟨-, hclient, -⟩ := matchFilter_ok_iff.1 h
  obtain ⟨client, hset, k, hk, hsame⟩ := matchClient_ok_iff.1 hclient hashes hhashes
  exact ⟨client, hset, hmap hsame ▸ hk⟩

/-- A context without a user is not checked. -/
lemma userAuthorized_of_present {policy : PublicKeyPolicy PKH} (hpresent : ctx ≠ .absent)
    (h : ctx ≠ .other ∧ ∀ user, ctx = .name user → jwtVerifyUser g user policy req = .ok ()) :
    UserAuthorized policy ctx := by
  intro users husers
  cases ctx with
  | absent => exact absurd rfl hpresent
  | other => exact absurd rfl h.1
  | name user => simpa [jwtVerifyUser, husers] using h.2 user rfl

variable (ctx req)

/-- **Restrictions on clients and users.**  When `Sign` calls a key, the client is authorized; when `Sign` or
`ProvePossession` call a key and the context carries a user, the user is authorized. -/
theorem key_use_authorized (hmap : Function.Injective (toComparable : PKH → Enc)) :
    Adds (fun calls => ∀ key message opts, .sign key message opts ∈ calls →
        ∃ policy, fetchPolicyOrDefault cfg.policy req.publicKeyHash = some policy ∧
          ClientAuthorized policy req ∧ (ctx ≠ .absent → UserAuthorized policy ctx))
      w (exec (Sign cfg codec ctx req a) w).2 ∧
    Adds (fun calls => ∀ key, .provePossession key ∈ calls →
        ∃ policy, fetchPolicyOrDefault cfg.policy req.publicKeyHash = some policy ∧
          (ctx ≠ .absent → UserAuthorized policy ctx))
      w (exec (ProvePossession cfg codec ctx req a) w).2 := by
  constructor
  · obtain ⟨calls, hcalls, hlog⟩ := sign_calls cfg codec ctx req a w
    refine ⟨calls, fun key message opts hmem => ?_, hlog⟩
    cases hcalls with
    | refused _ => simp at hmem
    | conflict _ _ => simp at hmem
    | signed h _ =>
      exact ⟨_, policyFor_iff.1 h.listed, clientAuthorized_of_matchFilter hmap h.filter,
        fun hp => userAuthorized_of_present hp h.user⟩
  · obtain ⟨calls, hcalls, hlog⟩ := provePossession_calls cfg codec ctx req a w
    refine ⟨calls, fun key hmem => ?_, hlog⟩
    cases hcalls with
    | refused _ => simp at hmem
    | proved h => exact ⟨_, policyFor_iff.1 h.listed, fun hp => userAuthorized_of_present hp h.user⟩

end

/-- A key for the client `1` and the user "alice". -/
def restrictedPolicy : PublicKeyPolicy EncodedPublicKeyHash where
  allowedRequests := ["block"]
  allowProofOfPossession := true
  authorizedKeyHashes := some [1]
  authorizedJwtUsers := some ["alice"]

/-- The client `1` asks for a block to be signed. -/
def clientRequest : SignRequest EncodedPublicKeyHash := { sampleRequest [17] with clientPublicKeyHash := some 1 }

/-- For the client `1` and the user "alice" the key signs. -/
theorem key_use_authorized_alice :
    .sign ⟨0⟩ [17] ⟨2⟩ ∈ sampleSign (some restrictedPolicy) (.name "alice") clientRequest ∧
      ClientAuthorized restrictedPolicy clientRequest ∧ UserAuthorized restrictedPolicy (.name "alice") := by
  obtain ⟨⟨calls, hcalls, hlog⟩, -⟩ := key_use_authorized (sampleConfig (some restrictedPolicy)) sampleCodec
    (.name "alice") clientRequest sampleAnswers sampleWorld (fun _ _ h => h)
  have hsigned : sampleSign (some restrictedPolicy) (.name "alice") clientRequest =
      [.isSafeToSign ⟨0, .latest (.withWatermark ⟨"block", 0, 1, 0⟩), 1⟩ (.ok ()), .sign ⟨0⟩ [17] ⟨2⟩] := rfl
  have hmem : .sign ⟨0⟩ [17] ⟨2⟩ ∈ sampleSign (some restrictedPolicy) (.name "alice") clientRequest := by
    rw [hsigned]
    exact List.mem_cons_of_mem _ (List.mem_singleton.2 rfl)
  have hcalled : sampleSign (some restrictedPolicy) (.name "alice") clientRequest = calls := hlog
  obtain ⟨policy, hpolicy, hclient, huser⟩ := hcalls ⟨0⟩ [17] ⟨2⟩ (hcalled ▸ hmem)
  obtain rfl : restrictedPolicy = policy := Option.some.inj hpolicy
  exact ⟨hmem, hclient, huser (by simp)⟩

/-- Without a user in the context the key signs all the same, and it proves its possession to anyone. -/
theorem key_used_without_authorization :
    fetchPolicyOrDefault (sampleConfig (some restrictedPolicy)).policy clientRequest.publicKeyHash =
        some restrictedPolicy ∧
      ¬ UserAuthorized restrictedPolicy .absent ∧
      .sign ⟨0⟩ [17] ⟨2⟩ ∈ sampleSign (some restrictedPolicy) .absent clientRequest ∧
      ¬ ClientAuthorized restrictedPolicy (sampleRequest []) ∧
      .provePossession ⟨0⟩ ∈ sampleProvePossession (some restrictedPolicy) .absent (sampleRequest []) := by
  have hsigned : sampleSign (some restrictedPolicy) .absent clientRequest =
      [.isSafeToSign ⟨0, .latest (.withWatermark ⟨"block", 0, 1, 0⟩), 1⟩ (.ok ()), .sign ⟨0⟩ [17] ⟨2⟩] := rfl
  have hproved : sampleProvePossession (some restrictedPolicy) .absent (sampleRequest []) = [.provePossession ⟨0⟩] :=
    rfl
  refine ⟨rfl, fun h => ?_, ?_, fun h => ?_, ?_⟩
  · obtain ⟨user, huser, -⟩ := h ["alice"] rfl
    cases huser
  · rw [hsigned]
    exact List.mem_cons_of_mem _ (List.mem_singleton.2 rfl)
  · obtain ⟨client, hclient, -⟩ := h [1] rfl
    cases hclient
  · rw [hproved]
    exact List.mem_singleton.2 rfl

end Signatory.Signer
