import Signatory.Lib.Threads
import Signatory.Signer.Run

/-!
# Calls of a signatory side by side

A signatory is shared by all requests that its server handles, and its methods hold no lock while they run: the key
cache is locked for one lookup or one push at a time, and the watermark backend for one call.  The programs here are
`Sign`, `ProvePossession` and `GetPublicKey` cut into these steps; run alone they are what they were
(`sign_implements`, `provePossession_implements`).

* `Effect` — what one step does to the watermark backend and to the calls of keys;
* `sat_sign`, `sat_provePossession` — whatever the others do to the cache and the backend between two steps: the calls
  that are made for a request are those of `Calls`, and its outcome tells which (`Outcome`).
-/

namespace Signatory.Signer.Concurrent

open Hashmap Lib.Command Lib.Threads

section Model

variable {PKH PK Key Enc ω Sig : Type} {g : Gotez PKH PK} [KeyReference Key PK] [DecidableEq Enc] [ToComparable PKH Enc]

/-- `listVault`, with a step for each push to the cache. -/
def listVault (name : String) : List (Next Key) → PublicKeys g Key Enc → List (KeyVaultPair g Key) →
    Prog (KeyCache g Key Enc) Error (PublicKeys g Key Enc × List (KeyVaultPair g Key))
  | [], ret, vaultKeys => pure (ret, vaultKeys)
  | .key key :: rest, ret, vaultKeys => do
    let p : KeyVaultPair g Key := ⟨g.hash (publicKey key), key, name, rfl⟩
    Prog.atomic (modify (·.push p))
    listVault name rest (ret.Insert p) (vaultKeys ++ [p])
  | .errKey :: rest, ret, vaultKeys => listVault name rest ret vaultKeys
  | .error e :: _, _, _ => throw e

def listVaults : List (String × List (Next Key)) → PublicKeys g Key Enc → List (KeyVaultPair g Key) →
    Prog (KeyCache g Key Enc) Error (PublicKeys g Key Enc × List (KeyVaultPair g Key))
  | [], ret, list => pure (ret, list)
  | (name, iter) :: vaults, ret, list => do
    let (ret, vaultKeys) ← listVault name iter ret []
    listVaults vaults ret (list ++ vaultKeys)

/-- `getPublicKey`: a lookup in the cache is a step. -/
def getPublicKey (vaults : List (String × List (Next Key))) (keyHash : PKH) :
    Prog (KeyCache g Key Enc) Error (KeyVaultPair g Key) := do
  match (← Prog.atomic get).get keyHash with
  | some cached => pure cached
  | none =>
    let (keys, _) ← listVaults vaults .empty []
    match keys.Get keyHash with
    | some p => pure p
    | none => throw ErrVaultNotFound

def GetPublicKey (policy : Policy Enc PKH) (vaults : List (String × List (Next Key))) (keyHash : PKH) :
    Prog (KeyCache g Key Enc) Error (PublicKey PKH Key) := do
  let p ← getPublicKey vaults keyHash
  pure (publicKeyOf policy p.key keyHash)

/-- A program on the key cache of the signatory. -/
def onCache {α : Type} (p : Prog (KeyCache g Key Enc) Error α) : Prog (World g Key Enc ω) Stop α :=
  (p.within (·.cache) fun cache w => { w with cache }).mapResult (·.mapError .error)

variable (cfg : Config PKH PK Enc ω) (codec : HookCodec PKH PK Sig) (ctx : ContextUser) (req : SignRequest PKH)
  (a : Answers Key Sig)

def Sign : Prog (World g Key Enc ω) Stop Sig := do
  match fetchPolicyOrDefault cfg.policy req.publicKeyHash with
  | none => throw (.error (notListed g req))
  | some policy =>
    verifyUser g ctx policy req
    let msg ← refuse 400 (getSignRequest g req)
    let p ← onCache (getPublicKey a.vaults req.publicKeyHash)
    refuse 403 (matchFilter g policy req msg)
    pass (callPolicyHook g codec cfg.policyHook a.hook req)
    let digest := g.digest req.message
    Prog.atomic (isSafeToSign cfg ⟨req.publicKeyHash, msg, digest⟩)
    Prog.atomic (keySign a p.key req.message req.signOptions)

def ProvePossession : Prog (World g Key Enc ω) Stop Sig := do
  match fetchPolicyOrDefault cfg.policy req.publicKeyHash with
  | none => throw (.error (notListed g req))
  | some policy =>
    verifyUser g ctx policy req
    let p ← onCache (getPublicKey a.vaults req.publicKeyHash)
    if !isPossessionProver p.key then
      throw (.error (Wrap { text := "proof of possession is not supported" } 400))
    if !policy.allowProofOfPossession then
      throw (.error (Wrap { text := "proof of possession is not allowed" } 400))
    pass (callPolicyHook g codec cfg.policyHook a.hook req)
    Prog.atomic (keyProvePossession a p.key)

end Model

/-! ## Run alone -/

section Alone

variable {PKH PK Key Enc ω Sig : Type} {g : Gotez PKH PK} [KeyReference Key PK] [DecidableEq Enc] [ToComparable PKH Enc]

lemma listVault_implements (name : String) (iter : List (Next Key)) (ret : PublicKeys g Key Enc)
    (vaultKeys : List (KeyVaultPair g Key)) :
    (listVault name iter ret vaultKeys).Implements (Signer.listVault name iter ret vaultKeys) := by
  induction iter generalizing ret vaultKeys with
  | nil => exact .pure _
  | cons next iter ih =>
    cases next with
    | key key => exact .bind (.atomic _) fun _ => ih _ _
    | errKey => exact ih _ _
    | error e => exact .throw e

lemma listVaults_implements (vaults : List (String × List (Next Key))) (ret : PublicKeys g Key Enc)
    (list : List (KeyVaultPair g Key)) :
    (listVaults vaults ret list).Implements (Signer.listVaults vaults ret list) := by
  induction vaults generalizing ret list with
  | nil => exact .pure _
  | cons vault vaults ih => exact .bind (listVault_implements _ _ _ _) fun r => ih _ _

lemma getPublicKey_implements (vaults : List (String × List (Next Key))) (keyHash : PKH) :
    (getPublicKey vaults keyHash : Prog (KeyCache g Key Enc) Error _).Implements
      (Signer.getPublicKey vaults keyHash) := by
  refine .bind (.atomic _) fun k => ?_
  cases k.get keyHash with
  | some cached => exact .pure _
  | none =>
    refine .bind (listVaults_implements _ _ _) fun r => ?_
    dsimp only
    cases r.1.Get keyHash with
    | some p => exact .pure _
    | none => exact .throw _

lemma onCache_implements {α : Type} {p : Prog (KeyCache g Key Enc) Error α} {c : Cmd (KeyCache g Key Enc) Error α}
    (h : p.Implements c) : (onCache p : Prog (World g Key Enc ω) Stop α).Implements (Signer.onCache c) := by
  intro w
  have hrun := Prog.run_within (fun w : World g Key Enc ω => w.cache) (fun cache w => { w with cache }) (fun _ _ => rfl)
    (fun _ _ _ => rfl) (fun _ => rfl) p w
  rw [onCache, Prog.run_mapResult, hrun, h]
  rfl

variable (cfg : Config PKH PK Enc ω) (codec : HookCodec PKH PK Sig) (ctx : ContextUser) (req : SignRequest PKH)
  (a : Answers Key Sig)

theorem sign_implements :
    (Sign cfg codec ctx req a : Prog (World g Key Enc ω) Stop Sig).Implements (Signer.Sign cfg codec ctx req a) := by
  unfold Sign Signer.Sign
  cases fetchPolicyOrDefault cfg.policy req.publicKeyHash with
  | none => exact .throw _
  | some policy =>
    refine .bind (.liftM _) fun _ => .bind (.liftM _) fun msg =>
      .bind (onCache_implements (getPublicKey_implements _ _)) fun p => ?_
    refine .bind (.liftM _) fun _ => .bind (.liftM _) fun _ => ?_
    exact .bind (.atomic _) fun _ => .atomic _

theorem provePossession_implements :
    (ProvePossession cfg codec ctx req a : Prog (World g Key Enc ω) Stop Sig).Implements
      (Signer.ProvePossession cfg codec ctx req a) := by
  unfold ProvePossession Signer.ProvePossession
  cases fetchPolicyOrDefault cfg.policy req.publicKeyHash with
  | none => exact .throw _
  | some policy =>
    refine .bind (.liftM _) fun _ => .bind (onCache_implements (getPublicKey_implements _ _)) fun p => ?_
    cases isPossessionProver p.key with
    | false => exact .throw_bind _ _ _
    | true =>
      cases policy.allowProofOfPossession with
      | false => exact .throw_bind _ _ _
      | true => exact .bind (.liftM _) fun _ => .atomic _

end Alone

/-! ## Among others -/

section Among

variable {PKH PK Key Enc ω Sig : Type} {g : Gotez PKH PK} [KeyReference Key PK] [DecidableEq Enc] [ToComparable PKH Enc]
  (cfg : Config PKH PK Enc ω) (codec : HookCodec PKH PK Sig) (ctx : ContextUser) (req : SignRequest PKH)
  (a : Answers Key Sig)

/-- **What a step does**, apart from changes of the cache: nothing, a call of the watermark backend, or a use of a
key. -/
inductive Effect (w w' : World g Key Enc ω) : Prop
  | silent (hwatermark : w'.watermark = w.watermark) (hlog : w'.log = w.log)
  | asked (call : Watermark.Call PKH) (hwatermark : w'.watermark = (cfg.watermark w.watermark call).2)
      (hlog : w'.log = w.log ++ [.isSafeToSign call (cfg.watermark w.watermark call).1])
  | used (e : Event PKH Key) (hasked : e.asked = none) (hwatermark : w'.watermark = w.watermark)
      (hlog : w'.log = w.log ++ [e])

/-- The checks that do not depend on the cache pass, and the key that was found has the hash that was asked for. -/
structure Passed (policy : PublicKeyPolicy PKH) (msg : Request.SignRequest) (p : KeyVaultPair g Key) : Prop where
  listed : PolicyFor cfg.policy req.publicKeyHash policy
  user : ctx ≠ .other ∧ ∀ user, ctx = .name user → jwtVerifyUser g user policy req = .ok ()
  decoded : Decodes g req.signOptions req.message msg
  found : toComparable p.pkh = (toComparable req.publicKeyHash : Enc)
  filter : matchFilter g policy req msg = .ok ()
  hook : callPolicyHook g codec cfg.policyHook a.hook req = .ok ()

/-- The same for `ProvePossession`. -/
structure ProofPassed (policy : PublicKeyPolicy PKH) (p : KeyVaultPair g Key) : Prop where
  listed : PolicyFor cfg.policy req.publicKeyHash policy
  user : ctx ≠ .other ∧ ∀ user, ctx = .name user → jwtVerifyUser g user policy req = .ok ()
  found : toComparable p.pkh = (toComparable req.publicKeyHash : Enc)
  prover : isPossessionProver p.key = true
  allowed : policy.allowProofOfPossession = true
  hook : callPolicyHook g codec cfg.policyHook a.hook req = .ok ()

variable (g) in
/-- **The calls that `Sign` makes**, as far as it has come. -/
inductive Calls : List (Event PKH Key) → Prop
  | none : Calls []
  | asked {policy : PublicKeyPolicy PKH} {msg : Request.SignRequest} {p : KeyVaultPair g Key}
      (answer : Except Error Unit) (h : Passed cfg codec ctx req a policy msg p) :
      Calls [.isSafeToSign (watermarkCall g req msg) answer]
  | signed {policy : PublicKeyPolicy PKH} {msg : Request.SignRequest} {p : KeyVaultPair g Key}
      (h : Passed cfg codec ctx req a policy msg p) :
      Calls [.isSafeToSign (watermarkCall g req msg) (.ok ()), .sign p.key req.message req.signOptions]

variable (g) in
/-- The calls that `ProvePossession` makes. -/
inductive ProofCalls : List (Event PKH Key) → Prop
  | none : ProofCalls []
  | proved {policy : PublicKeyPolicy PKH} {p : KeyVaultPair g Key} (h : ProofPassed cfg codec ctx req a policy p) :
      ProofCalls [.provePossession p.key]

variable (g) in
/-- **How `Sign` ends**, with the calls it has made. -/
inductive Outcome : Except Stop Sig → List (Event PKH Key) → Prop
  | refused (e : Stop) : Outcome (.error e) []
  | conflict (msg : Request.SignRequest) (e : Error) :
      Outcome (.error (.error (Wrap e 409))) [.isSafeToSign (watermarkCall g req msg) (.error e)]
  | signed (msg : Request.SignRequest) (key : Key) :
      Outcome (pass a.sign) [.isSafeToSign (watermarkCall g req msg) (.ok ()), .sign key req.message req.signOptions]

/-- How `ProvePossession` ends. -/
inductive ProofOutcome : Except Stop Sig → List (Event PKH Key) → Prop
  | refused (e : Stop) : ProofOutcome (.error e) []
  | proved (key : Key) : ProofOutcome (pass a.provePossession) [.provePossession key]

/-- The others leave alone what was called for this request. -/
abbrev SameCalls (w w' : World g Key Enc ω) : Prop := w'.log = w.log

/-- A step is an effect, and leaves calls as `C` allows if it makes one. -/
structure Guarantee (C : List (Event PKH Key) → Prop) (w w' : World g Key Enc ω) : Prop where
  effect : Effect cfg w w'
  calls : w'.log ≠ w.log → C w'.log

section Lookup

variable {cfg codec ctx req a} {α : Type} {V : World g Key Enc ω → Prop} {w : World g Key Enc ω}

/-- Whatever the others do to the cache, the key that is found has the hash that was asked for. -/
lemma sat_getPublicKey (vaults : List (String × List (Next Key))) (keyHash : PKH) (k : KeyCache g Key Enc) :
    Prog.Sat (fun _ => True) (fun _ _ => True) (fun _ _ => True)
      (fun r _ => ∀ p, r = .ok p → toComparable p.pkh = (toComparable keyHash : Enc))
      (getPublicKey vaults keyHash) k := by
  refine .bind (fun _ => trivial) (.trivial _ _) trivial (fun k' _ _ _ => ?_) (by rintro e _ _ _ p ⟨⟩)
  cases hcached : k'.get keyHash with
  | some cached =>
    obtain ⟨m, -, hm⟩ := Option.bind_eq_some_iff.1 hcached
    rintro _ _ _ p ⟨⟩
    exact PublicKeys.pkh_of_get hm
  | none =>
    refine .bind (fun _ => trivial) (.trivial _ _) trivial (fun r _ _ _ => ?_) (by rintro e _ _ _ p ⟨⟩)
    dsimp only
    cases hfound : r.1.Get keyHash with
    | some p =>
      rintro _ _ _ p' ⟨⟩
      exact PublicKeys.pkh_of_get hfound
    | none => rintro _ _ _ p ⟨⟩

lemma sat_onCache {p : Prog (KeyCache g Key Enc) Error α} {Q : Except Error α → Prop} {log : List (Event PKH Key)}
    (h : ∀ k, p.Sat (fun _ => True) (fun _ _ => True) (fun _ _ => True) (fun r _ => Q r) k) (hlog : w.log = log)
    (C : List (Event PKH Key) → Prop) :
    Prog.Sat V SameCalls (Guarantee cfg C) (fun r w' => (∃ r', r = r'.mapError .error ∧ Q r') ∧ w'.log = log)
      (onCache p) w := by
  have hwithin : Prog.Sat V SameCalls (fun w w' => w'.watermark = w.watermark ∧ w'.log = w.log)
      (fun r w' => (∃ r', r = r'.mapError .error ∧ Q r')) (onCache p) w := by
    refine .mapResult (.within (fun _ _ => trivial) (fun _ _ _ => trivial) (fun _ _ _ => ⟨rfl, rfl⟩) (fun _ _ _ => rfl)
      (fun r w hr => ⟨r, rfl, hr⟩) (h w.cache))
  refine (hwithin.frame (J := fun w' => w'.log = log) hlog ?_ ?_).mono ?_ fun _ _ _ hr => hr
  · intro w₁ w₂ hsame hw
    exact hsame.trans hw
  · intro w₁ w₂ hstep hw
    exact hstep.2.trans hw
  · intro w₁ w₂ hstep
    exact ⟨.silent hstep.1 hstep.2, fun hne => absurd hstep.2 hne⟩

end Lookup

variable {V : World g Key Enc ω → Prop} {w : World g Key Enc ω}

/-- The call of the watermark backend, in a request that has made no call yet. -/
lemma sat_isSafeToSign {policy : PublicKeyPolicy PKH} {msg : Request.SignRequest} {p : KeyVaultPair g Key}
    (hpassed : Passed cfg codec ctx req a policy msg p) (hlog : w.log = []) :
    Prog.Sat V SameCalls (Guarantee cfg (Calls g cfg codec ctx req a))
      (fun r w' => (r = .ok () ∧ w'.log = [.isSafeToSign (watermarkCall g req msg) (.ok ())]) ∨
        ∃ e, r = .error (.error (Wrap e 409)) ∧ w'.log = [.isSafeToSign (watermarkCall g req msg) (.error e)])
      (Prog.atomic (isSafeToSign cfg (watermarkCall g req msg))) w := by
  -- what the call leaves behind
  have hcall : ∀ w' : World g Key Enc ω, exec (isSafeToSign cfg (watermarkCall g req msg)) w' =
      (refuse 409 (cfg.watermark w'.watermark (watermarkCall g req msg)).1,
        { w' with
          watermark := (cfg.watermark w'.watermark (watermarkCall g req msg)).2
          log := w'.log ++ [.isSafeToSign (watermarkCall g req msg)
            (cfg.watermark w'.watermark (watermarkCall g req msg)).1] }) := by
    intro w'
    rw [isSafeToSign, Prog.exec_bind]
    change exec (liftM (refuse 409 (cfg.watermark w'.watermark (watermarkCall g req msg)).1)) _ = _
    cases refuse 409 (cfg.watermark w'.watermark (watermarkCall g req msg)).1 <;> rfl
  refine .atomic (fun w' _ hsame => ?_) fun w' _ hsame w'' _ hsame' => ?_
  · rw [hcall]
    refine ⟨.asked _ rfl rfl, fun _ => ?_⟩
    change Calls g cfg codec ctx req a (w'.log ++ _)
    rw [hsame.trans hlog]
    exact .asked _ hpassed
  · rw [hcall] at hsame' ⊢
    rw [hsame', hsame.trans hlog]
    cases (cfg.watermark w'.watermark (watermarkCall g req msg)).1 with
    | ok _ => exact Or.inl ⟨rfl, rfl⟩
    | error e => exact Or.inr ⟨e, rfl, rfl⟩

variable {req a} in
lemma Outcome.of_same {w' : World g Key Enc ω} (hlog : w.log = []) (e : Stop) (hsame : SameCalls w w') :
    Outcome g req a (.error e) w'.log := by
  rw [hsame.trans hlog]
  exact .refused e

variable {a} in
lemma ProofOutcome.of_same {w' : World g Key Enc ω} (hlog : w.log = []) (e : Stop) (hsame : SameCalls w w') :
    ProofOutcome a (.error e) w'.log := by
  rw [hsame.trans hlog]
  exact .refused e

/-- **`Sign` among others.** -/
theorem sat_sign (hV : V w) (hlog : w.log = []) :
    Prog.Sat V SameCalls (Guarantee cfg (Calls g cfg codec ctx req a)) (fun r w' => Outcome g req a r w'.log)
      (Sign cfg codec ctx req a) w := by
  unfold Sign
  cases hlisted : fetchPolicyOrDefault cfg.policy req.publicKeyHash with
  | none => exact fun w' _ => .of_same hlog _
  | some policy =>
    refine .liftM_bind (fun _ huser => .liftM_bind (fun msg hdecoded => ?_) fun e _ w' _ => .of_same hlog e)
      fun e _ w' _ => .of_same hlog e
    refine .bind (R := SameCalls) (fun _ => rfl) (sat_onCache (sat_getPublicKey a.vaults req.publicKeyHash) hlog _) hV
      ?_ ?_
    · rintro p w₁ hV₁ ⟨⟨r, hr, hfound⟩, hlog₁⟩
      refine .liftM_bind (fun _ hfilter => .liftM_bind (fun _ hhook => ?_) fun e _ w' _ => .of_same hlog₁ e)
        fun e _ w' _ => .of_same hlog₁ e
      have hpassed : Passed cfg codec ctx req a policy msg p :=
        ⟨policyFor_iff.2 hlisted, (verifyUser_ok_iff ctx req).1 huser, decodes_iff.2 (refuse_ok_iff.1 hdecoded),
          hfound p (by cases r <;> cases hr; rfl), refuse_ok_iff.1 hfilter, pass_ok_iff.1 hhook⟩
      refine .bind (R := SameCalls) (fun _ => rfl) (sat_isSafeToSign cfg codec ctx req a hpassed hlog₁) hV₁ ?_ ?_
      · rintro _ w₂ - (⟨-, hlog₂⟩ | ⟨e, he, -⟩)
        · -- the key is called, and whatever it answers is returned
          refine .atomic (fun w' _ hsame => ?_) fun w' _ hsame w'' _ hsame' => ?_
          · refine ⟨.used _ rfl rfl rfl, fun _ => ?_⟩
            change Calls g cfg codec ctx req a (w'.log ++ _)
            rw [hsame.trans hlog₂]
            exact .signed hpassed
          · have hcalls : w''.log = w'.log ++ [.sign p.key req.message req.signOptions] := hsame'
            rw [hcalls, hsame.trans hlog₂]
            exact .signed msg p.key
        · cases he
      · rintro e w₂ - (⟨he, -⟩ | ⟨e', he, hlog₂⟩)
        · cases he
        · cases he
          rw [hlog₂]
          exact .conflict msg e'
    · rintro e w₁ - ⟨-, hlog₁⟩
      rw [hlog₁]
      exact .refused e

/-- **`ProvePossession` among others.** -/
theorem sat_provePossession (hV : V w) (hlog : w.log = []) :
    Prog.Sat V SameCalls (Guarantee cfg (ProofCalls g cfg codec ctx req a)) (fun r w' => ProofOutcome a r w'.log)
      (ProvePossession cfg codec ctx req a) w := by
  unfold ProvePossession
  cases hlisted : fetchPolicyOrDefault cfg.policy req.publicKeyHash with
  | none => exact fun w' _ => .of_same hlog _
  | some policy =>
    refine .liftM_bind (fun _ huser => ?_) fun e _ w' _ => .of_same hlog e
    refine .bind (R := SameCalls) (fun _ => rfl) (sat_onCache (sat_getPublicKey a.vaults req.publicKeyHash) hlog _) hV
      ?_ ?_
    · rintro p w₁ hV₁ ⟨⟨r, hr, hfound⟩, hlog₁⟩
      dsimp only
      cases hprover : isPossessionProver p.key with
      | false => exact fun w' _ => .of_same hlog₁ _
      | true =>
        cases hallowed : policy.allowProofOfPossession with
        | false => exact fun w' _ => .of_same hlog₁ _
        | true =>
          refine .liftM_bind (fun _ hhook => ?_) fun e _ w' _ => .of_same hlog₁ e
          have hpassed : ProofPassed cfg codec ctx req a policy p :=
            ⟨policyFor_iff.2 hlisted, (verifyUser_ok_iff ctx req).1 huser, hfound p (by cases r <;> cases hr; rfl),
              hprover, hallowed, pass_ok_iff.1 hhook⟩
          refine .atomic (fun w' _ hsame => ?_) fun w' _ hsame w'' _ hsame' => ?_
          · refine ⟨.used _ rfl rfl rfl, fun _ => ?_⟩
            change ProofCalls g cfg codec ctx req a (w'.log ++ _)
            rw [hsame.trans hlog₁]
            exact .proved hpassed
          · have hcalls : w''.log = w'.log ++ [.provePossession p.key] := hsame'
            rw [hcalls, hsame.trans hlog₁]
            exact .proved p.key
    · rintro e w₁ - ⟨-, hlog₁⟩
      rw [hlog₁]
      exact .refused e

end Among

end Signatory.Signer.Concurrent
