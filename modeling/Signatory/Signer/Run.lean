import Signatory.Signer.Mediation

/-!
# Runs of a signatory

A signatory runs its operations in any order; those on keys only change the key cache.

* `Guarded` — in the log, every call of a key's `Sign` stands directly after the call of the watermark backend that
  admitted it (`run_guarded`);
* `Consistent` — the calls of the watermark backend in the log are a run of the backend, with its answers
  (`run_consistent`).
-/

namespace Signatory.Signer

open Hashmap Lib.Command Lib.Machine

/-- An operation of a signatory, with the answers of its surroundings. -/
inductive Op (PKH PK Key Sig : Type) [KeyReference Key PK] where
  | sign (ctx : ContextUser) (req : SignRequest PKH) (a : Answers Key Sig)
  | provePossession (ctx : ContextUser) (req : SignRequest PKH) (a : Answers Key Sig)
  | listPublicKeys (vaults : List (String × List (Next Key)))
  | getPublicKey (vaults : List (String × List (Next Key))) (keyHash : PKH)
  | importKey (importerName : String) (vault : Option (Option (Importer Key))) (priv : Except Error PK)
  | generate (name : String) (vault : Option (Option (Except Error (List (Next Key)))))
  | unlock (answers : List (Except Error Unit))

variable {PKH PK Key Enc ω Sig : Type} {g : Gotez PKH PK} [KeyReference Key PK] [DecidableEq Enc] [ToComparable PKH Enc]
  (cfg : Config PKH PK Enc ω) (codec : HookCodec PKH PK Sig)

/-- The command that runs an operation. -/
def Op.run : Op PKH PK Key Sig → Cmd (World g Key Enc ω) Stop Unit
  | .sign ctx req a => do let _ ← Sign cfg codec ctx req a
  | .provePossession ctx req a => do let _ ← ProvePossession cfg codec ctx req a
  | .listPublicKeys vaults => do let _ ← onCache (ListPublicKeys cfg.policy vaults)
  | .getPublicKey vaults keyHash => do let _ ← onCache (GetPublicKey cfg.policy vaults keyHash)
  | .importKey importerName vault priv => do let _ ← onCache (Import cfg.policy importerName vault priv)
  | .generate name vault => do let _ ← onCache (Generate cfg.policy name vault)
  | .unlock answers => onCache (Unlock answers)

def step (w : World g Key Enc ω) (op : Op PKH PK Key Sig) : Except Stop Unit × World g Key Enc ω :=
  exec (op.run cfg codec) w

/-! ## The log -/

/-- The call that admits the message for a key. -/
structure Admits (g : Gotez PKH PK) (call : Watermark.Call PKH) (key : Key) (message : Bytes) (opts : SignOptions) :
    Prop where
  pkh : call.pkh = g.hash (publicKey key)
  digest : call.digest = g.digest message
  decoded : Decodes g opts message call.req

/-- Every call of a key's `Sign` stands directly after a nil answer of the watermark backend that admits it. -/
def Guarded (g : Gotez PKH PK) (log : List (Event PKH Key)) : Prop :=
  ∀ pre key message opts post, log = pre ++ .sign key message opts :: post →
    ∃ pre' call, pre = pre' ++ [.isSafeToSign call (.ok ())] ∧ Admits g call key message opts

lemma Guarded.snoc {log : List (Event PKH Key)} {e : Event PKH Key} (h : Guarded g log)
    (he : ∀ key message opts, e = .sign key message opts →
      ∃ log' call, log = log' ++ [.isSafeToSign call (.ok ())] ∧ Admits g call key message opts) :
    Guarded g (log ++ [e]) := by
  intro pre key message opts post hlog
  rcases List.eq_nil_or_concat' post with rfl | ⟨post', last, rfl⟩
  · obtain ⟨rfl, rfl⟩ := List.append_singleton_inj.1 hlog
    exact he key message opts rfl
  · rw [← List.cons_append, ← List.append_assoc] at hlog
    exact h pre key message opts post' (List.append_singleton_inj.1 hlog).1

lemma Guarded.mediated (hmap : Function.Injective (toComparable : PKH → Enc)) {ctx : ContextUser}
    {req : SignRequest PKH} {a : Answers Key Sig} {w : World g Key Enc ω} {calls log : List (Event PKH Key)}
    (h : Guarded g log)
    (hcalls : Mediated cfg codec ctx req a w calls) : Guarded g (log ++ calls) := by
  cases hcalls with
  | refused _ => rwa [List.append_nil]
  | conflict _ _ => exact h.snoc (by rintro key message opts ⟨⟩)
  | @signed policy msg p hcleared _ =>
    rw [List.append_cons]
    refine (h.snoc (by rintro key message opts ⟨⟩)).snoc ?_
    rintro key message opts ⟨⟩
    exact ⟨log, _, rfl, (hash_of_found req a w hmap hcleared.found).symm, rfl, hcleared.decoded⟩

lemma Guarded.proofMediated {ctx : ContextUser} {req : SignRequest PKH} {a : Answers Key Sig} {w : World g Key Enc ω}
    {calls log : List (Event PKH Key)} (h : Guarded g log) (hcalls : ProofMediated cfg codec ctx req a w calls) :
    Guarded g (log ++ calls) := by
  cases hcalls with
  | refused _ => rwa [List.append_nil]
  | proved _ => exact h.snoc (by rintro key message opts ⟨⟩)

lemma keeps_onCache {α : Type} {I : World g Key Enc ω → Prop} (hI : ∀ w cache, I w → I { w with cache })
    (c : Cmd (KeyCache g Key Enc) Error α) : Keeps I (onCache c : Cmd (World g Key Enc ω) Stop α) :=
  Keeps.within (fun w cache => hI w cache) c

/-- **The invariant rule for signatories.**  What is true of a new one, does not depend on the cache and is kept by
`Sign` and `ProvePossession` is true in every run. -/
lemma inv_run {I : World g Key Enc ω → Prop} {s : ω} (hnew : I (New s)) (hcache : ∀ w cache, I w → I { w with cache })
    (hsign : ∀ ctx req a w, I w → I (exec (Sign cfg codec ctx req a) w).2)
    (hprove : ∀ ctx req a w, I w → I (exec (ProvePossession cfg codec ctx req a) w).2)
    (ops : List (Op PKH PK Key Sig)) : I (final (step cfg codec) (New s) ops) := by
  refine inv_final hnew (fun w op hw => ?_) ops
  have hkeys : ∀ {α : Type} (c : Cmd (KeyCache g Key Enc) Error α),
      I (exec (onCache c : Cmd (World g Key Enc ω) Stop α) w).2 := fun c => (keeps_onCache hcache c).state hw
  unfold step
  cases op with
  | sign ctx req a => rw [Op.run, exec_discard]; exact hsign ctx req a w hw
  | provePossession ctx req a => rw [Op.run, exec_discard]; exact hprove ctx req a w hw
  | listPublicKeys vaults => rw [Op.run, exec_discard]; exact hkeys _
  | getPublicKey vaults keyHash => rw [Op.run, exec_discard]; exact hkeys _
  | importKey importerName vault priv => rw [Op.run, exec_discard]; exact hkeys _
  | generate name vault => rw [Op.run, exec_discard]; exact hkeys _
  | unlock answers => exact hkeys _

/-- **Every signature was admitted.**  In every run of a signatory, every call of a key's `Sign` stands directly after a
nil answer of the watermark backend, to a call with the hash of that key, the digest of that message and the request
that the message decodes to. -/
theorem run_guarded (hmap : Function.Injective (toComparable : PKH → Enc)) (s : ω) (ops : List (Op PKH PK Key Sig)) :
    Guarded g (final (step cfg codec) (New s : World g Key Enc ω) ops).log := by
  refine inv_run cfg codec (I := fun w => Guarded g w.log) ?_ (fun _ _ h => h) ?_ ?_ ops
  · intro pre key message opts post hlog
    exact absurd hlog (by simp [New])
  · intro ctx req a w hw
    obtain ⟨calls, hcalls, hlog⟩ := sign_calls cfg codec ctx req a w
    rw [hlog]
    exact hw.mediated cfg codec hmap hcalls
  · intro ctx req a w hw
    obtain ⟨calls, hcalls, hlog⟩ := provePossession_calls cfg codec ctx req a w
    rw [hlog]
    exact hw.proofMediated cfg codec hcalls

/-! ## The watermark backend -/

/-- The call of the watermark backend in an event, with the answer. -/
def Event.asked : Event PKH Key → Option (Watermark.Call PKH × Except Error Unit)
  | .isSafeToSign call answer => some (call, answer)
  | _ => none

/-- The log holds a run of the watermark backend that ends in its present state. -/
def Consistent (s : ω) (w : World g Key Enc ω) : Prop :=
  ∃ calls, w.log.filterMap Event.asked = events cfg.watermark s calls ∧ w.watermark = final cfg.watermark s calls

section Consistent

variable {cfg} {s : ω}

lemma keeps_isSafeToSign (call : Watermark.Call PKH) :
    Keeps (Consistent cfg s) (isSafeToSign cfg call : Cmd (World g Key Enc ω) Stop Unit) := by
  refine .bind (.modifyGet ?_) fun answer => .liftM _
  rintro w ⟨calls, hlog, hstate⟩
  refine ⟨calls ++ [call], ?_, ?_⟩
  · rw [events_snoc, List.filterMap_append, hlog, hstate]
    rfl
  · rw [final_snoc, hstate]

lemma Consistent.append {w : World g Key Enc ω} {e : Event PKH Key} (h : Consistent cfg s w) (he : e.asked = none) :
    Consistent cfg s { w with log := w.log ++ [e] } := by
  obtain ⟨calls, hlog, hstate⟩ := h
  exact ⟨calls, by simpa [he] using hlog, hstate⟩

lemma keeps_sign (ctx : ContextUser) (req : SignRequest PKH) (a : Answers Key Sig) :
    Keeps (Consistent cfg s) (Sign cfg codec ctx req a : Cmd (World g Key Enc ω) Stop Sig) := by
  unfold Sign
  cases fetchPolicyOrDefault cfg.policy req.publicKeyHash with
  | none => exact .throw _
  | some policy =>
    refine .bind (.liftM _) fun _ => .bind (.liftM _) fun msg => .bind (keeps_onCache (fun _ _ h => h) _) fun p => ?_
    refine .bind (.liftM _) fun _ => .bind (.liftM _) fun _ => .bind (keeps_isSafeToSign _) fun _ => ?_
    exact .bind (.modify fun w h => h.append rfl) fun _ => .liftM _

lemma keeps_provePossession (ctx : ContextUser) (req : SignRequest PKH) (a : Answers Key Sig) :
    Keeps (Consistent cfg s) (ProvePossession cfg codec ctx req a : Cmd (World g Key Enc ω) Stop Sig) := by
  unfold ProvePossession
  cases fetchPolicyOrDefault cfg.policy req.publicKeyHash with
  | none => exact .throw _
  | some policy =>
    refine .bind (.liftM _) fun _ => .bind (keeps_onCache (fun _ _ h => h) _) fun p => ?_
    dsimp only
    split
    · exact .throw_bind _ _
    · split
      · exact .throw_bind _ _
      · refine .bind (.liftM _) fun _ => .bind (.modify fun w h => h.append rfl) fun _ => .liftM _

/-- **The log tells the state of the watermark backend**, in every run of a signatory. -/
theorem run_consistent (s : ω) (ops : List (Op PKH PK Key Sig)) :
    Consistent cfg s (final (step cfg codec) (New s : World g Key Enc ω) ops) := by
  exact inv_run cfg codec ⟨[], rfl, rfl⟩ (fun _ _ h => h) (fun ctx req a _ => (keeps_sign codec ctx req a).state)
    (fun ctx req a _ => (keeps_provePossession codec ctx req a).state) ops

end Consistent

end Signatory.Signer
