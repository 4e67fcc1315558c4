import Signatory.Vault.CloudKms.Listing

/-!
# Signing with Cloud KMS

`cloudKMSKey.Sign` asks the service up to `1 + max_retries` times and waits in between, longer each time.  What the
service answers and what becomes of the caller's context is a sequence of `Attempt`s, and a run is the list of calls and
waits with what is returned.

The timeout is a number of seconds that is multiplied into nanoseconds of 64 bits, and the context that is made with it
ends no later than the caller's.  A run is `WellTimed` exactly when that product fits and the caller leaves each attempt
its time: `sign_wellTimed_iff`.
-/

namespace Signatory.Vault.CloudKms

open Cryptoutils
open Signer (Bytes Error)

/-! ## The settings -/

/-- The whole `Config`. -/
structure SignConfig extends Config where
  Timeout : ℤ
  MaxRetries : Option ℤ

/-- `time.Second`, in nanoseconds. -/
def second : ℤ := 1000000000

/-- `time.Millisecond`. -/
def millisecond : ℤ := 1000000

def defaultTimeout : ℤ := 10 * second

def defaultMaxRetries : ℤ := 3

def maxAllowedRetries : ℤ := 100

def baseBackoff : ℤ := 100 * millisecond

def maxBackoff : ℤ := 10 * second

/-- A product of two `time.Duration`s. -/
def mulDuration (a b : ℤ) : ℤ := Int.bmod (a * b) (2 ^ 64)

def SignConfig.getTimeout (c : SignConfig) : ℤ :=
  if c.Timeout > 0 then mulDuration c.Timeout second else defaultTimeout

def SignConfig.getMaxRetries (c : SignConfig) : ℤ :=
  match c.MaxRetries with
  | some n => if n ≥ 0 then min n maxAllowedRetries else defaultMaxRetries
  | none => defaultMaxRetries

/-! ## The calls -/

structure AsymmetricSignRequest where
  name : String
  sha256 : Bytes
  deriving DecidableEq

/-- The context of the caller as an attempt begins: ended, with a deadline in some time, or without one. -/
inductive CallerContext where
  | ended
  | deadline (left : ℤ)
  | unlimited

/-- The time until the context ends that `context.WithTimeout` makes: a deadline of the caller that is earlier stays. -/
def CallerContext.WithTimeout (timeout : ℤ) : CallerContext → ℤ
  | .ended => min 0 timeout
  | .deadline left => min left timeout
  | .unlimited => timeout

/-- What happens in an attempt: the caller's context when it begins, the answer, the error of that context after it, and
that of a context that is seen to be done in the wait.  A wait may also end by its timer although the context is done;
the next attempt then begins with one that has ended. -/
structure Attempt where
  caller : CallerContext
  outcome : Except KmsError Bytes
  ctxErr : Option Error
  done : Option Error

/-- A call with the time until its context ends, and a wait. -/
inductive Event where
  | call (req : AsymmetricSignRequest) (time : ℤ) (outcome : Except KmsError Bytes)
  | wait (backoff : ℤ) (done : Option Error)

/-- The call of an attempt. -/
def Attempt.call (config : SignConfig) (req : AsymmetricSignRequest) (a : Attempt) : Event :=
  .call req (a.caller.WithTimeout config.getTimeout) a.outcome

structure SignError where
  text : String
  cause : Option KmsError
  deriving DecidableEq

def isRetryableError (err : KmsError) : Bool :=
  (grpcCodeFromError err).any fun
    | .DeadlineExceeded | .Unavailable | .ResourceExhausted => true
    | _ => false

def backoffAfter (attempt : ℕ) : ℤ :=
  if attempt < 30 then min (mulDuration baseBackoff (2 ^ attempt)) maxBackoff else maxBackoff

section Sign

variable {Sig : Type} (DigestFunc : Bytes → Bytes) (NewSignatureFromBytes : Bytes → PublicKey → Except Error Sig)
  (config : SignConfig)

/-- `fmt.Errorf("(CloudKMS/%s) AsymmetricSign: %w", …)`. -/
def asymmetricSignError (err : Option KmsError) : SignError :=
  ⟨"(CloudKMS/" ++ config.keyRingName ++ ") AsymmetricSign", err⟩

def signatureOf (pub : PublicKey) (signature : Bytes) : Except SignError Sig :=
  (NewSignatureFromBytes signature pub).mapError fun err =>
    ⟨"(CloudKMS/" ++ config.keyRingName ++ ")", some (.plain err)⟩

/-- The loop from `attempt` on, with `n` attempts left. -/
def signLoop (pub : PublicKey) (req : AsymmetricSignRequest) (world : ℕ → Attempt) :
    ℕ → ℕ → Option KmsError → List Event × Except SignError Sig
  | 0, _, lastErr => ([], .error (asymmetricSignError config lastErr))
  | n + 1, attempt, _ =>
    let call := (world attempt).call config req
    match (world attempt).outcome with
    | .ok signature => ([call], signatureOf NewSignatureFromBytes config pub signature)
    | .error err =>
      if !isRetryableError err then ([call], .error (asymmetricSignError config (some err)))
      else if (world attempt).ctxErr.isSome then ([call], .error (asymmetricSignError config (some err)))
      else if n = 0 then
        let rest := signLoop pub req world n (attempt + 1) (some err)
        (call :: rest.1, rest.2)
      else
        match (world attempt).done with
        | some ctxErr =>
          ([call, .wait (backoffAfter attempt) (some ctxErr)],
            .error (asymmetricSignError config (some (.plain ctxErr))))
        | none =>
          let rest := signLoop pub req world n (attempt + 1) (some err)
          (call :: .wait (backoffAfter attempt) none :: rest.1, rest.2)

def CloudKmsKey.Sign (kmsKey : CloudKmsKey) (message : Bytes) (world : ℕ → Attempt) :
    List Event × Except SignError Sig :=
  let req : AsymmetricSignRequest := ⟨kmsKey.key.name, DigestFunc message⟩
  let maxAttempts := 1 + config.getMaxRetries
  signLoop NewSignatureFromBytes config kmsKey.pub req world maxAttempts.toNat 0 none

end Sign

/-! ## What is asked of a run -/

def Event.outcome? : Event → Option (Except KmsError Bytes)
  | .call _ _ outcome => some outcome
  | .wait _ _ => none

def Event.time? : Event → Option ℤ
  | .call _ time _ => some time
  | .wait _ _ => none

def Event.backoff? : Event → Option ℤ
  | .call _ _ _ => none
  | .wait backoff _ => some backoff

/-- The answers to the calls, in order. -/
def outcomes (es : List Event) : List (Except KmsError Bytes) := es.filterMap Event.outcome?

/-- The times given to the calls. -/
def times (es : List Event) : List ℤ := es.filterMap Event.time?

def backoffs (es : List Event) : List ℤ := es.filterMap Event.backoff?

section Events

variable (req : AsymmetricSignRequest) (t d : ℤ) (outcome : Except KmsError Bytes) (done : Option Error)
  (es : List Event)

@[simp] lemma outcomes_call : outcomes (.call req t outcome :: es) = outcome :: outcomes es := rfl
@[simp] lemma outcomes_wait : outcomes (.wait d done :: es) = outcomes es := rfl
@[simp] lemma times_call : times (.call req t outcome :: es) = t :: times es := rfl
@[simp] lemma times_wait : times (.wait d done :: es) = times es := rfl
@[simp] lemma backoffs_call : backoffs (.call req t outcome :: es) = backoffs es := rfl
@[simp] lemma backoffs_wait : backoffs (.wait d done :: es) = d :: backoffs es := rfl
@[simp] lemma outcomes_nil : outcomes [] = [] := rfl

end Events

/-- The most calls that are allowed. -/
def SignConfig.allowedCalls (c : SignConfig) : ℤ :=
  match c.MaxRetries with
  | some n => if n < 0 then 4 else 1 + min n 100
  | none => 4

/-- The configured time for an attempt. -/
def SignConfig.configuredTime (c : SignConfig) : ℤ := if 0 < c.Timeout then c.Timeout * second else 10 * second

/-- A retryable error while the context is live. -/
def Attempt.Retries (a : Attempt) : Prop :=
  (∃ err, a.outcome = .error err ∧ isRetryableError err = true) ∧ a.ctxErr = none ∧ a.done = none

/-- The context of the caller does not end for some time. -/
def CallerContext.Leaves (time : ℤ) : CallerContext → Prop
  | .ended => False
  | .deadline left => time ≤ left
  | .unlimited => True

def CallerContext.Live : CallerContext → Prop
  | .ended => False
  | .deadline left => 0 < left
  | .unlimited => True

/-- What follows the last event: its signature, or its error. -/
def Returned {Sig : Type} (NewSignatureFromBytes : Bytes → PublicKey → Except Error Sig) (config : SignConfig)
    (pub : PublicKey) (es : List Event) (r : Except SignError Sig) : Prop :=
  match es.getLast? with
  | some (.call _ _ (.ok signature)) => r = signatureOf NewSignatureFromBytes config pub signature
  | some (.call _ _ (.error err)) => r = .error (asymmetricSignError config (some err))
  | some (.wait _ (some ctxErr)) => r = .error (asymmetricSignError config (some (.plain ctxErr)))
  | _ => False

structure WellTimed {Sig : Type} (NewSignatureFromBytes : Bytes → PublicKey → Except Error Sig) (config : SignConfig)
    (pub : PublicKey) (world : ℕ → Attempt) (run : List Event × Except SignError Sig) : Prop where
  bounded : ((outcomes run.1).length : ℤ) ≤ config.allowedCalls
  /-- The calls are those of the attempts from the first one on. -/
  inOrder : outcomes run.1 = (List.range (outcomes run.1).length).map fun n => (world n).outcome
  again : ∀ n, n + 1 < (outcomes run.1).length → (world n).Retries ∧ (world (n + 1)).caller.Live
  returned : Returned NewSignatureFromBytes config pub run.1 run.2
  waits : ∀ d ∈ backoffs run.1, 100 * millisecond ≤ d ∧ d ≤ 10 * second
  longer : (backoffs run.1).Pairwise (· ≤ ·)
  time : ∀ t ∈ times run.1, t = config.configuredTime ∧ 0 < t

/-- The attempts that are made, by the settings and the answers: the first one, and each one up to the allowed number
after attempts that are to be retried. -/
def Made (config : SignConfig) (world : ℕ → Attempt) (n : ℕ) : Prop :=
  (n : ℤ) < config.allowedCalls ∧ ∀ k < n, (world k).Retries

/-! ## Timing -/

section Timing

lemma mulDuration_eq_iff (a b : ℤ) : mulDuration a b = a * b ↔ -2 ^ 63 ≤ a * b ∧ a * b < 2 ^ 63 := by
  unfold mulDuration
  constructor
  · intro h
    have hlow := Int.le_bmod (x := a * b) (m := 2 ^ 64) (by norm_num)
    have hhigh := Int.bmod_lt (x := a * b) (m := 2 ^ 64) (by norm_num)
    rw [h] at hlow hhigh
    norm_num at hlow hhigh ⊢
    omega
  · rintro ⟨hlow, hhigh⟩
    apply Int.bmod_eq_of_le
    · norm_num
      omega
    · norm_num
      omega

lemma backoffAfter_of_lt {n : ℕ} (h : n < 30) : backoffAfter n = min (baseBackoff * 2 ^ n) maxBackoff := by
  have hpow : (2 : ℤ) ^ n ≤ 2 ^ 29 := pow_le_pow_right₀ (by norm_num) (by omega)
  have hpos : (0 : ℤ) < 2 ^ n := by positivity
  have hmul : mulDuration baseBackoff (2 ^ n) = baseBackoff * 2 ^ n := by
    rw [mulDuration_eq_iff]
    unfold baseBackoff millisecond
    norm_num at hpow ⊢
    omega
  rw [backoffAfter, if_pos h, hmul]

lemma backoffAfter_of_le {n : ℕ} (h : 30 ≤ n) : backoffAfter n = maxBackoff := by
  rw [backoffAfter, if_neg (by omega)]

lemma backoffAfter_le (n : ℕ) : backoffAfter n ≤ maxBackoff := by
  by_cases h : n < 30
  · rw [backoffAfter_of_lt h]
    exact min_le_right _ _
  · rw [backoffAfter_of_le (by omega)]

lemma le_backoffAfter (n : ℕ) : baseBackoff ≤ backoffAfter n := by
  have hmax : baseBackoff ≤ maxBackoff := by decide
  by_cases h : n < 30
  · have hone : (1 : ℤ) ≤ 2 ^ n := one_le_pow₀ (by norm_num)
    rw [backoffAfter_of_lt h]
    refine le_min ?_ hmax
    unfold baseBackoff millisecond
    omega
  · rw [backoffAfter_of_le (by omega)]
    exact hmax

/-- **Waits get no shorter.** -/
lemma backoffAfter_mono : Monotone backoffAfter := by
  apply monotone_nat_of_le_succ
  intro n
  by_cases h : n + 1 < 30
  · rw [backoffAfter_of_lt h, backoffAfter_of_lt (by omega)]
    apply min_le_min_right
    have hpos : (0 : ℤ) < 2 ^ n := by positivity
    have hbase : (0 : ℤ) < baseBackoff := by decide
    rw [pow_succ]
    nlinarith
  · rw [backoffAfter_of_le (n := n + 1) (by omega)]
    exact backoffAfter_le n

lemma getMaxRetries_nonneg (c : SignConfig) : 0 ≤ c.getMaxRetries := by
  unfold SignConfig.getMaxRetries
  split
  · split_ifs with h
    · exact le_min h (by decide)
    · decide
  · decide

lemma allowedCalls_eq (c : SignConfig) : c.allowedCalls = 1 + c.getMaxRetries := by
  unfold SignConfig.allowedCalls SignConfig.getMaxRetries
  cases c.MaxRetries with
  | none => rfl
  | some n =>
    by_cases h : n < 0
    · simp only [if_pos h, if_neg (not_le.2 h)]
      rfl
    · simp only [if_neg h, if_pos (not_lt.1 h)]
      rfl

/-- **The time that is given is the configured one** unless the product is too large. -/
lemma getTimeout_eq_iff (c : SignConfig) : c.getTimeout = c.configuredTime ↔ c.Timeout ≤ 9223372036 := by
  unfold SignConfig.getTimeout SignConfig.configuredTime
  by_cases h : 0 < c.Timeout
  · rw [if_pos h, if_pos h, mulDuration_eq_iff]
    unfold second
    norm_num
    omega
  · rw [if_neg h, if_neg h]
    refine iff_of_true rfl ?_
    omega

lemma getTimeout_le (c : SignConfig) : c.getTimeout ≤ c.configuredTime := by
  by_cases h : c.Timeout ≤ 9223372036
  · exact ((getTimeout_eq_iff c).2 h).le
  · -- a product that does not fit is larger than every duration
    have hhigh : Int.bmod (c.Timeout * second) (2 ^ 64) < (2 ^ 64 + 1) / 2 := Int.bmod_lt (by norm_num)
    rw [SignConfig.getTimeout, SignConfig.configuredTime, if_pos (by omega), if_pos (by omega), mulDuration]
    unfold second at hhigh ⊢
    norm_num at hhigh ⊢
    omega

lemma configuredTime_pos (c : SignConfig) : 0 < c.configuredTime := by
  unfold SignConfig.configuredTime second
  split_ifs with h
  · omega
  · norm_num

/-- **The time of an attempt is the configured one** if the product fits and the caller leaves that time. -/
lemma withTimeout_eq_iff (c : SignConfig) (ctx : CallerContext) :
    ctx.WithTimeout c.getTimeout = c.configuredTime ↔ c.Timeout ≤ 9223372036 ∧ ctx.Leaves c.configuredTime := by
  have hle := getTimeout_le c
  have hpos := configuredTime_pos c
  rw [← getTimeout_eq_iff]
  cases ctx with
  | ended =>
    refine iff_of_false ?_ fun h => h.2
    show min 0 c.getTimeout ≠ c.configuredTime
    omega
  | deadline left =>
    show min left c.getTimeout = c.configuredTime ↔ c.getTimeout = c.configuredTime ∧ c.configuredTime ≤ left
    omega
  | unlimited => exact (and_iff_left trivial).symm

lemma CallerContext.Leaves.live {ctx : CallerContext} {t : ℤ} (h : ctx.Leaves t) (ht : 0 < t) : ctx.Live := by
  cases ctx with
  | ended => exact h
  | deadline left => exact ht.trans_le h
  | unlimited => trivial

end Timing

/-! ## Runs -/

section Runs

variable {Sig : Type} {NewSignatureFromBytes : Bytes → PublicKey → Except Error Sig} {config : SignConfig}
  {pub : PublicKey} {req : AsymmetricSignRequest} {world : ℕ → Attempt}

lemma returned_ok {a : Attempt} {signature : Bytes} (h : a.outcome = .ok signature) :
    Returned NewSignatureFromBytes config pub [a.call config req]
      (signatureOf NewSignatureFromBytes config pub signature) := by
  rw [Attempt.call, h]
  rfl

lemma returned_error {a : Attempt} {err : KmsError} (h : a.outcome = .error err) :
    Returned NewSignatureFromBytes config pub [a.call config req] (.error (asymmetricSignError config (some err))) := by
  rw [Attempt.call, h]
  rfl

/-- **One attempt**: it is the last one, the wait after it is cut short, or the loop goes on. -/
lemma signLoop_succ (n attempt : ℕ) (lastErr : Option KmsError) :
    (¬ (n ≠ 0 ∧ (world attempt).Retries) ∧ ∃ r,
      signLoop NewSignatureFromBytes config pub req world (n + 1) attempt lastErr =
        ([(world attempt).call config req], r) ∧
      Returned NewSignatureFromBytes config pub [(world attempt).call config req] r) ∨
    (¬ (n ≠ 0 ∧ (world attempt).Retries) ∧ ∃ ctxErr,
      signLoop NewSignatureFromBytes config pub req world (n + 1) attempt lastErr =
        ([(world attempt).call config req, .wait (backoffAfter attempt) (some ctxErr)],
          .error (asymmetricSignError config (some (.plain ctxErr))))) ∨
    (n ≠ 0 ∧ (world attempt).Retries ∧ ∃ err rest,
      signLoop NewSignatureFromBytes config pub req world n (attempt + 1) (some err) = rest ∧
        signLoop NewSignatureFromBytes config pub req world (n + 1) attempt lastErr =
          ((world attempt).call config req :: .wait (backoffAfter attempt) none :: rest.1, rest.2)) := by
  rw [signLoop]
  cases houtcome : (world attempt).outcome with
  | ok signature =>
    refine Or.inl ⟨?_, _, rfl, returned_ok houtcome⟩
    rintro ⟨-, ⟨err, herr, -⟩, -⟩
    rw [houtcome] at herr
    cases herr
  | error err =>
    dsimp only
    by_cases hretry : isRetryableError err = true
    · rw [if_neg (by simp [hretry])]
      by_cases hctx : (world attempt).ctxErr.isSome = true
      · rw [if_pos hctx]
        refine Or.inl ⟨?_, _, rfl, returned_error houtcome⟩
        rintro ⟨-, -, hlive, -⟩
        rw [hlive] at hctx
        cases hctx
      · rw [if_neg hctx]
        by_cases hn : n = 0
        · subst hn
          exact Or.inl ⟨fun h => h.1 rfl, _, rfl, returned_error houtcome⟩
        · rw [if_neg hn]
          cases hdone : (world attempt).done with
          | some ctxErr =>
            refine Or.inr (Or.inl ⟨?_, ctxErr, rfl⟩)
            rintro ⟨-, -, -, hlive⟩
            rw [hdone] at hlive
            cases hlive
          | none =>
            refine Or.inr (Or.inr ⟨hn, ⟨⟨err, houtcome, hretry⟩, by simpa using hctx, hdone⟩, err, _, rfl, rfl⟩)
    · rw [if_pos (by simpa using hretry)]
      refine Or.inl ⟨?_, _, rfl, returned_error houtcome⟩
      rintro ⟨-, ⟨err', herr, hretry'⟩, -⟩
      obtain rfl : err = err' := Except.error.inj (houtcome.symm.trans herr)
      exact hretry hretry'

/-- What holds of the loop from an attempt on. -/
structure FromAttempt (NewSignatureFromBytes : Bytes → PublicKey → Except Error Sig) (config : SignConfig)
    (pub : PublicKey) (world : ℕ → Attempt) (n attempt : ℕ) (run : List Event × Except SignError Sig) : Prop where
  called : outcomes run.1 ≠ []
  made : ∀ k, k < (outcomes run.1).length ↔ k < n ∧ ∀ i < k, (world (attempt + i)).Retries
  inOrder : outcomes run.1 = (List.range (outcomes run.1).length).map fun k => (world (attempt + k)).outcome
  returned : Returned NewSignatureFromBytes config pub run.1 run.2
  backoffs : backoffs run.1 = (List.range (backoffs run.1).length).map fun k => backoffAfter (attempt + k)
  times : times run.1 = (List.range (outcomes run.1).length).map fun k =>
    (world (attempt + k)).caller.WithTimeout config.getTimeout

lemma made_one {n attempt : ℕ} (h : ¬ (n ≠ 0 ∧ (world attempt).Retries)) (k : ℕ) :
    k < 1 ↔ k < n + 1 ∧ ∀ i < k, (world (attempt + i)).Retries := by
  constructor
  · intro hk
    refine ⟨by omega, fun i hi => ?_⟩
    omega
  · rintro ⟨hk, hretries⟩
    by_contra hpos
    exact h ⟨by omega, hretries 0 (by omega)⟩

lemma fromAttempt_last {n attempt : ℕ} {r : Except SignError Sig} (hlast : ¬ (n ≠ 0 ∧ (world attempt).Retries))
    (hr : Returned NewSignatureFromBytes config pub [(world attempt).call config req] r) :
    FromAttempt NewSignatureFromBytes config pub world (n + 1) attempt ([(world attempt).call config req], r) :=
  ⟨by simp [Attempt.call], made_one hlast, rfl, hr, rfl, rfl⟩

lemma fromAttempt_cut {n attempt : ℕ} (hlast : ¬ (n ≠ 0 ∧ (world attempt).Retries)) (ctxErr : Error) :
    FromAttempt NewSignatureFromBytes config pub world (n + 1) attempt
      ([(world attempt).call config req, .wait (backoffAfter attempt) (some ctxErr)],
        .error (asymmetricSignError config (some (.plain ctxErr)))) :=
  ⟨by simp [Attempt.call], made_one hlast, rfl, rfl, rfl, rfl⟩

lemma map_range_succ {α : Type} (f : ℕ → α) (a n : ℕ) :
    (List.range (n + 1)).map (fun k => f (a + k)) = f a :: (List.range n).map fun k => f (a + 1 + k) := by
  rw [List.range_succ_eq_map, List.map_cons, List.map_map]
  congr 1
  apply List.map_congr_left
  intro k _
  show f (a + (k + 1)) = f (a + 1 + k)
  rw [show a + (k + 1) = a + 1 + k by omega]

lemma FromAttempt.cons {n attempt : ℕ} {rest : List Event × Except SignError Sig}
    (h : FromAttempt NewSignatureFromBytes config pub world n (attempt + 1) rest) (hretry : (world attempt).Retries) :
    FromAttempt NewSignatureFromBytes config pub world (n + 1) attempt
      ((world attempt).call config req :: .wait (backoffAfter attempt) none :: rest.1, rest.2) := by
  unfold Attempt.call
  refine ⟨?_, ?_, ?_, ?_, ?_, ?_⟩
  · simp
  · intro k
    simp only [outcomes_call, outcomes_wait, List.length_cons]
    cases k with
    | zero => simp
    | succ k =>
      rw [Nat.succ_lt_succ_iff, Nat.succ_lt_succ_iff, h.made k, Nat.forall_lt_succ_left]
      simp only [Nat.add_zero, hretry, true_and, Nat.add_assoc, Nat.add_comm 1]
  · simp only [outcomes_call, outcomes_wait, List.length_cons]
    rw [map_range_succ fun k => (world k).outcome, ← h.inOrder]
  · obtain ⟨e, es, hes⟩ : ∃ e es, rest.1 = e :: es := by
      apply List.exists_cons_of_ne_nil
      intro hnil
      exact h.called (by rw [hnil]; rfl)
    have hreturned := h.returned
    unfold Returned at hreturned ⊢
    rw [hes] at hreturned ⊢
    exact hreturned
  · simp only [backoffs_call, backoffs_wait, List.length_cons]
    rw [map_range_succ backoffAfter, ← h.backoffs]
  · simp only [times_call, times_wait, outcomes_call, outcomes_wait, List.length_cons]
    rw [map_range_succ fun k => (world k).caller.WithTimeout config.getTimeout, ← h.times]

lemma signLoop_fromAttempt (n attempt : ℕ) (lastErr : Option KmsError) :
    FromAttempt NewSignatureFromBytes config pub world (n + 1) attempt
      (signLoop NewSignatureFromBytes config pub req world (n + 1) attempt lastErr) := by
  induction n generalizing attempt lastErr with
  | zero =>
    rcases signLoop_succ 0 attempt lastErr with ⟨hlast, r, hrun, hr⟩ | ⟨hlast, ctxErr, hrun⟩ | ⟨hn, -⟩
    · rw [hrun]
      exact fromAttempt_last hlast hr
    · rw [hrun]
      exact fromAttempt_cut hlast ctxErr
    · exact absurd rfl hn
  | succ n ih =>
    rcases signLoop_succ (n + 1) attempt lastErr with
      ⟨hlast, r, hrun, hr⟩ | ⟨hlast, ctxErr, hrun⟩ | ⟨-, hretry, err, rest, hrest, hrun⟩
    · rw [hrun]
      exact fromAttempt_last hlast hr
    · rw [hrun]
      exact fromAttempt_cut hlast ctxErr
    · have h := ih (attempt + 1) (some err)
      rw [hrest] at h
      rw [hrun]
      exact h.cons hretry

lemma FromAttempt.made_iff {n : ℕ} {run : List Event × Except SignError Sig}
    (h : FromAttempt NewSignatureFromBytes config pub world (n + 1) 0 run) (hn : config.getMaxRetries = n) (k : ℕ) :
    k < (outcomes run.1).length ↔ Made config world k := by
  rw [h.made, Made, allowedCalls_eq, hn]
  simp only [Nat.zero_add]
  refine and_congr_left fun _ => ?_
  omega

/-- **Retries.**  Whatever the settings, the answers of the service and the states of the caller's context: a call of
`Sign` is bounded, retries only what may be retried, returns the signature or the last error, and waits as it should,
and all that with the configured time for each attempt, if and only if the number of seconds is at most 9223372036 and
the caller's context leaves that time to each attempt that is made. -/
theorem sign_wellTimed_iff {Sig : Type} (DigestFunc : Bytes → Bytes)
    (NewSignatureFromBytes : Bytes → PublicKey → Except Error Sig) (config : SignConfig) (kmsKey : CloudKmsKey)
    (message : Bytes) (world : ℕ → Attempt) :
    WellTimed NewSignatureFromBytes config kmsKey.pub world
        (kmsKey.Sign DigestFunc NewSignatureFromBytes config message world) ↔
      config.Timeout ≤ 9223372036 ∧ ∀ n, Made config world n → (world n).caller.Leaves config.configuredTime := by
  obtain ⟨n, hn⟩ : ∃ n : ℕ, config.getMaxRetries = n := Int.eq_ofNat_of_zero_le (getMaxRetries_nonneg config)
  have hrun : FromAttempt NewSignatureFromBytes config kmsKey.pub world (n + 1) 0
      (kmsKey.Sign DigestFunc NewSignatureFromBytes config message world) := by
    unfold CloudKmsKey.Sign
    dsimp only
    rw [hn, show (1 + (n : ℤ)).toNat = n + 1 by omega]
    exact signLoop_fromAttempt n 0 none
  generalize kmsKey.Sign DigestFunc NewSignatureFromBytes config message world = run at hrun
  have hmade := hrun.made_iff hn
  have htimes : ∀ t, t ∈ times run.1 ↔
      ∃ k, Made config world k ∧ (world k).caller.WithTimeout config.getTimeout = t := by
    intro t
    rw [hrun.times, List.mem_map]
    simp only [List.mem_range, hmade, Nat.zero_add]
  constructor
  · intro h
    have htime : ∀ k, Made config world k →
        config.Timeout ≤ 9223372036 ∧ (world k).caller.Leaves config.configuredTime := by
      intro k hk
      rw [← withTimeout_eq_iff]
      exact (h.time _ ((htimes _).2 ⟨k, hk, rfl⟩)).1
    have hfirst : Made config world 0 := (hmade 0).1 (List.length_pos_iff.2 hrun.called)
    exact ⟨(htime 0 hfirst).1, fun k hk => (htime k hk).2⟩
  · rintro ⟨hfits, hleaves⟩
    refine ⟨?_, by simpa using hrun.inOrder, ?_, hrun.returned, ?_, ?_, ?_⟩
    · have hbounded := fun k hk => ((hmade k).1 hk).1
      specialize hbounded ((outcomes run.1).length - 1)
      have hpos := List.length_pos_iff.2 hrun.called
      omega
    · intro k hk
      have hnext := (hmade (k + 1)).1 hk
      exact ⟨hnext.2 k (by omega), (hleaves (k + 1) hnext).live (configuredTime_pos config)⟩
    · intro d hd
      rw [hrun.backoffs] at hd
      obtain ⟨k, -, rfl⟩ := List.mem_map.1 hd
      exact ⟨le_backoffAfter _, backoffAfter_le _⟩
    · rw [hrun.backoffs, List.pairwise_map]
      refine List.pairwise_lt_range.imp ?_
      intro a b hab
      exact backoffAfter_mono (by omega)
    · intro t ht
      obtain ⟨k, hk, rfl⟩ := (htimes t).1 ht
      rw [(withTimeout_eq_iff config _).2 ⟨hfits, hleaves k hk⟩]
      exact ⟨rfl, configuredTime_pos config⟩

end Runs

/-- A timeout of 9223372037 s. -/
def longTimeout : SignConfig where
  project := "p"
  location := "l"
  keyRing := "r"
  Timeout := 9223372037
  MaxRetries := none

def signingKey : CloudKmsKey := ⟨⟨"s/3", .ENABLED, ""⟩, .ecdsa (unitKey .P256).toEcdsaPublicKey⟩

/-- The product is negative, so that the deadline of the only call is over before it is made, although the caller sets
none. -/
theorem longTimeout_expired :
    let world : ℕ → Attempt := fun _ => ⟨.unlimited, .ok [2], none, none⟩
    let run := signingKey.Sign id (fun signature _ => .ok signature) longTimeout [1] world
    times run.1 = [-9223372036709551616] ∧
      ¬ WellTimed (fun signature _ => .ok signature) longTimeout signingKey.pub world run := by
  intro world run
  have htime : times run.1 = [-9223372036709551616] := by decide +kernel
  refine ⟨htime, fun h => ?_⟩
  have hpos := (h.time (-9223372036709551616) (by rw [htime]; exact List.mem_singleton_self _)).2
  omega

end Signatory.Vault.CloudKms
