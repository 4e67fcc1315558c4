import Signatory.Signer.Policy
import Signatory.Lib.Command
import Signatory.Lib.Machine

/-!
# `pkg/vault/ledger`: the worker

One goroutine owns the device.  It takes requests from a channel, opens the device when it is needed, and closes it when
the timer that was started at the opening fires.  What the worker does is written to a log, the device pointer that a
method is called on included; a call on a nil pointer ends the process, and a receive that nothing can satisfy ends the
worker.

What the device and the scanner answer is part of the input, and so is the firing of the timer.  It is enough to let the
timer fire between the turns of the loop: `Stop` and `Reset` treat a timer that has just fired like one that is about
to.
-/

namespace Signatory.Vault.Ledger

open Lib.Command Lib.Machine
open Signer (Bytes Error)

/-- `time.Timer`, by what has become of its tick. -/
inductive Timer where
  | armed
  | fired
  | received
  | stopped
  deriving DecidableEq

/-- The tick is still to be received. -/
def Timer.pending : Timer → Bool
  | .armed | .fired => true
  | .received | .stopped => false

/-- `Stop` drops a tick that was not received; it returns false if there is nothing to stop. -/
def Timer.Stop : Timer → Bool × Timer
  | .armed | .fired => (true, .stopped)
  | t => (false, t)

/-- `ledgerKey`, without the vault. -/
structure LedgerKey (KeyID PK : Type) where
  id : KeyID
  pub : PK

/-- What is sent to the channels of a request, which have room for one value each. -/
inductive Reply (KeyID PK Sig : Type) where
  | res (key : LedgerKey KeyID PK)
  | sig (sig : Sig)
  | err (e : Error)

/-- What the worker does, with the device pointer it does it to. -/
inductive Event (Dev KeyID PK Sig : Type) where
  /-- `scanner.open` returned this device, or nil and an error. -/
  | opened (dev : Option Dev)
  | close (dev : Option Dev)
  | getPublicKey (dev : Option Dev) (key : KeyID)
  | sign (dev : Option Dev) (key : KeyID) (data : Bytes)
  /-- The receive from `t.C` in `openDev`, and the timer at this moment. -/
  | receive (t : Timer)
  | reply (r : Reply KeyID PK Sig)

/-- Why a worker is gone. -/
inductive Halt where
  | nilDevice
  | blocked
  deriving DecidableEq

/-- The variables of the worker, its log, and how it ended if it did. -/
structure Worker (Dev KeyID PK Sig : Type) where
  dev : Option Dev := none
  t : Option Timer := none
  /-- `tch` is the channel of `t`, or nil. -/
  tch : Bool := false
  log : List (Event Dev KeyID PK Sig) := []
  halted : Option Halt := none

section

variable {Dev KeyID PK Sig : Type}

/-! ## The loop body -/

def emit (e : Event Dev KeyID PK Sig) : Cmd (Worker Dev KeyID PK Sig) Halt Unit :=
  modify fun w => { w with log := w.log ++ [e] }

/-- A method of the device is called. -/
def invoke (call : Option Dev → Event Dev KeyID PK Sig) : Cmd (Worker Dev KeyID PK Sig) Halt Unit := do
  let w ← get
  emit (call w.dev)
  if w.dev.isNone then
    throw .nilDevice

/-- The part of `openDev` that starts the timer. -/
def startTimer : Cmd (Worker Dev KeyID PK Sig) Halt Unit := do
  match (← get).t with
  | none => modify fun w => { w with t := some .armed }
  | some t =>
    if !t.Stop.1 then
      emit (.receive t)
      -- there is no tick in the channel of a timer that could not be stopped, and none will come
      if !t.pending then
        throw .blocked
    modify fun w => { w with t := some .armed }

/-- `openDev` from `scanner.open` on. -/
def reopen (answer : Except Error Dev) : Cmd (Worker Dev KeyID PK Sig) Halt (Option Error) := do
  modify fun w => { w with dev := answer.toOption }
  emit (.opened answer.toOption)
  match answer with
  | .error e => pure (some e)
  | .ok _ =>
    startTimer
    modify fun w => { w with tch := true }
    pure none

def openDev (retry : Bool) (answer : Except Error Dev) : Cmd (Worker Dev KeyID PK Sig) Halt (Option Error) := do
  match (← get).dev, retry with
  | some _, false => pure none
  | some d, true =>
    -- the error of `Close` is dropped
    emit (.close (some d))
    reopen answer
  | none, _ => reopen answer

/-- The case `getKeyReq` of the loop. -/
def getKeyReq (key : KeyID) (opened : Except Error Dev) (pub : Except Error PK) :
    Cmd (Worker Dev KeyID PK Sig) Halt Unit := do
  match ← openDev false opened with
  | some e => emit (.reply (.err e))
  | none =>
    invoke fun dev => .getPublicKey dev key
    match pub with
    | .error e => emit (.reply (.err e))
    | .ok pub => emit (.reply (.res ⟨key, pub⟩))

/-- One round of the loop over `attempt`; `again` is what follows when the first attempt fails. -/
def signAttempt (key : KeyID) (data : Bytes) (retry : Bool) (opened : Except Error Dev) (sig : Except Error Sig)
    (again : Cmd (Worker Dev KeyID PK Sig) Halt Unit) : Cmd (Worker Dev KeyID PK Sig) Halt Unit := do
  match ← openDev retry opened with
  | some e => emit (.reply (.err e))
  | none =>
    invoke fun dev => .sign dev key data
    match sig with
    | .error e => if retry then emit (.reply (.err e)) else again
    | .ok sig => emit (.reply (.sig sig))

/-- The case `signReq` of the loop: `attempt` is 0, then 1. -/
def signReq (key : KeyID) (data : Bytes) (opened : Bool → Except Error Dev) (sig : Bool → Except Error Sig) :
    Cmd (Worker Dev KeyID PK Sig) Halt Unit :=
  signAttempt key data false (opened false) (sig false) (signAttempt key data true (opened true) (sig true) (pure ()))

/-- The case of the timer. -/
def idle (closed : Except Error Unit) : Cmd (Worker Dev KeyID PK Sig) Halt Unit := do
  modify fun w => { w with t := some .received }
  invoke .close
  match closed with
  | .error _ => pure ()
  | .ok () => modify fun w => { w with dev := none, tch := false }

/-! ## Turns of the loop -/

/-- The timer fires, the tick is received by `select`, or a request is; with the answers of the device. -/
inductive Input (Dev KeyID PK Sig : Type) where
  | fire
  | tick (closed : Except Error Unit)
  | getKey (key : KeyID) (opened : Except Error Dev) (pub : Except Error PK)
  | sign (key : KeyID) (data : Bytes) (opened : Bool → Except Error Dev) (sig : Bool → Except Error Sig)

/-- The turn as a command; a tick that is not there is not received. -/
def turn (w : Worker Dev KeyID PK Sig) : Input Dev KeyID PK Sig → Cmd (Worker Dev KeyID PK Sig) Halt Unit
  | .fire => if w.t = some .armed then modify fun w => { w with t := some .fired } else pure ()
  | .tick closed => if w.tch = true ∧ w.t = some .fired then idle closed else pure ()
  | .getKey key opened pub => getKeyReq key opened pub
  | .sign key data opened sig => signReq key data opened sig

/-- How a command leaves the worker. -/
def Worker.after : Except Halt Unit × Worker Dev KeyID PK Sig → Worker Dev KeyID PK Sig
  | (.ok (), w) => w
  | (.error h, w) => { w with halted := some h }

/-- One turn, with what is logged in it.  Nothing is done once the worker is gone. -/
def step (w : Worker Dev KeyID PK Sig) (i : Input Dev KeyID PK Sig) :
    List (Event Dev KeyID PK Sig) × Worker Dev KeyID PK Sig :=
  match w.halted with
  | some _ => ([], w)
  | none =>
    let w' := Worker.after (exec (turn w i) w)
    (w'.log.drop w.log.length, w')

/-! ## What `openDev` can do -/

/-- A device that is open is closed first. -/
def closing : Option Dev → List (Event Dev KeyID PK Sig)
  | some d => [.close (some d)]
  | none => []

/-- The outcomes of `openDev`. -/
inductive OpensDev (w : Worker Dev KeyID PK Sig) :
    Bool → Except Error Dev → Except Halt (Option Error) × Worker Dev KeyID PK Sig → Prop
  | held (d : Dev) (answer : Except Error Dev) : w.dev = some d → OpensDev w false answer (.ok none, w)
  | failed (retry : Bool) (e : Error) : (retry = false → w.dev = none) → OpensDev w retry (.error e)
      (.ok (some e), { w with dev := none, log := w.log ++ (closing w.dev ++ [.opened none]) })
  | fresh (retry : Bool) (d : Dev) : (retry = false → w.dev = none) → (∀ t, w.t = some t → t.pending = true) →
      OpensDev w retry (.ok d) (.ok none,
        { w with dev := some d, t := some .armed, tch := true, log := w.log ++ (closing w.dev ++ [.opened (some d)]) })
  | wedged (retry : Bool) (d : Dev) (t : Timer) : (retry = false → w.dev = none) → w.t = some t → t.pending = false →
      OpensDev w retry (.ok d) (.error .blocked,
        { w with dev := some d, log := w.log ++ (closing w.dev ++ [.opened (some d), .receive t]) })

lemma reopen_cases (w : Worker Dev KeyID PK Sig) (retry : Bool) (answer : Except Error Dev)
    (hretry : retry = false → w.dev = none) :
    OpensDev w retry answer (exec (reopen answer) { w with log := w.log ++ closing w.dev }) := by
  have hassoc (es fs : List (Event Dev KeyID PK Sig)) :
      w.log ++ (closing w.dev ++ (es ++ fs)) = w.log ++ closing w.dev ++ es ++ fs := by simp
  have hfailed := fun e => OpensDev.failed (w := w) retry e hretry
  have hfresh := fun d => OpensDev.fresh (w := w) retry d hretry
  have hwedged := fun d t => OpensDev.wedged (w := w) retry d t hretry
  simp only [← List.append_assoc] at hfailed hfresh
  obtain ⟨dev, t, tch, log, halted⟩ := w
  cases answer with
  | error e => exact hfailed e
  | ok d =>
    -- a tick that was received is waited for again, and any other one is dropped by `Stop`
    rcases t with _ | _ | _ | _ | _
    · exact hfresh d (by simp)
    · exact hfresh d (by simp [Timer.pending])
    · exact hfresh d (by simp [Timer.pending])
    · have h := hwedged d .received rfl rfl
      rw [show [Event.opened (some d), .receive .received] = [.opened (some d)] ++ [.receive .received] from rfl,
        hassoc] at h
      exact h
    · have h := hwedged d .stopped rfl rfl
      rw [show [Event.opened (some d), .receive .stopped] = [.opened (some d)] ++ [.receive .stopped] from rfl,
        hassoc] at h
      exact h

lemma openDev_cases (w : Worker Dev KeyID PK Sig) (retry : Bool) (answer : Except Error Dev) :
    OpensDev w retry answer (exec (openDev retry answer) w) := by
  obtain ⟨dev, t, tch, log, halted⟩ := w
  cases dev with
  | none =>
    have h := reopen_cases ⟨none, t, tch, log, halted⟩ retry answer fun _ => rfl
    simp only [closing, List.append_nil] at h
    exact h
  | some d =>
    cases retry with
    | false => exact OpensDev.held d answer rfl
    | true =>
      exact reopen_cases ⟨some d, t, tch, log, halted⟩ true answer fun h => by cases h

lemma OpensDev.dev_of_ok {w w₁ : Worker Dev KeyID PK Sig} {retry : Bool} {answer : Except Error Dev}
    (h : OpensDev w retry answer (.ok none, w₁)) : ∃ d, w₁.dev = some d := by
  cases h with
  | held d _ hd => exact ⟨d, hd⟩
  | fresh _ d => exact ⟨d, rfl⟩

/-! ## What a turn can do -/

/-- The worker with more in its log. -/
def Worker.logged (w : Worker Dev KeyID PK Sig) (es : List (Event Dev KeyID PK Sig)) : Worker Dev KeyID PK Sig :=
  { w with log := w.log ++ es }

@[simp] lemma wp_emit (e : Event Dev KeyID PK Sig) {Q : Unit → Worker Dev KeyID PK Sig → Prop}
    {E : Halt → Worker Dev KeyID PK Sig → Prop} {w : Worker Dev KeyID PK Sig} :
    wp (emit e) Q E w ↔ Q () (w.logged [e]) := Iff.rfl

lemma wp_invoke {w : Worker Dev KeyID PK Sig} {d : Dev} (hd : w.dev = some d)
    (call : Option Dev → Event Dev KeyID PK Sig) {Q : Unit → Worker Dev KeyID PK Sig → Prop}
    {E : Halt → Worker Dev KeyID PK Sig → Prop} :
    wp (invoke call) Q E w ↔ Q () (w.logged [call (some d)]) := by
  obtain ⟨dev, t, tch, log, halted⟩ := w
  obtain rfl : dev = some d := hd
  rfl

lemma logged_logged (w : Worker Dev KeyID PK Sig) (es fs : List (Event Dev KeyID PK Sig)) :
    (w.logged es).logged fs = w.logged (es ++ fs) := by
  simp [Worker.logged]

/-- The outcomes of `getKeyReq` or a round of `signReq`, in which the method `call` of the device is called: the device
cannot be opened, or its timer not be started; the request is answered; or the method fails and the loop goes on. -/
inductive Round (w : Worker Dev KeyID PK Sig) (call : Option Dev → Event Dev KeyID PK Sig) (retry : Bool)
    (opened : Except Error Dev) (goesOn : Prop)
    (again : Worker Dev KeyID PK Sig → Except Halt Unit × Worker Dev KeyID PK Sig → Prop) :
    Except Halt Unit × Worker Dev KeyID PK Sig → Prop
  | refused (e : Error) (w₁ : Worker Dev KeyID PK Sig) : OpensDev w retry opened (.ok (some e), w₁) →
      Round w call retry opened goesOn again (.ok (), w₁.logged [.reply (.err e)])
  | wedged (h : Halt) (w₁ : Worker Dev KeyID PK Sig) : OpensDev w retry opened (.error h, w₁) →
      Round w call retry opened goesOn again (.error h, w₁)
  | answered (w₁ : Worker Dev KeyID PK Sig) (d : Dev) (r : Reply KeyID PK Sig) :
      OpensDev w retry opened (.ok none, w₁) → w₁.dev = some d → ¬ goesOn →
        Round w call retry opened goesOn again (.ok (), w₁.logged [call (some d), .reply r])
  | again (w₁ : Worker Dev KeyID PK Sig) (d : Dev) (out : Except Halt Unit × Worker Dev KeyID PK Sig) :
      OpensDev w retry opened (.ok none, w₁) → w₁.dev = some d → goesOn → again (w₁.logged [call (some d)]) out →
      Round w call retry opened goesOn again out

/-- A round that is the last one. -/
abbrev LastRound (w : Worker Dev KeyID PK Sig) (call : Option Dev → Event Dev KeyID PK Sig) (retry : Bool)
    (opened : Except Error Dev) : Except Halt Unit × Worker Dev KeyID PK Sig → Prop :=
  Round w call retry opened False fun _ _ => False

lemma Round.congr {w : Worker Dev KeyID PK Sig} {call : Option Dev → Event Dev KeyID PK Sig} {retry : Bool}
    {opened : Except Error Dev} {goesOn goesOn' : Prop}
    {again again' : Worker Dev KeyID PK Sig → Except Halt Unit × Worker Dev KeyID PK Sig → Prop}
    {out : Except Halt Unit × Worker Dev KeyID PK Sig} (h : Round w call retry opened goesOn again out)
    (hgo : goesOn ↔ goesOn') (himp : ∀ w₁ out, goesOn' → again w₁ out → again' w₁ out) :
    Round w call retry opened goesOn' again' out := by
  cases h with
  | refused e w₁ h => exact .refused e w₁ h
  | wedged e w₁ h => exact .wedged e w₁ h
  | answered w₁ d r h hd hnot => exact .answered w₁ d r h hd fun hgo' => hnot (hgo.2 hgo')
  | again w₁ d _ h hd hg hout => exact .again w₁ d _ h hd (hgo.1 hg) (himp _ _ (hgo.1 hg) hout)

lemma getKeyReq_round (w : Worker Dev KeyID PK Sig) (key : KeyID) (opened : Except Error Dev) (pub : Except Error PK) :
    LastRound w (fun dev => .getPublicKey dev key) false opened (exec (getKeyReq key opened pub) w) := by
  refine (wp_exec _ (LastRound w _ false opened)).1 ?_
  unfold getKeyReq
  rw [wp_bind]
  have h := openDev_cases w false opened
  refine wp_of_exec _ (fun r w₁ hr => ?_) fun e w₁ he => ?_
  · rw [hr] at h
    cases r with
    | some e => exact .refused e w₁ h
    | none =>
      obtain ⟨d, hd⟩ := h.dev_of_ok
      simp only [wp_bind, wp_invoke hd]
      cases pub with
      | error e =>
        rw [wp_emit, logged_logged]
        exact .answered w₁ d (.err e) h hd not_false
      | ok pub =>
        rw [wp_emit, logged_logged]
        exact .answered w₁ d (.res ⟨key, pub⟩) h hd not_false
  · rw [he] at h
    exact .wedged e w₁ h

lemma signAttempt_round (w : Worker Dev KeyID PK Sig) (key : KeyID) (data : Bytes) (retry : Bool)
    (opened : Except Error Dev) (sig : Except Error Sig) (again : Cmd (Worker Dev KeyID PK Sig) Halt Unit) :
    Round w (fun dev => .sign dev key data) retry opened (retry = false ∧ ∃ e, sig = .error e)
      (fun w₁ out => out = exec again w₁) (exec (signAttempt key data retry opened sig again) w) := by
  refine (wp_exec _ (Round w _ retry opened _ _)).1 ?_
  unfold signAttempt
  rw [wp_bind]
  have h := openDev_cases w retry opened
  refine wp_of_exec _ (fun r w₁ hr => ?_) fun e w₁ he => ?_
  · rw [hr] at h
    cases r with
    | some e => exact .refused e w₁ h
    | none =>
      obtain ⟨d, hd⟩ := h.dev_of_ok
      simp only [wp_bind, wp_invoke hd]
      cases sig with
      | error e =>
        cases retry with
        | true =>
          refine (wp_emit _).2 ?_
          rw [logged_logged]
          exact .answered w₁ d (.err e) h hd fun hgo => by cases hgo.1
        | false =>
          refine (wp_exec again (Round w _ false opened _ _)).2 ?_
          exact .again w₁ d _ h hd ⟨rfl, e, rfl⟩ rfl
      | ok sig =>
        rw [wp_emit, logged_logged]
        exact .answered w₁ d (.sig sig) h hd fun hgo => by obtain ⟨-, e, he⟩ := hgo; cases he
  · rw [he] at h
    exact .wedged e w₁ h

/-- `signReq` is one round, and a second one if the first `Sign` fails. -/
lemma signReq_rounds (w : Worker Dev KeyID PK Sig) (key : KeyID) (data : Bytes) (opened : Bool → Except Error Dev)
    (sig : Bool → Except Error Sig) :
    Round w (fun dev => .sign dev key data) false (opened false) (∃ e, sig false = .error e)
      (fun w₁ => LastRound w₁ (fun dev => .sign dev key data) true (opened true))
      (exec (signReq key data opened sig) w) := by
  refine (signAttempt_round w key data false (opened false) (sig false) _).congr (and_iff_right rfl) ?_
  rintro w₁ _ - rfl
  refine (signAttempt_round w₁ key data true (opened true) (sig true) (pure ())).congr ?_ fun _ _ h => h.elim
  exact iff_of_false (fun h => by cases h.1) not_false

end

end Signatory.Vault.Ledger
