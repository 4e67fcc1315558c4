import Signatory.Lib.Versioned
import Signatory.Watermark.Aws

/-!
# `watermark/gcp.go`: the conditional write over Firestore

`checkAndSet` reads the document, compares, and writes under a precondition; after a lost race it starts
again, at most `casMaxAttempts` times.  Any number of calls run against one store, so the model is a step
function on the state of the documents and of all the calls, and an action is one of:

* a call begins, or gets the reply to its `Get`;
* the store carries out a write that some call has sent (`apply`): at any time from then on, even after the
  caller has given up, and as often as the precondition allows;
* a call learns that its write succeeded, which needs the write to have been carried out, or gets an error
  with any code, at any time, whether or not the write has been or will be carried out.

So lost races, cancellations, lost replies and stray writes are all runs of the model.  `Firestore` is
outside this repository; what is assumed of it is in `apply`: `Create` needs the document to be absent,
`Update` with `LastUpdateTime` needs it unchanged since then, and update times grow.

An action that is not possible changes nothing.  The record of the writes (`log`) is only there to speak
about them.
-/

namespace Signatory.Watermark

open Request Lib.Machine Lib.Versioned

structure GCPWatermark where
  request : String
  level : Int32
  round : Int32
  digest : Option Digest
  deriving DecidableEq, Repr

namespace GCPWatermark

def supersededBy (w next : GCPWatermark) : Bool :=
  decide (w.level < next.level) || (w.level == next.level && decide (w.round < next.round))

def pos (w : GCPWatermark) : Position := position w.level w.round

lemma supersededBy_iff {w next : GCPWatermark} : w.supersededBy next = true ↔ w.pos < next.pos := by
  simp [supersededBy, pos, position_lt_iff, Int32.lt_iff_toInt_lt, Int32.toInt_inj]

end GCPWatermark

namespace GCP

/-! ## The model -/

/-- `codes.Code`, as far as `checkAndSet` tells them apart. -/
inductive Code where
  | NotFound | AlreadyExists | FailedPrecondition | other
  deriving DecidableEq, Repr

/-- The errors of `checkAndSet`: `ErrWatermark`, a Firestore error, a document that does not decode, and
"conditional write retries exhausted" with the last error. -/
inductive CasErr where
  | ErrWatermark
  | firestore (code : Code)
  | decode
  | exhausted (lastErr : Code)
  deriving DecidableEq, Repr

def casMaxAttempts : ℕ := 4

/-- `col.Doc(chain).Collection(kind).Doc(pkh)`. -/
structure DocRef where
  chain : String
  kind : String
  pkh : String
  deriving DecidableEq, Repr

/-- What `IsSafeToSign` hands to `checkAndSet`; nothing when the request needs no watermark. -/
def casInput {PKH : Type} (T : Texts PKH) (c : Call PKH) : Option (DocRef × GCPWatermark) :=
  c.req.asWithWatermark.map fun m =>
    let wm := NewWatermark m c.digest
    (⟨T.chain m.chainID, c.req.SignRequestKind, T.pkh c.pkh⟩,
      { request := c.req.SignRequestKind
        level := wm.level
        round := wm.round
        digest := wm.hash })

/-- Where a call of `checkAndSet` stands: at the head of the loop, waiting for the reply to a `Create`
or an `Update`, or back with a result. -/
inductive Pc where
  | get (attempt : ℕ)
  | writing (attempt : ℕ) (guard : Guard)
  | returned (result : Except CasErr Unit)

structure CallSt where
  ref : DocRef
  newWm : GCPWatermark
  pc : Pc

/-- The reply to a `Get`: the document as it is (its absence is the error `NotFound`), or an error. -/
inductive GetReply where
  | snapshot (decodes : Bool)
  | error (code : Code)
  deriving DecidableEq, Repr

/-- `checkAndSet` from the reply to `Get` to the next request: the write to send, or the result. -/
def afterGet (doc : Option (Cell GCPWatermark)) (reply : GetReply) (newWm : GCPWatermark) :
    Except CasErr Unit ⊕ Guard :=
  match reply, doc with
  | .snapshot _, none => .inr .absent
  | .snapshot false, some _ => .inl (.error .decode)
  | .snapshot true, some oldWm =>
    if !oldWm.val.supersededBy newWm then .inl (.error .ErrWatermark) else .inr (.unchanged oldWm.time)
  | .error .NotFound, _ => .inr .absent
  | .error code, _ => .inl (.error (.firestore code))

/-- The code with which `Create`, respectively `Update`, reports a lost race. -/
def lostRace : Guard → Code
  | .absent => .AlreadyExists
  | .unchanged _ => .FailedPrecondition

/-- `checkAndSet` after an error of the write: the next turn of the loop, or the result. -/
def afterWriteErr (attempt : ℕ) (guard : Guard) (code : Code) : Pc :=
  if code = lostRace guard then
    if attempt + 1 < casMaxAttempts then .get (attempt + 1) else .returned (.error (.exhausted code))
  else .returned (.error (.firestore code))

variable (ι PKH : Type)

/-- A write that a call has sent. -/
structure Write where
  caller : ι
  attempt : ℕ
  ref : DocRef
  newWm : GCPWatermark
  guard : Guard

/-- A write that has been carried out, with what it replaced. -/
structure Effect where
  caller : ι
  attempt : ℕ
  ref : DocRef
  old : Option GCPWatermark
  new : GCPWatermark

structure State where
  docs : DocRef → Option (Cell GCPWatermark)
  calls : ι → Option CallSt
  sent : List (Write ι)
  log : List (Effect ι)

inductive Action where
  | call (i : ι) (c : Call PKH)
  | get (i : ι) (reply : GetReply)
  | apply (n : ℕ) (time : ℕ)
  | writeOk (i : ι)
  | writeErr (i : ι) (code : Code)

variable {ι PKH} [DecidableEq ι] (T : Texts PKH)

def State.setCall (s : State ι) (i : ι) (cs : CallSt) : State ι :=
  { s with calls := Function.update s.calls i (some cs) }

def step (s : State ι) (a : Action ι PKH) : State ι :=
  match a with
  | .call i c =>
    match s.calls i, casInput T c with
    | none, some (ref, newWm) => s.setCall i ⟨ref, newWm, .get 0⟩
    | _, _ => s
  | .get i reply =>
    match s.calls i with
    | some ⟨ref, newWm, .get attempt⟩ =>
      match afterGet (s.docs ref) reply newWm with
      | .inl result => s.setCall i ⟨ref, newWm, .returned result⟩
      | .inr guard =>
        { s.setCall i ⟨ref, newWm, .writing attempt guard⟩ with
          sent := ⟨i, attempt, ref, newWm, guard⟩ :: s.sent }
    | _ => s
  | .apply n time =>
    match s.sent[n]? with
    | some w =>
      if w.guard.Holds (s.docs w.ref) ∧ Later (s.docs w.ref) time then
        { s with
          docs := Function.update s.docs w.ref (some ⟨w.newWm, time⟩)
          log := s.log ++ [⟨w.caller, w.attempt, w.ref, (s.docs w.ref).map Cell.val, w.newWm⟩] }
      else s
    | none => s
  | .writeOk i =>
    match s.calls i with
    | some ⟨ref, newWm, .writing attempt _⟩ =>
      if s.log.any (fun e => e.caller = i ∧ e.attempt = attempt) then
        s.setCall i ⟨ref, newWm, .returned (.ok ())⟩
      else s
    | _ => s
  | .writeErr i code =>
    match s.calls i with
    | some ⟨ref, newWm, .writing attempt guard⟩ =>
      s.setCall i ⟨ref, newWm, afterWriteErr attempt guard code⟩
    | _ => s

/-- The state after a run, over the documents `docs`. -/
def run (docs : DocRef → Option (Cell GCPWatermark)) (acts : List (Action ι PKH)) : State ι :=
  acts.foldl (step T) ⟨docs, fun _ => none, [], []⟩

end GCP

end Signatory.Watermark
