import Mathlib.Data.Prod.Lex
import Signatory.Lib.Int32
import Signatory.Hashmap

/-!
# `pkg/signatory/request`: sign requests and watermarks

The sign requests are gotez types.  What this repository does with them is to ask for their kind, to
ask whether they satisfy `WithWatermark`, and to ask whether they are the generic request of one of the
two protocol packages; `SignRequest` keeps what these questions see.

`Watermark.Validate` compares levels and rounds by a wrapping `int32` difference.  `validate_iff` says
what it decides: the (level, round) pair is above the stored one, unless the difference wraps.
-/

namespace Signatory

/-- `tz.ChainID`, four bytes. -/
abbrev ChainID := BitVec 32

/-- `crypt.Digest`, and `tz.BlockPayloadHash` to which it is converted: 32 bytes. -/
abbrev Digest := BitVec 256

namespace Request

/-! ## Sign requests -/

/-- `core.BallotKind`. -/
inductive BallotKind where
  | yay | nay | pass
  deriving DecidableEq, Repr

def BallotKind.String : BallotKind → String
  | .yay => "yay"
  | .nay => "nay"
  | .pass => "pass"

/-- `core.OperationContents`: a ballot (the type assertion to `core.Ballot` succeeds) or an operation
of another kind. -/
inductive OperationContents where
  | ballot (vote : BallotKind)
  | other (kind : String)
  deriving DecidableEq, Repr

/-- `core.GetOperationKind`. -/
def GetOperationKind : OperationContents → String
  | .ballot _ => "ballot"
  | .other kind => kind

/-- What the methods of `request.WithWatermark` return. -/
structure WithWatermark where
  kind : String
  chainID : ChainID
  level : Int32
  round : Int32
  deriving DecidableEq, Repr

/-- A sign request of one protocol package: one that satisfies `WithWatermark`, a
`GenericOperationSignRequest` with its contents, or any other. -/
inductive ProtoSignRequest where
  | withWatermark (m : WithWatermark)
  | generic (contents : List OperationContents)
  | other (kind : String)
  deriving DecidableEq, Repr

/-- `core.SignRequest`, by the package of its dynamic type: `proto_022_PsRiotum` or `latest`. -/
inductive SignRequest where
  | v1 (req : ProtoSignRequest)
  | latest (req : ProtoSignRequest)
  deriving DecidableEq, Repr

/-- The request without the package it comes from. -/
def SignRequest.proto : SignRequest → ProtoSignRequest
  | .v1 req => req
  | .latest req => req

def ProtoSignRequest.SignRequestKind : ProtoSignRequest → String
  | .withWatermark m => m.kind
  | .generic _ => "generic"
  | .other kind => kind

def SignRequest.SignRequestKind (req : SignRequest) : String := req.proto.SignRequestKind

/-- The type assertion `req.(request.WithWatermark)`. -/
def SignRequest.asWithWatermark (req : SignRequest) : Option WithWatermark :=
  match req.proto with
  | .withWatermark m => some m
  | _ => none

lemma SignRequest.kind_of_asWithWatermark {req : SignRequest} {m : WithWatermark}
    (h : req.asWithWatermark = some m) : req.SignRequestKind = m.kind := by
  unfold SignRequest.asWithWatermark at h
  unfold SignRequest.SignRequestKind
  cases hp : req.proto <;> simp_all [ProtoSignRequest.SignRequestKind]

/-! ## Watermarks -/

structure Watermark where
  level : Int32
  round : Int32
  hash : Option Digest
  deriving DecidableEq, Repr

def NewWatermark (req : WithWatermark) (hash : Digest) : Watermark where
  level := req.level
  round := req.round
  hash := some hash

/-- `Watermark.Validate`: `l` may be signed after `stored`. -/
def Watermark.Validate (l stored : Watermark) : Bool :=
  if l.hash.isSome && stored.hash.isSome && l.hash == stored.hash then true
  else
    let d := l.level - stored.level
    let diff := if d == 0 then l.round - stored.round else d
    decide (diff > 0)

/-! ## What `Validate` decides -/

/-- A level and a round, in lexicographic order. -/
abbrev Position := ℤ ×ₗ ℤ

/-- The position of a level and a round. -/
def position (level round : Int32) : Position := toLex (level.toInt, round.toInt)

def Watermark.pos (w : Watermark) : Position := position w.level w.round

def WithWatermark.pos (m : WithWatermark) : Position := position m.level m.round

@[simp] lemma newWatermark_hash (m : WithWatermark) (d : Digest) : (NewWatermark m d).hash = some d := rfl

lemma position_lt_iff {l r l' r' : Int32} :
    position l r < position l' r' ↔ l.toInt < l'.toInt ∨ l.toInt = l'.toInt ∧ r.toInt < r'.toInt := by
  simp [position, Prod.Lex.lt_iff]

/-- The difference that `Validate` forms lies below `-2^31` and wraps around to a positive one: the new
level is more than `2^31` below the stored level, or the levels are equal and the rounds are so. -/
def Watermark.Underflows (l stored : Watermark) : Prop :=
  l.level.toInt < stored.level.toInt - 2 ^ 31 ∨
    l.level = stored.level ∧ l.round.toInt < stored.round.toInt - 2 ^ 31

/-- The difference that `Validate` forms lies above `2^31 - 1` and wraps around to a negative one. -/
def Watermark.Overflows (l stored : Watermark) : Prop :=
  stored.level.toInt + 2 ^ 31 ≤ l.level.toInt ∨
    l.level = stored.level ∧ stored.round.toInt + 2 ^ 31 ≤ l.round.toInt

instance (l stored : Watermark) : Decidable (l.Underflows stored) := by
  unfold Watermark.Underflows; infer_instance

instance (l stored : Watermark) : Decidable (l.Overflows stored) := by
  unfold Watermark.Overflows; infer_instance

/-- **What `Validate` decides**: the hashes are there and equal, or the position goes up without the
difference wrapping, or the position goes down so far that it does wrap. -/
theorem Watermark.validate_iff (l stored : Watermark) :
    l.Validate stored = true ↔
      (∃ d, l.hash = some d ∧ stored.hash = some d) ∨
        (stored.pos < l.pos ∧ ¬ l.Overflows stored) ∨ l.Underflows stored := by
  have hhash : (l.hash.isSome && stored.hash.isSome && l.hash == stored.hash) = true ↔
      ∃ d, l.hash = some d ∧ stored.hash = some d := by
    cases hl : l.hash <;> cases hs : stored.hash <;> simp
    exact eq_comm
  unfold Watermark.Validate
  by_cases hh : (l.hash.isSome && stored.hash.isSome && l.hash == stored.hash) = true
  · simp only [hh, if_true, true_iff]
    exact Or.inl (hhash.1 hh)
  · have hno : ¬ ∃ d, l.hash = some d ∧ stored.hash = some d := fun h => hh (hhash.2 h)
    rw [if_neg hh]
    simp only [hno, false_or, beq_iff_eq, Lib.Int32.sub_eq_zero_iff, decide_eq_true_eq, gt_iff_lt]
    unfold Watermark.pos Watermark.Overflows Watermark.Underflows
    rw [position_lt_iff]
    by_cases hlev : l.level = stored.level
    · simp only [hlev, eq_self, true_and, if_true, Lib.Int32.sub_pos_iff]
      omega
    · have hne : l.level.toInt ≠ stored.level.toInt := fun h => hlev (Int32.toInt_inj.1 h)
      simp only [hlev, if_false, Lib.Int32.sub_pos_iff, false_and, or_false]
      omega

lemma Watermark.not_underflows_of_nonneg {l stored : Watermark} (hl : 0 ≤ l.level) (hr : 0 ≤ l.round) :
    ¬ l.Underflows stored := by
  rw [Int32.le_iff_toInt_le, Int32.toInt_zero] at hl hr
  have h1 := stored.level.toInt_lt
  have h2 := stored.round.toInt_lt
  unfold Watermark.Underflows
  omega

lemma Watermark.pos_lt_of_underflows {l stored : Watermark} (h : l.Underflows stored) :
    l.pos < stored.pos := by
  unfold Watermark.pos
  rw [position_lt_iff]
  rcases h with h | ⟨h, h'⟩
  · omega
  · rw [h]; omega

end Request

end Signatory
