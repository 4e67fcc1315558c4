import Signatory.Lib.Machine
import Signatory.Watermark.Mem

/-!
# `watermark/aws.go`: the conditional put

A call of `IsSafeToSign` is one `PutItem` with a condition, which DynamoDB evaluates and carries out at once.
Calls of any number of instances are therefore served one after the other, and a run is the list of the
puts in that order.  A put may fail before it reaches the table, and its reply may be lost after it has been
carried out; `putItem` answers both with `ErrWatermark`.

`putItem_climbs` and `accepted_pairwise`: what is stored under a key climbs strictly with every write, whatever
replies are lost, so no position is accepted twice.
-/

namespace Signatory.Watermark

open Request Lib.Machine

/-- The `String` methods of the gotez types that name the documents of a store. -/
structure Texts (PKH : Type) where
  chain : ChainID → String
  pkh : PKH → String

structure AWSWatermark where
  idx : String
  request : String
  level : Int32
  round : Int32
  digest : Option Digest
  deriving DecidableEq, Repr

namespace AWSWatermark

/-- `AWSWatermark.key`: the hash key and the range key. -/
def key (w : AWSWatermark) : String × String := (w.idx, w.request)

def pos (w : AWSWatermark) : Position := position w.level w.round

end AWSWatermark

namespace AWS

variable {PKH : Type} (T : Texts PKH)

/-- `attribute_not_exists(idx) or lvl < :new_lvl or (lvl = :new_lvl and round < :new_round)`. -/
def ConditionExpression (item : Option AWSWatermark) (new : AWSWatermark) : Bool :=
  match item with
  | none => true
  | some old => decide (old.level < new.level) || (old.level == new.level && decide (old.round < new.round))

/-- What `IsSafeToSign` asks to put; nothing when the request needs no watermark. -/
def putItemInput (c : Call PKH) : Option AWSWatermark :=
  c.req.asWithWatermark.map fun m =>
    let wm := NewWatermark m c.digest
    { idx := "/".intercalate [T.chain m.chainID, T.pkh c.pkh]
      request := c.req.SignRequestKind
      level := wm.level
      round := wm.round
      digest := wm.hash }

/-- The table, by hash key and range key. -/
abbrev Table := String × String → Option AWSWatermark

/-- What happens to a request on its way: it is served and answered, it never reaches the table, or it is
served and the reply is lost. -/
inductive Fault where
  | none | notServed | replyLost
  deriving DecidableEq, Repr

/-- The table once it has served a put. -/
def serve (t : Table) (item : AWSWatermark) : Table :=
  if ConditionExpression (t item.key) item then Function.update t item.key (some item) else t

/-- `AWS.putItem`: every error, be it the failed condition or the transport, becomes `ErrWatermark`. -/
def putItem (t : Table) (put : AWSWatermark × Fault) : Except Err Unit × Table :=
  match put.2 with
  | .none =>
    (if ConditionExpression (t put.1.key) put.1 then .ok () else .error .ErrWatermark, serve t put.1)
  | .notServed => (.error .ErrWatermark, t)
  | .replyLost => (.error .ErrWatermark, serve t put.1)

/-- `AWS.IsSafeToSign`. -/
def IsSafeToSign (t : Table) (call : Call PKH × Fault) : Except Err Unit × Table :=
  match putItemInput T call.1 with
  | none => (.ok (), t) -- watermark is not required
  | some item => putItem t (item, call.2)

/-! ## What is stored under a key only climbs -/

lemma condition_iff {item : Option AWSWatermark} {new : AWSWatermark} :
    ConditionExpression item new = true ↔ ∀ old ∈ item, old.pos < new.pos := by
  cases item with
  | none => simp [ConditionExpression]
  | some old =>
    simp [ConditionExpression, AWSWatermark.pos, position_lt_iff, Int32.lt_iff_toInt_lt, Int32.toInt_inj]

lemma serve_cases (t : Table) (item : AWSWatermark) :
    (ConditionExpression (t item.key) item = true ∧ serve t item = Function.update t item.key (some item)) ∨
      (ConditionExpression (t item.key) item = false ∧ serve t item = t) := by
  unfold serve
  cases h : ConditionExpression (t item.key) item <;> simp

theorem putItem_climbs (t : Table) (put : AWSWatermark × Fault) (k : String × String) :
    (putItem t put).2 k = t k ∨
      (put.2 ≠ .notServed ∧ put.1.key = k ∧ (putItem t put).2 k = some put.1 ∧
        ConditionExpression (t k) put.1 = true) := by
  obtain ⟨item, fault⟩ := put
  have hserve : serve t item k = t k ∨
      (item.key = k ∧ serve t item k = some item ∧ ConditionExpression (t k) item = true) := by
    rcases serve_cases t item with ⟨hc, hs⟩ | ⟨-, hs⟩
    · by_cases hk : item.key = k
      · subst hk
        exact Or.inr ⟨rfl, by rw [hs]; simp, hc⟩
      · exact Or.inl (by rw [hs, Function.update_of_ne (Ne.symm hk)])
    · exact Or.inl (by rw [hs])
  cases fault with
  | notServed => exact Or.inl rfl
  | none => rcases hserve with h | h; exacts [Or.inl h, Or.inr ⟨by simp, h⟩]
  | replyLost => rcases hserve with h | h; exacts [Or.inl h, Or.inr ⟨by simp, h⟩]

/-- The items accepted under the key `k`, oldest first. -/
def acceptedItems (k : String × String) (evs : List ((AWSWatermark × Fault) × Except Err Unit)) :
    List AWSWatermark :=
  evs.filterMap fun e => match e.2 with
    | .ok () => if e.1.1.key = k then some e.1.1 else none
    | .error _ => none

lemma putItem_ok {t : Table} {put : AWSWatermark × Fault} (h : (putItem t put).1 = .ok ()) :
    ConditionExpression (t put.1.key) put.1 = true ∧ (putItem t put).2 put.1.key = some put.1 := by
  obtain ⟨item, fault⟩ := put
  cases fault with
  | notServed => cases h
  | replyLost => cases h
  | none =>
    rcases serve_cases t item with ⟨hc, hs⟩ | ⟨hc, hs⟩
    · exact ⟨hc, by show serve t item item.key = _; rw [hs]; simp⟩
    · simp [putItem, hc] at h

lemma acceptedItems_cons (k : String × String) (t : Table) (put : AWSWatermark × Fault)
    (evs : List ((AWSWatermark × Fault) × Except Err Unit)) :
    acceptedItems k ((put, (putItem t put).1) :: evs) =
      if (putItem t put).1 = .ok () ∧ put.1.key = k then put.1 :: acceptedItems k evs
      else acceptedItems k evs := by
  unfold acceptedItems
  rw [List.filterMap_cons]
  cases h : (putItem t put).1 with
  | error e => simp
  | ok u => by_cases hk : put.1.key = k <;> simp [hk]

/-- Everything accepted after `old` has been stored stands above `old`. -/
theorem accepted_above {t : Table} {k : String × String} {old : AWSWatermark} (hold : t k = some old)
    (puts : List (AWSWatermark × Fault)) :
    ∀ new ∈ acceptedItems k (events putItem t puts), old.pos < new.pos := by
  induction puts generalizing t old with
  | nil => simp [acceptedItems]
  | cons put puts ih =>
    intro new hnew
    rw [events_cons, acceptedItems_cons] at hnew
    -- whatever the put did, an item at or above `old` is stored afterwards
    have hnext : ∃ cur, (putItem t put).2 k = some cur ∧ old.pos ≤ cur.pos := by
      rcases putItem_climbs t put k with h | ⟨-, -, h, hc⟩
      · exact ⟨old, by rw [h, hold], le_rfl⟩
      · exact ⟨put.1, h, (condition_iff.1 hc old hold).le⟩
    obtain ⟨cur, hcur, hle⟩ := hnext
    split at hnew
    case isTrue h =>
      rcases List.mem_cons.1 hnew with rfl | hnew
      · have := (putItem_ok h.1).1
        rw [h.2] at this
        exact condition_iff.1 this old hold
      · exact hle.trans_lt (ih hcur new hnew)
    case isFalse => exact hle.trans_lt (ih hcur new hnew)

/-- **The accepted positions of a key climb strictly**, so they are pairwise distinct. -/
theorem accepted_pairwise (t : Table) (k : String × String) (puts : List (AWSWatermark × Fault)) :
    (acceptedItems k (events putItem t puts)).Pairwise fun a b => a.pos < b.pos := by
  induction puts generalizing t with
  | nil => exact List.Pairwise.nil
  | cons put puts ih =>
    rw [events_cons, acceptedItems_cons]
    split
    case isTrue h =>
      refine List.pairwise_cons.2 ⟨?_, ih _⟩
      exact accepted_above (h.2 ▸ (putItem_ok h.1).2) puts
    case isFalse => exact ih _

/-- The item of an accepted call under the key `k`. -/
def acceptedCall (k : String × String) (e : (Call PKH × Fault) × Except Err Unit) : Option AWSWatermark :=
  match e.2, putItemInput T e.1.1 with
  | .ok (), some item => if item.key = k then some item else none
  | _, _ => none

/-- The items of the accepted calls under the key `k`, oldest first. -/
def acceptedCalls (k : String × String) (evs : List ((Call PKH × Fault) × Except Err Unit)) :
    List AWSWatermark :=
  evs.filterMap (acceptedCall T k)

/-- The puts that the calls make. -/
def putsOf (calls : List (Call PKH × Fault)) : List (AWSWatermark × Fault) :=
  calls.filterMap fun call => (putItemInput T call.1).map (·, call.2)

lemma acceptedCalls_eq (t : Table) (k : String × String) (calls : List (Call PKH × Fault)) :
    acceptedCalls T k (events (IsSafeToSign T) t calls) = acceptedItems k (events putItem t (putsOf T calls)) := by
  induction calls generalizing t with
  | nil => rfl
  | cons call calls ih =>
    rw [events_cons]
    unfold acceptedCalls putsOf
    rw [List.filterMap_cons, List.filterMap_cons]
    cases h : putItemInput T call.1 with
    | none =>
      simp only [IsSafeToSign, acceptedCall, h, Option.map_none]
      exact ih t
    | some item =>
      simp only [IsSafeToSign, acceptedCall, h, Option.map_some]
      rw [events_cons, acceptedItems_cons, ← putsOf, ← ih]
      cases (putItem t (item, call.2)).1 with
      | error e => simp [acceptedCalls]
      | ok u => by_cases hk : item.key = k <;> simp [acceptedCalls, hk]

theorem accepted_once {t : Table} {calls : List (Call PKH × Fault)} {e e' : (Call PKH × Fault) × Except Err Unit}
    (he : e ∈ events (IsSafeToSign T) t calls) (he' : e' ∈ events (IsSafeToSign T) t calls) (hok : e.2 = .ok ())
    (hok' : e'.2 = .ok ()) {item item' : AWSWatermark} (hitem : putItemInput T e.1.1 = some item)
    (hitem' : putItemInput T e'.1.1 = some item') (hkey : item'.key = item.key) (hpos : item.pos = item'.pos) :
    e = e' := by
  have hclimb : (events (IsSafeToSign T) t calls).Pairwise fun e e' =>
      ∀ a, acceptedCall T item.key e = some a → ∀ b, acceptedCall T item.key e' = some b → a.pos < b.pos := by
    have hitems := accepted_pairwise t item.key (putsOf T calls)
    rw [← acceptedCalls_eq] at hitems
    exact List.pairwise_filterMap.1 hitems
  have hsymm : Std.Symm fun e e' =>
      ∀ a, acceptedCall T item.key e = some a → ∀ b, acceptedCall T item.key e' = some b → a.pos ≠ b.pos :=
    ⟨fun e e' h a ha b hb hab => h b hb a ha hab.symm⟩
  by_contra hne
  have hdiffer := (hclimb.imp fun h a ha b hb => (h a ha b hb).ne).forall he he' hne
  refine hdiffer item ?_ item' ?_ hpos
  · simp [acceptedCall, hok, hitem]
  · simp [acceptedCall, hok', hitem', hkey]

theorem isSafeToSign_climbs (t : Table) (call : Call PKH × Fault) (k : String × String) :
    (IsSafeToSign T t call).2 k = t k ∨
      ∃ item, (IsSafeToSign T t call).2 k = some item ∧ ∀ old ∈ t k, old.pos < item.pos := by
  unfold IsSafeToSign
  cases putItemInput T call.1 with
  | none => exact Or.inl rfl
  | some item =>
    rcases putItem_climbs t (item, call.2) k with h | ⟨-, -, h, hc⟩
    · exact Or.inl h
    · exact Or.inr ⟨item, h, condition_iff.1 hc⟩

end AWS

end Signatory.Watermark
