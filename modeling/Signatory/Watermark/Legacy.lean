import Signatory.Watermark.Disk

/-!
# `watermark/migration.go`: the older directories

Both older formats keep one file for each chain, like the present one: `watermark` maps request kinds to
delegates to watermarks, and `watermark_v1` maps delegates to a watermark with the kind coded as an order.
`fromV0` and `fromV1` are what `tryV0` and `tryV1` do to the content of one file.
-/

namespace Signatory.Watermark

open Request Hashmap

section Model

variable {Enc C : Type} [DecidableEq Enc] (PKH : Type) [ToComparable PKH Enc]

/-- The regrouping loop of `tryV0`. -/
def fromV0 (kinds : GoMap String (HashMap Enc Watermark)) : DelegateMap Enc :=
  kinds.entries.foldl (fun outDelegates e =>
    (e.2.ForEach (fun (out : DelegateMap Enc) (key : PKH) val =>
      let requests := (out.Get key).getD ∅
      (true, (out.Insert key (requests.insert e.1 val)).2)) outDelegates).2) ∅

/-- The `switch` of `tryV1`. -/
def v1Kind (order : ℤ) : String :=
  if order = 0 then "block"
  else if order = 1 then "preendorsement"
  else "endorsement"

def v1ToWatermark (val : V1Watermark) : Watermark :=
  { level := val.level, round := val.round.getD 0, hash := val.hash }

/-- `map[string]*request.Watermark{req: &wm}`. -/
def v1Requests (val : V1Watermark) : RequestMap := AList.singleton (v1Kind val.order) (v1ToWatermark val)

/-- The conversion loop of `tryV1`. -/
def fromV1 (delegates : HashMap Enc V1Watermark) : DelegateMap Enc :=
  (delegates.ForEach (fun (out : DelegateMap Enc) (key : PKH) val =>
    (true, (out.Insert key (v1Requests val)).2)) ∅).2

def tryV0 (cx : Codec Enc C) (faults : ReadFaults) (disk : Disk C) : Except Err (Option (ChainMap Enc)) :=
  loadDir cx (fun content => (cx.unmarshalV0 content).map (fromV0 PKH)) faults disk.v0

def tryV1 (cx : Codec Enc C) (faults : ReadFaults) (disk : Disk C) : Except Err (Option (ChainMap Enc)) :=
  loadDir cx (fun content => (cx.unmarshalV1 content).map (fromV1 PKH)) faults disk.v1

/-- `checkV0exist` and `checkV1exist`: `Stat` on a directory may fail. -/
def checkExist (statFails : Bool) (dir : Option (Dir C)) : Except Err Bool :=
  if statFails then .error .storage else .ok dir.isSome

end Model

/-! ## What the first version of the format becomes -/

section FromV1

variable {Enc C : Type} [DecidableEq Enc] {PKH : Type} [ToComparable PKH Enc] [LawfulToComparable PKH Enc]

/-- Every delegate keeps its watermark, under the kind that its order stands for. -/
theorem find_fromV1 (delegates : HashMap Enc V1Watermark) (pkh : Enc) (kind : String) :
    DelegateMap.find (fromV1 PKH delegates) pkh kind =
      (delegates.lookup pkh).bind fun val => if kind = v1Kind val.order then some (v1ToWatermark val) else none := by
  have hfold : fromV1 PKH delegates =
      delegates.entries.foldl (fun out e => out.insert e.1 (v1Requests e.2)) ∅ := by
    unfold fromV1
    rw [forEach_eq_foldl]
    simp only [HashMap.Insert, toComparable_toKey]
  have hlookup : (fromV1 PKH delegates).lookup pkh = (delegates.lookup pkh).map v1Requests := by
    rw [hfold, GoMap.lookup_foldl_set v1Requests _ delegates.nodupKeys, AList.lookup_empty, Option.or_none]
    rfl
  unfold DelegateMap.find
  rw [hlookup]
  cases delegates.lookup pkh with
  | none => rfl
  | some val =>
    show (v1Requests val).entries.dlookup kind = _
    rw [v1Requests, AList.singleton_entries]
    by_cases hk : kind = v1Kind val.order
    · subst hk
      rw [List.dlookup_cons_eq]
      simp
    · rw [List.dlookup_cons_ne _ _ hk, List.dlookup_nil]
      simp [hk]

end FromV1

/-! ## What the oldest format becomes -/

section FromV0

variable {Enc : Type} [DecidableEq Enc] {PKH : Type} [ToComparable PKH Enc] [LawfulToComparable PKH Enc]

/-- One turn of the inner loop; the map of the delegate is made if it is missing. -/
def regroup (kind : String) (out : DelegateMap Enc) (e : Σ _ : Enc, Watermark) : DelegateMap Enc :=
  out.insert e.1 (((out.lookup e.1).getD ∅).insert kind e.2)

lemma find_regroup (kind : String) (out : DelegateMap Enc) (e : Σ _ : Enc, Watermark) (pkh : Enc) (kind' : String) :
    DelegateMap.find (regroup kind out e) pkh kind' =
      if pkh = e.1 ∧ kind' = kind then some e.2 else DelegateMap.find out pkh kind' := by
  unfold DelegateMap.find regroup
  rw [GoMap.lookup_set]
  by_cases hpkh : pkh = e.1
  · rw [if_pos hpkh, Option.bind_some, GoMap.lookup_set, ← hpkh]
    by_cases hkind : kind' = kind
    · rw [if_pos hkind, if_pos ⟨rfl, hkind⟩]
    · rw [if_neg hkind, if_neg (fun h => hkind h.2)]
      cases out.lookup pkh <;> rfl
  · rw [if_neg hpkh, if_neg (fun h => hpkh h.1)]

lemma find_foldl_regroup (kind : String) (entries : List (Σ _ : Enc, Watermark)) (hnd : entries.NodupKeys)
    (out : DelegateMap Enc) (pkh : Enc) (kind' : String) :
    DelegateMap.find (entries.foldl (regroup kind) out) pkh kind' =
      if kind' = kind then (entries.dlookup pkh).or (DelegateMap.find out pkh kind')
      else DelegateMap.find out pkh kind' := by
  induction entries generalizing out with
  | nil => simp
  | cons e rest ih =>
    obtain ⟨hfresh, hnd'⟩ := List.nodupKeys_cons.1 hnd
    rw [List.foldl_cons, ih hnd', find_regroup]
    by_cases hkind : kind' = kind
    · rw [if_pos hkind, if_pos hkind]
      by_cases hpkh : pkh = e.1
      · rw [if_pos ⟨hpkh, hkind⟩]
        subst hpkh
        rw [List.dlookup_eq_none.2 hfresh, List.dlookup_cons_eq]
        rfl
      · rw [if_neg (fun h => hpkh h.1), List.dlookup_cons_ne _ _ hpkh]
    · rw [if_neg hkind, if_neg hkind, if_neg (fun h => hkind h.2)]

lemma find_foldl_kinds (entries : List (Σ _ : String, HashMap Enc Watermark)) (hnd : entries.NodupKeys)
    (out : DelegateMap Enc) (pkh : Enc) (kind : String) :
    DelegateMap.find (entries.foldl (fun out e => e.2.entries.foldl (regroup e.1) out) out) pkh kind =
      ((entries.dlookup kind).bind fun delegates => delegates.lookup pkh).or (DelegateMap.find out pkh kind) := by
  induction entries generalizing out with
  | nil => simp
  | cons e rest ih =>
    obtain ⟨hfresh, hnd'⟩ := List.nodupKeys_cons.1 hnd
    rw [List.foldl_cons, ih hnd', find_foldl_regroup _ _ e.2.nodupKeys]
    by_cases hkind : kind = e.1
    · subst hkind
      rw [if_pos rfl, List.dlookup_eq_none.2 hfresh, List.dlookup_cons_eq]
      rfl
    · rw [if_neg hkind, List.dlookup_cons_ne _ _ hkind]

lemma fromV0_eq (kinds : GoMap String (HashMap Enc Watermark)) :
    fromV0 PKH kinds = kinds.entries.foldl (fun out e => e.2.entries.foldl (regroup e.1) out) ∅ := by
  unfold fromV0
  congr 1
  funext out e
  have hloop := forEach_eq_foldl e.2
    (fun (out : DelegateMap Enc) (key : PKH) val => (out.Insert key (((out.Get key).getD ∅).insert e.1 val)).2) out
  rw [hloop]
  show List.foldl _ out e.2.entries = List.foldl _ out e.2.entries
  congr 1
  funext st d
  unfold HashMap.Insert HashMap.Get regroup
  rw [toComparable_toKey]

/-- **Every watermark is regrouped**, and there are no others. -/
theorem find_fromV0 (kinds : GoMap String (HashMap Enc Watermark)) (pkh : Enc) (kind : String) :
    DelegateMap.find (fromV0 PKH kinds) pkh kind = (kinds.lookup kind).bind fun delegates => delegates.lookup pkh := by
  rw [fromV0_eq, find_foldl_kinds _ kinds.nodupKeys]
  simp [DelegateMap.find, AList.lookup]

end FromV0

end Signatory.Watermark
