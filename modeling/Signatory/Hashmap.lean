import Mathlib.Data.List.AList
import Mathlib.Tactic

/-!
# `pkg/hashmap`: maps keyed by interface values

A Go map is an association list without repeated keys, Mathlib's `AList`; its entries stand in the
order in which a `range` loop happens to visit them, so a statement about every such list covers
every iteration order.  `HashMap` wraps a map keyed by the *comparable form* of the key.  The two
conversions come from the gotez library and are a parameter (`ToComparable`).
-/

namespace Signatory

/-- The built in `map[K]V`. -/
abbrev GoMap (K V : Type) := AList fun _ : K => V

namespace GoMap

variable {K V : Type} [DecidableEq K]

lemma lookup_set (m : GoMap K V) (k k' : K) (v : V) :
    (m.insert k v).lookup k' = if k' = k then some v else m.lookup k' := by
  by_cases h : k' = k
  · subst h; simp
  · rw [if_neg h, AList.lookup_insert_ne h]

lemma lookup_foldl_set {W : Type} (f : V → W) (entries : List (Σ _ : K, V)) (hnd : entries.NodupKeys)
    (out : GoMap K W) (k : K) :
    (entries.foldl (fun out e => out.insert e.1 (f e.2)) out).lookup k =
      ((entries.dlookup k).map f).or (out.lookup k) := by
  induction entries generalizing out with
  | nil => simp
  | cons e rest ih =>
    obtain ⟨hfresh, hnd'⟩ := List.nodupKeys_cons.1 hnd
    rw [List.foldl_cons, ih hnd', lookup_set]
    by_cases hk : k = e.1
    · subst hk
      rw [List.dlookup_eq_none.2 hfresh, List.dlookup_cons_eq]
      simp
    · rw [if_neg hk, List.dlookup_cons_ne _ _ hk]

end GoMap

/-- `tz.ToComparable[H, K]` and `tz.Comparable[K]`: a key and its comparable form. -/
class ToComparable (K : Type) (H : outParam Type) where
  toComparable : K → H
  toKey : H → K

export ToComparable (toComparable toKey)

/-- A key read back from a map is the key it was stored under. -/
class LawfulToComparable (K : Type) (H : outParam Type) [ToComparable K H] : Prop where
  toComparable_toKey : ∀ h : H, toComparable (toKey h : K) = h

export LawfulToComparable (toComparable_toKey)

/-- `tz.EncodedPublicKeyHash`: 21 bytes, the comparable form of a public key hash and of itself. -/
abbrev EncodedPublicKeyHash := BitVec 168

instance : ToComparable EncodedPublicKeyHash EncodedPublicKeyHash := ⟨id, id⟩

instance : LawfulToComparable EncodedPublicKeyHash EncodedPublicKeyHash := ⟨fun _ => rfl⟩

namespace Hashmap

/-- `HashMap[H, K, V]`, a `map[H]V`. -/
abbrev HashMap (H V : Type) := GoMap H V

variable {K H V σ : Type} [DecidableEq H] [ToComparable K H]

/-- `HashMap.Insert`: the previous value, if any, and the new map. -/
def HashMap.Insert (m : HashMap H V) (key : K) (val : V) : Option V × HashMap H V :=
  (m.lookup (toComparable key), AList.insert (toComparable key) val m)

/-- `HashMap.Get`. -/
def HashMap.Get (m : HashMap H V) (key : K) : Option V := m.lookup (toComparable key)

/-- `HashMap.ForEach`: the callback acts on the state `st` and says whether to go on. -/
def HashMap.ForEach (m : HashMap H V) (cb : σ → K → V → Bool × σ) (st : σ) : Bool × σ :=
  loop m.entries st
where
  loop : List (Σ _ : H, V) → σ → Bool × σ
    | [], st => (true, st)
    | ⟨k, v⟩ :: rest, st =>
      match cb st (toKey k) v with
      | (false, st') => (false, st')
      | (true, st') => loop rest st'

lemma get_insert (m : HashMap H V) (key key' : K) (val : V) :
    (m.Insert key val).2.Get key' =
      if toComparable key' = toComparable key then some val else m.Get key' :=
  GoMap.lookup_set m _ _ _

omit [DecidableEq H] in
lemma forEach_eq_foldl (m : HashMap H V) (g : σ → K → V → σ) (st : σ) :
    m.ForEach (fun st k v => (true, g st k v)) st =
      (true, m.entries.foldl (fun st e => g st (toKey e.1) e.2) st) := by
  have hloop : ∀ entries st, HashMap.ForEach.loop (fun st k v => (true, g st k v)) entries st =
      (true, entries.foldl (fun st (e : Σ _ : H, V) => g st (toKey e.1) e.2) st) := by
    intro entries
    induction entries with
    | nil => exact fun _ => rfl
    | cons e rest ih => exact fun st => ih _
  exact hloop m.entries st

end Hashmap

end Signatory
