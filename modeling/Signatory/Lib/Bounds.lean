import Mathlib.Tactic

/-!
# Panics

An access beyond the bounds of a slice ends the program.  It is kept apart from the errors that a function returns: the
outcome of a function that may panic is in `Except Panic`, whatever it returns.
-/

namespace Signatory.Lib.Bounds

inductive Panic where
  | index
  | slice
  deriving DecidableEq

variable {α : Type}

/-- `l[i]`. -/
def index (l : List α) (i : ℤ) : Except Panic α :=
  match l[i.toNat]? with
  | some a => if 0 ≤ i then .ok a else .error .index
  | none => .error .index

/-- `l[lo:hi]`. -/
def slice (l : List α) (lo hi : ℤ) : Except Panic (List α) :=
  if 0 ≤ lo ∧ lo ≤ hi ∧ hi ≤ l.length then .ok ((l.take hi.toNat).drop lo.toNat) else .error .slice

lemma slice_ok (l : List α) {lo hi : ℕ} (h : lo ≤ hi) (hhi : hi ≤ l.length) :
    slice l lo hi = .ok ((l.take hi).drop lo) := by
  rw [slice, if_pos ⟨by omega, by omega, by omega⟩]
  rfl

lemma slice_of_lt (l : List α) {lo hi : ℤ} (h : hi < lo) : slice l lo hi = .error .slice := by
  rw [slice, if_neg]
  omega

lemma index_last (l : List α) (a : α) : index (l ++ [a]) ((l ++ [a]).length - 1) = .ok a := by
  have hlast : ((l ++ [a]).length - 1 : ℤ).toNat = l.length := by
    rw [List.length_append, List.length_singleton]
    omega
  have hpos : (0 : ℤ) ≤ (l ++ [a]).length - 1 := by
    rw [List.length_append, List.length_singleton]
    omega
  rw [index, hlast, List.getElem?_concat_length]
  exact if_pos hpos

end Signatory.Lib.Bounds
