import Mathlib.Tactic

/-!
# Splitting at a separator

`split sep l` are the parts of `l` between the occurrences of `sep`, one more than these, and empty ones among them.
What follows the last occurrence is the last part: `lastPart_append`.  `splitFirst` splits at the first occurrence only.
-/

namespace Signatory.Lib.Split

variable {α : Type*} [DecidableEq α] (sep : α)

def split : List α → List (List α)
  | [] => [[]]
  | c :: cs =>
    if c = sep then [] :: split cs
    else
      match split cs with
      | [] => [[c]]
      | part :: parts => (c :: part) :: parts

def splitFirst : List α → Option (List α × List α)
  | [] => none
  | c :: cs => if c = sep then some ([], cs) else (splitFirst cs).map fun p => (c :: p.1, p.2)

def lastPart (l : List α) : List α := (split sep l).getLastD []

lemma split_ne_nil (l : List α) : split sep l ≠ [] := by
  cases l with
  | nil => simp [split]
  | cons c cs =>
    rw [split]
    split
    · simp
    · split <;> simp

lemma split_of_notMem {l : List α} (h : sep ∉ l) : split sep l = [l] := by
  induction l with
  | nil => rfl
  | cons c cs ih =>
    rw [List.mem_cons, not_or] at h
    rw [split, if_neg (Ne.symm h.1), ih h.2]

lemma split_append (l m : List α) : split sep (l ++ sep :: m) = split sep l ++ split sep m := by
  induction l with
  | nil => simp [split]
  | cons c cs ih =>
    obtain ⟨part, parts, hparts⟩ := List.exists_cons_of_ne_nil (split_ne_nil sep cs)
    rw [List.cons_append, split, split, ih, hparts]
    split <;> rfl

lemma splitFirst_append {l : List α} (h : sep ∉ l) (m : List α) : splitFirst sep (l ++ sep :: m) = some (l, m) := by
  induction l with
  | nil => exact if_pos rfl
  | cons c cs ih =>
    rw [List.mem_cons, not_or] at h
    rw [List.cons_append, splitFirst, if_neg (Ne.symm h.1), ih h.2]
    rfl

lemma lastPart_append (l : List α) {m : List α} (h : sep ∉ m) : lastPart sep (l ++ sep :: m) = m := by
  rw [lastPart, split_append, split_of_notMem sep h, List.getLastD_concat]

end Signatory.Lib.Split
