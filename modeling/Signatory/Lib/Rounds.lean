import Mathlib.Tactic

/-!
# Steps in a row

A loop over a list of steps: steps that can each be undone are undone in reverse order (`foldl_undo`), and steps that
agree on a part of the state agree on it in the end (`foldl_part`).
-/

namespace Signatory.Lib.Rounds

variable {S C I : Type*} {l : List I}

theorem foldl_undo {f g : S → I → S} {Inv : S → Prop}
    (hstep : ∀ i ∈ l, ∀ s, Inv s → Inv (f s i) ∧ g (f s i) i = s) {s : S} (hs : Inv s) :
    Inv (l.foldl f s) ∧ l.reverse.foldl g (l.foldl f s) = s := by
  induction l generalizing s with
  | nil => exact ⟨hs, rfl⟩
  | cons i l ih =>
    obtain ⟨hinv, hundo⟩ := hstep i List.mem_cons_self s hs
    obtain ⟨hfinal, hrest⟩ := ih (fun i' hi' => hstep i' (List.mem_cons_of_mem i hi')) hinv
    refine ⟨hfinal, ?_⟩
    rw [List.foldl_cons, List.reverse_cons, List.foldl_append, hrest, List.foldl_cons, List.foldl_nil, hundo]

theorem foldl_part {f : S → I → S} {g : C → I → C} {part : S → C} {Inv : S → Prop}
    (hstep : ∀ i ∈ l, ∀ s, Inv s → Inv (f s i) ∧ part (f s i) = g (part s) i) {s : S} (hs : Inv s) :
    Inv (l.foldl f s) ∧ part (l.foldl f s) = l.foldl g (part s) := by
  induction l generalizing s with
  | nil => exact ⟨hs, rfl⟩
  | cons i l ih =>
    obtain ⟨hinv, hpart⟩ := hstep i List.mem_cons_self s hs
    rw [List.foldl_cons, List.foldl_cons, ← hpart]
    exact ih (fun i' hi' => hstep i' (List.mem_cons_of_mem i hi')) hinv

end Signatory.Lib.Rounds
