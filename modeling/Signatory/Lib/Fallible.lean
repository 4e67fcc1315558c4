import Mathlib.Tactic

/-!
# Computations that may fail

When a computation in `Except` returns a value, construct by construct.  With these rules the success of a `do` block
becomes the success of its steps, in their order.
-/

namespace Signatory.Lib.Fallible

universe u

variable {ε δ : Type*} {α β : Type u} {a : α} {b : β}

lemma ok_pure_iff {a' : α} : (pure a' : Except ε α) = .ok a ↔ a' = a :=
  ⟨fun h => Except.ok.inj h, fun h => congrArg Except.ok h⟩

lemma ok_bind_iff {x : Except ε α} {k : α → Except ε β} : x >>= k = .ok b ↔ ∃ a, x = .ok a ∧ k a = .ok b := by
  cases x with
  | error e =>
    refine iff_of_false (fun h => by cases h) ?_
    rintro ⟨a, h, -⟩
    cases h
  | ok a' =>
    constructor
    · exact fun h => ⟨a', rfl, h⟩
    · rintro ⟨a, ha, hk⟩
      obtain rfl := Except.ok.inj ha
      exact hk

lemma ok_check_iff {c : Prop} [Decidable c] {e : ε} {y : Except ε α} :
    (if c then throw e else y) = .ok a ↔ ¬ c ∧ y = .ok a := by
  split
  case isTrue hc => exact iff_of_false (fun h => by cases h) fun h => h.1 hc
  case isFalse hc => exact (and_iff_right hc).symm

/-- A check that throws as `do` writes it, with the rest `k` of the block after it. -/
lemma ok_check_bind_iff {c : Prop} [Decidable c] {e : ε} {k : β → Except ε α} {y : Except ε α} :
    (if c then throw e >>= k else y) = .ok a ↔ ¬ c ∧ y = .ok a :=
  ok_check_iff

lemma ok_mapError_iff {x : Except δ α} {f : δ → ε} : x.mapError f = .ok a ↔ x = .ok a := by
  cases x with
  | error e => exact iff_of_false (fun h => by cases h) fun h => by cases h
  | ok a' => simp only [Except.mapError, Except.ok.injEq]

lemma ok_map_iff {x : Except ε α} {f : α → β} : x.map f = .ok b ↔ ∃ a, x = .ok a ∧ f a = b := by
  cases x with
  | error e => simp [Except.map]
  | ok a' => simp [Except.map]

lemma error_map_iff {x : Except ε α} {f : α → β} {e : ε} : x.map f = .error e ↔ x = .error e := by
  cases x with
  | error e' => simp [Except.map]
  | ok a' => simp [Except.map]

end Signatory.Lib.Fallible
