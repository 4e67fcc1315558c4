import Mathlib.Tactic

/-!
# A cell with guarded writes

A cell holds nothing, or a value with the time of the write that put it there.  Times only grow.  A write is
guarded: it takes effect on an empty cell only, or only while the time is the one seen by an earlier read.

Clients read, compare, and send a guarded write; the write may take effect much later, or more than once be
tried.  `Safe below c g v` says that the guard `g`, sent for the value `v`, cannot do harm to the cell `c`: if
it holds, what it overwrites is below `v`.  A guard that is safe when it is sent stays safe
(`Safe.write`), so no lock is needed.
-/

namespace Signatory.Lib.Versioned

variable {V : Type*}

structure Cell (V : Type*) where
  val : V
  time : ℕ

inductive Guard where
  | absent
  | unchanged (time : ℕ)
  deriving DecidableEq

def Guard.Holds (g : Guard) (c : Option (Cell V)) : Prop :=
  match g, c with
  | .absent, none => True
  | .unchanged t, some d => d.time = t
  | _, _ => False

instance : (g : Guard) → (c : Option (Cell V)) → Decidable (g.Holds c)
  | .absent, none => isTrue trivial
  | .unchanged t, some d => inferInstanceAs (Decidable (d.time = t))
  | .absent, some _ => isFalse id
  | .unchanged _, none => isFalse id

/-- `t` is later than the last write to the cell. -/
def Later (c : Option (Cell V)) (t : ℕ) : Prop := ∀ d ∈ c, d.time < t

instance : (c : Option (Cell V)) → (t : ℕ) → Decidable (Later c t)
  | none, _ => isTrue (by simp [Later])
  | some d, t => decidable_of_iff (d.time < t) (by simp [Later])

/-- Whenever the guard holds, now or after more writes, what it overwrites is below `v`. -/
def Safe (below : V → V → Prop) (c : Option (Cell V)) (g : Guard) (v : V) : Prop :=
  match g with
  | .absent => True
  | .unchanged t => ∃ d, c = some d ∧ t ≤ d.time ∧ (d.time = t → below d.val v)

variable {below : V → V → Prop} {c : Option (Cell V)} {g : Guard} {v : V}

lemma safe_of_read {d : Cell V} (h : below d.val v) : Safe below (some d) (.unchanged d.time) v :=
  ⟨d, rfl, le_rfl, fun _ => h⟩

/-- **Guards stay safe** under later writes by anyone. -/
theorem Safe.write (h : Safe below c g v) {u : V} {t : ℕ} (ht : Later c t) :
    Safe below (some ⟨u, t⟩) g v := by
  cases g with
  | absent => trivial
  | unchanged t₀ =>
    obtain ⟨d, rfl, hle, -⟩ := h
    have hlt : d.time < t := ht d rfl
    refine ⟨⟨u, t⟩, rfl, by show t₀ ≤ t; omega, fun e => ?_⟩
    have : t = t₀ := e
    omega

/-- A safe guard that holds overwrites nothing, or a value below. -/
theorem Safe.below_of_holds (h : Safe below c g v) (hg : g.Holds c) : ∀ d ∈ c, below d.val v := by
  rintro d rfl
  cases g with
  | absent => exact hg.elim
  | unchanged t =>
    obtain ⟨d', e, -, h'⟩ := h
    obtain rfl := Option.some.inj e
    exact h' hg

end Signatory.Lib.Versioned
