import Mathlib.Tactic

/-!
# Machines with answers, and what holds along their runs

A machine is a function `step : σ → ι → ο × σ`: an input `i` given in the state `s` is answered
by `(step s i).1` and leaves `(step s i).2`.  Nondeterminism (a disk that fails, a process that is
killed, a reply that is lost) is put into the inputs, so a run is just a list of inputs.

* `final step s is` — the state after the inputs `is`;
* `events step s is` — the inputs with their answers, oldest first;
* `inv_events` — the invariant rule, with the history at hand and a guard on the steps;
* `events_filter` — the unwinding rule: inputs that a relation cannot see may be deleted.
-/

namespace Signatory.Lib.Machine

variable {σ τ ι ο : Type*}

/-- The state after the inputs `is`. -/
def final (step : σ → ι → ο × σ) (s : σ) (is : List ι) : σ := is.foldl (fun s i => (step s i).2) s

/-- The inputs of a run with their answers, oldest first. -/
def events (step : σ → ι → ο × σ) : σ → List ι → List (ι × ο)
  | _, [] => []
  | s, i :: is => (i, (step s i).1) :: events step (step s i).2 is

variable (step : σ → ι → ο × σ) (s : σ)

@[simp] lemma final_nil : final step s [] = s := rfl
@[simp] lemma final_cons (i : ι) (is : List ι) : final step s (i :: is) = final step (step s i).2 is := rfl
@[simp] lemma events_nil : events step s [] = [] := rfl
@[simp] lemma events_cons (i : ι) (is : List ι) :
    events step s (i :: is) = (i, (step s i).1) :: events step (step s i).2 is := rfl

lemma final_append (is js : List ι) : final step s (is ++ js) = final step (final step s is) js := by
  simp [final]

lemma events_append (is js : List ι) :
    events step s (is ++ js) = events step s is ++ events step (final step s is) js := by
  induction is generalizing s with
  | nil => rfl
  | cons i is ih => simp [ih]

lemma final_snoc (is : List ι) (i : ι) : final step s (is ++ [i]) = (step (final step s is) i).2 := by
  rw [final_append]; rfl

lemma events_snoc (is : List ι) (i : ι) :
    events step s (is ++ [i]) = events step s is ++ [(i, (step (final step s is) i).1)] := by
  rw [events_append]; rfl

lemma map_fst_events (is : List ι) : (events step s is).map Prod.fst = is := by
  induction is generalizing s with
  | nil => rfl
  | cons i is ih => simp [ih]

lemma events_map {π : Type*} (f : ο → π) (is : List ι) :
    events (fun s i => (f (step s i).1, (step s i).2)) s is = (events step s is).map fun e => (e.1, f e.2) := by
  induction is generalizing s with
  | nil => rfl
  | cons i is ih => simp [ih]

/-- The steps of a run all meet `G`: every input is given in a state in which `G` allows it. -/
def Along (G : σ → ι → Prop) : σ → List ι → Prop
  | _, [] => True
  | s, i :: is => G s i ∧ Along G (step s i).2 is

variable {step s}

lemma along_append {G : σ → ι → Prop} {is js : List ι} :
    Along step G s (is ++ js) ↔ Along step G s is ∧ Along step G (final step s is) js := by
  induction is generalizing s with
  | nil => simp [Along]
  | cons i is ih => simp [Along, ih, and_assoc]

/-- A run meets `G` when every one of its inputs does, in the state that the inputs before it leave. -/
lemma along_iff {G : σ → ι → Prop} {is : List ι} :
    Along step G s is ↔ ∀ pre i post, is = pre ++ i :: post → G (final step s pre) i := by
  constructor
  · rintro h pre i post rfl
    exact (along_append.1 h).2.1
  · induction is using List.reverseRecOn with
    | nil => intro; trivial
    | append_singleton is i ih =>
      intro h
      refine along_append.2 ⟨ih fun pre j post e => ?_, h is i [] rfl, trivial⟩
      exact h pre j (post ++ [i]) (by simp [e])

lemma along_of_forall {P : ι → Prop} {is : List ι} (h : ∀ i ∈ is, P i) : Along step (fun _ i => P i) s is :=
  along_iff.2 fun pre i post e => h i (by simp [e])

lemma along_states_iff {P : σ → Prop} (h0 : P s) {is : List ι} :
    Along step (fun s i => P (step s i).2) s is ↔ ∀ n, P (final step s (is.take n)) := by
  induction is generalizing s with
  | nil => exact ⟨fun _ n => by simpa using h0, fun _ => trivial⟩
  | cons i is ih =>
    constructor
    · rintro ⟨hnext, hrest⟩ n
      cases n with
      | zero => exact h0
      | succ n => exact (ih hnext).1 hrest n
    · intro h
      exact ⟨h 1, (ih (h 1)).2 fun n => h (n + 1)⟩

/-- Two conditions that agree in the states of an invariant, which they keep, are met by the same runs. -/
theorem along_congr {I : σ → Prop} {G H : σ → ι → Prop} (hiff : ∀ s i, I s → (G s i ↔ H s i))
    (hkeep : ∀ s i, I s → G s i → I (step s i).2) (h0 : I s) (is : List ι) :
    Along step G s is ↔ Along step H s is := by
  induction is generalizing s with
  | nil => exact Iff.rfl
  | cons i is ih =>
    constructor
    · rintro ⟨hG, hrest⟩
      exact ⟨(hiff s i h0).1 hG, (ih (hkeep s i h0 hG)).1 hrest⟩
    · rintro ⟨hH, hrest⟩
      have hG := (hiff s i h0).2 hH
      exact ⟨hG, (ih (hkeep s i h0 hG)).2 hrest⟩

/-- **The invariant rule.**  What holds of the empty history and the first state, and is kept by
every step that the guard allows, holds of the history and the state of every guarded run. -/
theorem inv_events {G : σ → ι → Prop} {I : List (ι × ο) → σ → Prop} (h0 : I [] s)
    (hstep : ∀ h s i, I h s → G s i → I (h ++ [(i, (step s i).1)]) (step s i).2)
    {is : List ι} (hG : Along step G s is) : I (events step s is) (final step s is) := by
  induction is using List.reverseRecOn with
  | nil => exact h0
  | append_singleton is i ih =>
    obtain ⟨h1, h2, -⟩ := along_append.1 hG
    rw [events_snoc, final_snoc]
    exact hstep _ _ _ (ih h1) h2

/-- The invariant rule without history and without a guard. -/
theorem inv_final {I : σ → Prop} (h0 : I s) (hstep : ∀ s i, I s → I (step s i).2) (is : List ι) :
    I (final step s is) := by
  induction is generalizing s with
  | nil => exact h0
  | cons i is ih => exact ih (hstep s i h0)

/-- **The unwinding rule.**  Let `R` relate the states of two runs.  If the inputs outside `p` keep
the left state related to the right one, and the inputs in `p` get the same answer on both sides and
keep the states related, then the left run answers the inputs of `p` as the right run does, which is
given these inputs only. -/
theorem events_filter {R : σ → σ → Prop} {p : ι → Bool}
    (hout : ∀ s t i, R s t → p i = false → R (step s i).2 t)
    (hin : ∀ s t i, R s t → p i = true → (step s i).1 = (step t i).1 ∧ R (step s i).2 (step t i).2)
    {t : σ} (hR : R s t) (is : List ι) :
    (events step s is).filter (fun e => p e.1) = events step t (is.filter p) ∧
      R (final step s is) (final step t (is.filter p)) := by
  induction is generalizing s t with
  | nil => exact ⟨rfl, hR⟩
  | cons i is ih =>
    cases hp : p i with
    | false =>
      have := ih (hout s t i hR hp)
      simpa [hp] using this
    | true =>
      obtain ⟨ho, hR'⟩ := hin s t i hR hp
      have := ih hR'
      simpa [hp, ho] using this

end Signatory.Lib.Machine
