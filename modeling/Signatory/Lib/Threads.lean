import Signatory.Lib.Command
import Signatory.Lib.Machine

/-!
# Threads over a shared state

A program is a sequence of atomic steps on a state, each of which sees the state and decides how the program goes on.  A
pool has one program for each thread, and a schedule is the list of the threads whose turn it is.

* `Implements p c` — run alone, the program `p` does what the command `c` does;
* `Sat V R G Q p s` — while the others change the state as `R` allows, every step of `p` from `s` on is as `G`
  guarantees, and `p` ends as `Q` wants; `V` is what is known of all states;
* `schedule_sat` — the rule for pools: threads that rely on no more than the others guarantee, in every schedule.
-/

namespace Signatory.Lib.Threads

open Command Machine

/-- A program on states `σ` with errors `ε`. -/
inductive Prog (σ ε α : Type) where
  | done (r : Except ε α)
  /-- The step changes the state, and what it has seen decides how the program goes on. -/
  | step (c : σ → σ) (k : σ → Prog σ ε α)

namespace Prog

variable {σ τ ε δ α β : Type}

def bind : Prog σ ε α → (α → Prog σ ε β) → Prog σ ε β
  | .done (.ok a), f => f a
  | .done (.error e), _ => .done (.error e)
  | .step c k, f => .step c fun s => (k s).bind f

instance : Monad (Prog σ ε) where
  pure a := .done (.ok a)
  bind := bind

instance : MonadExceptOf ε (Prog σ ε) where
  throw e := .done (.error e)
  tryCatch p _ := p

instance : MonadLift (Except ε) (Prog σ ε) where
  monadLift r := .done r

/-- A command that runs as one step. -/
def atomic (c : Cmd σ ε α) : Prog σ ε α := .step (fun s => (exec c s).2) fun s => .done (exec c s).1

/-- A program on the part `view s` of the state. -/
def within (view : σ → τ) (put : τ → σ → σ) : Prog τ ε α → Prog σ ε α
  | .done r => .done r
  | .step c k => .step (fun s => put (c (view s)) s) fun s => (k (view s)).within view put

/-- The program with another outcome. -/
def mapResult (f : Except ε α → Except δ β) : Prog σ ε α → Prog σ δ β
  | .done r => .done (f r)
  | .step c k => .step c fun s => (k s).mapResult f

/-- The outcome of a program that runs alone. -/
def run : Prog σ ε α → σ → Except ε α × σ
  | .done r, s => (r, s)
  | .step c k, s => (k s).run (c s)

/-! ## A program alone -/

/-- What follows after an outcome. -/
def andThen (x : Except ε α × σ) (f : α → σ → Except ε β × σ) : Except ε β × σ :=
  match x with
  | (.ok a, s) => f a s
  | (.error e, s) => (.error e, s)

lemma run_bind (p : Prog σ ε α) (f : α → Prog σ ε β) (s : σ) :
    (p >>= f).run s = andThen (p.run s) fun a => (f a).run := by
  change (p.bind f).run s = _
  induction p generalizing s with
  | done r => cases r <;> rfl
  | step c k ih => exact ih s (c s)

lemma exec_bind (c : Cmd σ ε α) (k : α → Cmd σ ε β) (s : σ) :
    exec (c >>= k) s = andThen (exec c s) fun a => exec (k a) := by
  change (ExceptT.bindCont k (exec c s).1) (exec c s).2 = _
  rcases exec c s with ⟨_ | _, _⟩ <;> rfl

/-- Run alone, the program does what the command does. -/
def Implements (p : Prog σ ε α) (c : Cmd σ ε α) : Prop := ∀ s, p.run s = exec c s

namespace Implements

lemma pure (a : α) : Implements (Pure.pure a : Prog σ ε α) (Pure.pure a) := fun _ => rfl

lemma throw (e : ε) : Implements (MonadExcept.throw e : Prog σ ε α) (MonadExcept.throw e) := fun _ => rfl

lemma throw_bind (e : ε) (f : β → Prog σ ε α) (k : β → Cmd σ ε α) :
    Implements (MonadExcept.throw e >>= f) (MonadExcept.throw e >>= k) := fun _ => rfl

lemma liftM (x : Except ε α) : Implements (liftM x : Prog σ ε α) (liftM x) := fun _ => by cases x <;> rfl

lemma atomic (c : Cmd σ ε α) : Implements (Prog.atomic c) c := fun _ => rfl

lemma bind {p : Prog σ ε α} {c : Cmd σ ε α} {f : α → Prog σ ε β} {k : α → Cmd σ ε β} (hp : Implements p c)
    (hf : ∀ a, Implements (f a) (k a)) : Implements (p >>= f) (c >>= k) := by
  intro s
  rw [run_bind, exec_bind, hp s]
  rcases exec c s with ⟨_ | a, s'⟩
  · rfl
  · exact hf a s'

end Implements

/-- A program on a part of the state, with its errors renamed, implements the command on that part. -/
lemma run_within (view : σ → τ) (put : τ → σ → σ) (hview : ∀ t s, view (put t s) = t)
    (hput : ∀ t t' s, put t' (put t s) = put t' s) (hself : ∀ s, put (view s) s = s) (p : Prog τ ε α) (s : σ) :
    (p.within view put).run s = ((p.run (view s)).1, put (p.run (view s)).2 s) := by
  induction p generalizing s with
  | done r => exact Prod.ext rfl (hself s).symm
  | step c k ih =>
    refine (ih (view s) (put (c (view s)) s)).trans ?_
    rw [hview, hput]
    rfl

lemma run_mapResult (f : Except ε α → Except δ β) (p : Prog σ ε α) (s : σ) :
    (p.mapResult f).run s = (f (p.run s).1, (p.run s).2) := by
  induction p generalizing s with
  | done r => rfl
  | step c k ih => exact ih s (c s)

/-! ## A program among others -/

/-- **What a program does while others run.**  Between its steps the others may change the state as `R` allows. -/
def Sat (V : σ → Prop) (R G : σ → σ → Prop) (Q : Except ε α → σ → Prop) : Prog σ ε α → σ → Prop
  | .done r, s => ∀ s', V s' → R s s' → Q r s'
  | .step c k, s => ∀ s', V s' → R s s' → G s' (c s') ∧ (V (c s') → Sat V R G Q (k s') (c s'))

section Sat

variable {V : σ → Prop} {R G : σ → σ → Prop} {Q : Except ε α → σ → Prop} {s s' : σ}

lemma Sat.rely (htrans : ∀ {a b c}, R a b → R b c → R a c) {p : Prog σ ε α} (h : Sat V R G Q p s) (hR : R s s') :
    Sat V R G Q p s' := by
  cases p with
  | done r => exact fun s'' hV hR' => h s'' hV (htrans hR hR')
  | step c k => exact fun s'' hV hR' => h s'' hV (htrans hR hR')

lemma Sat.mono {G' : σ → σ → Prop} {Q' : Except ε α → σ → Prop} {p : Prog σ ε α} (h : Sat V R G Q p s)
    (hG : ∀ s s', G s s' → G' s s') (hQ : ∀ r s', V s' → Q r s' → Q' r s') : Sat V R G' Q' p s := by
  induction p generalizing s with
  | done r => exact fun s' hV hR => hQ r s' hV (h s' hV hR)
  | step c k ih =>
    intro s' hV hR
    obtain ⟨hstep, hk⟩ := h s' hV hR
    exact ⟨hG s' (c s') hstep, fun hV' => ih s' (hk hV')⟩

/-- What neither the program nor the others change is still true at the end. -/
lemma Sat.frame {J : σ → Prop} {p : Prog σ ε α} (h : Sat V R G Q p s) (hJ : J s)
    (hR : ∀ s s', R s s' → J s → J s') (hG : ∀ s s', G s s' → J s → J s') :
    Sat V R G (fun r s' => Q r s' ∧ J s') p s := by
  induction p generalizing s with
  | done r => exact fun s' hV hRs => ⟨h s' hV hRs, hR s s' hRs hJ⟩
  | step c k ih =>
    intro s' hV hRs
    obtain ⟨hstep, hk⟩ := h s' hV hRs
    exact ⟨hstep, fun hV' => ih s' (hk hV') (hG s' (c s') hstep (hR s s' hRs hJ))⟩

lemma Sat.trivial (p : Prog σ ε α) (s : σ) :
    Sat (fun _ => True) (fun _ _ => True) (fun _ _ => True) (fun _ _ => True) p s := by
  induction p generalizing s with
  | done r => exact fun _ _ _ => True.intro
  | step c k ih => exact fun s' _ _ => ⟨True.intro, fun _ => ih s' (c s')⟩

lemma Sat.bind (hrefl : ∀ a, R a a) {Q₁ : Except ε β → σ → Prop} {p : Prog σ ε β} {f : β → Prog σ ε α}
    (h : Sat V R G Q₁ p s) (hs : V s) (hok : ∀ b s', V s' → Q₁ (.ok b) s' → Sat V R G Q (f b) s')
    (herr : ∀ e s', V s' → Q₁ (.error e) s' → Q (.error e) s') : Sat V R G Q (p >>= f) s := by
  change Sat V R G Q (p.bind f) s
  induction p generalizing s with
  | done r =>
    cases r with
    | ok b => exact hok b s hs (h s hs (hrefl s))
    | error e => exact fun s' hV hR => herr e s' hV (h s' hV hR)
  | step c k ih =>
    intro s' hV hR
    obtain ⟨hG, hk⟩ := h s' hV hR
    exact ⟨hG, fun hV' => ih s' (hk hV') hV'⟩

lemma Sat.liftM_bind {x : Except ε β} {f : β → Prog σ ε α} (hok : ∀ b, x = .ok b → Sat V R G Q (f b) s)
    (herr : ∀ e, x = .error e → ∀ s', V s' → R s s' → Q (.error e) s') : Sat V R G Q (liftM x >>= f) s := by
  cases x with
  | ok b => exact hok b rfl
  | error e => exact herr e rfl

lemma Sat.atomic {c : Cmd σ ε α} (hG : ∀ s', V s' → R s s' → G s' (exec c s').2)
    (hQ : ∀ s', V s' → R s s' → ∀ s'', V s'' → R (exec c s').2 s'' → Q (exec c s').1 s'') :
    Sat V R G Q (Prog.atomic c) s := fun s' hV hR => ⟨hG s' hV hR, fun _ s'' hV' hR' => hQ s' hV hR s'' hV' hR'⟩

lemma Sat.mapResult {f : Except δ β → Except ε α} {p : Prog σ δ β} (h : Sat V R G (fun r => Q (f r)) p s) :
    Sat V R G Q (p.mapResult f) s := by
  induction p generalizing s with
  | done r => exact h
  | step c k ih =>
    intro s' hV hR
    obtain ⟨hG, hk⟩ := h s' hV hR
    exact ⟨hG, fun hV' => ih s' (hk hV')⟩

/-- A program on a part of the state, for which the others are what they are for that part. -/
lemma Sat.within {view : σ → τ} {put : τ → σ → σ} {V' : τ → Prop} {R' G' : τ → τ → Prop}
    {Q' : Except ε α → τ → Prop} (hV : ∀ s, V s → V' (view s)) (hR : ∀ s s', R s s' → R' (view s) (view s'))
    (hG : ∀ s t, G' (view s) t → G s (put t s)) (hview : ∀ s t, G' (view s) t → view (put t s) = t)
    (hQ : ∀ r s, Q' r (view s) → Q r s) {p : Prog τ ε α} (h : Sat V' R' G' Q' p (view s)) :
    Sat V R G Q (p.within view put) s := by
  induction p generalizing s with
  | done r => exact fun s' hVs hRs => hQ r s' (h (view s') (hV s' hVs) (hR s s' hRs))
  | step c k ih =>
    intro s' hVs hRs
    obtain ⟨hG', hk⟩ := h (view s') (hV s' hVs) (hR s s' hRs)
    have hsame := hview s' (c (view s')) hG'
    refine ⟨hG s' _ hG', fun hVs' => ih (view s') ?_⟩
    rw [hsame]
    exact hk (hsame ▸ hV _ hVs')

end Sat

end Prog

/-! ## Pools -/

section Pool

variable {σ ε α ι : Type} [DecidableEq ι]

/-- The threads, as far as they have come, and the state. -/
structure Pool (σ ε α ι : Type) where
  threads : ι → Prog σ ε α
  state : σ

/-- The turn of a thread, with the state before and after it; nothing happens if the thread has ended. -/
def Pool.step (P : Pool σ ε α ι) (i : ι) : (σ × σ) × Pool σ ε α ι :=
  match P.threads i with
  | .done _ => ((P.state, P.state), P)
  | .step c k => ((P.state, c P.state), ⟨Function.update P.threads i (k P.state), c P.state⟩)

lemma Pool.step_fst (P : Pool σ ε α ι) (i : ι) : (P.step i).1 = (P.state, (P.step i).2.state) := by
  unfold step
  cases P.threads i <;> rfl

/-- What the threads assume of the others, guarantee to them and have at their end. -/
structure Agreement (σ ε α ι : Type) where
  R : ι → σ → σ → Prop
  G : ι → σ → σ → Prop
  Q : ι → Except ε α → σ → Prop
  refl : ∀ i s, R i s s
  trans : ∀ i {a b c}, R i a b → R i b c → R i a c
  still : ∀ i s, G i s s
  others : ∀ i j, i ≠ j → ∀ s s', G i s s' → R j s s'

variable (A : Agreement σ ε α ι) {V : σ → Prop} {P : Pool σ ε α ι}

/-- All threads are as agreed. -/
def Agreement.Holds (V : σ → Prop) (P : Pool σ ε α ι) : Prop :=
  ∀ i, (P.threads i).Sat V (A.R i) (A.G i) (A.Q i) P.state

variable {A}

lemma Agreement.Holds.step (h : A.Holds V P) (hV : V P.state) (i : ι) (hV' : V (P.step i).2.state) :
    A.G i P.state (P.step i).2.state ∧ A.Holds V (P.step i).2 := by
  have hi := h i
  unfold Pool.step at hV' ⊢
  cases hp : P.threads i with
  | done r => exact ⟨A.still i P.state, h⟩
  | step c k =>
    simp only [hp] at hi hV' ⊢
    obtain ⟨hG, hk⟩ := hi P.state hV (A.refl i P.state)
    refine ⟨hG, fun j => ?_⟩
    by_cases hij : i = j
    · subst hij
      simpa using hk hV'
    · have hj := (h j).rely (R := A.R j) (A.trans j) (A.others i j hij P.state (c P.state) hG)
      simpa [Function.update_of_ne (Ne.symm hij)] using hj

/-- **The rule for pools.**  Threads that are as agreed at first are as agreed after every schedule, and every turn is
as the thread guarantees. -/
theorem schedule_sat (h : A.Holds V P) {sched : List ι}
    (hV : ∀ pre, pre <+: sched → V (final Pool.step P pre).state) :
    A.Holds V (final Pool.step P sched) ∧ ∀ e ∈ events Pool.step P sched, A.G e.1 e.2.1 e.2.2 := by
  induction sched generalizing P with
  | nil => exact ⟨h, by simp⟩
  | cons i sched ih =>
    have hi : V (P.step i).2.state := hV [i] ⟨sched, rfl⟩
    obtain ⟨hG, hstep⟩ := h.step (hV [] List.nil_prefix) i hi
    obtain ⟨hfinal, hevents⟩ := ih hstep fun pre hpre => hV (i :: pre) (List.cons_prefix_cons.2 ⟨rfl, hpre⟩)
    refine ⟨hfinal, fun e he => ?_⟩
    rcases List.mem_cons.1 he with rfl | he
    · rw [Pool.step_fst]
      exact hG
    · exact hevents e he

/-- The states that a schedule goes through. -/
def Visited (P : Pool σ ε α ι) (sched : List ι) (s : σ) : Prop :=
  ∃ pre, pre <+: sched ∧ s = (final Pool.step P pre).state

/-- What every guarantee keeps is true in every schedule. -/
lemma inv_schedule (h : A.Holds V P) {sched : List ι} (hV : ∀ pre, pre <+: sched → V (final Pool.step P pre).state)
    {I : σ → Prop} (hI : I P.state) (hstep : ∀ i s s', A.G i s s' → I s → I s') :
    I (final Pool.step P sched).state := by
  induction sched using List.reverseRecOn with
  | nil => exact hI
  | append_singleton sched i ih =>
    have hpre : ∀ pre, pre <+: sched → pre <+: sched ++ [i] := fun pre hp => hp.trans (List.prefix_append _ _)
    have hsched := (schedule_sat h fun pre hp => hV pre (hpre pre hp)).1
    rw [final_snoc]
    refine hstep i _ _ (hsched.step (hV sched (hpre sched (List.prefix_refl _))) i ?_).1
      (ih fun pre hp => hV pre (hpre pre hp))
    rw [← final_snoc]
    exact hV _ (List.prefix_refl _)

end Pool

end Signatory.Lib.Threads
