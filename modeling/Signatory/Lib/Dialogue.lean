import Mathlib.Tactic

/-!
# Dialogues

A dialogue is a program that asks questions and goes on with the answers.  It says nothing about who answers.

* `run serve p s` — the dialogue `p` with the server `serve` in the state `s`; a server may never answer;
* `Asks P p` — whatever is answered, `p` asks only what `P` allows;
* `run_sim` — the simulation rule: two servers that answer such questions alike cannot be told apart;
* `Plays p log a` — with the questions and answers in `log`, the dialogue `p` ends with `a`;
* `Sat` — the rules for what holds of every play.  A ghost state follows the answers, and says which questions may be
  asked (`Sat.plays`).
-/

namespace Signatory.Lib

/-- A program with questions of type `ι`, a question `i` being answered by an `ο i`. -/
inductive Dialogue (ι : Type) (ο : ι → Type) (α : Type) where
  | done (a : α)
  | ask (i : ι) (k : ο i → Dialogue ι ο α)

namespace Dialogue

variable {ι : Type} {ο : ι → Type} {α β σ τ γ : Type}

/-- One dialogue after another. -/
def andThen : Dialogue ι ο α → (α → Dialogue ι ο β) → Dialogue ι ο β
  | .done a, f => f a
  | .ask i k, f => .ask i fun o => (k o).andThen f

instance : Monad (Dialogue ι ο) where
  pure := .done
  bind := .andThen

@[simp] lemma bind_ask (i : ι) (k : ο i → Dialogue ι ο α) (f : α → Dialogue ι ο β) :
    (.ask i k >>= f) = .ask i fun o => k o >>= f := rfl

/-- One question. -/
def question (i : ι) : Dialogue ι ο (ο i) := .ask i .done

/-- Some questions, one after another, with the answers to them. -/
def askAll {κ : Type} : List ι → Dialogue ι (fun _ => κ) (List κ)
  | [] => .done []
  | i :: is => .ask i fun o => askAll is >>= fun os => .done (o :: os)

/-- The same dialogue with other questions, whose answers are read as those of the old ones. -/
def relabel {ι' : Type} {ο' : ι' → Type} (f : ι → ι') (g : ∀ i, ο' (f i) → ο i) :
    Dialogue ι ο α → Dialogue ι' ο' α
  | .done a => .done a
  | .ask i k => .ask (f i) fun o => (k (g i o)).relabel f g

/-! ## Servers -/

/-- The outcome of a dialogue with a server, and the state of the server after it. -/
def run (serve : σ → (i : ι) → Option (ο i × σ)) : Dialogue ι ο α → σ → Option (α × σ)
  | .done a, s => some (a, s)
  | .ask i k, s => (serve s i).bind fun r => (k r.1).run serve r.2

variable {serve : σ → (i : ι) → Option (ο i × σ)} {serve' : τ → (i : ι) → Option (ο i × τ)}

@[simp] lemma run_done (a : α) (s : σ) : (.done a : Dialogue ι ο α).run serve s = some (a, s) := rfl
@[simp] lemma run_ask (i : ι) (k : ο i → Dialogue ι ο α) (s : σ) :
    (.ask i k : Dialogue ι ο α).run serve s = (serve s i).bind fun r => (k r.1).run serve r.2 := rfl

lemma run_bind (p : Dialogue ι ο α) (f : α → Dialogue ι ο β) (s : σ) :
    (p >>= f).run serve s = (p.run serve s).bind fun r => (f r.1).run serve r.2 := by
  induction p generalizing s with
  | done a => rfl
  | ask i k ih =>
    rw [bind_ask, run_ask, run_ask]
    cases serve s i with
    | none => rfl
    | some r => exact ih r.1 r.2

lemma run_askAll_cons {κ : Type} {serve : σ → ι → Option (κ × σ)} {i : ι} {is : List ι} {s s₁ s₂ : σ} {o : κ}
    {os : List κ} (h : serve s i = some (o, s₁)) (hrest : (askAll is).run serve s₁ = some (os, s₂)) :
    (askAll (i :: is)).run serve s = some (o :: os, s₂) := by
  rw [askAll, run_ask, h, Option.bind_some, run_bind, hrest]
  rfl

/-- Whatever is answered, only questions that satisfy `P` are asked. -/
def Asks (P : ι → Prop) : Dialogue ι ο α → Prop
  | .done _ => True
  | .ask i k => P i ∧ ∀ o, (k o).Asks P

variable {P : ι → Prop}

lemma Asks.bind {p : Dialogue ι ο α} {f : α → Dialogue ι ο β} (hp : p.Asks P) (hf : ∀ a, (f a).Asks P) :
    (p >>= f).Asks P := by
  induction p with
  | done a => exact hf a
  | ask i k ih => exact ⟨hp.1, fun o => ih o (hp.2 o)⟩

/-- **The simulation rule.**  If `serve'` answers what `P` allows as `serve` does, and the states stay related, then a
dialogue that asks nothing else has the same outcome with both. -/
theorem run_sim {R : σ → τ → Prop} {p : Dialogue ι ο α} (hp : p.Asks P)
    (hstep : ∀ s t i o s', R s t → P i → serve s i = some (o, s') → ∃ t', serve' t i = some (o, t') ∧ R s' t')
    {s s' : σ} {t : τ} {a : α} (hR : R s t) (hrun : p.run serve s = some (a, s')) :
    ∃ t', p.run serve' t = some (a, t') ∧ R s' t' := by
  induction p generalizing s t with
  | done b =>
    cases hrun
    exact ⟨t, rfl, hR⟩
  | ask i k ih =>
    obtain ⟨⟨o, s₁⟩, hserve, hrest⟩ := Option.bind_eq_some_iff.1 hrun
    obtain ⟨t₁, hserve', hR'⟩ := hstep s t i o s₁ hR hp.1 hserve
    obtain ⟨t', hrun', hfinal⟩ := ih o (hp.2 o) hR' hrest
    exact ⟨t', by rw [run_ask, hserve']; exact hrun', hfinal⟩

/-! ## Every play -/

/-- With these questions and answers the dialogue ends with this value. -/
inductive Plays : Dialogue ι ο α → List (Σ i, ο i) → α → Prop
  | done (a : α) : Plays (.done a) [] a
  | ask {i : ι} {k : ο i → Dialogue ι ο α} {o : ο i} {log : List (Σ i, ο i)} {a : α} (h : Plays (k o) log a) :
    Plays (.ask i k) (⟨i, o⟩ :: log) a

lemma Plays.of_bind {p : Dialogue ι ο α} {f : α → Dialogue ι ο β} {log : List (Σ i, ο i)} {b : β}
    (h : Plays (p >>= f) log b) : ∃ l₁ l₂ a, log = l₁ ++ l₂ ∧ Plays p l₁ a ∧ Plays (f a) l₂ b := by
  induction p generalizing log with
  | done a => exact ⟨[], log, a, rfl, .done a, h⟩
  | ask i k ih =>
    cases h with
    | ask h =>
      obtain ⟨l₁, l₂, a, rfl, h₁, h₂⟩ := ih _ h
      exact ⟨_ :: l₁, l₂, a, rfl, .ask h₁, h₂⟩

/-- How a ghost state follows a play: which questions may be asked in it, and what an answer makes of it. -/
structure Ghost (ι : Type) (ο : ι → Type) (γ : Type) where
  may : γ → ι → Prop
  next : γ → (i : ι) → ο i → γ

variable (G : Ghost ι ο γ)

/-- In every play from the ghost state `g`, only questions are asked that may be asked, and the value and the ghost
state in the end are as `Q` wants them. -/
def Sat (Q : α → γ → Prop) : Dialogue ι ο α → γ → Prop
  | .done a, g => Q a g
  | .ask i k, g => G.may g i ∧ ∀ o, (k o).Sat Q (G.next g i o)

/-- The ghost state after a play. -/
def Ghost.after (g : γ) (log : List (Σ i, ο i)) : γ := log.foldl (fun g e => G.next g e.1 e.2) g

/-- Every question of a play may be asked where it is. -/
def Ghost.Allowed : γ → List (Σ i, ο i) → Prop
  | _, [] => True
  | g, e :: log => G.may g e.1 ∧ Ghost.Allowed (G.next g e.1 e.2) log

variable {G} {Q : α → γ → Prop} {g : γ}

/-- **Soundness**: what is proved with the rules holds of every play. -/
theorem Sat.plays {p : Dialogue ι ο α} (h : p.Sat G Q g) {log : List (Σ i, ο i)} {a : α} (hp : Plays p log a) :
    G.Allowed g log ∧ Q a (G.after g log) := by
  induction hp generalizing g with
  | done a => exact ⟨trivial, h⟩
  | ask _ ih =>
    obtain ⟨hallowed, hQ⟩ := ih (h.2 _)
    exact ⟨⟨h.1, hallowed⟩, hQ⟩

lemma Sat.bind {p : Dialogue ι ο α} {f : α → Dialogue ι ο β} {Q : β → γ → Prop}
    (h : p.Sat G (fun a g => (f a).Sat G Q g) g) : (p >>= f).Sat G Q g := by
  induction p generalizing g with
  | done a => exact h
  | ask i k ih => exact ⟨h.1, fun o => ih o (h.2 o)⟩

lemma Sat.mono {p : Dialogue ι ο α} {Q' : α → γ → Prop} (h : p.Sat G Q g) (hQ : ∀ a g, Q a g → Q' a g) :
    p.Sat G Q' g := by
  induction p generalizing g with
  | done a => exact hQ a g h
  | ask i k ih => exact ⟨h.1, fun o => ih o (h.2 o)⟩

lemma Sat.question {i : ι} {Q : ο i → γ → Prop} (hmay : G.may g i) (h : ∀ o, Q o (G.next g i o)) :
    (Dialogue.question i : Dialogue ι ο (ο i)).Sat G Q g :=
  ⟨hmay, h⟩

/-- A dialogue whose questions, with their new names, may be asked and change nothing. -/
lemma Sat.relabel {ι' : Type} {ο' : ι' → Type} {G : Ghost ι' ο' γ} {f : ι → ι'} {h : ∀ i, ο' (f i) → ο i}
    (hmay : ∀ i, G.may g (f i)) (hnext : ∀ i o, G.next g (f i) o = g) {Q : α → γ → Prop} (p : Dialogue ι ο α)
    (hQ : ∀ a, Q a g) : (p.relabel f h).Sat G Q g := by
  induction p with
  | done a => exact hQ a
  | ask i k ih =>
    refine ⟨hmay i, fun o => ?_⟩
    rw [hnext]
    exact ih _

end Dialogue

end Signatory.Lib
