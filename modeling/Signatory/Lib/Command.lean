import Mathlib.Tactic

/-!
# Commands and their weakest preconditions

A command reads and changes a state and ends with a value or with an error; what it has changed before an error
stays changed.

* `exec c s` — the outcome of the command `c` in the state `s`;
* `within` — a command on a part of the state;
* `wp c Q E s` — run in `s`, the command `c` ends with a value as `Q` wants it, or with an error as `E` does;
* `Keeps I c` — the command `c` keeps the invariant `I`, whatever its outcome.

The rules for `wp` are equivalences and `simp` lemmas, so `simp` runs a command symbolically, up to the case splits
that the rule for a pure computation (`wp_liftM`) leaves.  The rules for `Keeps` follow the text of a command.
-/

namespace Signatory.Lib.Command

/-- A command on states `σ` with errors `ε`. -/
abbrev Cmd (σ ε : Type) := ExceptT ε (StateM σ)

section

variable {σ τ ε δ α β : Type}

/-- The outcome of a command and the state it leaves. -/
def exec (c : Cmd σ ε α) (s : σ) : Except ε α × σ := c.run s

/-- A command on the part `view s` of the state, with its errors renamed. -/
def within (view : σ → τ) (put : τ → σ → σ) (err : ε → δ) (c : Cmd τ ε α) : Cmd σ δ α :=
  ExceptT.mk fun s => ((exec c (view s)).1.mapError err, put (exec c (view s)).2 s)

/-- **The weakest precondition** of `c` for the value and state `Q` wants, or the error and state `E` wants. -/
def wp (c : Cmd σ ε α) (Q : α → σ → Prop) (E : ε → σ → Prop) (s : σ) : Prop :=
  match exec c s with
  | (.ok a, s') => Q a s'
  | (.error e, s') => E e s'

variable {Q : α → σ → Prop} {E : ε → σ → Prop} {s : σ}

@[simp] lemma wp_pure (a : α) : wp (pure a : Cmd σ ε α) Q E s ↔ Q a s := Iff.rfl

@[simp] lemma wp_throw (e : ε) : wp (throw e : Cmd σ ε α) Q E s ↔ E e s := Iff.rfl

@[simp] lemma wp_get {Q : σ → σ → Prop} : wp (get : Cmd σ ε σ) Q E s ↔ Q s s := Iff.rfl

@[simp] lemma wp_modify (f : σ → σ) {Q : Unit → σ → Prop} :
    wp (modify f : Cmd σ ε Unit) Q E s ↔ Q () (f s) := Iff.rfl

@[simp] lemma wp_modifyGet (f : σ → α × σ) :
    wp (modifyGet f : Cmd σ ε α) Q E s ↔ Q (f s).1 (f s).2 := Iff.rfl

/-- A pure computation is where the cases split. -/
@[simp] lemma wp_liftM (x : Except ε α) :
    wp (liftM x : Cmd σ ε α) Q E s ↔ (∀ a, x = .ok a → Q a s) ∧ (∀ e, x = .error e → E e s) := by
  cases x with
  | ok a => exact ⟨fun h => ⟨by rintro _ ⟨⟩; exact h, by rintro _ ⟨⟩⟩, fun h => h.1 a rfl⟩
  | error e => exact ⟨fun h => ⟨by rintro _ ⟨⟩, by rintro _ ⟨⟩; exact h⟩, fun h => h.2 e rfl⟩

lemma wp_mapError (x : Except δ α) (f : δ → ε) :
    wp (liftM (x.mapError f) : Cmd σ ε α) Q E s ↔ (∀ a, x = .ok a → Q a s) ∧ (∀ e, x = .error e → E (f e) s) := by
  rw [wp_liftM]
  cases x <;> simp [Except.mapError]

@[simp] lemma wp_bind (c : Cmd σ ε β) (k : β → Cmd σ ε α) :
    wp (c >>= k) Q E s ↔ wp c (fun b => wp (k b) Q E) E s := by
  have hexec : exec (c >>= k) s = match exec c s with
      | (.ok b, s') => exec (k b) s'
      | (.error e, s') => (.error e, s') := by
    change (ExceptT.bindCont k (exec c s).1) (exec c s).2 = _
    rcases exec c s with ⟨_ | _, _⟩ <;> rfl
  unfold wp
  rw [hexec]
  rcases exec c s with ⟨_ | _, _⟩ <;> rfl

/-- A command on a part of the state changes that part only. -/
@[simp] lemma wp_within (view : σ → τ) (put : τ → σ → σ) (err : δ → ε) (c : Cmd τ δ α) :
    wp (within view put err c) Q E s ↔
      wp c (fun a t => Q a (put t s)) (fun e t => E (err e) (put t s)) (view s) := by
  have hexec : exec (within view put err c) s = ((exec c (view s)).1.mapError err, put (exec c (view s)).2 s) := rfl
  unfold wp
  rw [hexec]
  rcases exec c (view s) with ⟨_ | _, _⟩ <;> rfl

/-- What a command that fails has changed is there for the handler. -/
@[simp] lemma wp_tryCatch (c : Cmd σ ε α) (k : ε → Cmd σ ε α) :
    wp (tryCatch c k) Q E s ↔ wp c Q (fun e => wp (k e) Q E) s := by
  have hexec : exec (tryCatch c k) s = match exec c s with
      | (.ok a, s') => (.ok a, s')
      | (.error e, s') => exec (k e) s' := by
    change ((match (exec c s).1 with
      | .ok a => (pure (.ok a) : StateM σ (Except ε α))
      | .error e => k e) (exec c s).2 : Except ε α × σ) = _
    rcases exec c s with ⟨_ | _, _⟩ <;> rfl
  unfold wp
  rw [hexec]
  rcases exec c s with ⟨_ | _, _⟩ <;> rfl

/-- What every outcome of the command in `s` is, holds whatever is wanted of it. -/
lemma wp_of_exec (c : Cmd σ ε α) (hok : ∀ a s', exec c s = (.ok a, s') → Q a s')
    (herr : ∀ e s', exec c s = (.error e, s') → E e s') : wp c Q E s := by
  unfold wp
  rcases hc : exec c s with ⟨e | a, s'⟩
  · exact herr e s' hc
  · exact hok a s' hc

@[elab_as_elim]
lemma wp_post {c : Cmd σ ε α} {a : α} {s' : σ} (h : wp c Q E s) (hc : exec c s = (.ok a, s')) : Q a s' := by
  simpa only [wp, hc] using h

/-- The rule of consequence, with the run itself. -/
lemma wp_mono_exec {c : Cmd σ ε α} {Q' : α → σ → Prop} {E' : ε → σ → Prop} (h : wp c Q E s)
    (hok : ∀ a s', exec c s = (.ok a, s') → Q a s' → Q' a s')
    (herr : ∀ e s', exec c s = (.error e, s') → E e s' → E' e s') : wp c Q' E' s := by
  refine wp_of_exec c (fun a s' hc => hok a s' hc (wp_post h hc)) fun e s' hc => herr e s' hc ?_
  simpa only [wp, hc] using h

/-- The rule of consequence. -/
lemma wp_mono {c : Cmd σ ε α} {Q' : α → σ → Prop} {E' : ε → σ → Prop} (h : wp c Q E s)
    (hok : ∀ a s', Q a s' → Q' a s') (herr : ∀ e s', E e s' → E' e s') : wp c Q' E' s :=
  wp_mono_exec h (fun a s' _ => hok a s') fun e s' _ => herr e s'

lemma wp_cases {c : Cmd σ ε α} (h : wp c Q E s) :
    (∃ a, (exec c s).1 = .ok a ∧ Q a (exec c s).2) ∨ ∃ e, (exec c s).1 = .error e ∧ E e (exec c s).2 := by
  unfold wp at h
  rcases hc : exec c s with ⟨e | a, s'⟩
  · rw [hc] at h
    exact Or.inr ⟨e, rfl, h⟩
  · rw [hc] at h
    exact Or.inl ⟨a, rfl, h⟩

lemma wp_value (c : Cmd σ ε α) (r : α) : wp c (fun a _ => a = r) (fun _ _ => False) s ↔ (exec c s).1 = .ok r := by
  unfold wp
  rcases exec c s with ⟨_ | _, _⟩ <;> simp

lemma wp_state (c : Cmd σ ε α) (I : σ → Prop) : wp c (fun _ => I) (fun _ => I) s ↔ I (exec c s).2 := by
  unfold wp
  rcases exec c s with ⟨_ | _, _⟩ <;> rfl

lemma wp_exec (c : Cmd σ ε α) (P : Except ε α × σ → Prop) :
    wp c (fun a s' => P (.ok a, s')) (fun e s' => P (.error e, s')) s ↔ P (exec c s) := by
  unfold wp
  rcases exec c s with ⟨_ | _, _⟩ <;> rfl

/-- The state that is left does not depend on whether the value is used. -/
lemma exec_discard (c : Cmd σ ε α) (s : σ) : (exec (do let _ ← c) s).2 = (exec c s).2 := by
  refine (wp_state (do let _ ← c) (· = (exec c s).2)).1 ?_
  rw [wp_bind]
  exact (wp_state c _).2 rfl

/-! ## Invariants -/

/-- The command `c` keeps `I`. -/
def Keeps (I : σ → Prop) (c : Cmd σ ε α) : Prop := ∀ s, I s → wp c (fun _ => I) (fun _ => I) s

namespace Keeps

variable {I : σ → Prop}

lemma state {c : Cmd σ ε α} (h : Keeps I c) (hs : I s) : I (exec c s).2 := (wp_state c I).1 (h s hs)

lemma throw (e : ε) : Keeps I (MonadExcept.throw e : Cmd σ ε α) := fun _ hs => hs

lemma throw_bind (e : ε) (k : β → Cmd σ ε α) : Keeps I (MonadExcept.throw e >>= k) := fun _ hs => hs

lemma liftM (x : Except ε α) : Keeps I (liftM x : Cmd σ ε α) := fun _ hs =>
  (wp_liftM x).2 ⟨fun _ _ => hs, fun _ _ => hs⟩

lemma bind {c : Cmd σ ε β} {k : β → Cmd σ ε α} (hc : Keeps I c) (hk : ∀ b, Keeps I (k b)) : Keeps I (c >>= k) := by
  intro s hs
  rw [wp_bind]
  have h := hc s hs
  unfold wp at h ⊢
  rcases hexec : exec c s with ⟨e | b, s'⟩
  · rwa [hexec] at h
  · rw [hexec] at h
    exact hk b s' h

lemma modify {f : σ → σ} (h : ∀ s, I s → I (f s)) : Keeps I (modify f : Cmd σ ε Unit) := fun s hs => h s hs

lemma modifyGet {f : σ → α × σ} (h : ∀ s, I s → I (f s).2) : Keeps I (modifyGet f : Cmd σ ε α) :=
  fun s hs => h s hs

lemma within {view : σ → τ} {put : τ → σ → σ} {err : δ → ε} (h : ∀ s t, I s → I (put t s)) (c : Cmd τ δ α) :
    Keeps I (Command.within view put err c) := fun s hs =>
  (wp_within view put err c).2 (wp_of_exec c (fun _ t _ => h s t hs) fun _ t _ => h s t hs)

end Keeps

end

end Signatory.Lib.Command
