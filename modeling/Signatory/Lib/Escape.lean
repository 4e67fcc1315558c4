import Mathlib.Tactic

/-!
# Text with escapes

In a text the symbol after `bs` stands for itself.  `scan` reads up to a symbol that stops it, and `scanQuoted` up to
the closing quote; the flag says whether the last symbol was an open `bs`.  `token` takes its first symbol for itself,
whatever it is, so an escaped text may be read as another one:

* `token_readable` — a text that begins with a plain symbol, after any number of `bs`, is read back;
* `token_bare` — one that has nothing but `bs` takes in the symbol after it;
* `token_misread` — any other one is read with one `bs` more, and ends there if its first symbol stops it.
-/

namespace Signatory.Lib.Escape

variable {α : Type}

/-- What is read after `l`. -/
def after (l : List α) (r : Option (List α × List α)) : Option (List α × List α) := r.map fun o => (l ++ o.1, o.2)

@[simp] lemma after_some (l out rest : List α) : after l (some (out, rest)) = some (l ++ out, rest) := rfl

@[simp] lemma after_nil (r : Option (List α × List α)) : after [] r = r := by
  cases r <;> rfl

lemma after_after (l m : List α) (r : Option (List α × List α)) : after l (after m r) = after (l ++ m) r := by
  cases r with
  | none => rfl
  | some o => simp [after]

lemma after_eq_some {l out rest : List α} {r : Option (List α × List α)} (h : after l r = some (out, rest)) :
    ∃ m, r = some (m, rest) ∧ out = l ++ m := by
  obtain ⟨o, rfl, ho⟩ := Option.map_eq_some_iff.1 h
  obtain ⟨rfl, rfl⟩ := Prod.mk.inj ho
  exact ⟨o.1, rfl, rfl⟩

def escape (bs : α) (special : α → Bool) (l : List α) : List α := l.flatMap fun c => if special c then [bs, c] else [c]

section Escaped

variable {bs : α} {special : α → Bool}

@[simp] lemma escape_nil : escape bs special [] = [] := rfl

lemma escape_special {c : α} (hc : special c = true) (l : List α) :
    escape bs special (c :: l) = bs :: c :: escape bs special l := by
  simp [escape, hc]

lemma escape_plain {c : α} (hc : special c = false) (l : List α) :
    escape bs special (c :: l) = c :: escape bs special l := by
  simp [escape, hc]

lemma mem_escape {c : α} {l : List α} (h : c ∈ escape bs special l) : c = bs ∨ c ∈ l := by
  obtain ⟨d, hd, hc⟩ := List.mem_flatMap.1 h
  split at hc
  next =>
    rcases List.mem_pair.1 hc with rfl | rfl
    · exact Or.inl rfl
    · exact Or.inr hd
  next =>
    obtain rfl := List.mem_singleton.1 hc
    exact Or.inr hd

lemma head_escape (bs : α) (special : α → Bool) {l : List α} (h : l ≠ []) :
    ∃ b m, escape bs special l = b :: m ∧ (b = bs ∨ special b = false) := by
  obtain ⟨c, l, rfl⟩ := List.exists_cons_of_ne_nil h
  cases hc : special c with
  | true => exact ⟨bs, _, escape_special hc l, Or.inl rfl⟩
  | false => exact ⟨c, _, escape_plain hc l, Or.inr hc⟩

variable {stop : α → Bool}

/-- Whatever stops a text is special, and so is `bs`, which does not. -/
structure Guards (bs : α) (special stop : α → Bool) : Prop where
  self : special bs = true
  goesOn : stop bs = false
  stops : ∀ c, stop c = true → special c = true

lemma Guards.not_stop (h : Guards bs special stop) {c : α} (hc : special c = false) : stop c = false := by
  cases hs : stop c with
  | false => rfl
  | true => rw [h.stops c hs] at hc; cases hc

lemma Guards.ne_self (h : Guards bs special stop) {c : α} (hc : special c = false) : c ≠ bs := by
  rintro rfl
  rw [h.self] at hc
  cases hc

end Escaped

variable [DecidableEq α] (bs : α)

def scan (stop : α → Bool) : Bool → List α → Option (List α × List α)
  | false, [] => some ([], [])
  | true, [] => none
  | true, c :: l => after [c] (scan stop false l)
  | false, c :: l =>
    if stop c then some ([], c :: l) else if c = bs then scan stop true l else after [c] (scan stop false l)

def scanQuoted (q : α) : Bool → List α → Option (List α × List α)
  | _, [] => none
  | true, c :: l => after [c] (scanQuoted q false l)
  | false, c :: l =>
    if c = bs then scanQuoted q true l else if c = q then some ([], l) else after [c] (scanQuoted q false l)

def token (stop : α → Bool) : List α → Option (List α × List α)
  | [] => none
  | c :: l => after [c] (scan bs stop false l)

variable {bs} {special stop : α → Bool}

/-! ## What is left is the end of the text -/

lemma scan_suffix {pending : Bool} {l out rest : List α} (h : scan bs stop pending l = some (out, rest)) :
    rest <:+ l := by
  fun_induction scan bs stop pending l generalizing out with
  | case1 =>
    obtain ⟨rfl, rfl⟩ := Prod.mk.inj (Option.some.inj h)
    exact List.suffix_rfl
  | case2 => cases h
  | case3 c l ih =>
    obtain ⟨m, hm, -⟩ := after_eq_some h
    exact (ih hm).trans (List.suffix_cons c l)
  | case4 c l hstop =>
    obtain ⟨rfl, rfl⟩ := Prod.mk.inj (Option.some.inj h)
    exact List.suffix_rfl
  | case5 l hstop ih => exact (ih h).trans (List.suffix_cons _ l)
  | case6 c l hstop hbs ih =>
    obtain ⟨m, hm, -⟩ := after_eq_some h
    exact (ih hm).trans (List.suffix_cons c l)

lemma scanQuoted_suffix {q : α} {pending : Bool} {l out rest : List α}
    (h : scanQuoted bs q pending l = some (out, rest)) : rest <:+ l := by
  fun_induction scanQuoted bs q pending l generalizing out with
  | case1 => cases h
  | case2 c l ih =>
    obtain ⟨m, hm, -⟩ := after_eq_some h
    exact (ih hm).trans (List.suffix_cons c l)
  | case3 l ih => exact (ih h).trans (List.suffix_cons _ l)
  | case4 l hbs =>
    obtain ⟨rfl, rfl⟩ := Prod.mk.inj (Option.some.inj h)
    exact List.suffix_cons _ l
  | case5 c l hbs hq ih =>
    obtain ⟨m, hm, -⟩ := after_eq_some h
    exact (ih hm).trans (List.suffix_cons c l)

/-! ## Quoted texts -/

/-- **A quoted text is read back.** -/
lemma scanQuoted_escape {q : α} (hq : q ≠ bs) (hspecial : ∀ c, special c = true ↔ c = q ∨ c = bs) (l m : List α) :
    scanQuoted bs q false (escape bs special l ++ q :: m) = some (l, m) := by
  induction l with
  | nil => simp [scanQuoted, hq]
  | cons c l ih =>
    cases hc : special c with
    | true =>
      rw [escape_special hc]
      show (if bs = bs then after [c] (scanQuoted bs q false (_ ++ q :: m)) else _) = _
      rw [if_pos rfl, ih]
      rfl
    | false =>
      obtain ⟨hcq, hcb⟩ : c ≠ q ∧ c ≠ bs := by
        rw [← not_or, ← hspecial, hc]
        decide
      rw [escape_plain hc]
      show (if c = bs then _ else if c = q then _ else after [c] (scanQuoted bs q false (_ ++ q :: m))) = _
      rw [if_neg hcb, if_neg hcq, ih]
      rfl

/-! ## Texts without quotes -/

/-- The first symbol of a text after any number of `bs` is a plain one. -/
def Readable (bs : α) (special : α → Bool) (l : List α) : Prop :=
  ∃ c ∈ (l.dropWhile (· = bs)).head?, special c = false

instance (bs : α) (special : α → Bool) (l : List α) : Decidable (Readable bs special l) :=
  inferInstanceAs (Decidable (∃ c ∈ (l.dropWhile (· = bs)).head?, special c = false))

/-- What a text begins with, after any number of `bs`. -/
inductive Shape (bs : α) (special : α → Bool) : List α → Prop
  | bare (k : ℕ) : Shape bs special (List.replicate k bs)
  | readable (k : ℕ) (c : α) (s : List α) (hc : special c = false) (hne : c ≠ bs) :
      Shape bs special (List.replicate k bs ++ c :: s)
  | misread (k : ℕ) (c : α) (s : List α) (hc : special c = true) (hne : c ≠ bs) :
      Shape bs special (List.replicate k bs ++ c :: s)

lemma shape (bs : α) (special : α → Bool) (l : List α) : Shape bs special l := by
  induction l with
  | nil => exact Shape.bare 0
  | cons c l ih =>
    by_cases hne : c = bs
    · subst hne
      cases ih with
      | bare k => exact Shape.bare (k + 1)
      | readable k d s hd hne => exact Shape.readable (k + 1) d s hd hne
      | misread k d s hd hne => exact Shape.misread (k + 1) d s hd hne
    · cases hc : special c with
      | true => exact Shape.misread 0 c l hc hne
      | false => exact Shape.readable 0 c l hc hne

lemma not_readable_replicate (k : ℕ) : ¬ Readable bs special (List.replicate k bs) := by
  have hdrop : (List.replicate k bs).dropWhile (· = bs) = [] := by simp
  rintro ⟨c, hc, -⟩
  rw [hdrop] at hc
  cases hc

lemma readable_append {c : α} (hne : c ≠ bs) {k : ℕ} {s : List α} :
    Readable bs special (List.replicate k bs ++ c :: s) ↔ special c = false := by
  have hdrop : (List.replicate k bs ++ c :: s).dropWhile (· = bs) = c :: s := by
    rw [List.dropWhile_append_of_pos (by simp)]
    simp [hne]
  unfold Readable
  rw [hdrop]
  simp

section Guarded

variable (h : Guards bs special stop)

include h

lemma scan_self (l : List α) : scan bs stop false (bs :: l) = scan bs stop true l := by
  rw [scan, h.goesOn]
  simp

lemma scan_plain {c : α} (hc : special c = false) (l : List α) :
    scan bs stop false (c :: l) = after [c] (scan bs stop false l) := by
  rw [scan, h.not_stop hc, if_neg (h.ne_self hc)]
  simp

/-- **An escaped text is read over**, but for its first symbol. -/
lemma scan_escape (l m : List α) :
    scan bs stop false (escape bs special l ++ m) = after l (scan bs stop false m) := by
  induction l with
  | nil => simp
  | cons c l ih =>
    have hcons : after (c :: l) (scan bs stop false m) = after [c] (scan bs stop false (escape bs special l ++ m)) := by
      rw [ih, after_after]
      rfl
    rw [hcons]
    cases hc : special c with
    | true =>
      rw [escape_special hc, List.cons_append, scan_self h]
      rfl
    | false => rw [escape_plain hc, List.cons_append, scan_plain h hc]

lemma scan_bare_special {c : α} (hc : c ≠ bs) (l m : List α) :
    scan bs stop false (c :: (escape bs special l ++ m)) =
      if stop c then some ([], c :: (escape bs special l ++ m)) else after (c :: l) (scan bs stop false m) := by
  rw [scan]
  split
  next => rfl
  next =>
    rw [scan_escape h, after_after]
    rfl

/-- Every second `bs` is taken for itself. -/
lemma scan_open_replicate (k : ℕ) (l m : List α) :
    scan bs stop true (escape bs special (List.replicate k bs ++ l) ++ m) =
      after (List.replicate k bs) (scan bs stop true (escape bs special l ++ m)) := by
  induction k with
  | zero => simp
  | succ k ih =>
    rw [List.replicate_succ, List.cons_append, escape_special h.self, List.cons_append, List.cons_append, scan,
      scan_self h, ih, after_after]
    rfl

/-- The first `bs` of a text is taken for itself, and the second one is open. -/
lemma token_replicate (k : ℕ) (l m : List α) :
    token bs stop (escape bs special (List.replicate (k + 1) bs ++ l) ++ m) =
      after (List.replicate (k + 1) bs) (scan bs stop true (escape bs special l ++ m)) := by
  rw [List.replicate_succ, List.cons_append, escape_special h.self, List.cons_append, List.cons_append, token,
    scan_self h, scan_open_replicate h, after_after]
  rfl

/-- **A readable text is read back.** -/
lemma token_readable {l : List α} (hl : Readable bs special l) (m : List α) :
    token bs stop (escape bs special l ++ m) = after l (scan bs stop false m) := by
  cases shape bs special l with
  | bare k => exact absurd hl (not_readable_replicate k)
  | misread k c s hc hne => exact absurd hl (by rw [readable_append hne, hc]; decide)
  | readable k c s hc hne =>
    cases k with
    | zero =>
      rw [List.replicate_zero, List.nil_append, escape_plain hc, List.cons_append, token, scan_escape h, after_after]
      rfl
    | succ k =>
      rw [token_replicate h, escape_plain hc, List.cons_append, scan, scan_escape h, after_after, after_after]
      simp

lemma token_bare (k : ℕ) (m : List α) :
    token bs stop (escape bs special (List.replicate (k + 1) bs) ++ m) =
      after (List.replicate (k + 1) bs) (scan bs stop true m) := by
  simpa using token_replicate h k [] m

/-- A special symbol that is bare, since the `bs` before it was taken for itself. -/
lemma token_misread {c : α} (hc : special c = true) (hne : c ≠ bs) (k : ℕ) (s m : List α) :
    token bs stop (escape bs special (List.replicate k bs ++ c :: s) ++ m) =
      if stop c then some (List.replicate (k + 1) bs, c :: (escape bs special s ++ m))
      else after (bs :: (List.replicate k bs ++ c :: s)) (scan bs stop false m) := by
  have hopen : after (List.replicate (k + 1) bs) (scan bs stop false (c :: (escape bs special s ++ m))) =
      if stop c then some (List.replicate (k + 1) bs, c :: (escape bs special s ++ m))
      else after (bs :: (List.replicate k bs ++ c :: s)) (scan bs stop false m) := by
    rw [scan_bare_special h hne]
    split
    next => simp
    next =>
      rw [after_after]
      rfl
  rw [← hopen]
  cases k with
  | zero =>
    rw [List.replicate_zero, List.nil_append, escape_special hc]
    rfl
  | succ k =>
    rw [token_replicate h, escape_special hc, List.cons_append, scan, after_after, ← List.replicate_succ']
    rfl

end Guarded

end Signatory.Lib.Escape
