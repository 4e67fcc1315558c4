import Mathlib.Tactic

/-!
# Iterators

An iterator is asked for one element after the other.  Asked once, it takes turn after turn until it has an answer; a
turn may also fail, or panic.  `fuel` bounds the turns of one call.

* `Iterator.Lists it s ks` — asked again and again, the iterator returns the elements `ks`, and then for ever that it
  is done;
* `Follows it R` — the simulation: a state stands for the entries that are still to be read, and a turn reads one;
* `Follows.lists_iff` — what is listed by an iterator that follows its entries;
* `Linked` — pages each of which says how to get the next one.
-/

namespace Signatory.Lib.Listing

variable {σ κ ε ρ : Type*}

/-- A turn of a loop: it goes on, or returns. -/
inductive Turn (σ ρ : Type*) where
  | again (s : σ)
  | returns (r : ρ) (s : σ)

inductive Outcome (κ ε : Type*) where
  | found (k : κ)
  | done
  | failed (e : ε)
  | panicked
  deriving DecidableEq

def loop (turn : σ → Turn σ ρ) : ℕ → σ → Option (ρ × σ)
  | 0, _ => none
  | fuel + 1, s =>
    match turn s with
    | .again s' => loop turn fuel s'
    | .returns r s' => some (r, s')

/-- An iterator that has not stopped enters its loop. -/
structure Iterator (σ κ ε : Type*) where
  stopped : σ → Bool
  turn : σ → Turn σ (Outcome κ ε)

namespace Iterator

variable (it : Iterator σ κ ε)

def Next (fuel : ℕ) (s : σ) : Option (Outcome κ ε × σ) :=
  if it.stopped s then some (.done, s) else loop it.turn fuel s

/-- With as many turns as it takes, the answer in `s` is `r`, and `s'` is left. -/
def Answers (s : σ) (r : Outcome κ ε) (s' : σ) : Prop := ∃ fuel, it.Next fuel s = some (r, s')

/-- The answers to one call after the other. -/
def Yields : σ → List (Outcome κ ε) → Prop
  | _, [] => True
  | s, r :: rs => ∃ s', it.Answers s r s' ∧ Yields s' rs

/-- **The iterator lists `ks`**: it returns these, in this order, and then for ever that it is done. -/
def Lists (s : σ) (ks : List κ) : Prop := ∀ n, it.Yields s (ks.map .found ++ List.replicate n .done)

variable {it} {s t : σ}

lemma answers_stopped (h : it.stopped s = true) {r : Outcome κ ε} {s' : σ} :
    it.Answers s r s' ↔ r = .done ∧ s' = s := by
  constructor
  · rintro ⟨fuel, hfuel⟩
    rw [Next, if_pos h] at hfuel
    obtain ⟨rfl, rfl⟩ := Prod.mk.inj (Option.some.inj hfuel)
    exact ⟨rfl, rfl⟩
  · rintro ⟨rfl, rfl⟩
    exact ⟨0, if_pos h⟩

lemma answers_returns (h : it.stopped s = false) {r₀ : Outcome κ ε} (hturn : it.turn s = .returns r₀ t)
    {r : Outcome κ ε} {s' : σ} : it.Answers s r s' ↔ r = r₀ ∧ s' = t := by
  have hnext : ∀ fuel, it.Next (fuel + 1) s = some (r₀, t) := by
    intro fuel
    simp only [Next, h, Bool.false_eq_true, if_false, loop, hturn]
  constructor
  · rintro ⟨fuel, hfuel⟩
    cases fuel with
    | zero =>
      simp only [Next, h, Bool.false_eq_true, if_false, loop] at hfuel
      cases hfuel
    | succ fuel =>
      obtain ⟨rfl, rfl⟩ := Prod.mk.inj (Option.some.inj ((hnext fuel).symm.trans hfuel))
      exact ⟨rfl, rfl⟩
  · rintro ⟨rfl, rfl⟩
    exact ⟨1, hnext 0⟩

lemma answers_again (h : it.stopped s = false) (hturn : it.turn s = .again t) (ht : it.stopped t = false)
    {r : Outcome κ ε} {s' : σ} : it.Answers s r s' ↔ it.Answers t r s' := by
  have hnext : ∀ fuel, it.Next (fuel + 1) s = it.Next fuel t := by
    intro fuel
    simp only [Next, h, ht, Bool.false_eq_true, if_false, loop, hturn]
  constructor
  · rintro ⟨fuel, hfuel⟩
    cases fuel with
    | zero =>
      simp only [Next, h, Bool.false_eq_true, if_false, loop] at hfuel
      cases hfuel
    | succ fuel => exact ⟨fuel, (hnext fuel).symm.trans hfuel⟩
  · rintro ⟨fuel, hfuel⟩
    exact ⟨fuel + 1, (hnext fuel).trans hfuel⟩

/-! ### What is listed, answer by answer -/

lemma lists_congr (h : ∀ r s', it.Answers s r s' ↔ it.Answers t r s') (ks : List κ) :
    it.Lists s ks ↔ it.Lists t ks := by
  refine forall_congr' fun n => ?_
  cases ks.map Outcome.found ++ List.replicate n Outcome.done with
  | nil => exact Iff.rfl
  | cons r rs => exact exists_congr fun s' => and_congr_left fun _ => h r s'

lemma lists_found {k : κ} (h : ∀ r s', it.Answers s r s' ↔ r = .found k ∧ s' = t) (ks : List κ) :
    it.Lists s ks ↔ ∃ ks', ks = k :: ks' ∧ it.Lists t ks' := by
  constructor
  · intro hs
    cases ks with
    | nil =>
      obtain ⟨s', hs', -⟩ := hs 1
      cases ((h _ _).1 hs').1
    | cons k' ks' =>
      have hk : ∀ n, k' = k ∧ it.Yields t (ks'.map .found ++ List.replicate n .done) := by
        intro n
        obtain ⟨s', hs', hrest⟩ := hs n
        obtain ⟨hr, rfl⟩ := (h _ _).1 hs'
        exact ⟨Outcome.found.inj hr, hrest⟩
      exact ⟨ks', by rw [(hk 0).1], fun n => (hk n).2⟩
  · rintro ⟨ks', rfl, ht⟩ n
    exact ⟨t, (h _ _).2 ⟨rfl, rfl⟩, ht n⟩

lemma not_lists (r₀ : Outcome κ ε) (hfound : ∀ k, r₀ ≠ .found k) (hdone : r₀ ≠ .done)
    (h : ∀ r s', it.Answers s r s' → r = r₀) (ks : List κ) : ¬ it.Lists s ks := by
  intro hs
  cases ks with
  | nil =>
    obtain ⟨s', hs', -⟩ := hs 1
    exact hdone (h _ _ hs').symm
  | cons k ks =>
    obtain ⟨s', hs', -⟩ := hs 0
    exact hfound k (h _ _ hs').symm

lemma eq_nil_of_lists (h : ∀ r s', it.Answers s r s' → r = .done) {ks : List κ} (hs : it.Lists s ks) : ks = [] := by
  cases ks with
  | nil => rfl
  | cons k ks =>
    obtain ⟨s', hs', -⟩ := hs 0
    cases h _ _ hs'

end Iterator

/-! ## Entries -/

/-- What an element is to the one who reads it: passed over, returned, or one at which no key can be returned. -/
inductive Entry (κ : Type*) where
  | skipped
  | found (k : κ)
  | broken
  deriving DecidableEq

def Entry.key? : Entry κ → Option κ
  | .found k => some k
  | _ => none

/-- The elements to be returned. -/
def founds (es : List (Entry κ)) : List κ := es.filterMap Entry.key?

@[simp] lemma founds_nil : founds ([] : List (Entry κ)) = [] := rfl
@[simp] lemma founds_skipped (es : List (Entry κ)) : founds (.skipped :: es) = founds es := rfl
@[simp] lemma founds_broken (es : List (Entry κ)) : founds (.broken :: es) = founds es := rfl
@[simp] lemma founds_found (k : κ) (es : List (Entry κ)) : founds (.found k :: es) = k :: founds es := rfl

@[simp] lemma founds_append (es es' : List (Entry κ)) : founds (es ++ es') = founds es ++ founds es' :=
  List.filterMap_append

/-- A turn reads the first of the entries, and leaves a state for the others. -/
inductive Reads (it : Iterator σ κ ε) (R : σ → List (Entry κ) → Prop) :
    List (Entry κ) → Turn σ (Outcome κ ε) → Prop
  | skipped {s : σ} {es : List (Entry κ)} (hs : it.stopped s = false) (hR : R s es) :
    Reads it R (.skipped :: es) (.again s)
  | found {s : σ} {es : List (Entry κ)} (k : κ) (hR : R s es) : Reads it R (.found k :: es) (.returns (.found k) s)
  | failed (s : σ) (es : List (Entry κ)) (e : ε) : Reads it R (.broken :: es) (.returns (.failed e) s)
  | panicked (s : σ) (es : List (Entry κ)) : Reads it R (.broken :: es) (.returns .panicked s)
  | done {s : σ} (hR : R s []) : Reads it R [] (.returns .done s)

/-- The iterator follows the entries that `R` gives to a state: it has stopped and there are none, or it reads one. -/
def Follows (it : Iterator σ κ ε) (R : σ → List (Entry κ) → Prop) : Prop :=
  ∀ s es, R s es → it.stopped s = true ∧ es = [] ∨ it.stopped s = false ∧ Reads it R es (it.turn s)

namespace Follows

variable {it : Iterator σ κ ε} {R : σ → List (Entry κ) → Prop} {s : σ}

lemma lists_nil (h : Follows it R) (hs : R s []) (ks : List κ) : it.Lists s ks ↔ ks = [] := by
  have hdone : ∀ t, R t [] → ∃ t', (∀ r s', it.Answers t r s' ↔ r = .done ∧ s' = t') ∧ R t' [] := by
    intro t ht
    rcases h t [] ht with ⟨hstop, -⟩ | ⟨hgo, hread⟩
    · exact ⟨t, fun r s' => Iterator.answers_stopped hstop, ht⟩
    · generalize hturn : it.turn t = turn at hread
      cases hread with
      | done hR => exact ⟨_, fun r s' => Iterator.answers_returns hgo hturn, hR⟩
  constructor
  · obtain ⟨t, ht, -⟩ := hdone s hs
    exact Iterator.eq_nil_of_lists fun r s' hr => ((ht r s').1 hr).1
  · rintro rfl n
    rw [List.map_nil, List.nil_append]
    induction n generalizing s with
    | zero => trivial
    | succ n ih =>
      obtain ⟨t, ht, hR⟩ := hdone s hs
      exact ⟨t, (ht _ _).2 ⟨rfl, rfl⟩, ih hR⟩

/-- **What an iterator lists**: the entries to be returned, provided that it can get past all of them. -/
theorem lists_iff (h : Follows it R) {es : List (Entry κ)} (hs : R s es) (ks : List κ) :
    it.Lists s ks ↔ .broken ∉ es ∧ founds es = ks := by
  -- the induction is on the entries; each case of a turn is one on the first of them
  induction es generalizing s ks with
  | nil =>
    rw [h.lists_nil hs]
    simp [eq_comm]
  | cons e es ih =>
    rcases h s (e :: es) hs with ⟨-, hnil⟩ | ⟨hgo, hread⟩
    · cases hnil
    · generalize hturn : it.turn s = turn at hread
      cases hread with
      | skipped ht hR =>
        rw [Iterator.lists_congr (fun r s' => Iterator.answers_again hgo hturn ht) ks, ih hR]
        simp
      | found k hR =>
        rw [Iterator.lists_found (fun r s' => Iterator.answers_returns hgo hturn) ks]
        constructor
        · rintro ⟨ks', rfl, ht⟩
          obtain ⟨hclean, hfounds⟩ := (ih hR ks').1 ht
          exact ⟨by simpa using hclean, by rw [founds_found, hfounds]⟩
        · rintro ⟨hclean, rfl⟩
          exact ⟨founds es, founds_found k es, (ih hR _).2 ⟨fun hmem => hclean (List.mem_cons_of_mem _ hmem), rfl⟩⟩
      | failed s' _ e =>
        refine iff_of_false (Iterator.not_lists (.failed e) (fun k hk => by cases hk) (fun hd => by cases hd)
          (fun r t hr => ((Iterator.answers_returns hgo hturn).1 hr).1) ks) ?_
        exact fun hclean => hclean.1 List.mem_cons_self
      | panicked s' _ =>
        refine iff_of_false (Iterator.not_lists .panicked (fun k hk => by cases hk) (fun hd => by cases hd)
          (fun r t hr => ((Iterator.answers_returns hgo hturn).1 hr).1) ks) ?_
        exact fun hclean => hclean.1 List.mem_cons_self

end Follows

/-! ## Pages -/

/-- The pages that are fetched from a link on, each from the link in the one before, up to one that has none. -/
def Linked {ι π : Type*} (fetch : ι → Option π) (next : π → Option ι) : Option ι → List π → Prop
  | none, [] => True
  | none, _ :: _ => False
  | some _, [] => False
  | some l, p :: ps => fetch l = some p ∧ Linked fetch next (next p) ps

lemma Linked.cases {ι π : Type*} {fetch : ι → Option π} {next : π → Option ι} {link : Option ι} {pages : List π}
    (h : Linked fetch next link pages) :
    (link = none ∧ pages = []) ∨
      ∃ l p ps, link = some l ∧ pages = p :: ps ∧ fetch l = some p ∧ Linked fetch next (next p) ps := by
  cases link with
  | none =>
    cases pages with
    | nil => exact Or.inl ⟨rfl, rfl⟩
    | cons p ps => exact h.elim
  | some l =>
    cases pages with
    | nil => exact h.elim
    | cons p ps => exact Or.inr ⟨l, p, ps, rfl, rfl, h.1, h.2⟩

end Signatory.Lib.Listing
