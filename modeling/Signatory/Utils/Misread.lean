import Signatory.Utils.Quoting

/-!
# `pkg/utils`: options that are misread

The first rune of a string is taken for itself, so where there are no quotes a string that begins with an escape is read
as another one.  `ParseMap_quoting` says which maps survive being written both ways in every order.

For a string that is misread there is an order of the entries in which no other entry makes up for it.
-/

namespace Signatory.Utils

open Lib.Escape
open Signer (Bytes)
open Vault (isSpace)

/-- A string that is read back without quotes. -/
def Text.Survives (t : Text) : Prop := Readable '\\' special t.runes

instance : DecidablePred Text.Survives := fun t => inferInstanceAs (Decidable (Readable '\\' special t.runes))

/-- A string that is nothing but backslashes. -/
def Bare (cs : List Char) : Prop := ∃ k, cs = List.replicate k '\\'

lemma not_bare_of_survives {t : Text} (h : t.Survives) : ¬ Bare t.runes := by
  rintro ⟨k, hk⟩
  unfold Text.Survives at h
  rw [hk] at h
  exact not_readable_replicate k h

/-- The three kinds of strings. -/
inductive Kind (t : Text) : Prop
  | survives (h : t.Survives)
  | bare (k : ℕ) (h : t.runes = List.replicate (k + 1) '\\')
  | misread (k : ℕ) (c : Char) (s : List Char) (h : t.runes = List.replicate k '\\' ++ c :: s)
      (hc : special c = true) (hne : c ≠ '\\')

lemma kind (t : Text) : Kind t := by
  generalize hcs : t.runes = cs
  have hshape := shape '\\' special cs
  cases hshape with
  | bare k =>
    cases k with
    | zero => exact absurd hcs t.ne
    | succ k => exact Kind.bare k hcs
  | readable k c s hc hne =>
    refine Kind.survives ?_
    rw [Text.Survives, hcs, readable_append hne]
    exact hc
  | misread k c s hc hne => exact Kind.misread k c s hcs hc hne

/-! ## What is read first -/

lemma reads_name {cs name rest : List Char} {log : List (List Char × List Char)} (h : Reads ':' ',' cs log)
    (hne : cs ≠ []) (hname : runeString ':' cs = some (name, rest)) : ∃ f ∈ log, f.1 = name := by
  obtain ⟨name', val, next, log', htuple, rfl, -⟩ := h.first hne
  obtain ⟨rest₁, -, -, h₁, -⟩ := runeTuple_eq_some_iff.1 htuple
  rw [hname] at h₁
  cases h₁
  exact ⟨_, List.mem_cons_self, rfl⟩

/-! ## Strings that go on over a separator -/

section Strings

variable {sep : Char} (hsep : sep = ':' ∨ sep = ',')

include hsep

lemma scan_unquoted (cs m : List Char) :
    scan '\\' (stops sep) false (unquoted cs ++ m) = after cs (scan '\\' (stops sep) false m) :=
  scan_escape (guards hsep) cs m

lemma runeString_readable {cs : List Char} (hcs : cs ≠ []) (h : Readable '\\' special cs) (m : List Char) :
    runeString sep (unquoted cs ++ m) = after cs (scan '\\' (stops sep) false m) := by
  rw [runeString_unquoted hcs]
  exact token_readable (guards hsep) h m

lemma runeString_bare (k : ℕ) (m : List Char) :
    runeString sep (unquoted (List.replicate (k + 1) '\\') ++ m) =
      after (List.replicate (k + 1) '\\') (scan '\\' (stops sep) true m) := by
  rw [runeString_unquoted (by simp)]
  exact token_bare (guards hsep) k m

lemma runeString_misread {c : Char} (hc : special c = true) (hne : c ≠ '\\') (k : ℕ) (s m : List Char) :
    runeString sep (unquoted (List.replicate k '\\' ++ c :: s) ++ m) =
      if stops sep c then some (List.replicate (k + 1) '\\', c :: (unquoted s ++ m))
      else after ('\\' :: (List.replicate k '\\' ++ c :: s)) (scan '\\' (stops sep) false m) := by
  rw [runeString_unquoted (by simp)]
  exact token_misread (guards hsep) hc hne k s m

lemma scan_over {c : Char} (hc : stops sep c = false) (hbs : c ≠ '\\') (pending : Bool) (cs m : List Char) :
    scan '\\' (stops sep) pending (c :: (unquoted cs ++ m)) = after (c :: cs) (scan '\\' (stops sep) false m) := by
  cases pending with
  | true =>
    rw [scan, scan_unquoted hsep, after_after]
    rfl
  | false =>
    rw [scan, hc, if_neg (by decide), if_neg hbs, scan_unquoted hsep, after_after]
    rfl

end Strings

lemma mapText_unquoted (e : Entry) (es : List Entry) :
    mapText unquoted (e :: es) =
      unquoted e.1.runes ++ ':' :: (unquoted e.2.runes ++ tailText unquoted es) := by
  rw [mapText_cons, tupleText, List.append_assoc, List.cons_append]

lemma tailText_unquoted (e : Entry) (es : List Entry) :
    tailText unquoted (e :: es) =
      ',' :: (unquoted e.1.runes ++ ':' :: (unquoted e.2.runes ++ tailText unquoted es)) := by
  rw [tailText_cons, mapText_unquoted]

lemma scan_colon (m : List Char) : scan '\\' (stops ':') false (':' :: m) = some ([], ':' :: m) :=
  scan_ends (by simp)

/-- A name that goes on over a comma ends with the name of the next entry. -/
lemma scan_tailText_name (pending : Bool) (e : Entry) (es : List Entry) :
    scan '\\' (stops ':') pending (tailText unquoted (e :: es)) =
      some (',' :: e.1.runes, ':' :: (unquoted e.2.runes ++ tailText unquoted es)) := by
  rw [tailText_unquoted, scan_over (Or.inl rfl) (by decide) (by decide), scan_colon]
  simp

lemma scan_tailText_value (es : List Entry) :
    scan '\\' (stops ',') false (tailText unquoted es) = some ([], tailText unquoted es) := by
  refine scan_ends ?_
  cases es <;> simp [tailText]

/-- A value that goes on over a comma takes in the next entry. -/
lemma scan_tailText_open (e : Entry) (es : List Entry) :
    scan '\\' (stops ',') true (tailText unquoted (e :: es)) =
      some (',' :: (e.1.runes ++ ':' :: e.2.runes), tailText unquoted es) := by
  rw [tailText_unquoted, scan, scan_unquoted (Or.inr rfl), scan_over (Or.inr rfl) (by decide) (by decide),
    scan_tailText_value]
  simp

/-! ## Names that are misread -/

lemma not_reads_bare_alone {e : Entry} {k : ℕ} (h : e.1.runes = List.replicate (k + 1) '\\')
    {log : List (List Char × List Char)} : ¬ Reads ':' ',' (mapText unquoted [e]) log := by
  have hname : runeString ':' (mapText unquoted [e]) = some (e.1.runes ++ ':' :: e.2.runes, []) := by
    rw [mapText_unquoted, h, runeString_bare (Or.inl rfl), scan, scan_unquoted (Or.inl rfl)]
    simp [scan, tailText]
  refine not_reads (mapText_ne_nil writing_unquoted e []) ?_
  rw [runeTuple, hname]
  rfl

/-- The name that is read first goes on to the end of the second one. -/
lemma runeString_bare_name {e f : Entry} {k : ℕ} (h : e.1.runes = List.replicate (k + 1) '\\') (es : List Entry) :
    runeString ':' (mapText unquoted (e :: f :: es)) =
      some (e.1.runes ++ ':' :: (e.2.runes ++ ',' :: f.1.runes),
        ':' :: (unquoted f.2.runes ++ tailText unquoted es)) := by
  rw [mapText_unquoted, h, runeString_bare (Or.inl rfl), scan, scan_unquoted (Or.inl rfl), scan_tailText_name]
  simp

/-- A name that is misread has one backslash more, or nothing else. -/
lemma runeString_misread_name {e : Entry} (h : ¬ e.1.Survives) (hbare : ¬ Bare e.1.runes) (es : List Entry) :
    ∃ cs rest, runeString ':' (mapText unquoted (e :: es)) = some (cs, rest) ∧
      (Bare cs ∨ e.1.runes.length < cs.length ∧ ¬ Readable '\\' special cs) := by
  cases kind e.1 with
  | survives hs => exact absurd hs h
  | bare k hk => exact absurd ⟨k + 1, hk⟩ hbare
  | misread k c s hk hc hne =>
    rw [mapText_unquoted, hk, runeString_misread (Or.inl rfl) hc hne, scan_colon]
    split
    next => exact ⟨_, _, rfl, Or.inl ⟨k + 1, rfl⟩⟩
    next =>
      refine ⟨_, _, rfl, Or.inr ⟨by simp, ?_⟩⟩
      rw [List.append_nil, ← List.cons_append, ← List.replicate_succ, readable_append hne, hc]
      decide

/-! ## Values that are misread -/

lemma ne_of_misread {t : Text} (ht : ¬ t.Survives) {w rest : List Char} {es : List Entry}
    (h : runeString ',' (unquoted t.runes ++ tailText unquoted es) = some (w, rest)) : w ≠ t.runes := by
  intro hw
  cases kind t with
  | survives hs => exact ht hs
  | bare k hk =>
    rw [hk, runeString_bare (Or.inr rfl)] at h
    obtain ⟨m, hm, hout⟩ := after_eq_some h
    obtain rfl : m = [] := by rwa [hw, hk, List.self_eq_append_right] at hout
    cases es with
    | nil => cases hm
    | cons e es =>
      rw [scan_tailText_open] at hm
      cases hm
  | misread k c s hk hc hne =>
    rw [hk, runeString_misread (Or.inr rfl) hc hne] at h
    split at h
    next =>
      have hout : List.replicate (k + 1) '\\' = List.replicate k '\\' ++ c :: s := by
        rw [← hk, ← hw]
        exact congrArg Prod.fst (Option.some.inj h)
      have hmem : c ∈ List.replicate (k + 1) '\\' := by
        rw [hout]
        simp
      exact hne (List.eq_of_mem_replicate hmem)
    next =>
      obtain ⟨m, -, hout⟩ := after_eq_some h
      have hlength := congrArg List.length hout
      rw [hw, hk] at hlength
      simp at hlength
      omega

/-- Where a turn of the loop may start, with the entries `es` to come: at the next one, or within a value. -/
inductive Start (es : List Entry) : List Char → Prop
  | entry (h : es ≠ []) : Start es (mapText unquoted es)
  | within (cs : List Char) : Start es (unquoted cs ++ tailText unquoted es)

lemma skip_within (cs : List Char) (es : List Entry) :
    skip (unquoted cs ++ tailText unquoted es) = unquoted cs ++ tailText unquoted es := by
  by_cases hcs : cs = []
  · subst hcs
    exact skip_tailText unquoted es
  · obtain ⟨b, m, hb, hplain⟩ := head_escape '\\' special hcs
    have hspace : isSpace b = false := by
      rcases hplain with rfl | hplain
      · decide
      · exact isSpace_of_not_special hplain
    rw [unquoted, hb]
    exact skip_cons hspace _

lemma name_over {es : List Entry} {l name rest rest' : List Char} {pending : Bool}
    (hname : after l (scan '\\' (stops ':') pending (tailText unquoted es)) = some (name, rest))
    (hsep : runeSep ':' (skip rest) = some rest') :
    ∃ e es', es = e :: es' ∧ e.1.runes <:+ name ∧ rest' = unquoted e.2.runes ++ tailText unquoted es' := by
  cases es with
  | nil =>
    cases pending with
    | true => cases hname
    | false =>
      cases hname
      cases hsep
  | cons e es =>
    rw [scan_tailText_name] at hname
    obtain ⟨rfl, rfl⟩ := Prod.mk.inj (Option.some.inj hname)
    rw [skip_cons (by decide), runeSep, if_pos rfl, skip_write writing_unquoted] at hsep
    refine ⟨e, es, rfl, ?_, (Option.some.inj hsep).symm⟩
    exact (List.suffix_cons ',' e.1.runes).trans (List.suffix_append _ _)

/-- A name that begins within a value goes on over the comma after it. -/
lemma name_within {es : List Entry} {cs name rest : List Char}
    (hname : runeString ':' (unquoted cs ++ tailText unquoted es) = some (name, rest)) (hbare : ¬ Bare name) :
    ∃ l pending, after l (scan '\\' (stops ':') pending (tailText unquoted es)) = some (name, rest) := by
  cases shape '\\' special cs with
  | bare k =>
    cases k with
    | zero =>
      -- the comma is the first rune of the name
      cases es with
      | nil => cases hname
      | cons e es =>
        refine ⟨[], true, ?_⟩
        rw [after_nil]
        exact hname
    | succ k =>
      rw [runeString_bare (Or.inl rfl)] at hname
      exact ⟨_, true, hname⟩
  | readable k c s hc hne =>
    rw [runeString_readable (Or.inl rfl) (by simp) ((readable_append hne).2 hc)] at hname
    exact ⟨_, false, hname⟩
  | misread k c s hc hne =>
    rw [runeString_misread (Or.inl rfl) hc hne] at hname
    split at hname
    next =>
      cases hname
      exact absurd ⟨k + 1, rfl⟩ hbare
    next => exact ⟨_, false, hname⟩

/-- **A name that is read** ends with the name of an entry, and its value is read next. -/
lemma name_of_start {es : List Entry} {cs name rest rest' : List Char} (hstart : Start es cs)
    (hes : ∀ e ∈ es, e.1.Survives) (hname : runeString ':' cs = some (name, rest))
    (hsep : runeSep ':' (skip rest) = some rest') (hbare : ¬ Bare name) :
    ∃ e es', e :: es' <:+ es ∧ e.1.runes <:+ name ∧ rest' = unquoted e.2.runes ++ tailText unquoted es' := by
  cases hstart with
  | entry hne =>
    obtain ⟨e, es, rfl⟩ := List.exists_cons_of_ne_nil hne
    have he := hes e List.mem_cons_self
    rw [mapText_unquoted, runeString_readable (Or.inl rfl) e.1.ne he, scan_colon] at hname
    cases hname
    rw [skip_cons (by decide), runeSep, if_pos rfl, skip_write writing_unquoted] at hsep
    refine ⟨e, es, List.suffix_rfl, ?_, (Option.some.inj hsep).symm⟩
    rw [List.append_nil]
  | within cs =>
    obtain ⟨l, pending, hname⟩ := name_within hname hbare
    obtain ⟨e, es', rfl, hsuffix, hrest⟩ := name_over hname hsep
    exact ⟨e, es', List.suffix_rfl, hsuffix, hrest⟩

lemma start_of_tailText {es : List Entry} {p : List Char} (h : runeEnd ',' (tailText unquoted es) = some (some p)) :
    Start es (skip p) := by
  rw [runeEnd_tailText writing_unquoted] at h
  split at h
  next => cases h
  next hne =>
    obtain rfl := Option.some.inj (Option.some.inj h)
    rw [skip_mapText writing_unquoted]
    exact Start.entry hne

lemma runeEnd_within {s : List Char} (hs : s ≠ []) (m : List Char) : runeEnd ',' (unquoted s ++ m) = none := by
  obtain ⟨b, n, hb, hplain⟩ := head_escape '\\' special hs
  obtain ⟨hspace, hcomma⟩ : isSpace b = false ∧ b ≠ ',' := by
    rcases hplain with rfl | hplain
    · decide
    · refine ⟨isSpace_of_not_special hplain, ?_⟩
      rintro rfl
      exact absurd hplain (by decide)
  rw [unquoted, hb, List.cons_append, runeEnd, skip_cons hspace, if_neg (List.cons_ne_nil _ _), runeSep, if_neg hcomma]
  rfl

/-- The next turn starts within a value that was ended by its own comma. -/
lemma start_of_stop {c : Char} {s p : List Char} {es : List Entry} (hc : stops ',' c = true)
    (h : runeEnd ',' (c :: (unquoted s ++ tailText unquoted es)) = some (some p)) : Start es (skip p) := by
  rw [stops, Bool.or_eq_true, decide_eq_true_eq] at hc
  rcases hc with rfl | hspace
  · by_cases hend : unquoted s ++ tailText unquoted es = []
    · rw [hend, show runeEnd ',' [','] = none from rfl] at h
      cases h
    · rw [runeEnd_comma (skip_within s es) hend] at h
      obtain rfl := Option.some.inj (Option.some.inj h)
      rw [skip_within]
      exact Start.within s
  · have hskip : runeEnd ',' (c :: (unquoted s ++ tailText unquoted es)) =
        runeEnd ',' (unquoted s ++ tailText unquoted es) := by
      rw [runeEnd, runeEnd, skip, List.dropWhile_cons, if_pos hspace]
      rfl
    rw [hskip] at h
    by_cases hs : s = []
    · subst hs
      exact start_of_tailText h
    · rw [runeEnd_within hs] at h
      cases h

/-- **After a value** there are entries to come, or an error. -/
lemma start_of_value {es : List Entry} {v w rest p : List Char} (hv : v ≠ [])
    (hval : runeString ',' (unquoted v ++ tailText unquoted es) = some (w, rest))
    (hend : runeEnd ',' rest = some (some p)) : ∃ es', es' <:+ es ∧ Start es' (skip p) := by
  have hes (l : List Char) (h : after l (scan '\\' (stops ',') false (tailText unquoted es)) = some (w, rest)) :
      ∃ es', es' <:+ es ∧ Start es' (skip p) := by
    rw [scan_tailText_value] at h
    cases h
    exact ⟨es, List.suffix_rfl, start_of_tailText hend⟩
  cases shape '\\' special v with
  | bare k =>
    cases k with
    | zero => exact absurd rfl hv
    | succ k =>
      rw [runeString_bare (Or.inr rfl)] at hval
      cases es with
      | nil => cases hval
      | cons e es =>
        rw [scan_tailText_open] at hval
        cases hval
        exact ⟨es, List.suffix_cons e es, start_of_tailText hend⟩
  | readable k c s hc hne =>
    rw [runeString_readable (Or.inr rfl) hv ((readable_append hne).2 hc)] at hval
    exact hes _ hval
  | misread k c s hc hne =>
    rw [runeString_misread (Or.inr rfl) hc hne] at hval
    split at hval
    next hstop =>
      cases hval
      exact ⟨es, List.suffix_rfl, start_of_stop hstop hend⟩
    next => exact hes _ hval

/-- **Every name that is read** ends with the name of an entry to come, as long as no name is backslashes. -/
lemma names_of_reads {cs : List Char} {log : List (List Char × List Char)} (hreads : Reads ':' ',' cs log)
    {es : List Entry} (hstart : Start es cs) (hes : ∀ e ∈ es, e.1.Survives) (hbare : ∀ f ∈ log, ¬ Bare f.1) :
    ∀ f ∈ log, ∃ e ∈ es, e.1.runes <:+ f.1 := by
  induction hreads generalizing es with
  | nil => nofun
  | last h =>
    obtain ⟨rest₁, rest₂, rest₃, h₁, h₂, h₃, h₄⟩ := runeTuple_eq_some_iff.1 h
    obtain ⟨e, es', hsuffix, hname, -⟩ := name_of_start hstart hes h₁ h₂ (hbare _ List.mem_cons_self)
    intro f hf
    obtain rfl := List.mem_singleton.1 hf
    exact ⟨e, hsuffix.subset List.mem_cons_self, hname⟩
  | more h rest ih =>
    obtain ⟨rest₁, rest₂, rest₃, h₁, h₂, h₃, h₄⟩ := runeTuple_eq_some_iff.1 h
    obtain ⟨hfirst, hlog⟩ := List.forall_mem_cons.1 hbare
    obtain ⟨e, es', hsuffix, hname, rfl⟩ := name_of_start hstart hes h₁ h₂ hfirst
    obtain ⟨es'', hsuffix', hstart'⟩ := start_of_value e.2.ne h₃ h₄
    have hle : es'' <:+ es := (hsuffix'.trans (List.suffix_cons e es')).trans hsuffix
    refine List.forall_mem_cons.2 ⟨⟨e, hsuffix.subset List.mem_cons_self, hname⟩, fun f hf => ?_⟩
    obtain ⟨e', he', hf'⟩ := ih hstart' (fun e he => hes e (hle.subset he)) hlog f hf
    exact ⟨e', hle.subset he', hf'⟩

/-! ## Orders in which a string is missed -/

/-- What is read without quotes makes the map of the entries. -/
def Recovers (order : List Entry) : Prop := ∃ log, Reads ':' ',' (mapText unquoted order) log ∧ Makes order log

lemma exists_greatest {β : Type} [LinearOrder β] (size : Entry → β) {es : List Entry} {P : Entry → Prop}
    [DecidablePred P] (h : ∃ e ∈ es, P e) : ∃ e ∈ es, P e ∧ ∀ f ∈ es, P f → size f ≤ size e := by
  obtain ⟨e, he, hP⟩ := h
  have hne : (es.toFinset.filter P).Nonempty := ⟨e, Finset.mem_filter.2 ⟨List.mem_toFinset.2 he, hP⟩⟩
  obtain ⟨f, hf, hmax⟩ := Finset.exists_max_image _ size hne
  obtain ⟨hf, hPf⟩ := Finset.mem_filter.1 hf
  refine ⟨f, List.mem_toFinset.1 hf, hPf, fun g hg hPg => ?_⟩
  exact hmax g (Finset.mem_filter.2 ⟨List.mem_toFinset.2 hg, hPg⟩)

lemma exists_longest {es : List Entry} {P : Entry → Prop} [DecidablePred P] (h : ∃ e ∈ es, P e) :
    ∃ e ∈ es, P e ∧ ∀ f ∈ es, P f → f.1.runes.length ≤ e.1.runes.length :=
  exists_greatest (fun e => e.1.runes.length) h

lemma exists_shortest {es : List Entry} {P : Entry → Prop} [DecidablePred P] (h : ∃ e ∈ es, P e) :
    ∃ e ∈ es, P e ∧ ∀ f ∈ es, P f → e.1.runes.length ≤ f.1.runes.length :=
  exists_greatest (fun e => OrderDual.toDual e.1.runes.length) h

lemma not_recovers_of_name {e : Entry} {es : List Entry} {name rest : List Char}
    (hname : runeString ':' (mapText unquoted (e :: es)) = some (name, rest))
    (hnew : ∀ f ∈ e :: es, f.1.runes ≠ name) : ¬ Recovers (e :: es) := by
  rintro ⟨log, hreads, hmakes⟩
  obtain ⟨f, hf, rfl⟩ := reads_name hreads (mapText_ne_nil writing_unquoted e es) hname
  obtain ⟨g, hg, heq⟩ := hmakes.mem hf
  exact hnew g hg heq

/-- A name that is backslashes is missed before the longest of the others. -/
lemma not_recovers_of_bare {order : List Entry} {e : Entry} (he : e ∈ order) (hbare : Bare e.1.runes) :
    ∃ order', order'.Perm order ∧ ¬ Recovers order' := by
  obtain ⟨k, hk⟩ := hbare
  have hperm := (List.perm_cons_erase he).symm
  cases k with
  | zero => exact absurd hk e.1.ne
  | succ k =>
    by_cases halone : order.erase e = []
    · rw [halone] at hperm
      refine ⟨[e], hperm, ?_⟩
      rintro ⟨log, hreads, -⟩
      exact not_reads_bare_alone hk hreads
    · obtain ⟨f, hf, -, hmax⟩ := exists_longest (P := fun _ => True) (by simpa using List.exists_mem_of_ne_nil _ halone)
      have hperm' : (e :: f :: (order.erase e).erase f).Perm order :=
        ((List.perm_cons_erase hf).symm.cons e).trans hperm
      refine ⟨_, hperm', not_recovers_of_name (runeString_bare_name hk _) fun g hg heq => ?_⟩
      have hlength := congrArg List.length heq
      simp only [List.length_append, List.length_cons] at hlength
      rcases List.mem_cons.1 (hperm.symm.subset (hperm'.subset hg)) with rfl | hg
      · omega
      · have hle := hmax g hg trivial
        omega

/-- The longest name that is misread is missed, if no name is backslashes. -/
lemma not_recovers_of_misread {order : List Entry} (hbare : ∀ e ∈ order, ¬ Bare e.1.runes)
    (h : ∃ e ∈ order, ¬ e.1.Survives) : ∃ order', order'.Perm order ∧ ¬ Recovers order' := by
  obtain ⟨e, he, hmis, hmax⟩ := exists_longest h
  have hperm := (List.perm_cons_erase he).symm
  obtain ⟨name, rest, hname, hcase⟩ := runeString_misread_name hmis (hbare e he) (order.erase e)
  refine ⟨_, hperm, not_recovers_of_name hname fun f hf heq => ?_⟩
  subst heq
  have hf := hperm.subset hf
  rcases hcase with hcase | ⟨hlonger, hcase⟩
  · exact hbare f hf hcase
  · have hle := hmax f hf hcase
    omega

lemma reads_first {e : Entry} {es : List Entry} {log : List (List Char × List Char)} (he : e.1.Survives)
    (h : Reads ':' ',' (mapText unquoted (e :: es)) log) :
    ∃ w rest log', log = (e.1.runes, w) :: log' ∧
      runeString ',' (unquoted e.2.runes ++ tailText unquoted es) = some (w, rest) ∧
      (log' = [] ∨ ∃ es' cs, es' <:+ es ∧ Start es' cs ∧ Reads ':' ',' cs log') := by
  have hname : runeString ':' (mapText unquoted (e :: es)) =
      some (e.1.runes, ':' :: (unquoted e.2.runes ++ tailText unquoted es)) := by
    rw [mapText_unquoted, runeString_readable (Or.inl rfl) e.1.ne he, scan_colon]
    simp
  have hsep : runeSep ':' (skip (':' :: (unquoted e.2.runes ++ tailText unquoted es))) =
      some (unquoted e.2.runes ++ tailText unquoted es) := by
    rw [skip_cons (by decide), runeSep, if_pos rfl, skip_write writing_unquoted]
  obtain ⟨name, w, next, log', htuple, rfl, hmore⟩ := h.first (mapText_ne_nil writing_unquoted e es)
  obtain ⟨rest₁, rest₂, rest₃, h₁, h₂, h₃, h₄⟩ := runeTuple_eq_some_iff.1 htuple
  rw [hname] at h₁
  cases h₁
  rw [hsep] at h₂
  cases h₂
  refine ⟨w, rest₃, log', rfl, h₃, ?_⟩
  rcases hmore with rfl | ⟨p, rfl, hreads⟩
  · exact Or.inl rfl
  · obtain ⟨es', hsuffix, hstart⟩ := start_of_value e.2.ne h₃ h₄
    exact Or.inr ⟨es', _, hsuffix, hstart, hreads⟩

/-- The value with the shortest name among those that are misread is missed, after those that are read back. -/
lemma not_recovers_of_value {order : List Entry} (hnd : order.NodupKeys) (hnames : ∀ e ∈ order, e.1.Survives)
    (h : ∃ e ∈ order, ¬ e.2.Survives) : ∃ order', order'.Perm order ∧ ¬ Recovers order' := by
  obtain ⟨e, he, hmis, hmin⟩ := exists_shortest h
  let goods := order.filter fun f => decide f.2.Survives
  let bads := order.filter fun f => !decide f.2.Survives
  have hebad : e ∈ bads := List.mem_filter.2 ⟨he, by simpa using hmis⟩
  have hperm : (goods ++ e :: bads.erase e).Perm order :=
    ((List.perm_cons_erase hebad).symm.append_left goods).trans (List.filter_append_perm _ order)
  have hback : ∀ f ∈ goods, ReadBack unquoted f.1 ∧ ReadBack unquoted f.2 := by
    intro f hf
    obtain ⟨hf, hval⟩ := List.mem_filter.1 hf
    exact ⟨readBack_unquoted (hnames f hf), readBack_unquoted (of_decide_eq_true hval)⟩
  refine ⟨_, hperm, ?_⟩
  rintro ⟨log, hreads, hmakes⟩
  obtain ⟨log', hreads', rfl⟩ := (reads_mapText_append writing_unquoted hback (e :: bads.erase e)).1 hreads
  obtain ⟨w, rest, log'', rfl, hval, hmore⟩ := reads_first (hnames e he) hreads'
  have hbare : ∀ f ∈ log'', ¬ Bare f.1 := by
    intro f hf
    obtain ⟨g, hg, heq⟩ := hmakes.mem (List.mem_append_right _ (List.mem_cons_of_mem _ hf))
    rw [← heq]
    exact not_bare_of_survives (hnames g (hperm.subset hg))
  -- a later name is not shorter, so it is not the one of this entry
  have hlater : ∀ f ∈ log'', f.1 ≠ e.1.runes := by
    intro f hf heq
    rcases hmore with rfl | ⟨es', cs, hsuffix, hstart, hreads''⟩
    · cases hf
    · have hes' : ∀ g ∈ es', g ∈ bads.erase e := fun g hg => hsuffix.subset hg
      have horder : ∀ g ∈ es', g ∈ order := fun g hg => (List.mem_filter.1 (List.mem_of_mem_erase (hes' g hg))).1
      obtain ⟨g, hg, hend⟩ := names_of_reads hreads'' hstart (fun g hg => hnames g (horder g hg)) hbare f hf
      have hgmis : ¬ g.2.Survives := by simpa using (List.mem_filter.1 (List.mem_of_mem_erase (hes' g hg))).2
      rw [heq] at hend
      have hname : g.1 = e.1 := Text.ext (hend.eq_of_length_le (hmin g (horder g hg) hgmis))
      obtain rfl : g = e := hnd.eq_of_fst_eq (horder g hg) he hname
      exact (hnd.nodup.filter _).not_mem_erase (hes' g hg)
  obtain ⟨g, hg, heq⟩ := hmakes.last hlater
  obtain ⟨hname, hw⟩ := Prod.mk.inj heq
  obtain rfl : g = e := hnd.eq_of_fst_eq (hperm.subset hg) he (Text.ext hname)
  exact ne_of_misread hmis hval hw.symm

/-- **Which maps survive quoting and escaping.**  Every map does in quotes, and without quotes just those whose names
and values begin with a rune that is not special, after any number of backslashes. -/
theorem ParseMap_quoting (m : GoMap Text Text) :
    (∀ order : List Entry, order.Perm m.entries →
        Returns m (ParseMap (encode (mapText quoted order)) (':'.toNat) (','.toNat))) ∧
      ((∀ order : List Entry, order.Perm m.entries →
          Returns m (ParseMap (encode (mapText unquoted order)) (':'.toNat) (','.toNat))) ↔
        ∀ e ∈ m.entries, e.1.Survives ∧ e.2.Survives) := by
  refine ⟨fun order h => ?_, fun hall => ?_, fun hall order h => ?_⟩
  · exact returns_of_readBack writing_quoted h fun e _ => ⟨readBack_quoted e.1, readBack_quoted e.2⟩
  · have hrecovers (order : List Entry) (h : order.Perm m.entries) : Recovers order :=
      (returns_iff writing_unquoted h).1 (hall order h)
    have hbare : ∀ e ∈ m.entries, ¬ Bare e.1.runes := by
      intro e he hbare
      obtain ⟨order, hperm, hnot⟩ := not_recovers_of_bare he hbare
      exact hnot (hrecovers order hperm)
    have hnames : ∀ e ∈ m.entries, e.1.Survives := by
      intro e he
      by_contra hmis
      obtain ⟨order, hperm, hnot⟩ := not_recovers_of_misread hbare ⟨e, he, hmis⟩
      exact hnot (hrecovers order hperm)
    intro e he
    refine ⟨hnames e he, ?_⟩
    by_contra hmis
    obtain ⟨order, hperm, hnot⟩ := not_recovers_of_value m.nodupKeys hnames ⟨e, he, hmis⟩
    exact hnot (hrecovers order hperm)
  · refine returns_of_readBack writing_unquoted h fun e he => ?_
    obtain ⟨hname, hval⟩ := hall e (h.subset he)
    exact ⟨readBack_unquoted hname, readBack_unquoted hval⟩

/-- The name `a` with a value that begins with a space. -/
def spaced : GoMap Text Text :=
  AList.singleton { runes := ['a'], ne := by decide, clean := by decide }
    { runes := [' ', 'b'], ne := by decide, clean := by decide }

/-- The value ends before its own space. -/
theorem ParseMap_leading_space :
    mapText unquoted spaced.entries = ['a', ':', '\\', ' ', 'b'] ∧
      ¬ Returns spaced (ParseMap (encode (mapText unquoted spaced.entries)) (':'.toNat) (','.toNat)) := by
  refine ⟨by decide, fun h => ?_⟩
  obtain ⟨log, hreads, -⟩ := (returns_iff writing_unquoted (List.Perm.refl _)).1 h
  exact not_reads (by decide) (by decide) hreads

end Signatory.Utils
