import Signatory.Utils.Runes

/-!
# `pkg/utils`: quoting options

Entries are written one after another with `:` and `,` between, and every name and value in quotes or with escapes.  A
writing that is read back string by string is read back as a whole (`reads_mapText`).
-/

namespace Signatory.Utils

open Lib.Escape
open Signer (Bytes)
open Vault (isSpace)

/-! ## Entries as text -/

/-- A string that is not empty, of valid UTF-8 without the replacement character. -/
@[ext] structure Text where
  runes : List Char
  ne : runes ≠ []
  clean : Clean runes
  deriving DecidableEq

def Text.bytes (t : Text) : Bytes := encode t.runes

/-- A name and its value. -/
abbrev Entry := (_ : Text) × Text

/-- In double quotes, with a backslash before each double quote and backslash. -/
def quoted (cs : List Char) : List Char := '"' :: (escape '\\' (fun c => decide (c = '"' ∨ c = '\\')) cs ++ ['"'])

/-- The runes that mean something where there are no quotes. -/
def special (c : Char) : Bool := isSpace c || decide (c = '\'' ∨ c = '"' ∨ c = ':' ∨ c = ',' ∨ c = '\\')

/-- Without quotes, with a backslash before each special rune. -/
def unquoted (cs : List Char) : List Char := escape '\\' special cs

def tupleText (write : List Char → List Char) (e : Entry) : List Char := write e.1.runes ++ ':' :: write e.2.runes

def mapText (write : List Char → List Char) (order : List Entry) : List Char :=
  [','].intercalate (order.map (tupleText write))

/-- The map that is returned has just the entries of `m`. -/
def Returns (m : GoMap Text Text) (r : Except ParseError (GoMap Bytes Bytes)) : Prop :=
  ∃ res, r = .ok res ∧
    ∀ name val, res.lookup name = some val ↔ ∃ e ∈ m.entries, e.1.bytes = name ∧ e.2.bytes = val

/-! ## The text of entries -/

section Text

variable (write : List Char → List Char)

/-- The entries after the first one. -/
def tailText : List Entry → List Char
  | [] => []
  | e :: es => ',' :: (tupleText write e ++ tailText es)

lemma mapText_cons (e : Entry) (es : List Entry) :
    mapText write (e :: es) = tupleText write e ++ tailText write es := by
  induction es generalizing e with
  | nil => simp [mapText, tailText]
  | cons f es ih =>
    rw [tailText, ← ih f]
    rfl

lemma tailText_cons (e : Entry) (es : List Entry) : tailText write (e :: es) = ',' :: mapText write (e :: es) := by
  rw [mapText_cons]
  rfl

end Text

lemma skip_cons {c : Char} (hc : isSpace c = false) (cs : List Char) : skip (c :: cs) = c :: cs := by
  rw [skip, List.dropWhile_cons, hc]
  rfl

lemma skip_tailText (write : List Char → List Char) (es : List Entry) :
    skip (tailText write es) = tailText write es := by
  cases es with
  | nil => rfl
  | cons e es => exact skip_cons (by decide) _

lemma runeEnd_comma {t : List Char} (hskip : skip t = t) (hne : t ≠ []) :
    runeEnd ',' (',' :: t) = some (some t) := by
  have hcomma : skip (',' :: t) = ',' :: t := skip_cons (by decide) t
  rw [runeEnd, hcomma, if_neg (List.cons_ne_nil _ _), runeSep, if_pos rfl, hskip]
  exact if_neg hne

/-! ## Writings that are read back -/

/-- A written string does not begin with space, and is as clean as the string. -/
structure Writing (write : List Char → List Char) : Prop where
  begins : ∀ t : Text, ∃ b m, write t.runes = b :: m ∧ isSpace b = false
  clean : ∀ t : Text, Clean (write t.runes)

/-- A writing of a string is read back, with what may follow it. -/
def ReadBack (write : List Char → List Char) (t : Text) : Prop :=
  ∀ sep m, sep = ':' ∨ sep = ',' → (∀ c ∈ m.head?, c = sep) → runeString sep (write t.runes ++ m) = some (t.runes, m)

/-- A name and its value, as they are read. -/
def runesOf (e : Entry) : List Char × List Char := (e.1.runes, e.2.runes)

section Read

variable {write : List Char → List Char} (hw : Writing write) {e : Entry} {es : List Entry}
  {log : List (List Char × List Char)}

include hw

lemma skip_write (t : Text) (m : List Char) : skip (write t.runes ++ m) = write t.runes ++ m := by
  obtain ⟨b, n, hb, hspace⟩ := hw.begins t
  rw [hb]
  exact skip_cons hspace _

lemma skip_mapText (es : List Entry) : skip (mapText write es) = mapText write es := by
  cases es with
  | nil => rfl
  | cons e es =>
    rw [mapText_cons, tupleText, List.append_assoc]
    exact skip_write hw e.1 _

lemma mapText_ne_nil (e : Entry) (es : List Entry) : mapText write (e :: es) ≠ [] := by
  obtain ⟨b, n, hb, -⟩ := hw.begins e.1
  rw [mapText_cons, tupleText, hb]
  exact List.cons_ne_nil _ _

lemma clean_tupleText (e : Entry) : Clean (tupleText write e) := by
  intro hmem
  rcases List.mem_append.1 hmem with hmem | hmem
  · exact hw.clean e.1 hmem
  · rcases List.mem_cons.1 hmem with hcolon | hmem
    · exact absurd hcolon (by decide)
    · exact hw.clean e.2 hmem

lemma clean_tailText (es : List Entry) : Clean (tailText write es) := by
  induction es with
  | nil => exact List.not_mem_nil
  | cons e es ih =>
    intro hmem
    rcases List.mem_cons.1 hmem with hcomma | hmem
    · exact absurd hcomma (by decide)
    · rcases List.mem_append.1 hmem with hmem | hmem
      · exact clean_tupleText hw e hmem
      · exact ih hmem

lemma clean_mapText (es : List Entry) : Clean (mapText write es) := by
  cases es with
  | nil => exact List.not_mem_nil
  | cons e es =>
    have htail := clean_tailText hw (e :: es)
    rw [tailText_cons] at htail
    exact htail.tail.2

lemma runeEnd_tailText (es : List Entry) :
    runeEnd ',' (tailText write es) = some (if es = [] then none else some (mapText write es)) := by
  cases es with
  | nil => rfl
  | cons e es =>
    rw [tailText_cons, runeEnd_comma (skip_mapText hw _) (mapText_ne_nil hw e es), if_neg (List.cons_ne_nil e es)]

lemma runeTuple_readBack (h₁ : ReadBack write e.1) (h₂ : ReadBack write e.2) (es : List Entry) :
    runeTuple ':' ',' (mapText write (e :: es)) =
      some (e.1.runes, e.2.runes, if es = [] then none else some (mapText write es)) := by
  have hname := h₁ ':' (':' :: (write e.2.runes ++ tailText write es)) (Or.inl rfl) (by simp)
  have hval := h₂ ',' (tailText write es) (Or.inr rfl) (by cases es <;> simp [tailText])
  rw [mapText_cons, tupleText, List.append_assoc, List.cons_append]
  refine runeTuple_eq_some_iff.2 ⟨_, _, _, hname, ?_, hval, runeEnd_tailText hw es⟩
  rw [skip_cons (by decide), runeSep, if_pos rfl, skip_write hw]

lemma reads_mapText_cons (h₁ : ReadBack write e.1) (h₂ : ReadBack write e.2) :
    Reads ':' ',' (mapText write (e :: es)) log ↔
      ∃ log', Reads ':' ',' (mapText write es) log' ∧ log = runesOf e :: log' := by
  have htuple := runeTuple_readBack hw h₁ h₂ es
  cases es with
  | nil =>
    rw [reads_last_iff htuple]
    constructor
    · rintro rfl
      exact ⟨[], Reads.nil, rfl⟩
    · rintro ⟨log', hr, rfl⟩
      rw [reads_nil_iff.1 hr]
      rfl
  | cons f es =>
    rw [if_neg (List.cons_ne_nil f es)] at htuple
    rw [reads_more_iff htuple, skip_mapText hw]
    rfl

/-- **Entries that are read back**, and what is read after them. -/
lemma reads_mapText_append {es₁ : List Entry} (h : ∀ e ∈ es₁, ReadBack write e.1 ∧ ReadBack write e.2)
    (es₂ : List Entry) :
    Reads ':' ',' (mapText write (es₁ ++ es₂)) log ↔
      ∃ log', Reads ':' ',' (mapText write es₂) log' ∧ log = es₁.map runesOf ++ log' := by
  induction es₁ generalizing log with
  | nil => simp
  | cons e es₁ ih =>
    obtain ⟨he, hes⟩ := List.forall_mem_cons.1 h
    rw [List.cons_append, reads_mapText_cons hw he.1 he.2]
    constructor
    · rintro ⟨log', hr, rfl⟩
      obtain ⟨log'', hr', rfl⟩ := (ih hes).1 hr
      exact ⟨log'', hr', rfl⟩
    · rintro ⟨log', hr, rfl⟩
      exact ⟨_, (ih hes).2 ⟨log', hr, rfl⟩, rfl⟩

end Read

/-! ## Quotes and escapes -/

lemma writing_quoted : Writing quoted where
  begins := fun _ => ⟨'"', _, rfl, by decide⟩
  clean := by
    intro t hmem
    rcases List.mem_cons.1 hmem with hquote | hmem
    · exact absurd hquote (by decide)
    · rcases List.mem_append.1 hmem with hmem | hquote
      · rcases mem_escape hmem with hbs | hmem
        · exact absurd hbs (by decide)
        · exact t.clean hmem
      · exact absurd (List.mem_singleton.1 hquote) (by decide)

lemma readBack_quoted (t : Text) : ReadBack quoted t := by
  intro sep m _ _
  show scanQuoted '\\' '"' false (escape _ _ _ ++ ['"'] ++ m) = _
  rw [List.append_assoc]
  exact scanQuoted_escape (by decide) (fun c => by simp) _ _

lemma isSpace_of_not_special {c : Char} (h : special c = false) : isSpace c = false := by
  rw [special, Bool.or_eq_false_iff] at h
  exact h.1

lemma writing_unquoted : Writing unquoted where
  begins := by
    intro t
    obtain ⟨b, m, hb, h⟩ := head_escape '\\' special t.ne
    refine ⟨b, m, hb, ?_⟩
    rcases h with rfl | h
    · decide
    · exact isSpace_of_not_special h
  clean := by
    intro t hmem
    rcases mem_escape hmem with hbs | hmem
    · exact absurd hbs (by decide)
    · exact t.clean hmem

lemma guards {sep : Char} (h : sep = ':' ∨ sep = ',') : Guards '\\' special (stops sep) where
  self := by decide
  goesOn := by rcases h with rfl | rfl <;> decide
  stops := by
    intro c hc
    rw [stops, Bool.or_eq_true, decide_eq_true_eq] at hc
    rcases hc with rfl | hc
    · rcases h with rfl | rfl <;> decide
    · rw [special, hc]
      rfl

/-- Where there are no quotes, a string is read as text with escapes. -/
lemma runeString_unquoted {cs : List Char} (h : cs ≠ []) (sep : Char) (m : List Char) :
    runeString sep (unquoted cs ++ m) = token '\\' (stops sep) (unquoted cs ++ m) := by
  obtain ⟨b, n, hb, hplain⟩ := head_escape '\\' special h
  have hquote : ¬ (b = '\'' ∨ b = '"') := by
    rcases hplain with rfl | hplain
    · decide
    · rintro (rfl | rfl)
      · exact absurd hplain (by decide)
      · exact absurd hplain (by decide)
  rw [unquoted, hb]
  exact if_neg hquote

lemma scan_ends {sep : Char} {m : List Char} (h : ∀ c ∈ m.head?, c = sep) :
    scan '\\' (stops sep) false m = some ([], m) := by
  cases m with
  | nil => rfl
  | cons c m =>
    obtain rfl := h c rfl
    rw [scan, stops, decide_eq_true rfl]
    rfl

/-- **A readable string is read back without quotes.** -/
lemma readBack_unquoted {t : Text} (h : Readable '\\' special t.runes) : ReadBack unquoted t := by
  intro sep m hsep hm
  rw [runeString_unquoted t.ne, unquoted, token_readable (guards hsep) h, scan_ends hm]
  simp

/-! ## Maps that are returned -/

section Maps

variable {res : GoMap Bytes Bytes} {log : List (List Char × List Char)}

lemma setAll_append (res : GoMap Bytes Bytes) (log log' : List (List Char × List Char)) :
    setAll res (log ++ log') = setAll (setAll res log) log' := List.foldl_append

lemma lookup_setAll_of_notMem {name : Bytes} (h : ∀ e ∈ log, encode e.1 ≠ name) :
    (setAll res log).lookup name = res.lookup name := by
  induction log generalizing res with
  | nil => rfl
  | cons e log ih =>
    obtain ⟨he, hlog⟩ := List.forall_mem_cons.1 h
    show (setAll (res.insert _ _) log).lookup name = _
    rw [ih hlog, AList.lookup_insert_ne (Ne.symm he)]

lemma lookup_setAll_last (log : List (List Char × List Char)) {e : List Char × List Char}
    {log' : List (List Char × List Char)} (h : ∀ f ∈ log', f.1 ≠ e.1) :
    (setAll res (log ++ e :: log')).lookup (encode e.1) = some (encode e.2) := by
  have hrest : ∀ f ∈ log', encode f.1 ≠ encode e.1 := fun f hf heq => h f hf (encode_injective heq)
  rw [setAll_append]
  show (setAll ((setAll res log).insert _ _) log').lookup _ = _
  rw [lookup_setAll_of_notMem hrest, AList.lookup_insert]

lemma ne_of_lookup_setAll {name : Bytes} (h : (setAll res log).lookup name = none) :
    res.lookup name = none ∧ ∀ e ∈ log, encode e.1 ≠ name := by
  induction log generalizing res with
  | nil => exact ⟨h, nofun⟩
  | cons f log ih =>
    obtain ⟨hres, hlog⟩ := ih h
    rw [GoMap.lookup_set] at hres
    split at hres
    next => cases hres
    next hne => exact ⟨hres, List.forall_mem_cons.2 ⟨Ne.symm hne, hlog⟩⟩

/-- What is read makes a map with just the entries of `order`. -/
def Makes (order : List Entry) (log : List (List Char × List Char)) : Prop :=
  ∀ name val, (setAll ∅ log).lookup name = some val ↔ ∃ e ∈ order, e.1.bytes = name ∧ e.2.bytes = val

lemma Makes.mem {order : List Entry} (h : Makes order log) {f : List Char × List Char} (hf : f ∈ log) :
    ∃ e ∈ order, e.1.runes = f.1 := by
  cases hlookup : (setAll ∅ log).lookup (encode f.1) with
  | none => exact absurd rfl ((ne_of_lookup_setAll hlookup).2 f hf)
  | some val =>
    obtain ⟨e, he, hname, -⟩ := (h _ _).1 hlookup
    exact ⟨e, he, encode_injective hname⟩

lemma Makes.last {order : List Entry} {log' : List (List Char × List Char)} {f : List Char × List Char}
    (h : Makes order (log ++ f :: log')) (hf : ∀ g ∈ log', g.1 ≠ f.1) : ∃ e ∈ order, runesOf e = f := by
  obtain ⟨e, he, hname, hval⟩ := (h _ _).1 (lookup_setAll_last log hf)
  exact ⟨e, he, Prod.ext (encode_injective hname) (encode_injective hval)⟩

/-- **Entries that are read one by one make their map.** -/
lemma makes_map {order : List Entry} (h : order.NodupKeys) : Makes order (order.map runesOf) := by
  have hlast {e : Entry} (he : e ∈ order) :
      (setAll ∅ (order.map runesOf)).lookup e.1.bytes = some e.2.bytes := by
    obtain ⟨order₁, order₂, rfl⟩ := List.append_of_mem he
    have hafter := (List.pairwise_append.1 (List.nodupKeys_iff_pairwise.1 h)).2.1
    have hne : ∀ f ∈ order₂.map runesOf, f.1 ≠ (runesOf e).1 := by
      intro f hf heq
      obtain ⟨g, hg, rfl⟩ := List.mem_map.1 hf
      exact (List.pairwise_cons.1 hafter).1 g hg (Text.ext heq.symm)
    rw [List.map_append, List.map_cons]
    exact lookup_setAll_last _ hne
  intro name val
  constructor
  · intro hlookup
    by_cases hmem : ∃ e ∈ order, e.1.bytes = name
    · obtain ⟨e, he, rfl⟩ := hmem
      rw [hlast he] at hlookup
      exact ⟨e, he, rfl, Option.some.inj hlookup⟩
    · have hnone : (setAll ∅ (order.map runesOf)).lookup name = none := by
        refine lookup_setAll_of_notMem ?_
        intro f hf heq
        obtain ⟨e, he, rfl⟩ := List.mem_map.1 hf
        exact hmem ⟨e, he, heq⟩
      rw [hnone] at hlookup
      cases hlookup
  · rintro ⟨e, he, rfl, rfl⟩
    exact hlast he

/-- **What `ParseMap` returns for entries in some order.** -/
lemma returns_iff {write : List Char → List Char} (hw : Writing write) {m : GoMap Text Text} {order : List Entry}
    (h : order.Perm m.entries) :
    Returns m (ParseMap (encode (mapText write order)) (':'.toNat) (','.toNat)) ↔
      ∃ log, Reads ':' ',' (mapText write order) log ∧ Makes order log := by
  have hmem (name val : Bytes) : (∃ e ∈ m.entries, e.1.bytes = name ∧ e.2.bytes = val) ↔
      ∃ e ∈ order, e.1.bytes = name ∧ e.2.bytes = val := by simp only [h.mem_iff]
  unfold Returns Makes
  simp only [ParseMap_ok_iff (clean_mapText hw order), skip_mapText hw, hmem]
  constructor
  · rintro ⟨res, ⟨log, hreads, rfl⟩, hmakes⟩
    exact ⟨log, hreads, hmakes⟩
  · rintro ⟨log, hreads, hmakes⟩
    exact ⟨_, ⟨log, hreads, rfl⟩, hmakes⟩

lemma returns_of_readBack {write : List Char → List Char} (hw : Writing write) {m : GoMap Text Text}
    {order : List Entry} (h : order.Perm m.entries) (hread : ∀ e ∈ order, ReadBack write e.1 ∧ ReadBack write e.2) :
    Returns m (ParseMap (encode (mapText write order)) (':'.toNat) (','.toNat)) := by
  refine (returns_iff hw h).2 ⟨order.map runesOf, ?_, makes_map ((List.perm_nodupKeys h).2 m.nodupKeys)⟩
  have hreads := (reads_mapText_append hw hread []).2 ⟨[], Reads.nil, rfl⟩
  rwa [List.append_nil, List.append_nil] at hreads

end Maps

end Signatory.Utils
