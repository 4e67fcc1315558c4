import Signatory.Lib.Escape
import Signatory.Utils.ParseMap

/-!
# `pkg/utils`: options as runes

What `ParseMap` does to a text that is valid, on its runes: names and values are read as text with escapes.  A text is
parsed just if its runes are (`ParseMap_ok_iff`), and the map has the entries that are read, in their order.
-/

namespace Signatory.Utils

open Lib.Escape Lib.Fallible
open Signer (Bytes)
open Vault (isSpace)

/-! ## Texts of runes -/

def encode (cs : List Char) : Bytes := cs.flatMap encodeRune

/-- No rune is the replacement character. -/
def Clean (cs : List Char) : Prop := RuneError ∉ cs

instance : DecidablePred Clean := fun cs => inferInstanceAs (Decidable (RuneError ∉ cs))

@[simp] lemma encode_nil : encode [] = [] := rfl

lemma encode_cons (c : Char) (cs : List Char) : encode (c :: cs) = encodeRune c ++ encode cs := rfl

lemma length_encodeRune (c : Char) : (encodeRune c).length = c.utf8Size := String.length_utf8EncodeChar c

lemma length_encode_cons (c : Char) (cs : List Char) : ¬ (encode (c :: cs)).length = 0 := by
  have hpos := c.utf8Size_pos
  rw [encode_cons, List.length_append, length_encodeRune]
  omega

lemma DecodeRune_encode (c : Char) (cs : List Char) : DecodeRune (encode (c :: cs)) = (c, c.utf8Size) := by
  have hdecode : (encode (c :: cs)).toByteArray.utf8DecodeChar? 0 = some c := List.utf8DecodeChar?_utf8Encode_cons
  rw [DecodeRune, hdecode]

lemma drop_encode (c : Char) (cs : List Char) : (encode (c :: cs)).drop c.utf8Size = encode cs :=
  List.drop_left' (length_encodeRune c)

lemma decode_fst (c : Char) (cs : List Char) : (DecodeRune (encode (c :: cs))).1 = c := by
  rw [DecodeRune_encode]

lemma drop_decode (c : Char) (cs : List Char) :
    (encode (c :: cs)).drop (DecodeRune (encode (c :: cs))).2 = encode cs := by
  rw [DecodeRune_encode, drop_encode]

lemma encode_injective : Function.Injective encode := by
  intro cs
  induction cs with
  | nil =>
    intro ds h
    cases ds with
    | nil => rfl
    | cons d ds => exact absurd (congrArg List.length h.symm) (length_encode_cons d ds)
  | cons c cs ih =>
    intro ds h
    cases ds with
    | nil => exact absurd (congrArg List.length h) (length_encode_cons c cs)
    | cons d ds =>
      have hfirst : c = d := by rw [← decode_fst c cs, h, decode_fst]
      subst hfirst
      rw [encode_cons, encode_cons, List.append_cancel_left_eq] at h
      rw [ih h]

lemma Clean.tail {c : Char} {cs : List Char} (h : Clean (c :: cs)) : c ≠ RuneError ∧ Clean cs := by
  rw [Clean, List.mem_cons, not_or] at h
  exact ⟨Ne.symm h.1, h.2⟩

lemma Clean.suffix {cs ds : List Char} (h : Clean cs) (hds : ds <:+ cs) : Clean ds := fun hmem => h (hds.subset hmem)

/-! ## Reading runes -/

/-- The runes that end a string without quotes. -/
def stops (sep : Char) (c : Char) : Bool := decide (c = sep) || isSpace c

/-- A string, and what is left. -/
def runeString (sep : Char) : List Char → Option (List Char × List Char)
  | [] => none
  | c :: cs => if c = '\'' ∨ c = '"' then scanQuoted '\\' c false cs else token '\\' (stops sep) (c :: cs)

def skip (cs : List Char) : List Char := cs.dropWhile isSpace

def runeSep (sep : Char) : List Char → Option (List Char)
  | [] => none
  | c :: cs => if c = sep then some (skip cs) else none

def runeEnd (sep : Char) (cs : List Char) : Option (Option (List Char)) :=
  if skip cs = [] then some none
  else (runeSep sep (skip cs)).bind fun rest => if rest = [] then none else some (some rest)

def runeTuple (s₁ s₂ : Char) (cs : List Char) : Option (List Char × List Char × Option (List Char)) := do
  let (name, cs) ← runeString s₁ cs
  let cs ← runeSep s₁ (skip cs)
  let (val, cs) ← runeString s₂ cs
  let next ← runeEnd s₂ cs
  pure (name, val, next)

/-- The names and values that are read one after another. -/
inductive Reads (s₁ s₂ : Char) : List Char → List (List Char × List Char) → Prop
  | nil : Reads s₁ s₂ [] []
  | last {cs name val : List Char} (h : runeTuple s₁ s₂ cs = some (name, val, none)) : Reads s₁ s₂ cs [(name, val)]
  | more {cs name val next : List Char} {log : List (List Char × List Char)}
      (h : runeTuple s₁ s₂ cs = some (name, val, some next)) (rest : Reads s₁ s₂ (skip next) log) :
      Reads s₁ s₂ cs ((name, val) :: log)

/-- They are set in their order. -/
def setAll (res : GoMap Bytes Bytes) (log : List (List Char × List Char)) : GoMap Bytes Bytes :=
  log.foldl (fun res e => res.insert (encode e.1) (encode e.2)) res

/-! ## The runes say what is read from the bytes -/

/-- A computation returns a value just if it is the one of `o`. -/
def Agrees {α β : Type} (enc : α → β) (x : Except ParseError β) (o : Option α) : Prop := x.toOption = o.map enc

lemma Agrees.bind {α β γ δ : Type} {enc : α → β} {x : Except ParseError β} {o : Option α} (h : Agrees enc x o)
    {enc' : γ → δ} {f : β → Except ParseError δ} {g : α → Option γ}
    (hf : ∀ a, o = some a → Agrees enc' (f (enc a)) (g a)) : Agrees enc' (x >>= f) (o >>= g) := by
  unfold Agrees at *
  cases o with
  | none =>
    cases x with
    | error err => rfl
    | ok b => cases h
  | some a =>
    cases x with
    | error err => cases h
    | ok b =>
      obtain rfl : b = enc a := Option.some.inj h
      exact hf a rfl

lemma Agrees.after {c : Char} {o : Bytes} {x : Except ParseError (Bytes × Bytes)} {r : Option (List Char × List Char)}
    (h : Agrees (fun r => (encode r.2, o ++ encodeRune c ++ encode r.1)) x r) :
    Agrees (fun r => (encode r.2, o ++ encode r.1)) x (after [c] r) := by
  have hencode (l : List Char) : o ++ encode ([c] ++ l) = o ++ encodeRune c ++ encode l := by
    rw [List.singleton_append, encode_cons, List.append_assoc]
  unfold Agrees at *
  rw [h, Lib.Escape.after, Option.map_map]
  simp only [Function.comp_def, hencode]

lemma stops_iff (sep c : Char) : ((c.toNat : ℤ) = sep.toNat ∨ isSpace c = true) ↔ stops sep c = true := by
  rw [stops, Bool.or_eq_true, decide_eq_true_eq, Nat.cast_inj, Char.toNat_inj]

/-! ## What is left is the end of the text -/

section Left

variable {cs : List Char}

lemma skip_suffix : skip cs <:+ cs := List.dropWhile_suffix _

lemma runeString_suffix {sep : Char} {out rest : List Char} (hr : runeString sep cs = some (out, rest)) :
    rest <:+ cs := by
  cases cs with
  | nil => cases hr
  | cons c cs =>
    rw [runeString] at hr
    split at hr
    next => exact (scanQuoted_suffix hr).trans (List.suffix_cons c cs)
    next =>
      obtain ⟨m, hm, -⟩ := after_eq_some hr
      exact (scan_suffix hm).trans (List.suffix_cons c cs)

lemma runeSep_suffix {sep : Char} {rest : List Char} (hr : runeSep sep cs = some rest) : rest <:+ cs := by
  cases cs with
  | nil => cases hr
  | cons c cs =>
    rw [runeSep] at hr
    split at hr
    next =>
      obtain rfl := Option.some.inj hr
      exact skip_suffix.trans (List.suffix_cons c cs)
    next => cases hr

lemma runeEnd_suffix {sep : Char} {next : List Char} (hr : runeEnd sep cs = some (some next)) :
    next <:+ cs := by
  rw [runeEnd] at hr
  split at hr
  next => cases hr
  next =>
    obtain ⟨rest, hrest, hr⟩ := Option.bind_eq_some_iff.1 hr
    split at hr
    next => cases hr
    next =>
      obtain rfl := Option.some.inj (Option.some.inj hr)
      exact (runeSep_suffix hrest).trans skip_suffix

lemma runeTuple_eq_some_iff {s₁ s₂ : Char} {name val : List Char} {next : Option (List Char)} :
    runeTuple s₁ s₂ cs = some (name, val, next) ↔
      ∃ rest₁ rest₂ rest₃, runeString s₁ cs = some (name, rest₁) ∧ runeSep s₁ (skip rest₁) = some rest₂ ∧
        runeString s₂ rest₂ = some (val, rest₃) ∧ runeEnd s₂ rest₃ = some next := by
  constructor
  · intro h
    obtain ⟨⟨name', rest₁⟩, h₁, h⟩ := Option.bind_eq_some_iff.1 h
    obtain ⟨rest₂, h₂, h⟩ := Option.bind_eq_some_iff.1 h
    obtain ⟨⟨val', rest₃⟩, h₃, h⟩ := Option.bind_eq_some_iff.1 h
    obtain ⟨next', h₄, h⟩ := Option.bind_eq_some_iff.1 h
    obtain ⟨rfl, rfl, rfl⟩ : name' = name ∧ val' = val ∧ next' = next := by cases h; exact ⟨rfl, rfl, rfl⟩
    exact ⟨rest₁, rest₂, rest₃, h₁, h₂, h₃, h₄⟩
  · rintro ⟨rest₁, rest₂, rest₃, h₁, h₂, h₃, h₄⟩
    refine Option.bind_eq_some_iff.2 ⟨(name, rest₁), h₁, ?_⟩
    refine Option.bind_eq_some_iff.2 ⟨rest₂, h₂, ?_⟩
    refine Option.bind_eq_some_iff.2 ⟨(val, rest₃), h₃, ?_⟩
    exact Option.bind_eq_some_iff.2 ⟨next, h₄, rfl⟩

lemma runeTuple_suffix {s₁ s₂ : Char} {name val next : List Char}
    (hr : runeTuple s₁ s₂ cs = some (name, val, some next)) : next <:+ cs := by
  obtain ⟨rest₁, rest₂, rest₃, h₁, h₂, h₃, h₄⟩ := runeTuple_eq_some_iff.1 hr
  have hval := (runeEnd_suffix h₄).trans (runeString_suffix h₃)
  have hname := skip_suffix.trans (runeString_suffix h₁)
  exact (hval.trans (runeSep_suffix h₂)).trans hname

end Left

/-! ## Strings and separators -/

section Read

variable {cs : List Char} (h : Clean cs)

include h

lemma eatSpace_encode : eatSpace (encode cs) = .ok (encode (skip cs)) := by
  induction cs with
  | nil =>
    rw [eatSpace]
    rfl
  | cons c cs ih =>
    obtain ⟨hc, hcs⟩ := h.tail
    rw [eatSpace, if_neg (length_encode_cons c cs)]
    dsimp only
    rw [decode_fst, if_neg hc, drop_decode, skip, List.dropWhile_cons]
    cases isSpace c with
    | true => exact ih hcs
    | false => rfl

lemma readLoop_encode (sep : Char) (esc : Bool) (o : Bytes) :
    Agrees (fun r => (encode r.2, o ++ encode r.1)) (readLoop sep.toNat none (encode cs) esc o)
      (scan '\\' (stops sep) esc cs) := by
  induction cs generalizing esc o with
  | nil =>
    rw [readLoop]
    cases esc with
    | true => rfl
    | false => simp [Agrees, scan, Except.toOption]
  | cons c cs ih =>
    obtain ⟨hc, hcs⟩ := h.tail
    rw [readLoop, if_neg (length_encode_cons c cs)]
    dsimp only
    rw [decode_fst, if_neg hc, drop_decode]
    cases esc with
    | true =>
      rw [if_neg (by simp), if_pos rfl]
      exact (ih hcs false _).after
    | false =>
      rw [scan]
      by_cases hstop : stops sep c = true
      · rw [if_pos ⟨rfl, rfl, (stops_iff sep c).2 hstop⟩, if_pos hstop]
        simp [Agrees, Except.toOption]
      · rw [if_neg (fun h => hstop ((stops_iff sep c).1 h.2.2)), if_neg hstop, if_neg (by decide)]
        by_cases hbs : c = '\\'
        · rw [if_pos hbs, if_pos hbs]
          exact ih hcs true o
        · rw [if_neg hbs, if_neg hbs, if_neg (Option.some_ne_none c).symm]
          exact (ih hcs false _).after

lemma readLoop_quoted_encode (sep : ℤ) (q : Char) (esc : Bool) (o : Bytes) :
    Agrees (fun r => (encode r.2, o ++ encode r.1)) (readLoop sep (some q) (encode cs) esc o)
      (scanQuoted '\\' q esc cs) := by
  induction cs generalizing esc o with
  | nil =>
    rw [readLoop]
    rfl
  | cons c cs ih =>
    obtain ⟨hc, hcs⟩ := h.tail
    rw [readLoop, if_neg (length_encode_cons c cs)]
    dsimp only
    rw [decode_fst, if_neg hc, drop_decode, if_neg (fun h => Option.some_ne_none q h.2.1)]
    cases esc with
    | true =>
      rw [if_pos rfl]
      exact (ih hcs false _).after
    | false =>
      rw [scanQuoted, if_neg (by decide)]
      by_cases hbs : c = '\\'
      · rw [if_pos hbs, if_pos hbs]
        exact ih hcs true o
      · rw [if_neg hbs, if_neg hbs]
        by_cases hq : c = q
        · rw [if_pos hq, if_pos (congrArg some hq.symm)]
          simp [Agrees, Except.toOption]
        · rw [if_neg hq, if_neg (fun h => hq (Option.some.inj h).symm)]
          exact (ih hcs false _).after

lemma readString_encode (sep : Char) :
    Agrees (fun r => (encode r.2, encode r.1)) (readString (encode cs) sep.toNat) (runeString sep cs) := by
  cases cs with
  | nil => rfl
  | cons c cs =>
    obtain ⟨hc, hcs⟩ := h.tail
    rw [readString, DecodeRune_encode]
    dsimp only
    rw [if_neg hc, drop_encode, runeString]
    split
    next => exact readLoop_quoted_encode hcs _ c false []
    next =>
      have hloop := readLoop_encode hcs sep false ([] ++ encodeRune c)
      exact hloop.after

lemma readSep_encode (sep : Char) : Agrees encode (readSep sep.toNat (encode cs)) (runeSep sep cs) := by
  cases cs with
  | nil => rfl
  | cons c cs =>
    obtain ⟨hc, hcs⟩ := h.tail
    rw [readSep, DecodeRune_encode]
    dsimp only
    rw [if_neg hc, drop_encode, runeSep]
    by_cases hsep : c = sep
    · subst hsep
      rw [if_neg (not_not.2 rfl), if_pos rfl, eatSpace_encode hcs]
      rfl
    · have hne : (c.toNat : ℤ) ≠ sep.toNat := fun h => hsep (Char.toNat_inj.1 (Nat.cast_inj.1 h))
      rw [if_pos hne, if_neg hsep]
      rfl

lemma readEnd_encode (sep : Char) : Agrees (Option.map encode) (readEnd sep.toNat (encode cs)) (runeEnd sep cs) := by
  rw [readEnd, if_pos (Int.natCast_nonneg _), eatSpace_encode h]
  show Agrees _ (if (encode (skip cs)).length = 0 then _ else _) _
  rw [runeEnd]
  cases hskip : skip cs with
  | nil => rfl
  | cons c cs' =>
    rw [if_neg (length_encode_cons c cs'), if_neg (List.cons_ne_nil c cs')]
    have hclean : Clean (c :: cs') := hskip ▸ h.suffix skip_suffix
    refine (readSep_encode hclean sep).bind fun rest _ => ?_
    cases rest with
    | nil => rfl
    | cons d rest =>
      rw [if_neg (length_encode_cons d rest), if_neg (List.cons_ne_nil d rest)]
      rfl

lemma readTuple_encode (s₁ s₂ : Char) :
    Agrees (fun t => (encode t.1, encode t.2.1, t.2.2.map encode)) (readTuple s₁.toNat s₂.toNat (encode cs))
      (runeTuple s₁ s₂ cs) := by
  refine (readString_encode h s₁).bind fun r hr => ?_
  obtain ⟨name, rest⟩ := r
  have hrest := h.suffix (runeString_suffix hr)
  dsimp only
  rw [eatSpace_encode hrest]
  show Agrees _ (readNamevalSep s₁.toNat (encode (skip rest)) >>= _) _
  rw [readNamevalSep, if_pos (Int.natCast_nonneg _)]
  refine (readSep_encode (hrest.suffix skip_suffix) s₁).bind fun rest' hr => ?_
  have hrest' := (hrest.suffix skip_suffix).suffix (runeSep_suffix hr)
  refine (readString_encode hrest' s₂).bind fun r hr => ?_
  obtain ⟨val, rest''⟩ := r
  have hrest'' := hrest'.suffix (runeString_suffix hr)
  refine (readEnd_encode hrest'' s₂).bind fun next _ => ?_
  rfl

end Read

/-! ## The loop -/

section Loop

variable {s₁ s₂ : Char} {cs name val next : List Char} {log : List (List Char × List Char)}

lemma reads_nil_iff : Reads s₁ s₂ [] log ↔ log = [] := by
  constructor
  · intro h
    cases h with
    | nil => rfl
    | last h => cases h
    | more h => cases h
  · rintro rfl
    exact Reads.nil

lemma Reads.first (h : Reads s₁ s₂ cs log) (hcs : cs ≠ []) :
    ∃ name val next log', runeTuple s₁ s₂ cs = some (name, val, next) ∧ log = (name, val) :: log' ∧
      (log' = [] ∨ ∃ p, next = some p ∧ Reads s₁ s₂ (skip p) log') := by
  cases h with
  | nil => exact absurd rfl hcs
  | last h => exact ⟨_, _, none, [], h, rfl, Or.inl rfl⟩
  | more h rest => exact ⟨_, _, _, _, h, rfl, Or.inr ⟨_, rfl, rest⟩⟩

lemma not_reads (hcs : cs ≠ []) (h : runeTuple s₁ s₂ cs = none) : ¬ Reads s₁ s₂ cs log := by
  intro hr
  obtain ⟨name, val, next, log', htuple, -, -⟩ := hr.first hcs
  rw [h] at htuple
  cases htuple

lemma reads_last_iff (h : runeTuple s₁ s₂ cs = some (name, val, none)) : Reads s₁ s₂ cs log ↔ log = [(name, val)] := by
  constructor
  · intro hr
    cases hr with
    | nil => cases h
    | last h' => rw [h] at h'; cases h'; rfl
    | more h' => rw [h] at h'; cases h'
  · rintro rfl
    exact Reads.last h

lemma reads_more_iff (h : runeTuple s₁ s₂ cs = some (name, val, some next)) :
    Reads s₁ s₂ cs log ↔ ∃ log', Reads s₁ s₂ (skip next) log' ∧ log = (name, val) :: log' := by
  constructor
  · intro hr
    cases hr with
    | nil => cases h
    | last h' => rw [h] at h'; cases h'
    | more h' rest => rw [h] at h'; cases h'; exact ⟨_, rest, rfl⟩
  · rintro ⟨log', hrest, rfl⟩
    exact Reads.more h hrest

/-- What the bytes of a turn say about its runes. -/
lemma runeTuple_of_readTuple (h : Clean cs) {n v : Bytes} {p : Option Bytes}
    (hr : readTuple s₁.toNat s₂.toNat (encode cs) = .ok (n, v, p)) :
    ∃ name val next, runeTuple s₁ s₂ cs = some (name, val, next) ∧ n = encode name ∧ v = encode val ∧
      p = next.map encode := by
  have hagrees := readTuple_encode h s₁ s₂
  rw [Agrees, hr] at hagrees
  obtain ⟨⟨name, val, next⟩, htuple, heq⟩ := Option.map_eq_some_iff.1 hagrees.symm
  obtain ⟨hname, hrest⟩ := Prod.mk.inj heq
  obtain ⟨hval, hnext⟩ := Prod.mk.inj hrest
  exact ⟨name, val, next, htuple, hname.symm, hval.symm, hnext.symm⟩

lemma runeTuple_eq_none (h : Clean cs) {err : ParseError}
    (herr : readTuple s₁.toNat s₂.toNat (encode cs) = .error err) : runeTuple s₁ s₂ cs = none := by
  have hagrees := readTuple_encode h s₁ s₂
  rw [Agrees, herr] at hagrees
  exact Option.map_eq_none_iff.1 hagrees.symm

lemma length_encode_eq_zero_iff : (encode cs).length = 0 ↔ cs = [] := by
  cases cs with
  | nil => exact iff_of_true rfl rfl
  | cons c cs => exact iff_of_false (length_encode_cons c cs) (List.cons_ne_nil c cs)

lemma parseLoop_ok_iff (h : Clean cs) (res out : GoMap Bytes Bytes) :
    parseLoop s₁.toNat s₂.toNat (encode cs) res = .ok out ↔
      ∃ log, Reads s₁ s₂ (skip cs) log ∧ out = setAll res log := by
  induction hn : (encode cs).length using Nat.strong_induction_on generalizing cs res with
  | _ n ih =>
    have hclean := h.suffix skip_suffix
    rw [parseLoop]
    split
    next err herr =>
      rw [eatSpace_encode h] at herr
      cases herr
    next p hp =>
      rw [eatSpace_encode h] at hp
      obtain rfl := Except.ok.inj hp
      split
      next hzero =>
        have hskip : skip cs = [] := length_encode_eq_zero_iff.1 hzero
        simp only [hskip, reads_nil_iff, exists_eq_left]
        exact ⟨fun h => (Except.ok.inj h).symm, fun h => congrArg Except.ok h.symm⟩
      next hzero =>
        have hskip : skip cs ≠ [] := mt length_encode_eq_zero_iff.2 hzero
        split
        next err herr =>
          have hnone := runeTuple_eq_none hclean herr
          constructor
          · intro h
            cases h
          · rintro ⟨log, hreads, -⟩
            exact absurd hreads (not_reads hskip hnone)
        next n' v' hr =>
          obtain ⟨name, val, next, htuple, rfl, rfl, hnext⟩ := runeTuple_of_readTuple hclean hr
          obtain rfl := Option.map_eq_none_iff.1 hnext.symm
          simp only [reads_last_iff htuple, exists_eq_left]
          exact ⟨fun h => (Except.ok.inj h).symm, fun h => congrArg Except.ok h.symm⟩
        next n' v' p'' hr =>
          obtain ⟨name, val, next, htuple, rfl, rfl, hnext⟩ := runeTuple_of_readTuple hclean hr
          obtain ⟨next, rfl, rfl⟩ := Option.map_eq_some_iff.1 hnext.symm
          have hlt : (encode next).length < n := by
            have hle := eatSpace_length_le (eatSpace_encode h)
            have hlt := readTuple_length_lt hr
            omega
          simp only [reads_more_iff htuple]
          rw [ih _ hlt (hclean.suffix (runeTuple_suffix htuple)) _ rfl]
          constructor
          · rintro ⟨log, hreads, rfl⟩
            exact ⟨_, ⟨log, hreads, rfl⟩, rfl⟩
          · rintro ⟨_, ⟨log, hreads, rfl⟩, rfl⟩
            exact ⟨log, hreads, rfl⟩

/-- **When a text is parsed**: its runes are read, and the map has what is read in its order. -/
theorem ParseMap_ok_iff (h : Clean cs) (out : GoMap Bytes Bytes) :
    ParseMap (encode cs) s₁.toNat s₂.toNat = .ok out ↔ ∃ log, Reads s₁ s₂ (skip cs) log ∧ out = setAll ∅ log :=
  parseLoop_ok_iff h ∅ out

end Loop

end Signatory.Utils
