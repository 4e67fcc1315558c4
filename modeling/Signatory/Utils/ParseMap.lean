import Signatory.Hashmap
import Signatory.Lib.Fallible
import Signatory.Vault.Enclave

/-!
# `pkg/utils`: options as text

`ParseMap` reads names and values from the bytes of a text, rune by rune.  A rune is decoded as in `unicode/utf8`, where
bytes that are no rune, and none at all, are decoded as the replacement character.
-/

namespace Signatory.Utils

open Lib.Fallible
open Signer (Bytes)
open Vault (isSpace)

/-! ## Runes -/

def RuneError : Char := '\uFFFD'

/-- `utf8.DecodeRune`: the first rune, and its size. -/
def DecodeRune (p : Bytes) : Char × ℕ :=
  match p.toByteArray.utf8DecodeChar? 0 with
  | some r => (r, r.utf8Size)
  | none => (RuneError, if p.length = 0 then 0 else 1)

/-- `WriteRune`, of a rune that was decoded. -/
def encodeRune (r : Char) : Bytes := String.utf8EncodeChar r

inductive ParseError where
  | rune
  | quoted
  | eof
  | character (r : Char)
  deriving DecidableEq

def ParseError.text : ParseError → String
  | .rune => "invalid rune"
  | .quoted => "unexpected end of the quoted string"
  | .eof => "unexpected end of the string"
  | .character r => "unexpected character: " ++ r.toString

lemma DecodeRune_pos {p : Bytes} (h : p ≠ []) : 0 < (DecodeRune p).2 := by
  unfold DecodeRune
  split
  next r _ => exact r.utf8Size_pos
  next =>
    rw [if_neg (fun hzero => h (List.length_eq_zero_iff.1 hzero))]
    exact Nat.one_pos

lemma length_drop_lt {p : Bytes} (h : ¬ p.length = 0) : (p.drop (DecodeRune p).2).length < p.length := by
  have hpos := DecodeRune_pos fun hnil => h (List.length_eq_zero_iff.2 hnil)
  rw [List.length_drop]
  omega

/-! ## Strings -/

/-- The loop of `readString`; `quoted` is the rune that ends a quoted string, and a separator is any integer. -/
def readLoop (sep : ℤ) (quoted : Option Char) (p : Bytes) (esc : Bool) (o : Bytes) :
    Except ParseError (Bytes × Bytes) :=
  if p.length = 0 then
    if quoted.isSome ∨ esc then .error .quoted else .ok (p, o)
  else
    let r := (DecodeRune p).1
    if r = RuneError then .error .rune
    else if !esc ∧ quoted = none ∧ ((r.toNat : ℤ) = sep ∨ isSpace r) then .ok (p, o)
    else
      if esc then readLoop sep quoted (p.drop (DecodeRune p).2) false (o ++ encodeRune r)
      else if r = '\\' then readLoop sep quoted (p.drop (DecodeRune p).2) true o
      else if quoted = some r then .ok (p.drop (DecodeRune p).2, o)
      else readLoop sep quoted (p.drop (DecodeRune p).2) false (o ++ encodeRune r)
termination_by p.length
decreasing_by all_goals exact length_drop_lt (by assumption)

/-- What is left, and the string. -/
def readString (p : Bytes) (sep : ℤ) : Except ParseError (Bytes × Bytes) :=
  let (r, sz) := DecodeRune p
  if r = RuneError then .error .rune
  else if r = '\'' ∨ r = '"' then readLoop sep (some r) (p.drop sz) false []
  else readLoop sep none (p.drop sz) false (encodeRune r)

def eatSpace (p : Bytes) : Except ParseError Bytes :=
  if p.length = 0 then .ok p
  else
    let r := (DecodeRune p).1
    if r = RuneError then .error .rune
    else if !isSpace r then .ok p
    else eatSpace (p.drop (DecodeRune p).2)
termination_by p.length
decreasing_by exact length_drop_lt (by assumption)

/-! ## Maps -/

/-- A separator, and the space after it. -/
def readSep (sep : ℤ) (p : Bytes) : Except ParseError Bytes :=
  let (r, sz) := DecodeRune p
  if r = RuneError then .error .rune
  else if (r.toNat : ℤ) ≠ sep then .error (.character r)
  else eatSpace (p.drop sz)

def readNamevalSep (namevalSep : ℤ) (p : Bytes) : Except ParseError Bytes :=
  if 0 ≤ namevalSep then readSep namevalSep p else pure p

/-- The end of a turn of the loop: `none` is where the loop is left. -/
def readEnd (tuplesSep : ℤ) (p : Bytes) : Except ParseError (Option Bytes) :=
  if 0 ≤ tuplesSep then do
    let p ← eatSpace p
    if p.length = 0 then pure none
    else do
      let p ← readSep tuplesSep p
      if p.length = 0 then .error .eof else pure (some p)
  else pure (some p)

/-- A name, a value, and where the next turn of the loop starts. -/
def readTuple (namevalSep tuplesSep : ℤ) (p : Bytes) : Except ParseError (Bytes × Bytes × Option Bytes) := do
  let (p, name) ← readString p namevalSep
  let p ← eatSpace p
  let p ← readNamevalSep namevalSep p
  let (p, val) ← readString p tuplesSep
  let next ← readEnd tuplesSep p
  pure (name, val, next)

/-! ## Every turn takes something from the text -/

lemma readLoop_length_le {sep : ℤ} {quoted : Option Char} {p : Bytes} {esc : Bool} {o rem out : Bytes}
    (h : readLoop sep quoted p esc o = .ok (rem, out)) : rem.length ≤ p.length := by
  fun_induction readLoop sep quoted p esc o with
  | case1 => cases h
  | case2 => cases h; exact le_rfl
  | case3 => cases h
  | case4 => cases h; exact le_rfl
  | case5 p o hp r hr hgo ih => exact (ih h).trans (length_drop_lt hp).le
  | case6 p esc o hp r hr hgo hesc hbs ih => exact (ih h).trans (length_drop_lt hp).le
  | case7 p esc o hp r hr hgo hesc hbs hq =>
    cases h
    exact (length_drop_lt hp).le
  | case8 p esc o hp r hr hgo hesc hbs hq ih => exact (ih h).trans (length_drop_lt hp).le

lemma length_ne_zero_of_decode {p : Bytes} (h : (DecodeRune p).1 ≠ RuneError) : ¬ p.length = 0 := by
  intro hzero
  rw [List.length_eq_zero_iff.1 hzero] at h
  exact h rfl

lemma readString_length_lt {p : Bytes} {sep : ℤ} {rem out : Bytes} (h : readString p sep = .ok (rem, out)) :
    rem.length < p.length := by
  unfold readString at h
  dsimp only at h
  split at h
  next => cases h
  next hr =>
    have hlt := length_drop_lt (length_ne_zero_of_decode hr)
    split at h
    next => exact (readLoop_length_le h).trans_lt hlt
    next => exact (readLoop_length_le h).trans_lt hlt

lemma eatSpace_length_le {p p' : Bytes} (h : eatSpace p = .ok p') : p'.length ≤ p.length := by
  fun_induction eatSpace p with
  | case1 => cases h; exact le_rfl
  | case2 => cases h
  | case3 => cases h; exact le_rfl
  | case4 p hp r hr hspace ih => exact (ih h).trans (length_drop_lt hp).le

lemma readSep_length_le {sep : ℤ} {p p' : Bytes} (h : readSep sep p = .ok p') : p'.length ≤ p.length := by
  unfold readSep at h
  dsimp only at h
  split at h
  next => cases h
  next =>
    split at h
    next => cases h
    next => exact (eatSpace_length_le h).trans (by rw [List.length_drop]; omega)

lemma readEnd_length_le {tuplesSep : ℤ} {p p' : Bytes} (h : readEnd tuplesSep p = .ok (some p')) :
    p'.length ≤ p.length := by
  unfold readEnd at h
  split at h
  next =>
    obtain ⟨p₁, h₁, h⟩ := ok_bind_iff.1 h
    split at h
    next => cases h
    next =>
      obtain ⟨p₂, h₂, h⟩ := ok_bind_iff.1 h
      split at h
      next => cases h
      next =>
        cases h
        exact (readSep_length_le h₂).trans (eatSpace_length_le h₁)
  next =>
    cases h
    exact le_rfl

lemma readTuple_length_lt {namevalSep tuplesSep : ℤ} {p name val p' : Bytes}
    (h : readTuple namevalSep tuplesSep p = .ok (name, val, some p')) : p'.length < p.length := by
  obtain ⟨⟨p₁, name'⟩, h₁, h⟩ := ok_bind_iff.1 h
  obtain ⟨p₂, h₂, h⟩ := ok_bind_iff.1 h
  obtain ⟨p₃, h₃, h⟩ := ok_bind_iff.1 h
  obtain ⟨⟨p₄, val'⟩, h₄, h⟩ := ok_bind_iff.1 h
  obtain ⟨next, h₅, h⟩ := ok_bind_iff.1 h
  obtain ⟨-, -, rfl⟩ : name' = name ∧ val' = val ∧ next = some p' := by cases h; exact ⟨rfl, rfl, rfl⟩
  have hsep : p₃.length ≤ p₂.length := by
    unfold readNamevalSep at h₃
    split at h₃
    next => exact readSep_length_le h₃
    next => cases h₃; exact le_rfl
  have hname := readString_length_lt h₁
  have hspace := eatSpace_length_le h₂
  have hval := readString_length_lt h₄
  have hend := readEnd_length_le h₅
  omega

/-! ## The loop -/

def parseLoop (namevalSep tuplesSep : ℤ) (p : Bytes) (res : GoMap Bytes Bytes) :
    Except ParseError (GoMap Bytes Bytes) :=
  match hspace : eatSpace p with
  | .error err => .error err
  | .ok p' =>
    if p'.length = 0 then .ok res
    else
      match htuple : readTuple namevalSep tuplesSep p' with
      | .error err => .error err
      | .ok (name, val, none) => .ok (res.insert name val)
      | .ok (name, val, some p'') =>
        have : p''.length < p.length := (readTuple_length_lt htuple).trans_le (eatSpace_length_le hspace)
        parseLoop namevalSep tuplesSep p'' (res.insert name val)
termination_by p.length

def ParseMap (s : Bytes) (namevalSep tuplesSep : ℤ) : Except ParseError (GoMap Bytes Bytes) :=
  parseLoop namevalSep tuplesSep s ∅

end Signatory.Utils
