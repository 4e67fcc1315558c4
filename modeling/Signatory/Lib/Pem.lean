import Mathlib.Data.List.DropRight
import Signatory.Lib.Base64

/-!
# PEM blocks

`decode` is `pem.Decode` of the Go library, of which the bytes of the block are kept: it looks for the first block whose
lines are in order, passing over text before it and headers in it.  It searches forwards, as older releases do; newer
ones go back from the first end line, and may find another block in text with lines out of order.  The block that
`encode` writes is found: `decode_encode`.
-/

namespace Signatory.Lib.Pem

open Base64

abbrev Bytes := List UInt8

/-- Five dashes. -/
def pemEndOfLine : Bytes := List.replicate 5 0x2d

/-- A new line and `-----BEGIN `. -/
def pemStart : Bytes := 0x0a :: (pemEndOfLine ++ [0x42, 0x45, 0x47, 0x49, 0x4e, 0x20])

/-- A new line and `-----END `. -/
def pemEnd : Bytes := 0x0a :: (pemEndOfLine ++ [0x45, 0x4e, 0x44, 0x20])

def colon : UInt8 := 0x3a

def isBlank (c : UInt8) : Bool := c = 0x20 || c = 0x09

/-- `bytes.Cut`. -/
def cut (sep : Bytes) : Bytes → Option (Bytes × Bytes)
  | [] => if sep = [] then some ([], []) else none
  | c :: s =>
    if sep.isPrefixOf (c :: s) then some ([], (c :: s).drop sep.length)
    else (cut sep s).map fun (before, after) => (c :: before, after)

/-- The first line without the spaces at its end, and the rest. -/
def getLine (data : Bytes) : Bytes × Bytes :=
  let line := data.takeWhile (· ≠ 0x0a)
  let rest := data.dropWhile (· ≠ 0x0a)
  -- a line that ends with a new line may have a carriage return before it
  let line := if rest ≠ [] ∧ line.getLast? = some 0x0d then line.dropLast else line
  (line.rdropWhile isBlank, rest.drop 1)

/-- Whether there are lines with a colon, and what follows them; none at the end of the data. -/
def skipHeaders : ℕ → Bool → Bytes → Option (Bool × Bytes)
  | 0, _, _ => none
  | fuel + 1, found, rest =>
    if rest = [] then none
    else if colon ∈ (getLine rest).1 then skipHeaders fuel true (getLine rest).2
    else some (found, rest)

/-- The bytes of a block, once its end is found. -/
def blockBytes (typeLine base64Data endTrailer : Bytes) : Option Bytes :=
  let endTrailerLen := typeLine.length + pemEndOfLine.length
  let restOfEndLine := endTrailer.drop endTrailerLen
  let trailer := endTrailer.take endTrailerLen
  if endTrailer.length < endTrailerLen ∨ ¬ typeLine.isPrefixOf trailer ∨ ¬ pemEndOfLine.isSuffixOf trailer ∨
    (getLine restOfEndLine).1 ≠ [] then none
  else StdEncoding.decode (base64Data.filter fun c => !isBlank c)

def decodeFrom : ℕ → Bytes → Option Bytes
  | 0, _ => none
  | fuel + 1, rest =>
    let start := if pemStart.tail.isPrefixOf rest then some (rest.drop pemStart.tail.length)
      else (cut pemStart rest).map Prod.snd
    match start with
    | none => none
    | some rest =>
      let (typeLine, rest) := getLine rest
      if ¬ pemEndOfLine.isSuffixOf typeLine then decodeFrom fuel rest
      else
        let typeLine := typeLine.take (typeLine.length - pemEndOfLine.length)
        match skipHeaders (rest.length + 1) false rest with
        | none => none
        | some (found, rest) =>
          let body := if ¬ found ∧ pemEnd.tail.isPrefixOf rest then some ([], rest.drop pemEnd.tail.length)
            else cut pemEnd rest
          match body.bind fun (base64Data, endTrailer) => blockBytes typeLine base64Data endTrailer with
          | some bytes => some bytes
          | none => decodeFrom fuel rest

def decode (data : Bytes) : Option Bytes := decodeFrom (data.length + 1) data

/-! ## Encoding -/

/-- Lines of 64 characters. -/
def wrap : ℕ → Bytes → Bytes
  | 0, s => s
  | fuel + 1, s => if s.length ≤ 64 then s else s.take 64 ++ 0x0a :: wrap fuel (s.drop 64)

/-- A block of this type, without headers. -/
def encode (type data : Bytes) : Bytes :=
  pemStart.tail ++ (type ++ pemEndOfLine ++ 0x0a :: (wrap data.length (StdEncoding.encode data) ++
    (pemEnd ++ (type ++ pemEndOfLine ++ [0x0a]))))

/-- What is written between the two lines is one of these characters. -/
def InBody (c : UInt8) : Prop := c ∈ StdEncoding.alphabet ∨ c = pad ∨ c = 0x0a

lemma inBody_encode {data : Bytes} : ∀ c ∈ StdEncoding.encode data, InBody c := by
  intro c hc
  rcases Encoding.mem_encode stdEncoding_lawful data c hc with h | h
  · exact Or.inl h
  · exact Or.inr (Or.inl h)

lemma inBody_wrap {fuel : ℕ} {s : Bytes} (hs : ∀ c ∈ s, InBody c) : ∀ c ∈ wrap fuel s, InBody c := by
  induction fuel generalizing s with
  | zero => exact hs
  | succ fuel ih =>
    unfold wrap
    split
    · exact hs
    · intro c hc
      rcases List.mem_append.1 hc with hc | hc
      · exact hs c (List.mem_of_mem_take hc)
      · rcases List.mem_cons.1 hc with rfl | hc
        · exact Or.inr (Or.inr rfl)
        · exact ih (fun c hc => hs c (List.mem_of_mem_drop hc)) c hc

lemma filter_wrap {fuel : ℕ} {s : Bytes} (hs : ∀ c ∈ s, isLineEnd c = false) :
    (wrap fuel s).filter (fun c => !isLineEnd c) = s := by
  have hself : ∀ t : Bytes, (∀ c ∈ t, isLineEnd c = false) → t.filter (fun c => !isLineEnd c) = t := by
    intro t ht
    refine List.filter_eq_self.2 fun c hc => ?_
    rw [ht c hc]
    rfl
  induction fuel generalizing s with
  | zero => exact hself s hs
  | succ fuel ih =>
    unfold wrap
    split
    · exact hself s hs
    · have hnewline : (!isLineEnd 0x0a) = false := rfl
      rw [List.filter_append, List.filter_cons, hnewline, if_neg Bool.false_ne_true,
        hself _ fun c hc => hs c (List.mem_of_mem_take hc), ih fun c hc => hs c (List.mem_of_mem_drop hc),
        List.take_append_drop]

/-! ## The block is found -/

lemma dash_notInBody {c : UInt8} (hc : InBody c) : c ≠ 0x2d ∧ c ≠ colon ∧ isBlank c = false := by
  have halphabet : ∀ c ∈ StdEncoding.alphabet, c ≠ 0x2d ∧ c ≠ colon ∧ isBlank c = false := by
    decide +kernel
  rcases hc with h | rfl | rfl
  · exact halphabet c h
  · decide
  · decide

/-- The type line ends with a dash, so nothing is trimmed. -/
lemma getLine_append {line rest : Bytes} (hline : ∀ c ∈ line, c ≠ 0x0a) (hlast : line.getLast? = some 0x2d) :
    getLine (line ++ 0x0a :: rest) = (line, rest) := by
  have htake : (line ++ 0x0a :: rest).takeWhile (· ≠ 0x0a) = line := by
    rw [List.takeWhile_append_of_pos fun c hc => by simpa using hline c hc]
    simp
  have hdrop : (line ++ 0x0a :: rest).dropWhile (· ≠ 0x0a) = 0x0a :: rest := by
    rw [List.dropWhile_append_of_pos fun c hc => by simpa using hline c hc]
    simp
  have hblank : line.rdropWhile isBlank = line := by
    rw [List.rdropWhile_eq_self_iff]
    intro hne
    rw [List.getLast?_eq_some_getLast hne, Option.some.injEq] at hlast
    rw [hlast]
    decide
  simp only [getLine, htake, hdrop, hlast]
  simp [hblank]

lemma colon_notMem_getLine {body rest : Bytes} (hbody : ∀ c ∈ body, InBody c) :
    colon ∉ (getLine (body ++ 0x0a :: rest)).1 := by
  have hline : ∀ c ∈ (body ++ 0x0a :: rest).takeWhile (· ≠ 0x0a), c ∈ body := by
    intro c hc
    rw [List.takeWhile_append] at hc
    split at hc
    · simp at hc
      exact hc
    · exact (List.takeWhile_sublist _).subset hc
  intro h
  simp only [getLine] at h
  have hmem := (List.rdropWhile_prefix _ _).subset h
  have hcolon : colon ∈ (body ++ 0x0a :: rest).takeWhile (· ≠ 0x0a) := by
    split at hmem
    · exact (List.dropLast_sublist _).subset hmem
    · exact hmem
  exact (dash_notInBody (hbody colon (hline colon hcolon))).2.1 rfl

lemma head?_body {body : Bytes} (hbody : ∀ c ∈ body, InBody c) (after : Bytes) :
    (body ++ (pemEnd ++ after)).head? ≠ some 0x2d := by
  cases body with
  | nil => exact (by decide : some (0x0a : UInt8) ≠ some 0x2d)
  | cons d body =>
    have hd := (dash_notInBody (hbody d List.mem_cons_self)).1
    simpa using hd

/-- The end is found where it is, since there are no dashes before it. -/
lemma cut_pemEnd {body after : Bytes} (hbody : ∀ c ∈ body, InBody c) :
    cut pemEnd (body ++ (pemEnd ++ after)) = some (body, after) := by
  induction body with
  | nil => rfl
  | cons c body ih =>
    have hnext := head?_body (fun d hd => hbody d (List.mem_cons_of_mem c hd)) after
    have hprefix : pemEnd.isPrefixOf (c :: (body ++ (pemEnd ++ after))) = false := by
      rw [← Bool.not_eq_true, List.isPrefixOf_iff_prefix]
      rintro ⟨t, ht⟩
      have htail := (List.cons.inj ht).2
      rw [← htail] at hnext
      exact hnext rfl
    rw [List.cons_append, cut, hprefix, if_neg Bool.false_ne_true,
      ih fun d hd => hbody d (List.mem_cons_of_mem c hd)]
    rfl

lemma blockBytes_encode (type : Bytes) {data body : Bytes} (hbody : ∀ c ∈ body, InBody c)
    (hfilter : body.filter (fun c => !isLineEnd c) = StdEncoding.encode data) :
    blockBytes type body (type ++ pemEndOfLine ++ [0x0a]) = some data := by
  have hlen : (type ++ pemEndOfLine).length = type.length + pemEndOfLine.length := List.length_append
  have htake : (type ++ pemEndOfLine ++ [0x0a]).take (type.length + pemEndOfLine.length) = type ++ pemEndOfLine :=
    List.take_left' hlen
  have hdrop : (type ++ pemEndOfLine ++ [0x0a]).drop (type.length + pemEndOfLine.length) = [0x0a] :=
    List.drop_left' hlen
  have hblank : body.filter (fun c => !isBlank c) = body := by
    refine List.filter_eq_self.2 fun c hc => ?_
    rw [(dash_notInBody (hbody c hc)).2.2]
    rfl
  have hfirst : type.isPrefixOf (type ++ pemEndOfLine) = true := List.isPrefixOf_iff_prefix.2 (List.prefix_append _ _)
  have hlast : pemEndOfLine.isSuffixOf (type ++ pemEndOfLine) = true :=
    List.isSuffixOf_iff_suffix.2 (List.suffix_append _ _)
  have hline : (getLine [0x0a]).1 = [] := by decide
  simp only [blockBytes, htake, hdrop, hblank, hfirst, hlast, hline]
  rw [if_neg]
  · exact Encoding.decode_of_filter stdEncoding_lawful hfilter
  · simp

/-- **A block that was written is found.** -/
theorem decode_encode {type : Bytes} (htype : ∀ c ∈ type, c ≠ 0x0a) (data : Bytes) :
    decode (encode type data) = some data := by
  have hbody : ∀ c ∈ wrap data.length (StdEncoding.encode data), InBody c := inBody_wrap inBody_encode
  have hfilter : (wrap data.length (StdEncoding.encode data)).filter (fun c => !isLineEnd c) =
      StdEncoding.encode data := filter_wrap (Encoding.encode_lineEnd stdEncoding_lawful data)
  have hblock := blockBytes_encode type hbody hfilter
  rw [decode, encode]
  generalize wrap data.length (StdEncoding.encode data) = body at hbody hblock ⊢
  have hstart : ∀ s, pemStart.tail.isPrefixOf (pemStart.tail ++ s) = true := fun s =>
    List.isPrefixOf_iff_prefix.2 (List.prefix_append _ s)
  have hline : ∀ s, getLine (type ++ pemEndOfLine ++ 0x0a :: s) = (type ++ pemEndOfLine, s) := by
    intro s
    refine getLine_append (fun c hc => ?_) ?_
    · rcases List.mem_append.1 hc with hc | hc
      · exact htype c hc
      · rw [List.eq_of_mem_replicate hc]
        decide
    · rw [List.getLast?_append]
      rfl
  have hsuffix : pemEndOfLine.isSuffixOf (type ++ pemEndOfLine) = true :=
    List.isSuffixOf_iff_suffix.2 (List.suffix_append _ _)
  have htype' : (type ++ pemEndOfLine).take ((type ++ pemEndOfLine).length - pemEndOfLine.length) = type := by
    rw [List.length_append, Nat.add_sub_cancel, List.take_left' rfl]
  have hheaders : ∀ n after, skipHeaders (n + 1) false (body ++ (pemEnd ++ after)) =
      some (false, body ++ (pemEnd ++ after)) := by
    intro n after
    have hne : body ++ (pemEnd ++ after) ≠ [] := by simp [pemEnd]
    have hcolon : colon ∉ (getLine (body ++ (pemEnd ++ after))).1 := colon_notMem_getLine hbody
    rw [skipHeaders, if_neg hne, if_neg hcolon]
  have hend : ∀ after, pemEnd.tail.isPrefixOf (body ++ (pemEnd ++ after)) = false := by
    intro after
    have hhead := head?_body hbody after
    rw [← Bool.not_eq_true, List.isPrefixOf_iff_prefix]
    rintro ⟨t, ht⟩
    rw [← ht] at hhead
    exact hhead rfl
  simp only [decodeFrom, hstart, if_true, List.drop_left' rfl, hline, hsuffix, not_true_eq_false, if_false, htype',
    hheaders, hend, Bool.false_eq_true, and_false, cut_pemEnd hbody, Option.bind_some, hblock]

end Signatory.Lib.Pem
