import Mathlib.Tactic

/-!
# Self-delimiting byte strings

* `PrefixFree`: no code word is a proper prefix of another, so a code word can be told from what follows it
  (`PrefixFree.append_inj`);
* `frame`: a body behind its length in four bytes, most significant first; the length is reduced modulo `2^32`;
* `frames`: the bodies of the complete frames at the front of a byte stream, which for a stream of frames with
  bodies shorter than `2^32` bytes are all of them (`frames_flatten`);
* `answers`: the byte stream of a party that answers every frame with one frame, in order.
-/

namespace Signatory.Lib.Framing

/-! ## Prefix-free codes -/

section PrefixFree

variable {α β : Type*}

/-- `Codes a x`: the word `x` stands for `a`. -/
def PrefixFree (Codes : α → List β → Prop) : Prop :=
  ∀ a b x y, Codes a x → Codes b y → x <+: y → a = b ∧ x = y

theorem PrefixFree.append_inj {Codes : α → List β → Prop} (h : PrefixFree Codes) {a b : α} {x y s t : List β}
    (hx : Codes a x) (hy : Codes b y) (e : x ++ s = y ++ t) : a = b ∧ s = t := by
  rcases List.prefix_or_prefix_of_prefix (List.prefix_append x s) (e ▸ List.prefix_append y t) with hp | hp
  · obtain ⟨rfl, rfl⟩ := h a b x y hx hy hp
    exact ⟨rfl, List.append_cancel_left e⟩
  · obtain ⟨rfl, rfl⟩ := h b a y x hy hx hp
    exact ⟨rfl, List.append_cancel_left e⟩

end PrefixFree

/-! ## Frames -/

/-- Four bytes, most significant first. -/
def be32 (n : ℕ) : List UInt8 :=
  [UInt8.ofNat (n / 2 ^ 24), UInt8.ofNat (n / 2 ^ 16), UInt8.ofNat (n / 2 ^ 8), UInt8.ofNat n]

def ofBE32 : List UInt8 → ℕ
  | [a, b, c, d] => ((a.toNat * 256 + b.toNat) * 256 + c.toNat) * 256 + d.toNat
  | _ => 0

lemma length_be32 (n : ℕ) : (be32 n).length = 4 := rfl

lemma ofBE32_be32 {n : ℕ} (h : n < 2 ^ 32) : ofBE32 (be32 n) = n := by
  simp only [be32, ofBE32, UInt8.toNat_ofNat']
  omega

def frame (body : List UInt8) : List UInt8 := be32 body.length ++ body

lemma length_frame (body : List UInt8) : (frame body).length = 4 + body.length := by
  simp [frame, length_be32]

/-- The first `n` bytes of a stream, if it has as many, and the rest. -/
def readFull (n : ℕ) (s : List UInt8) : Option (List UInt8 × List UInt8) :=
  if s.length < n then none else some (s.take n, s.drop n)

lemma readFull_append (x rest : List UInt8) : readFull x.length (x ++ rest) = some (x, rest) := by
  simp [readFull]

lemma length_of_readFull {n : ℕ} {s x rest : List UInt8} (h : readFull n s = some (x, rest)) :
    x.length = n ∧ s.length = n + rest.length := by
  unfold readFull at h
  split at h
  · cases h
  · obtain ⟨rfl, rfl⟩ := Prod.mk.inj (Option.some.inj h)
    constructor
    · rw [List.length_take]
      omega
    · rw [List.length_drop]
      omega

/-- The body of the first frame of a stream, if the frame is complete, and the rest. -/
def unframe (s : List UInt8) : Option (List UInt8 × List UInt8) :=
  match readFull 4 s with
  | none => none
  | some (lenBuf, s') => readFull (ofBE32 lenBuf) s'

lemma unframe_frame_append {body : List UInt8} (h : body.length < 2 ^ 32) (rest : List UInt8) :
    unframe (frame body ++ rest) = some (body, rest) := by
  have hlen : readFull 4 (frame body ++ rest) = some (be32 body.length, body ++ rest) := by
    unfold frame
    rw [List.append_assoc]
    exact readFull_append (be32 body.length) (body ++ rest)
  unfold unframe
  rw [hlen]
  simp only [ofBE32_be32 h]
  exact readFull_append body rest

lemma unframe_take_frame {body body' rest : List UInt8} (h : body.length < 2 ^ 32) {n : ℕ}
    (hu : unframe ((frame body).take n) = some (body', rest)) : body' = body := by
  by_cases hn : (frame body).length ≤ n
  · rw [List.take_of_length_le hn, ← List.append_nil (frame body), unframe_frame_append h] at hu
    exact (congrArg Prod.fst (Option.some.inj hu)).symm
  · exfalso
    rw [length_frame] at hn
    unfold unframe readFull at hu
    by_cases h4 : n < 4
    · have hlen : ((frame body).take n).length < 4 := by
        rw [List.length_take]
        omega
      simp only [if_pos hlen] at hu
      cases hu
    · have hlen : ¬((frame body).take n).length < 4 := by
        rw [List.length_take, length_frame]
        omega
      have hhead : ((frame body).take n).take 4 = be32 body.length := by
        rw [List.take_take, min_eq_left (by omega)]
        exact List.take_left' (length_be32 body.length)
      have htail : (((frame body).take n).drop 4).length < body.length := by
        rw [List.length_drop, List.length_take, length_frame]
        omega
      simp only [if_neg hlen, hhead, ofBE32_be32 h, if_pos htail] at hu
      cases hu

lemma length_of_unframe {s body rest : List UInt8} (h : unframe s = some (body, rest)) :
    s.length = 4 + body.length + rest.length := by
  unfold unframe at h
  cases h4 : readFull 4 s with
  | none => simp [h4] at h
  | some r =>
    obtain ⟨lenBuf, s'⟩ := r
    simp only [h4] at h
    have h1 := length_of_readFull h4
    have h2 := length_of_readFull h
    omega

/-- At most `fuel` frames. -/
def framesUpTo : ℕ → List UInt8 → List (List UInt8)
  | 0, _ => []
  | fuel + 1, s =>
    match unframe s with
    | none => []
    | some (body, rest) => body :: framesUpTo fuel rest

/-- A frame takes four bytes at least, so the length of the stream bounds the number of its frames. -/
def frames (s : List UInt8) : List (List UInt8) := framesUpTo s.length s

/-- More fuel than bytes makes no difference. -/
lemma framesUpTo_eq (n m : ℕ) (s : List UInt8) (hn : s.length ≤ n) (hm : s.length ≤ m) :
    framesUpTo n s = framesUpTo m s := by
  induction n generalizing m s with
  | zero =>
    obtain rfl : s = [] := List.length_eq_zero_iff.1 (by omega)
    cases m <;> rfl
  | succ n ih =>
    cases m with
    | zero =>
      obtain rfl : s = [] := List.length_eq_zero_iff.1 (by omega)
      rfl
    | succ m =>
      unfold framesUpTo
      cases hu : unframe s with
      | none => rfl
      | some r =>
        obtain ⟨body, rest⟩ := r
        have hlen := length_of_unframe hu
        simp only
        rw [ih m rest (by omega) (by omega)]

lemma frames_frame_append {body : List UInt8} (h : body.length < 2 ^ 32) (rest : List UInt8) :
    frames (frame body ++ rest) = body :: frames rest := by
  have hlen : (frame body ++ rest).length = (3 + body.length + rest.length) + 1 := by
    rw [List.length_append, length_frame]
    omega
  unfold frames
  rw [hlen, framesUpTo, unframe_frame_append h]
  simp only
  rw [framesUpTo_eq _ rest.length rest (by omega) le_rfl]

/-- **A stream of frames** is taken apart as it was put together. -/
theorem frames_flatten {bodies : List (List UInt8)} (h : ∀ b ∈ bodies, b.length < 2 ^ 32) :
    frames (bodies.map frame).flatten = bodies := by
  induction bodies with
  | nil => rfl
  | cons b bodies ih =>
    rw [List.map_cons, List.flatten_cons, frames_frame_append (h b List.mem_cons_self),
      ih fun b' hb' => h b' (List.mem_cons_of_mem _ hb')]

/-! ## One answer for each frame -/

/-- What `respond`, which is shown all requests up to the one to be answered, puts on the stream back. -/
def answers (respond : List (List UInt8) → List UInt8) (requests : List (List UInt8)) : List UInt8 :=
  (List.range requests.length).flatMap fun j => frame (respond (requests.take (j + 1)))

lemma answers_snoc (respond : List (List UInt8) → List UInt8) (requests : List (List UInt8)) (r : List UInt8) :
    answers respond (requests ++ [r]) = answers respond requests ++ frame (respond (requests ++ [r])) := by
  unfold answers
  rw [List.length_append, List.length_singleton, List.range_succ, List.flatMap_append]
  congr 1
  · refine List.flatMap_congr fun j hj => ?_
    have hj' := List.mem_range.1 hj
    rw [List.take_append_of_le_length (by omega)]
  · simp [List.take_of_length_le]

end Signatory.Lib.Framing
