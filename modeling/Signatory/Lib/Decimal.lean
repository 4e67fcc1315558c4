import Mathlib.Tactic

/-!
# Decimal numbers as text

`format` and `parse` are `strconv.FormatUint` and `strconv.ParseUint` with base ten, on ASCII.  A number that is parsed
must not be greater than `max`; leading zeros are read over.
-/

namespace Signatory.Lib.Decimal

def digit (d : ℕ) : UInt8 := UInt8.ofNat (0x30 + d)

def IsDigit (c : UInt8) : Prop := 0x30 ≤ c.toNat ∧ c.toNat ≤ 0x39

instance : DecidablePred IsDigit := fun _ => inferInstanceAs (Decidable (_ ∧ _))

def format (n : ℕ) : List UInt8 := if n < 10 then [digit n] else format (n / 10) ++ [digit (n % 10)]

variable (max : ℕ)

/-- A digit after those that make `n`. -/
def push (n : ℕ) (c : UInt8) : Option ℕ :=
  if IsDigit c ∧ n * 10 + (c.toNat - 0x30) ≤ max then some (n * 10 + (c.toNat - 0x30)) else none

def parse (s : List UInt8) : Option ℕ := if s = [] then none else s.foldlM (push max) 0

lemma toNat_digit {d : ℕ} (h : d < 10) : (digit d).toNat = 0x30 + d := by
  rw [digit, UInt8.toNat_ofNat']
  omega

lemma isDigit_digit {d : ℕ} (h : d < 10) : IsDigit (digit d) := by
  unfold IsDigit
  rw [toNat_digit h]
  omega

lemma format_ne_nil (n : ℕ) : format n ≠ [] := by
  rw [format]
  split <;> simp

lemma isDigit_of_mem_format {n : ℕ} : ∀ c ∈ format n, IsDigit c := by
  induction n using Nat.strong_induction_on with
  | _ n ih =>
    intro c hc
    rw [format] at hc
    split at hc
    next hn =>
      obtain rfl := List.mem_singleton.1 hc
      exact isDigit_digit hn
    next hn =>
      rcases List.mem_append.1 hc with hc | hc
      · exact ih (n / 10) (by omega) c hc
      · obtain rfl := List.mem_singleton.1 hc
        exact isDigit_digit (Nat.mod_lt _ (by decide))

variable {max}

lemma push_digit {n d : ℕ} (hd : d < 10) (h : n * 10 + d ≤ max) : push max n (digit d) = some (n * 10 + d) := by
  have hvalue : (digit d).toNat - 0x30 = d := by
    rw [toNat_digit hd]
    omega
  rw [push, hvalue, if_pos ⟨isDigit_digit hd, h⟩]

/-- The digits are read from the first one on, so the induction takes the last one off. -/
lemma foldlM_format {n : ℕ} (h : n ≤ max) : (format n).foldlM (push max) 0 = some n := by
  induction n using Nat.strong_induction_on with
  | _ n ih =>
    rw [format]
    split
    next hn =>
      have hpush := push_digit (n := 0) hn (by omega : 0 * 10 + n ≤ max)
      simp only [List.foldlM_cons, List.foldlM_nil, hpush]
      simp
    next hn =>
      have hpush := push_digit (n := n / 10) (Nat.mod_lt n (by decide : 0 < 10)) (by omega : n / 10 * 10 + n % 10 ≤ max)
      rw [List.foldlM_append, ih (n / 10) (by omega) (by omega)]
      simp only [List.foldlM_cons, List.foldlM_nil, Option.bind_eq_bind, Option.bind_some, hpush]
      rw [Nat.div_add_mod']
      rfl

/-- **What is formatted is parsed.** -/
theorem parse_format {n : ℕ} (h : n ≤ max) : parse max (format n) = some n := by
  rw [parse, if_neg (format_ne_nil n), foldlM_format h]

lemma le_of_foldlM {s : List UInt8} {m n : ℕ} (hm : m ≤ max) (h : s.foldlM (push max) m = some n) : n ≤ max := by
  induction s generalizing m with
  | nil =>
    obtain rfl : m = n := Option.some.inj h
    exact hm
  | cons c s ih =>
    rw [List.foldlM_cons] at h
    obtain ⟨k, hk, h⟩ := Option.bind_eq_some_iff.1 h
    unfold push at hk
    split at hk
    next hpush =>
      cases hk
      exact ih hpush.2 h
    · cases hk

lemma parse_le {s : List UInt8} {n : ℕ} (h : parse max s = some n) : n ≤ max := by
  unfold parse at h
  split at h
  · cases h
  · exact le_of_foldlM (Nat.zero_le _) h

end Signatory.Lib.Decimal
