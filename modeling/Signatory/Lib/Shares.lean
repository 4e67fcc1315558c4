import Mathlib.Tactic

/-!
# Payloads that share a message

A message of `need` items comes in payloads with room for `size` items each, the first one for `room`.  `shares` is what
is taken of each payload, in order.  A payload that is shorter than its share makes the whole too short, so payloads
give the same message as longer ones only if they suffice: `flatten_shares_eq_iff`.
-/

namespace Signatory.Lib.Shares

variable {β : Type*} (size : ℕ)

def shares : ℕ → ℕ → List (List β) → List (List β)
  | _, _, [] => []
  | room, need, p :: ps => p.take (min room need) :: shares size (need - room) ps

/-- No payload is shorter than its share. -/
def Suffice : ℕ → ℕ → List (List β) → Prop
  | _, _, [] => True
  | room, need, p :: ps => min room need ≤ p.length ∧ Suffice size (need - room) ps

instance decidableSuffice (room need : ℕ) (ps : List (List β)) : Decidable (Suffice size room need ps) :=
  match ps with
  | [] => inferInstanceAs (Decidable True)
  | _ :: ps =>
    have := decidableSuffice size (need - room) ps
    inferInstanceAs (Decidable (_ ∧ _))

variable {ps qs : List (List β)}

lemma length_flatten_shares_le (h : List.Forall₂ (· <+: ·) ps qs) (room need : ℕ) :
    (shares size room need ps).flatten.length ≤ (shares size room need qs).flatten.length := by
  induction h generalizing room need with
  | nil => rfl
  | cons hpq h ih =>
    have htail := ih size (need - room)
    have hhead := hpq.length_le
    simp only [shares, List.flatten_cons, List.length_append, List.length_take]
    omega

variable {size} {room need : ℕ}

lemma suffice_of_full (h : ∀ p ∈ ps, size ≤ p.length) : Suffice size size need ps := by
  induction ps generalizing need with
  | nil => trivial
  | cons p ps ih =>
    refine ⟨?_, ih fun q hq => h q (List.mem_cons_of_mem _ hq)⟩
    exact (min_le_left _ _).trans (h p List.mem_cons_self)

/-- **Payloads that are cut short are missed.**  Let the payloads `qs` suffice, and `ps` be beginnings of them. -/
theorem flatten_shares_eq_iff (h : List.Forall₂ (· <+: ·) ps qs) (hq : Suffice size room need qs) :
    (shares size room need ps).flatten = (shares size room need qs).flatten ↔ Suffice size room need ps := by
  induction h generalizing room need with
  | nil => exact iff_of_true rfl trivial
  | @cons p q ps qs hpq h ih =>
    obtain ⟨hhead, htail⟩ := hq
    show p.take (min room need) ++ _ = q.take (min room need) ++ _ ↔
      min room need ≤ p.length ∧ Suffice size size (need - room) ps
    by_cases hlen : min room need ≤ p.length
    · have htake : p.take (min room need) = q.take (min room need) := by
        obtain ⟨more, rfl⟩ := hpq
        rw [List.take_append_of_le_length hlen]
      rw [htake, List.append_cancel_left_eq, ih htail]
      exact (and_iff_right hlen).symm
    · refine iff_of_false ?_ fun hand => hlen hand.1
      -- the first share is too short, and no later one makes up for it
      intro heq
      have hle := length_flatten_shares_le size h size (need - room)
      have hsame := congrArg List.length heq
      simp only [List.length_append, List.length_take] at hsame
      omega

end Signatory.Lib.Shares
