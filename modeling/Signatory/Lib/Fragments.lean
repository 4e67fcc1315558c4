import Mathlib.Tactic

/-!
# Messages in pieces

`Cut max whole ps` says that the pieces `ps` are those that have been cut off a message so far: none of them is empty
or longer than `max`, in order they begin the message, and the flag of a piece says whether it is the one that completes
it.
-/

namespace Signatory.Lib.Fragments

variable {β : Type*} {max : ℕ}

inductive Cut (max : ℕ) : List β → List (List β × Bool) → Prop
  | begun (whole : List β) : Cut max whole []
  | last {piece : List β} (hne : piece ≠ []) (hle : piece.length ≤ max) : Cut max piece [(piece, true)]
  | next {piece rest : List β} {ps : List (List β × Bool)} (hne : piece ≠ []) (hle : piece.length ≤ max)
    (hrest : rest ≠ []) (h : Cut max rest ps) : Cut max (piece ++ rest) ((piece, false) :: ps)

/-- The message as far as it has been cut. -/
def joined (ps : List (List β × Bool)) : List β := ps.flatMap Prod.fst

@[simp] lemma joined_nil : joined ([] : List (List β × Bool)) = [] := rfl
@[simp] lemma joined_cons (p : List β × Bool) (ps : List (List β × Bool)) : joined (p :: ps) = p.1 ++ joined ps := rfl

/-- One more piece in front; if it is the whole message, no other follows. -/
lemma Cut.take {whole : List β} {ps : List (List β × Bool)} {n : ℕ} (hpos : 0 < n) (hle : n ≤ max)
    (hn : n ≤ whole.length) (h : Cut max (whole.drop n) ps) (hend : n = whole.length → ps = []) :
    Cut max whole ((whole.take n, decide (n = whole.length)) :: ps) := by
  have hlen : (whole.take n).length = n := by
    rw [List.length_take]
    omega
  have hne : whole.take n ≠ [] := by
    intro hnil
    rw [hnil, List.length_nil] at hlen
    omega
  by_cases hall : n = whole.length
  · obtain rfl := hend hall
    have htake : whole.take n = whole := List.take_of_length_le (by omega)
    rw [decide_eq_true hall, htake]
    rw [htake] at hne
    exact Cut.last hne (by omega)
  · rw [decide_eq_false hall]
    have hrest : whole.drop n ≠ [] := by
      intro hnil
      have hdrop := congrArg List.length hnil
      rw [List.length_drop, List.length_nil] at hdrop
      omega
    have hcut := Cut.next hne (by omega) hrest h
    rwa [List.take_append_drop] at hcut

variable {whole : List β} {ps : List (List β × Bool)}

lemma Cut.mem (h : Cut max whole ps) : ∀ p ∈ ps, p.1 ≠ [] ∧ p.1.length ≤ max := by
  induction h with
  | begun whole =>
    intro p hp
    cases hp
  | last hne hle =>
    intro p hp
    obtain rfl := List.mem_singleton.1 hp
    exact ⟨hne, hle⟩
  | next hne hle hrest h ih =>
    intro p hp
    rcases List.mem_cons.1 hp with rfl | hp
    · exact ⟨hne, hle⟩
    · exact ih p hp

/-- **The pieces begin the message.** -/
lemma Cut.joined_prefix_whole (h : Cut max whole ps) : joined ps <+: whole := by
  induction h with
  | begun whole => exact List.nil_prefix
  | last hne hle => simp
  | next hne hle hrest h ih =>
    rw [joined_cons]
    exact (List.prefix_append_right_inj _).2 ih

/-- **The flag is that of the completing piece.** -/
lemma Cut.flag_iff (h : Cut max whole ps) {i : ℕ} {p : List β × Bool} (hp : ps[i]? = some p) :
    p.2 = true ↔ joined (ps.take (i + 1)) = whole := by
  induction h generalizing i with
  | begun whole => cases hp
  | last hne hle =>
    cases i with
    | zero =>
      cases hp
      simp
    | succ i => cases hp
  | @next piece rest ps hne hle hrest h ih =>
    cases i with
    | zero =>
      cases hp
      simp [hrest]
    | succ i =>
      rw [List.getElem?_cons_succ] at hp
      rw [ih hp, List.take_succ_cons, joined_cons, List.append_cancel_left_eq]

end Signatory.Lib.Fragments
