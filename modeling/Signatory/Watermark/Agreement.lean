import Signatory.Watermark.Aws
import Signatory.Watermark.DoubleSign

/-!
# The store in memory and the table in DynamoDB

`Validate` lets the stored digest through again, the condition of `aws.go` does not.  `dynamoDB_agrees`: with levels and
rounds that are not negative this is the whole difference, over every run.  The two stores hold the same watermarks
(`Same`), and their answers differ exactly at a request that repeats the last accepted one of its triple.
-/

namespace Signatory.Watermark

open Request Hashmap Lib.Machine

variable {PKH Enc : Type} [DecidableEq Enc] [ToComparable PKH Enc] (T : Texts PKH)

namespace AWS

/-- The hash key of a chain and a public key hash. -/
def idxOf (p : ChainID × PKH) : String := "/".intercalate [T.chain p.1, T.pkh p.2]

/-- The item that holds a watermark. -/
def item (chain : ChainID) (pkh : PKH) (kind : String) (wm : Watermark) : AWSWatermark where
  idx := idxOf T (chain, pkh)
  request := kind
  level := wm.level
  round := wm.round
  digest := wm.hash

variable {T}

lemma putItemInput_some {c : Call PKH} {m : WithWatermark} (hm : c.req.asWithWatermark = some m) :
    putItemInput T c = some (item T m.chainID c.pkh m.kind (NewWatermark m c.digest)) := by
  rw [putItemInput, hm, Option.map_some, SignRequest.kind_of_asWithWatermark hm]
  rfl

/-- The table holds the watermarks of the store `w`. -/
def Same (T : Texts PKH) (t : Table) (w : InMemory Enc) : Prop :=
  ∀ chain pkh kind, t (idxOf T (chain, pkh), kind) =
    (w.lookup ⟨chain, toComparable pkh, kind⟩).map (item T chain pkh kind)

section Step

variable {t : Table} {w : InMemory Enc} {c : Call PKH} {m : WithWatermark}

lemma Same.condition (h : Same T t w) {digest : Digest} :
    ConditionExpression (t (idxOf T (m.chainID, c.pkh), m.kind))
        (item T m.chainID c.pkh m.kind (NewWatermark m digest)) = true ↔
      ∀ stored ∈ w.lookup (tripleOf c.pkh m), stored.pos < m.pos := by
  rw [condition_iff, h, tripleOf]
  simp only [Option.mem_def, Option.map_eq_some_iff, forall_exists_index, and_imp, forall_apply_eq_imp_iff₂]
  rfl

lemma Same.answer (h : Same T t w) (hm : c.req.asWithWatermark = some m) :
    (IsSafeToSign T t (c, .none)).1 =
      if ∀ stored ∈ w.lookup (tripleOf c.pkh m), stored.pos < m.pos then .ok () else .error .ErrWatermark := by
  simp only [IsSafeToSign, putItemInput_some hm, putItem]
  exact if_congr h.condition rfl rfl

lemma Same.table (h : Same T t w) (hm : c.req.asWithWatermark = some m) :
    (IsSafeToSign T t (c, .none)).2 =
      if ∀ stored ∈ w.lookup (tripleOf c.pkh m), stored.pos < m.pos then
        Function.update t (idxOf T (m.chainID, c.pkh), m.kind)
          (some (item T m.chainID c.pkh m.kind (NewWatermark m c.digest)))
      else t := by
  simp only [IsSafeToSign, putItemInput_some hm, putItem, serve]
  exact if_congr h.condition rfl rfl

lemma Same.of_lookup (h : Same T t w) {w' : InMemory Enc} (hw : ∀ k, w'.lookup k = w.lookup k) : Same T t w' :=
  fun chain pkh kind => by rw [hw, h]

lemma Same.update (h : Same T t w) (hT : Function.Injective (idxOf T))
    (hmap : Function.Injective (toComparable : PKH → Enc)) {w' : InMemory Enc} {new : Watermark}
    (hw : ∀ k, w'.lookup k = if k = tripleOf c.pkh m then some new else w.lookup k) :
    Same T (Function.update t (idxOf T (m.chainID, c.pkh), m.kind) (some (item T m.chainID c.pkh m.kind new))) w' := by
  intro chain pkh kind
  rw [hw]
  by_cases hk : (chain, pkh) = (m.chainID, c.pkh) ∧ kind = m.kind
  · obtain ⟨hp, rfl⟩ := hk
    obtain ⟨rfl, rfl⟩ := Prod.mk.inj hp
    simp [tripleOf]
  · have hkey : (idxOf T (chain, pkh), kind) ≠ (idxOf T (m.chainID, c.pkh), m.kind) := fun e =>
      hk ⟨hT (Prod.mk.inj e).1, (Prod.mk.inj e).2⟩
    have htriple : (⟨chain, toComparable pkh, kind⟩ : Triple Enc) ≠ tripleOf c.pkh m := fun e => by
      obtain ⟨hchain, hpkh, hkind⟩ := Triple.mk.inj e
      exact hk ⟨by rw [hchain, hmap hpkh], hkind⟩
    rw [Function.update_of_ne hkey, if_neg htriple, h]

end Step

end AWS

/-! ## Where the answers differ -/

open AWS

variable (Enc) in
/-- After the calls `pre`, the call `c` asks again for the last request that was accepted for its triple. -/
def Repeats (pre : List (Call PKH)) (c : Call PKH) : Prop :=
  ∃ m, c.req.asWithWatermark = some m ∧
    (accepted (tripleOf c.pkh m : Triple Enc) (events InMemory.IsSafeToSign ⟨none⟩ pre)).getLast? = some (m, c.digest)

variable {T} {pre : List (Call PKH)} {c : Call PKH} {w : InMemory Enc}

/-- What the store in memory holds after the calls `pre` is the watermark of one of them. -/
lemma lookup_of_run (hw : w = final InMemory.IsSafeToSign ⟨none⟩ pre) {k : Triple Enc} {stored : Watermark}
    (h : w.lookup k = some stored) :
    ∃ a, (accepted k (events InMemory.IsSafeToSign ⟨none⟩ pre)).getLast? = some a ∧ stored = NewWatermark a.1 a.2 ∧
      ∃ c ∈ pre, c.req.asWithWatermark = some a.1 ∧ c.digest = a.2 := by
  rw [hw, lookup_eq_last, Option.map_eq_some_iff] at h
  obtain ⟨a, ha, rfl⟩ := h
  exact ⟨a, ha, rfl, mem_accepted (List.mem_of_getLast? ha)⟩

lemma not_overflows_of_nonneg {l stored : Watermark} (hl : 0 ≤ stored.level) (hr : 0 ≤ stored.round) :
    ¬ l.Overflows stored := by
  rw [Int32.le_iff_toInt_le, Int32.toInt_zero] at hl hr
  have h1 := l.level.toInt_lt
  have h2 := l.round.toInt_lt
  unfold Watermark.Overflows
  omega

/-- A call that does not repeat is judged by its position alone, in memory too. -/
lemma admits_iff_above (hw : w = final InMemory.IsSafeToSign ⟨none⟩ pre) (hnn : ∀ c' ∈ c :: pre, c'.Nonneg)
    (hdet : DigestDetermines (c :: pre)) {m : WithWatermark} (hm : c.req.asWithWatermark = some m)
    (hrep : ¬ Repeats Enc pre c) :
    w.admits (tripleOf c.pkh m) (NewWatermark m c.digest) = true ↔
      ∀ stored ∈ w.lookup (tripleOf c.pkh m), stored.pos < m.pos := by
  rw [admits_iff]
  refine forall₂_congr fun stored hstored => ?_
  obtain ⟨a, hlast, rfl, c', hc', hreq, hdig⟩ := lookup_of_run hw hstored
  obtain ⟨hl, hr⟩ := hnn c List.mem_cons_self m hm
  obtain ⟨hl', hr'⟩ := hnn c' (List.mem_cons_of_mem _ hc') a.1 hreq
  have hne : a.2 ≠ c.digest := by
    intro e
    have hsame := hdet c' (List.mem_cons_of_mem _ hc') c List.mem_cons_self (hdig.trans e)
    rw [hsame, hm] at hreq
    have ha : a = (m, c.digest) := Prod.ext (Option.some.inj hreq).symm e
    exact hrep ⟨m, hm, ha ▸ hlast⟩
  have hunder : ¬ (NewWatermark m c.digest).Underflows (NewWatermark a.1 a.2) :=
    Watermark.not_underflows_of_nonneg hl hr
  have hover : ¬ (NewWatermark m c.digest).Overflows (NewWatermark a.1 a.2) := not_overflows_of_nonneg hl' hr'
  rw [Watermark.validate_iff]
  constructor
  · rintro (⟨d, hd, hd'⟩ | ⟨hlt, -⟩ | h)
    · exact absurd ((Option.some.inj hd').trans (Option.some.inj hd).symm) hne
    · exact hlt
    · exact absurd h hunder
  · intro hlt
    exact Or.inr (Or.inl ⟨hlt, hover⟩)

/-- A call that repeats finds its own watermark, which lets it through. -/
lemma admits_of_repeats (hw : w = final InMemory.IsSafeToSign ⟨none⟩ pre) {m : WithWatermark}
    (hm : c.req.asWithWatermark = some m) (hrep : Repeats Enc pre c) :
    w.lookup (tripleOf c.pkh m) = some (NewWatermark m c.digest) ∧
      w.admits (tripleOf c.pkh m) (NewWatermark m c.digest) = true := by
  obtain ⟨m', hm', hlast⟩ := hrep
  obtain rfl := Option.some.inj (hm.symm.trans hm')
  have hstored : w.lookup (tripleOf c.pkh m) = some (NewWatermark m c.digest) := by
    rw [hw, lookup_eq_last, hlast, Option.map_some]
  refine ⟨hstored, admits_iff.2 fun stored e => ?_⟩
  obtain rfl := Option.some.inj (hstored.symm.trans e)
  exact (Watermark.validate_iff _ _).2 (Or.inl ⟨c.digest, rfl, rfl⟩)

/-- The answers of the table and of the store to a call agree, unless the call repeats. -/
def AgreeUpToRepeats (Enc : Type) [DecidableEq Enc] [ToComparable PKH Enc] (pre : List (Call PKH)) (c : Call PKH)
    (table store : Except Err Unit) : Prop :=
  (¬ Repeats Enc pre c → table = store) ∧ (Repeats Enc pre c → table = .error .ErrWatermark ∧ store = .ok ())

/-- **One call**: the answers differ if it repeats, and the stores hold the same afterwards. -/
lemma Same.call (hT : Function.Injective (idxOf T)) (hmap : Function.Injective (toComparable : PKH → Enc))
    (hw : w = final InMemory.IsSafeToSign ⟨none⟩ pre) (hnn : ∀ c' ∈ c :: pre, c'.Nonneg)
    (hdet : DigestDetermines (c :: pre)) {t : Table} (h : Same T t w) :
    AgreeUpToRepeats Enc pre c (IsSafeToSign T t (c, .none)).1 (w.IsSafeToSign c).1 ∧
      Same T (IsSafeToSign T t (c, .none)).2 (w.IsSafeToSign c).2 := by
  cases hm : c.req.asWithWatermark with
  | none =>
    have hrep : ¬ Repeats Enc pre c := fun ⟨m, hm', _⟩ => by simp [hm] at hm'
    rw [step_of_none hm]
    simpa [AgreeUpToRepeats, IsSafeToSign, putItemInput, hm, hrep] using h
  | some m =>
    have hlookup := step_lookup (w := w) hm
    rw [h.answer hm, h.table hm, step_answer hm]
    by_cases hrep : Repeats Enc pre c
    · -- the position is the stored one: the table refuses, and the store writes what it held
      obtain ⟨hstored, hadm⟩ := admits_of_repeats hw hm hrep
      have hnot : ¬ ∀ stored ∈ w.lookup (tripleOf c.pkh m), stored.pos < m.pos := fun hall =>
        lt_irrefl _ (hall _ hstored)
      rw [if_neg hnot, if_neg hnot, if_pos hadm]
      refine ⟨⟨fun hno => absurd hrep hno, fun _ => ⟨rfl, rfl⟩⟩, h.of_lookup fun k => ?_⟩
      rw [hlookup]
      split
      case isTrue hk => rw [hk.2, hstored]
      case isFalse => rfl
    · have habove := admits_iff_above hw hnn hdet hm hrep
      by_cases hadm : w.admits (tripleOf c.pkh m) (NewWatermark m c.digest) = true
      · rw [if_pos (habove.1 hadm), if_pos (habove.1 hadm), if_pos hadm]
        refine ⟨⟨fun _ => rfl, fun hyes => absurd hyes hrep⟩, h.update hT hmap fun k => ?_⟩
        rw [hlookup]
        simp [hadm]
      · rw [if_neg (habove.not.1 hadm), if_neg (habove.not.1 hadm), if_neg hadm]
        refine ⟨⟨fun _ => rfl, fun hyes => absurd hyes hrep⟩, h.of_lookup fun k => ?_⟩
        rw [hlookup, if_neg (fun hk => hadm hk.1)]

lemma same_run (hT : Function.Injective (idxOf T)) (hmap : Function.Injective (toComparable : PKH → Enc))
    (hnn : ∀ c ∈ pre, c.Nonneg) (hdet : DigestDetermines pre) :
    Same T (final (IsSafeToSign T) (fun _ => none) (pre.map fun c => (c, .none)))
      (final InMemory.IsSafeToSign (⟨none⟩ : InMemory Enc) pre) := by
  induction pre using List.reverseRecOn with
  | nil => exact fun _ _ _ => rfl
  | append_singleton pre c ih =>
    have hmem : ∀ c' ∈ c :: pre, c' ∈ pre ++ [c] := fun c' h => by simpa [or_comm] using h
    have hsame := ih (fun c' h => hnn c' (by simp [h])) fun a ha b hb => hdet a (by simp [ha]) b (by simp [hb])
    rw [List.map_append, List.map_singleton, final_snoc, final_snoc]
    exact (Same.call hT hmap rfl (fun c' h => hnn c' (hmem c' h))
      (fun a ha b hb => hdet a (hmem a ha) b (hmem b hb)) hsame).2

/-- **The table in DynamoDB and the store in memory decide alike, repetitions apart.**  After any run of calls with
levels and rounds that are not negative, a call gets the same answer from both, unless it asks again for the last
request accepted for its chain, key and kind: the store lets that through once more, the table refuses it. -/
theorem dynamoDB_agrees (hT : Function.Injective (idxOf T)) (hmap : Function.Injective (toComparable : PKH → Enc))
    (hnn : ∀ c' ∈ c :: pre, c'.Nonneg) (hdet : DigestDetermines (c :: pre)) :
    AgreeUpToRepeats Enc pre c
      (IsSafeToSign T (final (IsSafeToSign T) (fun _ => none) (pre.map fun c => (c, .none))) (c, .none)).1
      ((final InMemory.IsSafeToSign (⟨none⟩ : InMemory Enc) pre).IsSafeToSign c).1 :=
  (Same.call hT hmap rfl hnn hdet (same_run hT hmap (fun c' h => hnn c' (List.mem_cons_of_mem _ h))
    fun a ha b hb => hdet a (List.mem_cons_of_mem _ ha) b (List.mem_cons_of_mem _ hb))).1

/-- Chains and keys in unary. -/
def unaryTexts : Texts EncodedPublicKeyHash where
  chain c := String.ofList (List.replicate c.toNat 'x')
  pkh k := String.ofList (List.replicate k.toNat 'y')

lemma idxOf_unaryTexts : Function.Injective (idxOf unaryTexts) := by
  have hlist : ∀ p, (idxOf unaryTexts p).toList =
      List.replicate p.1.toNat 'x' ++ ['/'] ++ List.replicate p.2.toNat 'y' := by
    intro p
    simp [idxOf, unaryTexts]
  intro p q h
  have hpq := congrArg String.toList h
  rw [hlist, hlist] at hpq
  have hx := congrArg (List.count 'x') hpq
  have hy := congrArg (List.count 'y') hpq
  simp [List.count_replicate] at hx hy
  exact Prod.ext (BitVec.eq_of_toNat_eq hx) (BitVec.eq_of_toNat_eq hy)

/-- The block of level 2 is asked for twice: in memory it is let through again, and the table refuses it. -/
theorem dynamoDB_agrees_block :
    Repeats EncodedPublicKeyHash [blockCall 1 1, blockCall 2 2] (blockCall 2 2) ∧
      (IsSafeToSign unaryTexts (final (IsSafeToSign unaryTexts) (fun _ => none)
        ([blockCall 1 1, blockCall 2 2].map fun c => (c, .none))) (blockCall 2 2, .none)).1 = .error .ErrWatermark := by
  have hrep : Repeats EncodedPublicKeyHash [blockCall 1 1, blockCall 2 2] (blockCall 2 2) :=
    ⟨⟨"block", 0, 2, 0⟩, rfl, rfl⟩
  refine ⟨hrep, ((dynamoDB_agrees idxOf_unaryTexts (fun _ _ e => e) ?_ ?_).2 hrep).1⟩
  · intro c hc m hm
    fin_cases hc <;> cases hm <;> decide
  · unfold DigestDetermines
    decide

end Signatory.Watermark
