import Signatory.Lib.Fallible
import Signatory.Lib.Masks
import Signatory.Signer.Policy

/-!
# `cmd/approve-list-svc`: the list of addresses

The list of the configuration has addresses and networks.  `Addresses` sorts them into two slices, and a source is
looked up in the networks, byte by byte under the mask, and then among the addresses.  All of it comes to one rule on
the 128 bits of an address (`Prefix.Covers`): an entry covers the addresses that begin with its bits, but those of IPv4
only if it has all of the 96 bits that they have in front.  So `::/0` covers no IPv4 address.

* `contains_iff`, `equal_iff`: the two comparisons;
* `approves_iff`: the two loops.
-/

namespace Signatory.ApproveList

open Lib.Masks Lib.Fallible
open Signer (Bytes Error)

/-! ## `net.IP` and `net.IPNet` -/

/-- `net.IP`: nothing, 4 bytes or 16 bytes. -/
abbrev IP := Bytes

def v4InV6Prefix : Bytes := List.replicate 10 0 ++ [0xff, 0xff]

/-- `IP.To4`; nil is `none`. -/
def To4 (ip : IP) : Option IP :=
  if ip.length = 4 then some ip
  else if ip.length = 16 ∧ ip.take 12 = v4InV6Prefix then some (ip.drop 12)
  else none

/-- `IP.To16`. -/
def To16 (ip : IP) : IP := if ip.length = 4 then v4InV6Prefix ++ ip else ip

/-- `IP.Equal`. -/
def Equal (ip x : IP) : Bool :=
  if ip.length = x.length then ip = x
  else if ip.length = 4 ∧ x.length = 16 then x.take 12 = v4InV6Prefix ∧ ip = x.drop 12
  else if ip.length = 16 ∧ x.length = 4 then ip.take 12 = v4InV6Prefix ∧ ip.drop 12 = x
  else false

structure IPNet where
  ip : IP
  mask : Bytes

/-- `networkNumberAndMask`; two nils are two empty lists. -/
def networkNumberAndMask (n : IPNet) : IP × Bytes :=
  let ip := (To4 n.ip).getD n.ip
  if To4 n.ip = none ∧ n.ip.length ≠ 16 then ([], [])
  else if n.mask.length = 4 then if ip.length = 4 then (ip, n.mask) else ([], [])
  else if n.mask.length = 16 then if ip.length = 4 then (ip, n.mask.drop 12) else (ip, n.mask)
  else ([], [])

/-- `IPNet.Contains`. -/
def Contains (n : IPNet) (ip : IP) : Bool :=
  let (nn, m) := networkNumberAndMask n
  let ip := (To4 ip).getD ip
  ip.length = nn.length && masked nn m = masked ip m

/-- `IP.Mask`. -/
def Mask (ip : IP) (m : Bytes) : IP :=
  let m := if m.length = 16 ∧ ip.length = 4 ∧ m.take 12 = List.replicate 12 0xff then m.drop 12 else m
  let ip := if m.length = 4 ∧ ip.length = 16 ∧ ip.take 12 = v4InV6Prefix then ip.drop 12 else ip
  if ip.length ≠ m.length then [] else masked ip m

/-! ## The configuration -/

/-- `netip.Addr` without a zone. -/
structure Addr where
  bytes : Bytes
  length : bytes.length = 4 ∨ bytes.length = 16

/-- What stands in a CIDR text. -/
structure Prefix where
  addr : Addr
  ones : ℕ
  ones_le : ones ≤ 8 * addr.bytes.length

/-- The texts that `net.ParseCIDR` and `net.ParseIP` take. -/
structure NetTexts where
  cidr : String → Option Prefix
  addr : String → Option Addr

/-- `net.ParseCIDR`, with the mask of `net.CIDRMask`. -/
def Prefix.net (p : Prefix) : IPNet where
  ip := Mask (To16 p.addr.bytes) (mask p.ones p.addr.bytes.length)
  mask := mask p.ones p.addr.bytes.length

/-- `net.ParseIP`. -/
def Addr.ip (a : Addr) : IP := To16 a.bytes

/-- `Config.Addresses`, from an entry on. -/
def addressesFrom (texts : NetTexts) (ips : List IP) (nets : List IPNet) :
    List String → Except Error (List IP × List IPNet)
  | [] => return (ips, nets)
  | addr :: list =>
    match texts.cidr addr with
    | some p => addressesFrom texts ips (nets ++ [p.net]) list
    | none =>
      match texts.addr addr with
      | some a => addressesFrom texts (ips ++ [a.ip]) nets list
      | none => throw { text := "invalid address: " ++ addr }

/-- `Config.Addresses`. -/
def Addresses (texts : NetTexts) (list : List String) : Except Error (List IP × List IPNet) :=
  addressesFrom texts [] [] list

/-- The two loops of the handler. -/
def approves (ips : List IP) (nets : List IPNet) (source : IP) : Bool :=
  nets.any (Contains · source) || ips.any (Equal · source)

/-! ## The rule -/

/-- An address of IPv4, in either form. -/
def IsV4 (ip : IP) : Prop := (To16 ip).take 12 = v4InV6Prefix

/-- The number of bits that an entry fixes of the 128. -/
def Prefix.fixed (p : Prefix) : ℕ := if p.addr.bytes.length = 4 then 96 + p.ones else p.ones

/-- **The rule**: the address begins with the bits of the entry, and an address of IPv4 is only covered by an entry that
says so. -/
structure Prefix.Covers (p : Prefix) (ip : IP) : Prop where
  isAddress : ip.length = 4 ∨ ip.length = 16
  bits : (bits (To16 ip)).take p.fixed = (Lib.Masks.bits (To16 p.addr.bytes)).take p.fixed
  family : IsV4 ip → 96 ≤ p.fixed

/-- An address as an entry. -/
def Addr.whole (a : Addr) : Prefix := ⟨a, 8 * a.bytes.length, le_rfl⟩

/-- What an entry of the list stands for. -/
def NetTexts.entry (texts : NetTexts) (addr : String) : Option Prefix :=
  (texts.cidr addr).or ((texts.addr addr).map Addr.whole)

def Listed (texts : NetTexts) (list : List String) (source : IP) : Prop :=
  ∃ addr ∈ list, ∃ p, texts.entry addr = some p ∧ p.Covers source

/-! ## The comparisons -/

/-- The bytes that are compared of an address of 16 bytes: its last four if it is of IPv4. -/
def compared (x : Bytes) : Bytes := if x.take 12 = v4InV6Prefix then x.drop 12 else x

section Address

variable {ip : IP}

lemma length_to16 (h : ip.length = 4 ∨ ip.length = 16) : (To16 ip).length = 16 := by
  rw [To16]
  split
  next h4 => rw [List.length_append, h4]; rfl
  next h4 => exact h.resolve_left h4

lemma to16_of_four (h : ip.length = 4) : To16 ip = v4InV6Prefix ++ ip := if_pos h

lemma to16_of_sixteen (h : ip.length = 16) : To16 ip = ip := if_neg (by omega)

lemma to4_of_four (h : ip.length = 4) : To4 ip = some ip := if_pos h

lemma to4_of_sixteen (h : ip.length = 16) : To4 ip = if ip.take 12 = v4InV6Prefix then some (ip.drop 12) else none := by
  rw [To4, if_neg (by omega)]
  simp only [h, true_and]

lemma getD_to4 (h : ip.length = 4 ∨ ip.length = 16) : (To4 ip).getD ip = compared (To16 ip) := by
  rcases h with h | h
  · have htake : (v4InV6Prefix ++ ip).take 12 = v4InV6Prefix := List.take_left' rfl
    have hdrop : (v4InV6Prefix ++ ip).drop 12 = ip := List.drop_left' rfl
    rw [to4_of_four h, to16_of_four h, compared, if_pos htake, hdrop]
    rfl
  · rw [to4_of_sixteen h, to16_of_sixteen h, compared]
    split <;> rfl

lemma getD_to4_of_not (h4 : ip.length ≠ 4) (h16 : ip.length ≠ 16) : (To4 ip).getD ip = ip := by
  rw [To4, if_neg h4, if_neg fun h => h16 h.1]
  rfl

end Address

lemma take_eq_of_bits {x y : Bytes} {n : ℕ} (hn : 96 ≤ n) (h : (bits x).take n = (bits y).take n) :
    x.take 12 = y.take 12 := by
  refine bits_inj ?_
  have h96 : (bits x).take 96 = (bits y).take 96 := by
    have htake := congrArg (List.take 96) h
    rwa [List.take_take, List.take_take, Nat.min_eq_left hn] at htake
  rw [bits_take, bits_take]
  exact h96

lemma take_bits_iff {x y : Bytes} {n : ℕ} (hx : x.length = 16) (hxy : x.take 12 = y.take 12) :
    (bits x).take n = (bits y).take n ↔ (bits (x.drop 12)).take (n - 96) = (bits (y.drop 12)).take (n - 96) := by
  have hlen : (bits (x.take 12)).length = 96 := by
    rw [length_bits, List.length_take]
    omega
  have hlen' : (bits (y.take 12)).length = 96 := hxy ▸ hlen
  have hsplit : ∀ z : Bytes, bits z = bits (z.take 12) ++ bits (z.drop 12) := fun z => by
    rw [← bits_append, List.take_append_drop]
  rw [hsplit x, hsplit y, List.take_append, List.take_append, hlen, hlen', hxy, List.append_right_inj]

/-! ### Networks -/

lemma mask_of_four {ip : IP} {m : Bytes} (hm : m.length = 4) (hip : ip.length = 16)
    (hv4 : ip.take 12 = v4InV6Prefix) : Mask ip m = masked (ip.drop 12) m := by
  simp [Mask, hm, hip, hv4]

lemma mask_of_sixteen {ip : IP} {m : Bytes} (hm : m.length = 16) (hip : ip.length = 16) : Mask ip m = masked ip m := by
  simp [Mask, hm, hip]

namespace Prefix

variable (p : Prefix)

/-- The entry is compared with the addresses of IPv4. -/
def ForV4 : Prop := IsV4 p.addr.bytes ∧ 96 ≤ p.fixed

lemma mask_eq_drop (h : p.addr.bytes.length = 4) : mask p.ones p.addr.bytes.length = (mask p.fixed 16).drop 12 := by
  rw [fixed, if_pos h, h, (mask_add p.ones 4 : mask (8 * 12 + p.ones) (12 + 4) = _), List.drop_left' (by simp)]

lemma masked_v4InV6Prefix : ∀ n < 96, masked v4InV6Prefix (mask n 12) ≠ v4InV6Prefix := by decide

/-- The masked address is of IPv4 only if the address is, and the mask keeps what shows it. -/
lemma masked_take_iff {x : Bytes} {n : ℕ} (hx : x.length = 16) :
    masked (x.take 12) ((mask n 16).take 12) = v4InV6Prefix ↔ x.take 12 = v4InV6Prefix ∧ 96 ≤ n := by
  have htake : (mask n 16).take 12 = mask n 12 := mask_take n 12 4
  have hlen : (x.take 12).length ≤ 12 := by
    rw [List.length_take]
    omega
  by_cases hn : 96 ≤ n
  · obtain ⟨k, rfl⟩ := Nat.exists_eq_add_of_le hn
    have hones : mask (96 + k) 12 = List.replicate 12 0xff := by
      have h := mask_add (k := 12) k 0
      rwa [mask, List.append_nil] at h
    rw [htake, hones, masked_replicate hlen]
    exact (and_iff_left hn).symm
  · refine iff_of_false (fun h => ?_) fun h => hn h.2
    -- masking twice is masking once
    have htwice : masked (masked (x.take 12) (mask n 12)) (mask n 12) = masked (x.take 12) (mask n 12) := masked_masked
    rw [← htake, h, htake] at htwice
    exact masked_v4InV6Prefix n (by omega) htwice

lemma networkNumberAndMask_net :
    (p.ForV4 → networkNumberAndMask p.net =
        ((masked (To16 p.addr.bytes) (mask p.fixed 16)).drop 12, (mask p.fixed 16).drop 12)) ∧
      (¬ p.ForV4 → networkNumberAndMask p.net =
        (masked (To16 p.addr.bytes) (mask p.fixed 16), mask p.fixed 16)) := by
  rcases p.addr.length with h4 | h16
  · -- the mask of 4 bytes takes the last four bytes of the address
    have hv4 : p.ForV4 := by
      refine ⟨?_, ?_⟩
      · rw [IsV4, to16_of_four h4]
        exact List.take_left' rfl
      · rw [fixed, if_pos h4]
        omega
    have hdrop : (v4InV6Prefix ++ p.addr.bytes).drop 12 = p.addr.bytes := List.drop_left' rfl
    have hip : p.net.ip = masked p.addr.bytes (mask p.ones p.addr.bytes.length) := by
      have hmask := mask_of_four (m := mask p.ones p.addr.bytes.length) (by rw [length_mask, h4])
        (length_to16 p.addr.length) hv4.1
      rw [net, hmask, to16_of_four h4, hdrop]
    have hlen : p.net.ip.length = 4 := by rw [hip, length_masked, length_mask, h4]; rfl
    refine ⟨fun _ => ?_, fun hnot => absurd hv4 hnot⟩
    rw [networkNumberAndMask, to4_of_four hlen]
    simp only [Option.getD_some, reduceCtorEq, false_and, if_false, hlen, if_true]
    rw [if_pos (by rw [net, length_mask, h4]), hip, masked_drop, to16_of_four h4, hdrop, ← p.mask_eq_drop h4]
    rfl
  · have hfixed : p.fixed = p.ones := by rw [fixed, if_neg (by omega)]
    have hmask : p.net.mask = mask p.ones 16 := by rw [net, h16]
    have hip : p.net.ip = masked p.addr.bytes (mask p.ones 16) := by
      rw [net, mask_of_sixteen (by rw [length_mask, h16]) (length_to16 p.addr.length), to16_of_sixteen h16, h16]
    have hlen : p.net.ip.length = 16 := by rw [hip, length_masked, length_mask, h16]; rfl
    have hiff : p.net.ip.take 12 = v4InV6Prefix ↔ p.ForV4 := by
      rw [hip, masked_take, ForV4, IsV4, to16_of_sixteen h16, hfixed]
      exact masked_take_iff h16
    rw [networkNumberAndMask, to4_of_sixteen hlen, to16_of_sixteen h16, hfixed, hmask, ← hip]
    refine ⟨fun hv4 => ?_, fun hv4 => ?_⟩
    · rw [if_pos (hiff.2 hv4)]
      simp [hlen]
    · rw [if_neg fun h => hv4 (hiff.1 h)]
      simp [hlen]

lemma masked_drop_iff {x : Bytes} (hx : x.length = 16) (hn : 96 ≤ p.fixed)
    (htake : x.take 12 = (To16 p.addr.bytes).take 12) :
    masked ((masked (To16 p.addr.bytes) (mask p.fixed 16)).drop 12) ((mask p.fixed 16).drop 12) =
        masked (x.drop 12) ((mask p.fixed 16).drop 12) ↔
      (Lib.Masks.bits x).take p.fixed = (Lib.Masks.bits (To16 p.addr.bytes)).take p.fixed := by
  have ha := length_to16 p.addr.length
  have hmask : (mask p.fixed 16).drop 12 = mask (p.fixed - 96) 4 := by
    obtain ⟨k, hk⟩ := Nat.exists_eq_add_of_le hn
    have hadd : mask (96 + k) 16 = List.replicate 12 0xff ++ mask k 4 := mask_add (k := 12) k 4
    rw [hk, hadd, List.drop_left' (by simp), Nat.add_sub_cancel_left]
  have hlen : ((To16 p.addr.bytes).drop 12).length = 4 := by rw [List.length_drop, ha]
  have hlen' : (x.drop 12).length = 4 := by rw [List.length_drop, hx]
  have hmasked := masked_eq_iff (p.fixed - 96) (hlen'.trans hlen.symm)
  rw [hlen, hlen'] at hmasked
  rw [masked_drop, masked_masked, hmask, take_bits_iff hx htake, ← hmasked]
  exact eq_comm

/-- **A network contains the addresses that its entry covers.** -/
theorem contains_iff {ip : IP} : Contains p.net ip = true ↔ p.Covers ip := by
  obtain ⟨hv4, hv6⟩ := p.networkNumberAndMask_net
  have ha := length_to16 p.addr.length
  have hlen : (masked (To16 p.addr.bytes) (mask p.fixed 16)).length = 16 := by
    rw [length_masked, length_mask, ha]
    rfl
  have hlen4 : ((masked (To16 p.addr.bytes) (mask p.fixed 16)).drop 12).length = 4 := by rw [List.length_drop, hlen]
  simp only [Contains, Bool.and_eq_true, decide_eq_true_eq]
  by_cases hip : ip.length = 4 ∨ ip.length = 16
  · have hx := length_to16 hip
    have hx4 : ((To16 ip).drop 12).length = 4 := by rw [List.length_drop, hx]
    rw [getD_to4 hip, compared]
    by_cases hfour : (To16 ip).take 12 = v4InV6Prefix
    · rw [if_pos hfour]
      by_cases hnet : p.ForV4
      · rw [hv4 hnet, p.masked_drop_iff hx hnet.2 (hfour.trans hnet.1.symm)]
        exact ⟨fun h => ⟨hip, h.2, fun _ => hnet.2⟩, fun h => ⟨hx4.trans hlen4.symm, h.bits⟩⟩
      · -- the lengths differ; and the bits of the entry are not those of an address of IPv4
        rw [hv6 hnet]
        refine iff_of_false (fun h => ?_) fun h => hnet ?_
        · have hl := hx4.symm.trans (h.1.trans hlen)
          omega
        · exact ⟨(take_eq_of_bits (h.family hfour) h.bits).symm.trans hfour, h.family hfour⟩
    · rw [if_neg hfour]
      by_cases hnet : p.ForV4
      · rw [hv4 hnet]
        refine iff_of_false (fun h => ?_) fun h => hfour ?_
        · have hl := hx.symm.trans (h.1.trans hlen4)
          omega
        · exact (take_eq_of_bits hnet.2 h.bits).trans hnet.1
      · have hmasked := masked_eq_iff p.fixed (hx.trans ha.symm)
        rw [hx, ha] at hmasked
        rw [hv6 hnet, masked_masked]
        exact ⟨fun h => ⟨hip, hmasked.1 h.2.symm, fun hf => absurd hf hfour⟩,
          fun h => ⟨hx.trans hlen.symm, (hmasked.2 h.bits).symm⟩⟩
  · obtain ⟨h4, h16⟩ := not_or.1 hip
    rw [getD_to4_of_not h4 h16]
    refine iff_of_false (fun h => ?_) fun h => hip h.isAddress
    by_cases hnet : p.ForV4
    · rw [hv4 hnet] at h
      exact h4 (h.1.trans hlen4)
    · rw [hv6 hnet] at h
      exact h16 (h.1.trans hlen)

end Prefix

/-! ### Addresses -/

lemma fixed_whole (a : Addr) : a.whole.fixed = 128 := by
  have h := a.length
  rcases h with h | h <;> simp [Prefix.fixed, Addr.whole, h]

lemma covers_whole_iff {a : Addr} {ip : IP} :
    a.whole.Covers ip ↔ (ip.length = 4 ∨ ip.length = 16) ∧ To16 ip = To16 a.bytes := by
  have hall : ∀ x : Bytes, x.length = 16 → (bits x).take 128 = bits x := fun x hx =>
    List.take_of_length_le (by rw [length_bits, hx])
  constructor
  · intro h
    have hbits := h.bits
    rw [fixed_whole, hall _ (length_to16 h.isAddress), hall _ (length_to16 a.whole.addr.length)] at hbits
    exact ⟨h.isAddress, bits_inj hbits⟩
  · rintro ⟨hip, heq⟩
    refine ⟨hip, ?_, fun _ => by rw [fixed_whole]; omega⟩
    rw [heq]
    rfl

/-- **`Equal` compares addresses in whichever form.** -/
theorem equal_iff {a : Addr} {ip : IP} : Equal a.ip ip = true ↔ a.whole.Covers ip := by
  have ha : a.ip.length = 16 := length_to16 a.length
  rw [covers_whole_iff, Equal, ha]
  by_cases h16 : ip.length = 16
  · rw [if_pos h16.symm, to16_of_sixteen h16, decide_eq_true_eq]
    exact ⟨fun h => ⟨Or.inr h16, h.symm⟩, fun h => h.2.symm⟩
  · rw [if_neg (fun h => h16 h.symm)]
    by_cases h4 : ip.length = 4
    · simp only [h4, to16_of_four h4]
      simp only [Nat.reduceEqDiff, if_false, and_self, if_true, decide_eq_true_eq, true_or, true_and]
      constructor
      · rintro ⟨htake, hdrop⟩
        rw [← htake, ← hdrop, List.take_append_drop]
        rfl
      · intro h
        have ha' : a.ip = v4InV6Prefix ++ ip := h.symm
        rw [ha']
        exact ⟨List.take_left' rfl, List.drop_left' rfl⟩
    · simp [h4, h16]

/-! ## The list -/

lemma to16_to16 (ip : IP) : To16 (To16 ip) = To16 ip := by
  by_cases h : ip.length = 4
  · exact to16_of_sixteen (length_to16 (Or.inl h))
  · rw [To16, To16, if_neg h, if_neg h]

lemma covers_to16 {p : Prefix} {ip : IP} : p.Covers (To16 ip) ↔ p.Covers ip := by
  have hlen : ((To16 ip).length = 4 ∨ (To16 ip).length = 16) ↔ (ip.length = 4 ∨ ip.length = 16) := by
    by_cases h : ip.length = 4
    · exact iff_of_true (Or.inr (length_to16 (Or.inl h))) (Or.inl h)
    · rw [To16, if_neg h]
  constructor
  · rintro ⟨hip, hbits, hfamily⟩
    rw [IsV4, to16_to16] at hfamily
    exact ⟨hlen.1 hip, by rwa [to16_to16] at hbits, hfamily⟩
  · rintro ⟨hip, hbits, hfamily⟩
    exact ⟨hlen.2 hip, by rwa [to16_to16], by rwa [IsV4, to16_to16]⟩

lemma listed_to16 {texts : NetTexts} {list : List String} {source : IP} :
    Listed texts list (To16 source) ↔ Listed texts list source := by
  simp only [Listed, covers_to16]

lemma approves_append_net {ips : List IP} {nets : List IPNet} {p : Prefix} {source : IP} :
    approves ips (nets ++ [p.net]) source = true ↔ approves ips nets source = true ∨ p.Covers source := by
  simp only [approves, List.any_append, List.any_cons, List.any_nil, Bool.or_false, Bool.or_eq_true, p.contains_iff]
  tauto

lemma approves_append_ip {ips : List IP} {nets : List IPNet} {a : Addr} {source : IP} :
    approves (ips ++ [a.ip]) nets source = true ↔ approves ips nets source = true ∨ a.whole.Covers source := by
  simp only [approves, List.any_append, List.any_cons, List.any_nil, Bool.or_false, Bool.or_eq_true, equal_iff]
  tauto

lemma listed_cons {texts : NetTexts} {addr : String} {list : List String} {p : Prefix} {source : IP}
    (h : texts.entry addr = some p) :
    Listed texts (addr :: list) source ↔ p.Covers source ∨ Listed texts list source := by
  simp only [Listed, List.mem_cons, exists_eq_or_imp, h, Option.some.injEq, exists_eq_left']

/-- **A source is approved if an entry of the list covers it.** -/
theorem approves_iff {texts : NetTexts} {list : List String} {ips : List IP} {nets : List IPNet}
    (h : Addresses texts list = .ok (ips, nets)) (source : IP) :
    approves ips nets source = true ↔ Listed texts list source := by
  -- with what the loop has collected so far
  have hloop : ∀ list ips₀ nets₀, addressesFrom texts ips₀ nets₀ list = .ok (ips, nets) →
      (approves ips nets source = true ↔ approves ips₀ nets₀ source = true ∨ Listed texts list source) := by
    intro list
    induction list with
    | nil =>
      intro ips₀ nets₀ hret
      obtain ⟨rfl, rfl⟩ := Prod.mk.inj (ok_pure_iff.1 hret)
      simp [Listed]
    | cons addr list ih =>
      intro ips₀ nets₀ hret
      rw [addressesFrom] at hret
      cases hcidr : texts.cidr addr with
      | some p =>
        rw [hcidr] at hret
        have hentry : texts.entry addr = some p := by rw [NetTexts.entry, hcidr, Option.some_or]
        rw [ih _ _ hret, approves_append_net, listed_cons hentry, or_assoc]
      | none =>
        rw [hcidr] at hret
        cases haddr : texts.addr addr with
        | some a =>
          rw [haddr] at hret
          have hentry : texts.entry addr = some a.whole := by
            rw [NetTexts.entry, hcidr, haddr, Option.none_or, Option.map_some]
          rw [ih _ _ hret, approves_append_ip, listed_cons hentry, or_assoc]
        | none =>
          rw [haddr] at hret
          cases hret
  rw [hloop list [] [] h]
  simp [approves]

end Signatory.ApproveList
