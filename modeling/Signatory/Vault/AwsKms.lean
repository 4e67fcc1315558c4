import Signatory.Cryptoutils.Pkcs
import Signatory.Lib.Listing

/-!
# The keys of AWS KMS

`awsKMSIterator` reads the pages of `ListKeys` and asks for the public key of every key in them.  The index is not set
back when a page is fetched, and a page is read from without a look at its length: the keys before the index are passed
over, and a page that is not longer panics.  An RSA key for signing ends the listing, since the error of the parser is
not the one that is compared with.  When none of this happens is `InStep`, and just then every key is listed:
`keys_listed_iff_inStep`.
-/

namespace Signatory.Vault.AwsKms

open Lib Lib.Listing
open Cryptoutils
open Signer (Bytes Error)

/-! ## The service -/

inductive KeyUsage where
  | SIGN_VERIFY
  | ENCRYPT_DECRYPT
  | GENERATE_VERIFY_MAC
  | KEY_AGREEMENT
  deriving DecidableEq

structure GetPublicKeyOutput where
  keyId : String
  keyUsage : KeyUsage
  publicKey : Bytes
  deriving DecidableEq

/-- `ListKeysOutput`, with the ids of the keys. -/
structure ListKeysOutput where
  keys : List String
  nextMarker : Option String

/-- An error of the service with its code, another error of a call, `ErrUnsupportedKeyUsage`, or one of
`cryptoutils`. -/
inductive AwsError where
  | api (code : String) (e : Error)
  | plain (e : Error)
  | unsupportedKeyUsage
  | crypt (e : CryptError)
  deriving DecidableEq

/-- The calls that list the keys, whose answers do not change meanwhile. -/
structure Client where
  ListKeys : Option String → Except AwsError ListKeysOutput
  GetPublicKey : String → Except AwsError GetPublicKeyOutput

/-! ## The iterator -/

/-- `awsKMSKey`. -/
structure AwsKmsKey where
  key : GetPublicKeyOutput
  pub : PublicKey
  deriving DecidableEq

/-- `awsKMSIterator`. -/
structure AwsKmsIterator where
  lko : Option ListKeysOutput := none
  index : ℕ := 0

def skippedCodes : List String :=
  ["AccessDeniedException", "UnsupportedOperationException", "DisabledException", "KMSInvalidStateException",
    "NotFoundException", "InvalidKeyUsageException"]

/-- The errors at which the next key is read. -/
def AwsError.skipped : AwsError → Bool
  | .api code _ => code ∈ skippedCodes
  | .plain _ => false
  | .unsupportedKeyUsage => true
  | .crypt e => e = .unsupportedKeyType

section

variable (cr : Crypt) (cb : Cryptobyte) (client : Client)

def getPublicKey (keyID : String) : Except AwsError AwsKmsKey := do
  let pkresp ← client.GetPublicKey keyID
  if pkresp.keyUsage ≠ .SIGN_VERIFY then throw .unsupportedKeyUsage
  let pub ← (cr.ParsePKIXPublicKey cb pkresp.publicKey).mapError .crypt
  pure ⟨pkresp, pub⟩

/-- The next page; the index stays. -/
def fetch (marker : Option String) (i : AwsKmsIterator) :
    Except (Outcome AwsKmsKey AwsError × AwsKmsIterator) AwsKmsIterator :=
  match client.ListKeys marker with
  | .error e => .error (.failed e, { i with lko := none })
  | .ok lko => .ok { i with lko := some lko }

/-- The page with the next key. -/
def nextPage (i : AwsKmsIterator) : Except (Outcome AwsKmsKey AwsError × AwsKmsIterator) AwsKmsIterator :=
  match i.lko with
  | none => fetch client none i
  | some lko =>
    if i.index ≠ lko.keys.length then .ok i
    else
      match lko.nextMarker with
      | none => .error (.done, i)
      | some marker => fetch client (some marker) i

def turn (i : AwsKmsIterator) : Turn AwsKmsIterator (Outcome AwsKmsKey AwsError) :=
  match nextPage client i with
  | .error (r, i) => .returns r i
  | .ok i =>
    match i.lko.bind fun lko => lko.keys[i.index]? with
    -- the index is out of range
    | none => .returns .panicked i
    | some keyID =>
      match getPublicKey cr cb client keyID with
      | .ok key => .returns (.found key) { i with index := i.index + 1 }
      | .error e =>
        if e.skipped then .again { i with index := i.index + 1 }
        else .returns (.failed e) { i with index := i.index + 1 }

def iterator : Iterator AwsKmsIterator AwsKmsKey AwsError where
  stopped _ := false
  turn := turn cr cb client

end

/-! ## The keys -/

/-- What a key is: an EC key for signing with the id that the service gives it, an RSA key for signing, a key for
another use, or one that is refused (a symmetric key among them). -/
inductive KeyKind where
  | usable (id : String) (k : EcdsaPublicKey)
  | rsa (k : RsaPublicKey)
  | otherUse
  | refused (code : String)

/-- The answers of `GetPublicKey`. -/
inductive KeyKind.AnsweredBy : KeyKind → Except AwsError GetPublicKeyOutput → Prop
  | usable {k : EcdsaPublicKey} (id : String) (hk : k.Valid) (hcurve : k.curve = .P256 ∨ k.curve = .S256) :
    AnsweredBy (.usable id k) (.ok ⟨id, .SIGN_VERIFY, ecPublicKeyInfo k⟩)
  | rsa {k : RsaPublicKey} (id : String) (hk : k.Small) :
    AnsweredBy (.rsa k) (.ok ⟨id, .SIGN_VERIFY, rsaPublicKeyInfo k⟩)
  | otherUse (id : String) {usage : KeyUsage} (husage : usage ≠ .SIGN_VERIFY) (der : Bytes) :
    AnsweredBy .otherUse (.ok ⟨id, usage, der⟩)
  | refused {code : String} (hcode : code ∈ skippedCodes) (e : Error) :
    AnsweredBy (.refused code) (.error (.api code e))

/-- The key that is listed for one that is usable. -/
def KeyKind.key? : KeyKind → Option AwsKmsKey
  | .usable id k => some ⟨⟨id, .SIGN_VERIFY, ecPublicKeyInfo k⟩, .ecdsa k⟩
  | _ => none

/-- What a key is to the iterator. -/
def KeyKind.entry : KeyKind → Entry AwsKmsKey
  | .usable id k => .found ⟨⟨id, .SIGN_VERIFY, ecPublicKeyInfo k⟩, .ecdsa k⟩
  | .rsa _ => .broken
  | _ => .skipped

lemma KeyKind.key?_entry (kind : KeyKind) : kind.entry.key? = kind.key? := by cases kind <;> rfl

lemma KeyKind.entry_eq_broken {kind : KeyKind} : kind.entry = .broken ↔ ∃ k, kind = .rsa k := by
  cases kind <;> simp [KeyKind.entry]

section

variable {cr : Crypt} (hcr : cr.Correct) {cb : Cryptobyte} (hcb : cb.Correct) {client : Client}

include hcr hcb

lemma getPublicKey_eq {kind : KeyKind} {keyID : String} (h : kind.AnsweredBy (client.GetPublicKey keyID)) :
    kind.entry =
      match getPublicKey cr cb client keyID with
      | .ok key => .found key
      | .error e => if e.skipped then .skipped else .broken := by
  unfold getPublicKey
  generalize client.GetPublicKey keyID = answer at h ⊢
  cases h with
  | usable id hk hcurve =>
    have hsupported : cr.Supported _ := hcurve.elim (fun h => h ▸ hcr.P256) fun h => h ▸ hcr.S256
    simp only [bind, Except.bind, cr.ParsePKIXPublicKey_ecdsa hcr hcb hk hsupported]
    rfl
  | rsa id hk =>
    simp only [bind, Except.bind, cr.ParsePKIXPublicKey_rsa hcb hk]
    rfl
  | otherUse id husage der =>
    simp only [bind, Except.bind, if_pos husage]
    rfl
  | refused hcode e =>
    have hskip : AwsError.skipped (.api _ e) = true := decide_eq_true hcode
    simp only [bind, Except.bind, hskip]
    rfl

end

/-! ## The pages -/

/-- What is read of the pages when the first of them is fetched at the index `i`. -/
def walk (kind : String → KeyKind) : ℕ → List ListKeysOutput → List (Entry AwsKmsKey)
  | _, [] => []
  | i, page :: pages =>
    if i < page.keys.length then
      (page.keys.drop i).map (fun id => (kind id).entry) ++ walk kind page.keys.length pages
    else [.broken]

/-- The page at a marker, unless the call fails. -/
def fetchPage (client : Client) (marker : Option String) : Option ListKeysOutput := (client.ListKeys marker).toOption

/-- The request for the page after this one. -/
def ListKeysOutput.next (page : ListKeysOutput) : Option (Option String) := page.nextMarker.map some

namespace AwsKmsIterator

variable (i : AwsKmsIterator)

/-- The request for the next page. -/
def request : Option (Option String) :=
  match i.lko with
  | none => some none
  | some lko => lko.next

/-- The keys of the page that are still to be read. -/
def rest : List String :=
  match i.lko with
  | none => []
  | some lko => lko.keys.drop i.index

end AwsKmsIterator

/-- The list is split into these pages, and `GetPublicKey` answers for its keys by their kinds. -/
structure ServedBy (client : Client) (kind : String → KeyKind) (pages : List ListKeysOutput) : Prop where
  linked : Linked (fetchPage client) ListKeysOutput.next (some none) pages
  keys : ∀ page ∈ pages, ∀ id ∈ page.keys, (kind id).AnsweredBy (client.GetPublicKey id)

/-- The pages that are still to be fetched. -/
structure Ahead (client : Client) (kind : String → KeyKind) (i : AwsKmsIterator) (pages : List ListKeysOutput) :
    Prop where
  linked : Linked (fetchPage client) ListKeysOutput.next i.request pages
  index : ∀ lko, i.lko = some lko → i.index ≤ lko.keys.length
  rest : ∀ id ∈ i.rest, (kind id).AnsweredBy (client.GetPublicKey id)
  keys : ∀ page ∈ pages, ∀ id ∈ page.keys, (kind id).AnsweredBy (client.GetPublicKey id)

/-- The entries that a state has before it. -/
def Reading (client : Client) (kind : String → KeyKind) (i : AwsKmsIterator) (es : List (Entry AwsKmsKey)) : Prop :=
  ∃ pages, Ahead client kind i pages ∧
    i.rest.map (fun id => (kind id).entry) ++ walk kind (i.index + i.rest.length) pages = es

section

variable {cr : Crypt} {cb : Cryptobyte} {client : Client} {kind : String → KeyKind}

lemma reading_start {pages : List ListKeysOutput} (h : ServedBy client kind pages) :
    Reading client kind {} (walk kind 0 pages) := by
  refine ⟨pages, ⟨h.linked, ?_, ?_, h.keys⟩, rfl⟩
  · rintro _ ⟨⟩
  · rintro _ ⟨⟩

lemma nextPage_of_rest_nil {i : AwsKmsIterator} {pages : List ListKeysOutput} (hahead : Ahead client kind i pages)
    (hrest : i.rest = []) :
    nextPage client i =
      match i.request with
      | none => .error (.done, i)
      | some marker => fetch client marker i := by
  obtain ⟨lko, index⟩ := i
  cases lko with
  | none => rfl
  | some lko =>
    have hle : index ≤ lko.keys.length := hahead.index lko rfl
    have hge : lko.keys.length ≤ index := List.drop_eq_nil_iff.1 hrest
    have heq : ¬ index ≠ lko.keys.length := by omega
    simp only [nextPage, AwsKmsIterator.request, ListKeysOutput.next, if_neg heq]
    cases lko.nextMarker with
    | none => rfl
    | some marker => rfl

lemma fetch_eq {marker : Option String} {page : ListKeysOutput} (h : fetchPage client marker = some page)
    (i : AwsKmsIterator) : fetch client marker i = .ok ⟨some page, i.index⟩ := by
  unfold fetchPage at h
  unfold fetch
  cases hlist : client.ListKeys marker with
  | error e =>
    rw [hlist] at h
    cases h
  | ok lko =>
    rw [hlist] at h
    obtain rfl := Option.some.inj h
    rfl

variable (hcr : cr.Correct) (hcb : cb.Correct)

include hcr hcb

lemma reads_turn {i : AwsKmsIterator} {lko : ListKeysOutput} {index : ℕ} {pages : List ListKeysOutput}
    (hpage : nextPage client i = .ok ⟨some lko, index⟩) (hahead : Ahead client kind ⟨some lko, index⟩ pages)
    (hlt : index < lko.keys.length) :
    Reads (iterator cr cb client) (Reading client kind)
      ((lko.keys.drop index).map (fun id => (kind id).entry) ++ walk kind lko.keys.length pages)
      (turn cr cb client i) := by
  have hdrop : lko.keys.drop index = lko.keys[index] :: lko.keys.drop (index + 1) := List.drop_eq_getElem_cons hlt
  have hanswered : ∀ id ∈ lko.keys.drop index, (kind id).AnsweredBy (client.GetPublicKey id) := hahead.rest
  rw [hdrop] at hanswered ⊢
  have hreading : Reading client kind ⟨some lko, index + 1⟩
      ((lko.keys.drop (index + 1)).map (fun id => (kind id).entry) ++ walk kind lko.keys.length pages) := by
    refine ⟨pages, ⟨hahead.linked, ?_, ?_, hahead.keys⟩, ?_⟩
    · rintro _ ⟨⟩
      exact hlt
    · exact fun id hid => hanswered id (List.mem_cons_of_mem _ hid)
    · have hindex : index + 1 + (lko.keys.drop (index + 1)).length = lko.keys.length := by
        rw [List.length_drop]
        omega
      simp only [AwsKmsIterator.rest, hindex]
  have hitem : lko.keys[index]? = some lko.keys[index] := List.getElem?_eq_getElem hlt
  unfold turn
  rw [List.map_cons, List.cons_append, getPublicKey_eq hcr hcb (hanswered _ List.mem_cons_self)]
  simp only [hpage, Option.bind_some, hitem]
  cases getPublicKey cr cb client lko.keys[index] with
  | ok key => exact .found key hreading
  | error e =>
    by_cases hskip : e.skipped = true
    · simp only [if_pos hskip]
      exact .skipped rfl hreading
    · simp only [if_neg hskip]
      exact .failed _ _ _

/-- **The iterator reads the keys from the index on, page by page, and panics at a page that is not longer.** -/
theorem iterator_follows : Follows (iterator cr cb client) (Reading client kind) := by
  rintro i _ ⟨pages, hahead, rfl⟩
  refine Or.inr ⟨rfl, ?_⟩
  cases hrest : i.rest with
  | cons id ids =>
    obtain ⟨lko, index⟩ := i
    cases lko with
    | none => cases hrest
    | some lko =>
      have hdrop : lko.keys.drop index = id :: ids := hrest
      have hlt : index < lko.keys.length := by
        by_contra hge
        rw [List.drop_eq_nil_iff.2 (not_lt.1 hge)] at hdrop
        cases hdrop
      have hindex : index + (id :: ids).length = lko.keys.length := by
        rw [← hdrop, List.length_drop]
        omega
      have hpage : nextPage client ⟨some lko, index⟩ = .ok ⟨some lko, index⟩ := if_pos hlt.ne
      have h := reads_turn hcr hcb hpage hahead hlt
      rw [hdrop] at h
      rw [hindex]
      exact h
  | nil =>
    have hpage := nextPage_of_rest_nil hahead hrest
    rw [List.map_nil, List.nil_append, List.length_nil, Nat.add_zero]
    rcases hahead.linked.cases with ⟨hrequest, rfl⟩ | ⟨marker, page, pages, hrequest, rfl, hfetch, hnext⟩
    · simp only [hrequest] at hpage
      simp only [iterator, turn, hpage]
      refine .done ⟨[], hahead, ?_⟩
      rw [hrest]
      rfl
    · simp only [hrequest, fetch_eq hfetch] at hpage
      unfold walk
      split_ifs with hlt
      · refine reads_turn hcr hcb hpage ⟨hnext, ?_, fun id hid => ?_, fun page' hpage' => ?_⟩ hlt
        · rintro _ ⟨⟩
          exact hlt.le
        · exact hahead.keys page List.mem_cons_self id (List.mem_of_mem_drop hid)
        · exact hahead.keys page' (List.mem_cons_of_mem _ hpage')
      · have hnone : page.keys[i.index]? = none := List.getElem?_eq_none (not_lt.1 hlt)
        simp only [iterator, turn, hpage, Option.bind_some, hnone]
        exact .panicked _ _

end

/-! ## What is listed -/

/-- The usable keys among some ids, in their order. -/
def usableKeys (kind : String → KeyKind) (ids : List String) : List AwsKmsKey := ids.filterMap fun id => (kind id).key?

/-- Every page is longer than the index at which it is fetched, which is the length of the page before it; no key up to
there is usable, and none after it is an RSA key for signing. -/
def InStep (kind : String → KeyKind) : ℕ → List ListKeysOutput → Prop
  | _, [] => True
  | i, page :: pages =>
    i < page.keys.length ∧ (∀ id ∈ page.keys.take i, (kind id).key? = none) ∧
      (∀ id ∈ page.keys.drop i, ∀ k, kind id ≠ .rsa k) ∧ InStep kind page.keys.length pages

section

variable {kind : String → KeyKind}

lemma founds_entries (ids : List String) : founds (ids.map fun id => (kind id).entry) = usableKeys kind ids := by
  rw [founds, List.filterMap_map]
  exact List.filterMap_congr fun id _ => (kind id).key?_entry

lemma usableKeys_append (ids ids' : List String) :
    usableKeys kind (ids ++ ids') = usableKeys kind ids ++ usableKeys kind ids' :=
  List.filterMap_append

lemma usableKeys_eq_nil {ids : List String} : usableKeys kind ids = [] ↔ ∀ id ∈ ids, (kind id).key? = none :=
  List.filterMap_eq_nil_iff

lemma broken_mem_entries {ids : List String} :
    .broken ∈ ids.map (fun id => (kind id).entry) ↔ ∃ id ∈ ids, ∃ k, kind id = .rsa k := by
  simp only [List.mem_map, KeyKind.entry_eq_broken]

lemma usableKeys_page (i : ℕ) (page : ListKeysOutput) (pages : List ListKeysOutput) :
    usableKeys kind ((page :: pages).flatMap ListKeysOutput.keys) =
      usableKeys kind (page.keys.take i) ++
        (usableKeys kind (page.keys.drop i) ++ usableKeys kind (pages.flatMap ListKeysOutput.keys)) := by
  have hpage : usableKeys kind page.keys =
      usableKeys kind (page.keys.take i) ++ usableKeys kind (page.keys.drop i) := by
    rw [← usableKeys_append, List.take_append_drop]
  rw [List.flatMap_cons, usableKeys_append, hpage, List.append_assoc]

lemma length_founds_walk_le (kind : String → KeyKind) (i : ℕ) (pages : List ListKeysOutput) :
    (founds (walk kind i pages)).length ≤ (usableKeys kind (pages.flatMap ListKeysOutput.keys)).length := by
  induction pages generalizing i with
  | nil => exact Nat.zero_le _
  | cons page pages ih =>
    have hrest := ih page.keys.length
    rw [usableKeys_page i page pages, walk]
    split_ifs with hlt
    · simp only [founds_append, founds_entries, List.length_append]
      omega
    · exact Nat.zero_le _

/-- Every usable key is read, and nothing is in the way, just when the pages are in step with the index. -/
lemma inStep_iff (i : ℕ) (pages : List ListKeysOutput) :
    (.broken ∉ walk kind i pages ∧
        founds (walk kind i pages) = usableKeys kind (pages.flatMap ListKeysOutput.keys)) ↔ InStep kind i pages := by
  induction pages generalizing i with
  | nil => simp [walk, InStep, usableKeys]
  | cons page pages ih =>
    have hrest := ih page.keys.length
    rw [usableKeys_page i page pages, walk, InStep]
    by_cases hlt : i < page.keys.length
    · rw [if_pos hlt, List.mem_append, broken_mem_entries, founds_append, founds_entries, ← hrest]
      constructor
      · rintro ⟨hclean, hfounds⟩
        -- what is not read before the index cannot be made up for later
        have hlen := congrArg List.length hfounds
        have hle := length_founds_walk_le kind page.keys.length pages
        simp only [List.length_append] at hlen
        have htake : usableKeys kind (page.keys.take i) = [] := List.eq_nil_of_length_eq_zero (by omega)
        rw [htake, List.nil_append, List.append_cancel_left_eq] at hfounds
        refine ⟨hlt, usableKeys_eq_nil.1 htake, fun id hid k hk => ?_, fun h => hclean (Or.inr h), hfounds⟩
        exact hclean (Or.inl ⟨id, hid, k, hk⟩)
      · rintro ⟨-, htake, hrsa, hclean, hfounds⟩
        refine ⟨?_, by rw [usableKeys_eq_nil.2 htake, List.nil_append, hfounds]⟩
        rintro (⟨id, hid, k, hk⟩ | h)
        · exact hrsa id hid k hk
        · exact hclean h
    · rw [if_neg hlt]
      exact iff_of_false (fun h => h.1 List.mem_cons_self) fun h => hlt h.1

/-- **The listing yields every usable key and then for ever that it is done, just when the pages are in step with the
index.** -/
theorem keys_listed_iff_inStep {cr : Crypt} (hcr : cr.Correct) {cb : Cryptobyte} (hcb : cb.Correct) {client : Client}
    {pages : List ListKeysOutput} (hserved : ServedBy client kind pages) :
    (iterator cr cb client).Lists {} (usableKeys kind (pages.flatMap ListKeysOutput.keys)) ↔ InStep kind 0 pages := by
  rw [(iterator_follows hcr hcb).lists_iff (reading_start hserved), inStep_iff]

end

/-! ## A list of two pages -/

/-- The key `s` is symmetric, and the others are one EC key. -/
def sampleKind (id : String) : KeyKind :=
  if id = "s" then .refused "UnsupportedOperationException" else .usable id (unitKey .P256).toEcdsaPublicKey

/-- The service with two pages. -/
def twoPages (first second : List String) : Client where
  ListKeys
    | none => .ok ⟨first, some "next"⟩
    | some _ => .ok ⟨second, none⟩
  GetPublicKey id :=
    if id = "s" then .error (.api "UnsupportedOperationException" { text := "" })
    else .ok ⟨id, .SIGN_VERIFY, ecPublicKeyInfo (unitKey .P256).toEcdsaPublicKey⟩

lemma sampleKind_answeredBy (first second : List String) (id : String) :
    (sampleKind id).AnsweredBy ((twoPages first second).GetPublicKey id) := by
  have hk : (unitKey .P256).Valid := unitKey_valid trivial
  simp only [sampleKind, twoPages]
  split_ifs
  · exact .refused (by decide) _
  · exact .usable id ⟨hk.named, hk.onCurve⟩ (Or.inl rfl)

lemma twoPages_servedBy (first second : List String) :
    ServedBy (twoPages first second) sampleKind [⟨first, some "next"⟩, ⟨second, none⟩] :=
  ⟨⟨rfl, rfl, trivial⟩, fun _ _ id _ => sampleKind_answeredBy first second id⟩

/-- The second page is longer, and begins with a key that is not usable. -/
theorem keys_listed_of_longer_page :
    (iterator tezosCrypt derbyte (twoPages ["a"] ["s", "b"])).Lists {} (usableKeys sampleKind ["a", "s", "b"]) ∧
      (usableKeys sampleKind ["a", "s", "b"]).length = 2 := by
  refine ⟨(keys_listed_iff_inStep tezosCrypt_correct derbyte_correct (twoPages_servedBy ["a"] ["s", "b"])).2 ?_, rfl⟩
  refine ⟨by decide, ?_, ?_, by decide, ?_, ?_, trivial⟩
  · rintro _ ⟨⟩
  · intro id _ k
    unfold sampleKind
    split_ifs <;> exact fun h => by cases h
  · intro id hid
    rw [List.mem_singleton.1 hid]
    rfl
  · intro id _ k
    unfold sampleKind
    split_ifs <;> exact fun h => by cases h

lemma turn_found {cr : Crypt} {cb : Cryptobyte} {client : Client} {i : AwsKmsIterator} {lko : ListKeysOutput}
    {index : ℕ} {keyID : String} {key : AwsKmsKey} (hpage : nextPage client i = .ok ⟨some lko, index⟩)
    (hitem : lko.keys[index]? = some keyID) (hkey : getPublicKey cr cb client keyID = .ok key) :
    (iterator cr cb client).turn i = .returns (.found key) ⟨some lko, index + 1⟩ := by
  simp only [iterator, turn, hpage, Option.bind_some, hitem, hkey]

/-- With one key on either page, the second call panics. -/
theorem second_page_panics :
    ServedBy (twoPages ["a"] ["b"]) sampleKind [⟨["a"], some "next"⟩, ⟨["b"], none⟩] ∧
      (∃ key, (iterator tezosCrypt derbyte (twoPages ["a"] ["b"])).Yields {} [.found key, .panicked]) ∧
      ¬ (iterator tezosCrypt derbyte (twoPages ["a"] ["b"])).Lists {} (usableKeys sampleKind ["a", "b"]) := by
  have hserved := twoPages_servedBy ["a"] ["b"]
  refine ⟨hserved, ?_, fun h => ?_⟩
  · obtain ⟨key, hkey⟩ : ∃ key, getPublicKey tezosCrypt derbyte (twoPages ["a"] ["b"]) "a" = .ok key := by
      have hentry := getPublicKey_eq tezosCrypt_correct derbyte_correct (sampleKind_answeredBy ["a"] ["b"] "a")
      cases hget : getPublicKey tezosCrypt derbyte (twoPages ["a"] ["b"]) "a" with
      | ok key => exact ⟨key, rfl⟩
      | error e =>
        simp only [hget] at hentry
        split_ifs at hentry <;> cases hentry
    have hpage : nextPage (twoPages ["a"] ["b"]) {} = .ok ⟨some ⟨["a"], some "next"⟩, 0⟩ := rfl
    have h₁ := turn_found hpage rfl hkey
    have h₂ : (iterator tezosCrypt derbyte (twoPages ["a"] ["b"])).turn ⟨some ⟨["a"], some "next"⟩, 1⟩ =
        .returns .panicked ⟨some ⟨["b"], none⟩, 1⟩ := rfl
    exact ⟨key, _, (Iterator.answers_returns rfl h₁).2 ⟨rfl, rfl⟩, _, (Iterator.answers_returns rfl h₂).2 ⟨rfl, rfl⟩,
      trivial⟩
  · have hclean := (((iterator_follows tezosCrypt_correct derbyte_correct).lists_iff (reading_start hserved) _).1 h).1
    exact hclean (by simp [walk])

end Signatory.Vault.AwsKms
