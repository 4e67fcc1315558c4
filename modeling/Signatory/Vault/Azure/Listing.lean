import Signatory.Cryptoutils.Pkcs
import Signatory.Lib.Listing
import Signatory.Vault.Azure.Jwk

/-!
# The keys of Azure Key Vault

`azureIterator` reads the pages of the list of keys, each with a link to the next one, and asks for every key in them.
A page without keys is taken for the end of the list, whether or not it has a link, so the keys after it are not listed:
`keys_listed_iff`.
-/

namespace Signatory.Vault.Azure

open Lib Lib.BigEndian Lib.Listing
open Cryptoutils
open Signer (Bytes Error Wrap)

/-! ## Requests -/

/-- `net/url`, and `path.Join`. -/
structure UrlPackage where
  Url : Type
  Parse : String → Except Error Url
  path : Url → String
  setPath : String → Url → Url
  setRawQuery : String → Url → Url
  toText : Url → String
  Join : String → String → String

def keyVaultAPIVersion : String := "7.0"

def makeURL (net : UrlPackage) (baseURL p : String) : Except Error String := do
  let u ← net.Parse baseURL
  let u := if p = "" then u else net.setPath (net.Join (net.path u) p) u
  pure (net.toText (net.setRawQuery ("api-version=" ++ keyVaultAPIVersion) u))

/-- The response to a request, with its body decoded as an error, which may have a message, and as a result. -/
structure Response (α : Type) where
  statusCode : ℕ
  status : String
  failure : Except Error (Option String)
  body : Except Error α

def vaultError {α : Type} (res : Response α) : Error :=
  match res.failure with
  | .error e => e
  | .ok none => { text := res.status }
  | .ok (some msg) => { text := msg }

/-- A request, with the status of the response, which is zero when there is none.  Without content the result is left
as it was. -/
def request {α : Type} (Do : String → Except Error (Response α)) (result : α) (url : String) :
    Except (ℕ × Error) (ℕ × α) :=
  match Do url with
  | .error e => .error (0, e)
  | .ok res =>
    if res.statusCode / 100 ≠ 2 then .error (res.statusCode, vaultError res)
    else if res.statusCode = 204 then .ok (res.statusCode, result)
    else
      match res.body with
      | .error e => .error (res.statusCode, e)
      | .ok a => .ok (res.statusCode, a)

structure KeyItem where
  keyID : String
  deriving DecidableEq

structure KeyListResult where
  value : List KeyItem := []
  nextLink : String := ""

structure KeyBundle where
  key : Jwk := {}
  deriving DecidableEq

/-- The requests for a page and for a key, whose answers do not change meanwhile. -/
structure HttpClient where
  getList : String → Except Error (Response KeyListResult)
  getKey : String → Except Error (Response KeyBundle)

/-! ## The iterator -/

/-- `azureKey`. -/
structure AzureKey where
  bundle : KeyBundle
  pub : EcdsaPublicKey
  deriving DecidableEq

inductive ListError where
  | azure (e : Error)
  /-- `vault.ErrKey`, with the type of the key. -/
  | wrongKey (p : PublicKey)
  deriving DecidableEq

/-- `azureIterator`. -/
structure AzureIterator where
  list : Option KeyListResult := none
  i : ℕ := 0
  done : Bool := false

section

variable (vault : String) (net : UrlPackage) (client : HttpClient) (cr : Crypt)

/-- An error with the name of the vault in front. -/
def named (e : Error) : Error := { e with text := "(Azure/" ++ vault ++ "): " ++ e.text }

def requestError (e : ℕ × Error) : Error := if e.1 ≠ 0 then Wrap (named vault e.2) e.1 else named vault e.2

/-- The page at `u`, from its first key on. -/
def fetch (u : String) (a : AzureIterator) : Except (Outcome AzureKey ListError × AzureIterator) AzureIterator :=
  match request client.getList {} u with
  | .error e => .error (.failed (.azure (requestError vault e)), a)
  | .ok (status, res) =>
    if status = 204 then .error (.done, { a with done := true })
    else if res.value ≠ [] then .ok { a with list := some res, i := 0 }
    else .error (.done, a)

/-- The page with the next key. -/
def nextPage (a : AzureIterator) : Except (Outcome AzureKey ListError × AzureIterator) AzureIterator :=
  match a.list with
  | none =>
    match makeURL net vault "/keys" with
    | .error e => .error (.failed (.azure (named vault e)), a)
    | .ok u => fetch vault client u a
  | some list =>
    if a.i ≠ list.value.length then .ok a
    else if list.nextLink = "" then .error (.done, { a with done := true })
    else fetch vault client list.nextLink a

/-- The key of an item, once the iterator is past it. -/
def readKey (u : String) (a : AzureIterator) : Turn AzureIterator (Outcome AzureKey ListError) :=
  match request client.getKey {} u with
  | .error e => .returns (.failed (.azure (requestError vault e))) a
  | .ok (_, bundle) =>
    match bundle.key.PublicKey with
    | .error e => .returns (.failed (.azure (named vault e))) a
    | .ok jwKey =>
      match cr.NewPublicKeyFrom jwKey with
      | .ok (.ecdsa pub) => .returns (.found ⟨bundle, pub⟩) a
      | .ok p => .returns (.failed (.wrongKey p)) a
      | .error .unsupportedKeyType => .again a
      | .error (.other e) => .returns (.failed (.azure (named vault e))) a

def turn (a : AzureIterator) : Turn AzureIterator (Outcome AzureKey ListError) :=
  match nextPage vault net client a with
  | .error (r, a) => .returns r a
  | .ok a =>
    match a.list.bind fun list => list.value[a.i]? with
    -- the index is out of range
    | none => .returns .panicked a
    | some item =>
      match makeURL net item.keyID "" with
      | .error e => .returns (.failed (.azure (named vault e))) a
      | .ok u => readKey vault client cr u { a with i := a.i + 1 }

def iterator : Iterator AzureIterator AzureKey ListError where
  stopped a := a.done
  turn := turn vault net client cr

end

/-! ## The contents of a vault -/

/-- The text is one of this number in Base64. -/
def IsUInt (s : Bytes) (n : ℕ) : Prop := ∃ buf, b64.decode s = some buf ∧ ofBytes buf = n

/-- What a key is: an EC key, or an RSA key with its modulus and exponent. -/
inductive KeyKind where
  | ec (k : EcdsaPublicKey)
  | rsa (n e : ℕ)

/-- A JWK of this key; the curves are those that `crypt` supports. -/
inductive KeyKind.Describes (cr : Crypt) : KeyKind → Jwk → Prop
  | ec {k : EcdsaPublicKey} {j : Jwk} (htype : j.keyType = "EC" ∨ j.keyType = "EC-HSM")
    (hcurve : curveByName j.curve = some k.curve) (hsupported : cr.Supported k.curve) (hx : IsUInt j.x k.x)
    (hy : IsUInt j.y k.y) (hon : k.curve.IsOnCurve k.x k.y = true) : Describes cr (.ec k) j
  | rsa {n e : ℕ} {j : Jwk} (htype : j.keyType = "RSA" ∨ j.keyType = "RSA-HSM") (hn : IsUInt j.n n)
    (he : IsUInt j.e e) : Describes cr (.rsa n e) j

/-- The RSA keys that `PublicKey` accepts. -/
structure Accepted (n e : ℕ) : Prop where
  modulus : n ≠ 0
  pos : 0 < toInt64 e
  le : toInt64 e ≤ 2 ^ 31 - 1

instance (n e : ℕ) : Decidable (Accepted n e) :=
  decidable_of_iff (n ≠ 0 ∧ 0 < toInt64 e ∧ toInt64 e ≤ 2 ^ 31 - 1)
    ⟨fun h => ⟨h.1, h.2.1, h.2.2⟩, fun h => ⟨h.modulus, h.pos, h.le⟩⟩

/-- The keys by the items that name them. -/
structure Contents where
  bundle : KeyItem → KeyBundle
  kind : KeyItem → KeyKind

namespace Contents

variable (store : Contents)

/-- What an item is to the iterator. -/
def entry (item : KeyItem) : Entry AzureKey :=
  match store.kind item with
  | .ec k => .found ⟨store.bundle item, k⟩
  | .rsa n e => if Accepted n e then .skipped else .broken

/-- The EC keys of some pages, in their order. -/
def ecKeys (pages : List KeyListResult) : List AzureKey :=
  (pages.flatMap KeyListResult.value).filterMap fun item =>
    match store.kind item with
    | .ec k => some ⟨store.bundle item, k⟩
    | .rsa _ _ => none

lemma ecKeys_eq (pages : List KeyListResult) :
    store.ecKeys pages = founds ((pages.flatMap KeyListResult.value).map store.entry) := by
  rw [ecKeys, founds, List.filterMap_map]
  refine List.filterMap_congr fun item _ => ?_
  simp only [Function.comp, entry]
  cases store.kind item with
  | ec k => rfl
  | rsa n e =>
    dsimp only
    split_ifs <;> rfl

lemma ecKeys_append (pages pages' : List KeyListResult) :
    store.ecKeys (pages ++ pages') = store.ecKeys pages ++ store.ecKeys pages' := by
  rw [ecKeys, List.flatMap_append, List.filterMap_append]
  rfl

lemma ecKeys_eq_nil {pages : List KeyListResult} :
    store.ecKeys pages = [] ↔ ∀ page ∈ pages, ∀ item ∈ page.value, ∀ k, store.kind item ≠ .ec k := by
  rw [ecKeys, List.filterMap_eq_nil_iff]
  constructor
  · intro h page hpage item hitem k hk
    have hnone := h item (List.mem_flatMap.2 ⟨page, hpage, hitem⟩)
    rw [hk] at hnone
    cases hnone
  · intro h item hitem
    obtain ⟨page, hpage, hitem⟩ := List.mem_flatMap.1 hitem
    cases hkind : store.kind item with
    | ec k => exact absurd hkind (h page hpage item hitem k)
    | rsa n e => rfl

lemma entry_eq_broken {item : KeyItem} :
    store.entry item = .broken ↔ ∃ n e, store.kind item = .rsa n e ∧ ¬ Accepted n e := by
  unfold entry
  cases store.kind item with
  | ec k => simp
  | rsa n e => simp

end Contents

/-! ## JSON web keys -/

lemma parseBase64UInt_of_isUInt {s : Bytes} {n : ℕ} (h : IsUInt s n) : parseBase64UInt s = .ok n := by
  obtain ⟨buf, hbuf, rfl⟩ := h
  rw [parseBase64UInt, hbuf]

section

variable {cr : Crypt} {j : Jwk}

lemma PublicKey_of_ec {k : EcdsaPublicKey} (h : (KeyKind.ec k).Describes cr j) : j.PublicKey = .ok (.ecdsa k) := by
  cases h with
  | ec htype hcurve _ hx hy hon =>
    have hec : j.isEC = true := by rcases htype with h | h <;> simp [Jwk.isEC, h]
    have hkey : j.ecPublicKey = .ok k := by
      simp only [Jwk.ecPublicKey, hcurve, parseBase64UInt_of_isUInt hx, parseBase64UInt_of_isUInt hy, bind, Except.bind,
        hon]
      rfl
    rw [Jwk.PublicKey, if_pos hec, hkey]
    rfl

lemma PublicKey_of_rsa {n e : ℕ} (h : (KeyKind.rsa n e).Describes cr j) :
    if Accepted n e then j.PublicKey = .ok (.rsa ⟨n, toInt64 e⟩) else ∃ err, j.PublicKey = .error err := by
  cases h with
  | rsa htype hn he =>
    have hec : ¬ j.isEC = true := by rcases htype with h | h <;> simp [Jwk.isEC, h]
    have hrsa : j.isRSA = true := by rcases htype with h | h <;> simp [Jwk.isRSA, h]
    have hkey : j.rsaPublicKey = .ok ⟨n, toInt64 e⟩ := by
      simp only [Jwk.rsaPublicKey, parseBase64UInt_of_isUInt hn, parseBase64UInt_of_isUInt he, bind, Except.bind]
      rfl
    simp only [Jwk.PublicKey, if_neg hec, if_pos hrsa, hkey, bind, Except.bind]
    by_cases haccepted : Accepted n e
    · have hmodulus := haccepted.modulus
      have hpos := haccepted.pos
      have hsign : ¬ (n = 0 ∨ toInt64 e ≤ 0) := by omega
      have hlarge : ¬ 2 ^ 31 - 1 < toInt64 e := haccepted.le.not_gt
      rw [if_pos haccepted, if_neg hsign, if_neg hlarge]
      rfl
    · rw [if_neg haccepted]
      split_ifs with hsign hlarge hlarge
      · exact ⟨_, rfl⟩
      · exact ⟨_, rfl⟩
      · exact ⟨_, rfl⟩
      · exact absurd ⟨by omega, by omega, not_lt.1 hlarge⟩ haccepted

end

/-! ## The pages -/

/-- The link to the page after this one. -/
def KeyListResult.next (p : KeyListResult) : Option String := if p.nextLink = "" then none else some p.nextLink

/-- The page at a link, unless the request fails or there is no content. -/
def fetchPage (client : HttpClient) (u : String) : Option KeyListResult :=
  match request client.getList {} u with
  | .ok (status, res) => if status = 204 then none else some res
  | .error _ => none

/-- The items up to the first page without any. -/
def readable (pages : List KeyListResult) : List KeyItem :=
  (pages.takeWhile fun page => page.value ≠ []).flatMap KeyListResult.value

/-- The items of the page that are still to be read. -/
def AzureIterator.rest (a : AzureIterator) : List KeyItem :=
  match a.list with
  | none => []
  | some list => list.value.drop a.i

section

variable (vault : String) (net : UrlPackage) (client : HttpClient) (cr : Crypt) (store : Contents)

/-- The link to the next page. -/
def AzureIterator.link (a : AzureIterator) : Option String :=
  match a.list with
  | none => (makeURL net vault "/keys").toOption
  | some list => list.next

/-- The request for the key of an item is answered with its bundle. -/
def Contents.Serves (item : KeyItem) : Prop :=
  ∃ u status, makeURL net item.keyID "" = .ok u ∧
    request client.getKey {} u = .ok (status, store.bundle item) ∧
      (store.kind item).Describes cr (store.bundle item).key

/-- No request fails, and the list is split into these pages. -/
structure Contents.ServedBy (pages : List KeyListResult) : Prop where
  url : ∃ u, makeURL net vault "/keys" = .ok u
  linked : Linked (fetchPage client) KeyListResult.next (makeURL net vault "/keys").toOption pages
  keys : ∀ page ∈ pages, ∀ item ∈ page.value, store.Serves net client cr item

/-- The pages that are still to be fetched. -/
structure Ahead (a : AzureIterator) (pages : List KeyListResult) : Prop where
  url : ∃ u, makeURL net vault "/keys" = .ok u
  linked : Linked (fetchPage client) KeyListResult.next (a.link vault net) pages
  index : ∀ list, a.list = some list → a.i ≤ list.value.length
  rest : ∀ item ∈ a.rest, store.Serves net client cr item
  keys : ∀ page ∈ pages, ∀ item ∈ page.value, store.Serves net client cr item

/-- The entries that a state has before it. -/
def Reading (a : AzureIterator) (es : List (Entry AzureKey)) : Prop :=
  a.done = true ∧ es = [] ∨
    a.done = false ∧ ∃ pages, Ahead vault net client cr store a pages ∧ (a.rest ++ readable pages).map store.entry = es

end

/-- No EC key is lost, and no RSA key is in the way. -/
structure Contents.Complete (store : Contents) (pages : List KeyListResult) : Prop where
  lost : ∀ page ∈ pages.dropWhile fun page => page.value ≠ [], ∀ item ∈ page.value, ∀ k, store.kind item ≠ .ec k
  rsa : ∀ item ∈ readable pages, ∀ n e, store.kind item = .rsa n e → Accepted n e

lemma readable_cons_nil {page : KeyListResult} (h : page.value = []) (pages : List KeyListResult) :
    readable (page :: pages) = [] := by
  rw [readable, List.takeWhile_cons_of_neg (by simp [h])]
  rfl

lemma readable_cons {page : KeyListResult} (h : page.value ≠ []) (pages : List KeyListResult) :
    readable (page :: pages) = page.value ++ readable pages := by
  rw [readable, List.takeWhile_cons_of_pos (by simpa using h), List.flatMap_cons]
  rfl

section

variable {vault : String} {net : UrlPackage} {client : HttpClient} {cr : Crypt} {store : Contents}

lemma fetch_eq {u : String} {page : KeyListResult} (h : fetchPage client u = some page) (a : AzureIterator) :
    fetch vault client u a =
      if page.value ≠ [] then .ok { a with list := some page, i := 0 } else .error (.done, a) := by
  unfold fetchPage at h
  unfold fetch
  split at h
  case h_1 status res hreq =>
    split_ifs at h with hstatus
    obtain rfl := Option.some.inj h
    simp only [hreq, if_neg hstatus]
  case h_2 => cases h

lemma nextPage_of_rest_nil {list : Option KeyListResult} {i : ℕ} {pages : List KeyListResult}
    (hahead : Ahead vault net client cr store ⟨list, i, false⟩ pages)
    (hrest : (⟨list, i, false⟩ : AzureIterator).rest = []) :
    nextPage vault net client ⟨list, i, false⟩ =
      match (⟨list, i, false⟩ : AzureIterator).link vault net with
      | none => .error (.done, ⟨list, i, true⟩)
      | some u => fetch vault client u ⟨list, i, false⟩ := by
  cases list with
  | none =>
    obtain ⟨u, hu⟩ := hahead.url
    simp only [nextPage, AzureIterator.link, hu]
    rfl
  | some list =>
    have hle : i ≤ list.value.length := hahead.index list rfl
    have hge : list.value.length ≤ i := List.drop_eq_nil_iff.1 hrest
    have heq : ¬ i ≠ list.value.length := by omega
    simp only [nextPage, AzureIterator.link, KeyListResult.next, if_neg heq]
    split_ifs <;> rfl

lemma reading_start {pages : List KeyListResult} (hserved : store.ServedBy vault net client cr pages) :
    Reading vault net client cr store {} ((readable pages).map store.entry) := by
  refine Or.inr ⟨rfl, pages, ⟨hserved.url, hserved.linked, ?_, ?_, hserved.keys⟩, rfl⟩
  · rintro _ ⟨⟩
  · rintro _ ⟨⟩

variable (hcr : cr.Correct)

include hcr

lemma reads_readKey {R : AzureIterator → List (Entry AzureKey) → Prop} {item : KeyItem} {u : String} {status : ℕ}
    {a : AzureIterator} {es : List (Entry AzureKey)}
    (hreq : request client.getKey {} u = .ok (status, store.bundle item))
    (hkind : (store.kind item).Describes cr (store.bundle item).key) (hgo : a.done = false) (hR : R a es) :
    Reads (iterator vault net client cr) R (store.entry item :: es) (readKey vault client cr u a) := by
  unfold readKey Contents.entry
  rw [hreq]
  generalize store.kind item = kind at hkind
  cases kind with
  | ec k =>
    have hkey := PublicKey_of_ec hkind
    have hsupported : cr.Supported k.curve := by
      cases hkind with
      | ec _ _ hsupported => exact hsupported
    simp only [hkey, hcr.ecdsa hsupported]
    exact .found _ hR
  | rsa n e =>
    have hkey := PublicKey_of_rsa hkind
    by_cases haccepted : Accepted n e
    · rw [if_pos haccepted] at hkey
      simp only [hkey, hcr.rsa, if_pos haccepted]
      exact .skipped hgo hR
    · rw [if_neg haccepted] at hkey
      obtain ⟨err, herr⟩ := hkey
      simp only [herr, if_neg haccepted]
      exact .failed _ _ _

lemma reads_turn {a : AzureIterator} {list : KeyListResult} {i : ℕ} {item : KeyItem} {items : List KeyItem}
    {pages : List KeyListResult} (hpage : nextPage vault net client a = .ok ⟨some list, i, false⟩)
    (hahead : Ahead vault net client cr store ⟨some list, i, false⟩ pages) (hdrop : list.value.drop i = item :: items) :
    Reads (iterator vault net client cr) (Reading vault net client cr store)
      ((list.value.drop i ++ readable pages).map store.entry) (turn vault net client cr a) := by
  have hitem : list.value[i]? = some item := by
    rw [← List.head?_drop, hdrop]
    rfl
  have htail : list.value.drop (i + 1) = items := by
    rw [← List.tail_drop, hdrop]
    rfl
  have hlt : i < list.value.length := (List.getElem?_eq_some_iff.1 hitem).1
  have hserves : ∀ item' ∈ item :: items, store.Serves net client cr item' := hdrop ▸ hahead.rest
  obtain ⟨u, status, hurl, hreq, hkind⟩ := hserves item List.mem_cons_self
  have hahead' : Ahead vault net client cr store ⟨some list, i + 1, false⟩ pages := by
    refine ⟨hahead.url, hahead.linked, ?_, fun item' hitem' => ?_, hahead.keys⟩
    · rintro _ ⟨⟩
      exact hlt
    · have hmem : item' ∈ items := htail ▸ hitem'
      exact hserves item' (List.mem_cons_of_mem _ hmem)
  unfold turn
  simp only [hpage, Option.bind_some, hitem, hurl]
  rw [hdrop, ← htail]
  exact reads_readKey hcr hreq hkind rfl (Or.inr ⟨rfl, pages, hahead', rfl⟩)

/-- **The iterator reads the items up to the first page without any.** -/
theorem iterator_follows : Follows (iterator vault net client cr) (Reading vault net client cr store) := by
  rintro ⟨list, i, done⟩ _ (⟨rfl, rfl⟩ | ⟨rfl, pages, hahead, rfl⟩)
  · exact Or.inl ⟨rfl, rfl⟩
  refine Or.inr ⟨rfl, ?_⟩
  cases hrest : (⟨list, i, false⟩ : AzureIterator).rest with
  | cons item items =>
    cases list with
    | none => cases hrest
    | some list =>
      have hdrop : list.value.drop i = item :: items := hrest
      have hne : i ≠ list.value.length := by
        rintro rfl
        simp at hdrop
      rw [← hrest]
      exact reads_turn hcr (if_pos hne) hahead hdrop
  | nil =>
    rw [List.nil_append]
    have hpage := nextPage_of_rest_nil hahead hrest
    rcases hahead.linked.cases with ⟨hlink, rfl⟩ | ⟨u, page, pages, hlink, rfl, hfetch, hnext⟩
    · simp only [hlink] at hpage
      simp only [iterator, turn, hpage]
      exact .done (Or.inl ⟨rfl, rfl⟩)
    · simp only [hlink, fetch_eq hfetch] at hpage
      cases hvalue : page.value with
      | nil =>
        rw [if_neg (not_not.2 hvalue)] at hpage
        rw [readable_cons_nil hvalue]
        simp only [iterator, turn, hpage]
        refine .done (Or.inr ⟨rfl, page :: pages, hahead, ?_⟩)
        rw [hrest, readable_cons_nil hvalue]
        rfl
      | cons item items =>
        have hne : page.value ≠ [] := by
          rw [hvalue]
          exact List.cons_ne_nil _ _
        rw [if_pos hne] at hpage
        rw [readable_cons hne]
        refine reads_turn hcr hpage ⟨hahead.url, hnext, ?_, ?_, ?_⟩ hvalue
        · rintro _ ⟨⟩
          exact Nat.zero_le _
        · exact fun item' hitem' => hahead.keys page List.mem_cons_self item' hitem'
        · exact fun page' hpage' => hahead.keys page' (List.mem_cons_of_mem _ hpage')

/-- **The listing yields every EC key and then for ever that it is done, just when there is none after a page without
keys and no RSA key up to there is refused.** -/
theorem keys_listed_iff {pages : List KeyListResult} (hserved : store.ServedBy vault net client cr pages) :
    (iterator vault net client cr).Lists {} (store.ecKeys pages) ↔ store.Complete pages := by
  have hread : founds ((readable pages).map store.entry) = store.ecKeys (pages.takeWhile fun page => page.value ≠ []) :=
    (store.ecKeys_eq _).symm
  have hall : store.ecKeys pages = store.ecKeys (pages.takeWhile fun page => page.value ≠ []) ++
      store.ecKeys (pages.dropWhile fun page => page.value ≠ []) := by
    rw [← store.ecKeys_append, List.takeWhile_append_dropWhile]
  rw [(iterator_follows hcr).lists_iff (reading_start hserved), hread, hall, List.self_eq_append_right,
    store.ecKeys_eq_nil]
  constructor
  · rintro ⟨hclean, hlost⟩
    refine ⟨hlost, fun item hitem n e hkind => ?_⟩
    by_contra haccepted
    exact hclean (List.mem_map.2 ⟨item, hitem, store.entry_eq_broken.2 ⟨n, e, hkind, haccepted⟩⟩)
  · rintro ⟨hlost, hrsa⟩
    refine ⟨fun hbroken => ?_, hlost⟩
    obtain ⟨item, hitem, hentry⟩ := List.mem_map.1 hbroken
    obtain ⟨n, e, hkind, haccepted⟩ := store.entry_eq_broken.1 hentry
    exact haccepted (hrsa item hitem n e hkind)

end

/-! ## A vault with two pages -/

/-- What is before the path of a URL, the path, and the query. -/
structure PlainUrl where
  base : String
  path : String
  query : String

/-- URLs that are read as they are. -/
def plainUrls : UrlPackage where
  Url := PlainUrl
  Parse s := .ok ⟨s, "", ""⟩
  path u := u.path
  setPath p u := { u with path := p }
  setRawQuery q u := { u with query := q }
  toText u := u.base ++ u.path ++ "?" ++ u.query
  Join p q := p ++ q

def rsaKey : RsaPublicKey := ⟨3233, 17⟩

/-- The item `r` is an RSA key, and the others are one EC key. -/
def twoKeys : Contents where
  bundle item :=
    if item.keyID = "r" then ⟨populateRSAPublicKey rsaKey⟩ else ⟨populateECPublicKey (unitKey .P256).toEcdsaPublicKey⟩
  kind item := if item.keyID = "r" then .rsa rsaKey.n rsaKey.e.natAbs else .ec (unitKey .P256).toEcdsaPublicKey

def respond {α : Type} (a : α) : Except Error (Response α) := .ok ⟨200, "200 OK", .ok none, .ok a⟩

/-- The service with two pages, the second one at the link `next`. -/
def twoPages (first second : List KeyItem) : HttpClient where
  getList u := respond (if u = "next" then ⟨second, ""⟩ else ⟨first, "next"⟩)
  getKey u := respond (twoKeys.bundle (if u = "r?api-version=7.0" then ⟨"r"⟩ else ⟨"k"⟩))

lemma isUInt_encodeUInt (n : ℕ) : IsUInt (encodeUInt n) n := ⟨bytes n, decode_encodeUInt n, ofBytes_bytes n⟩

lemma twoKeys_describes (item : KeyItem) : (twoKeys.kind item).Describes tezosCrypt (twoKeys.bundle item).key := by
  unfold twoKeys
  dsimp only
  split_ifs
  · exact .rsa (Or.inl rfl) (isUInt_encodeUInt rsaKey.n) (isUInt_encodeUInt rsaKey.e.natAbs)
  · exact .ec (Or.inl rfl) rfl (Or.inl rfl) (isUInt_encodeUInt _) (isUInt_encodeUInt _)
      (unitKey_valid trivial : (unitKey .P256).Valid).onCurve

lemma fetchPage_twoPages (first second : List KeyItem) (u : String) :
    fetchPage (twoPages first second) u = some (if u = "next" then ⟨second, ""⟩ else ⟨first, "next"⟩) := by
  simp [fetchPage, request, twoPages, respond]

lemma twoPages_servedBy {first second : List KeyItem} (h : ∀ item ∈ first ++ second, item = ⟨"r"⟩ ∨ item = ⟨"k"⟩) :
    twoKeys.ServedBy "https://v" plainUrls (twoPages first second) tezosCrypt [⟨first, "next"⟩, ⟨second, ""⟩] := by
  have hserves : ∀ item ∈ first ++ second, twoKeys.Serves plainUrls (twoPages first second) tezosCrypt item := by
    intro item hitem
    rcases h item hitem with rfl | rfl
    · exact ⟨"r?api-version=7.0", 200, by decide +kernel, rfl, twoKeys_describes _⟩
    · exact ⟨"k?api-version=7.0", 200, by decide +kernel, rfl, twoKeys_describes _⟩
  have hurl : makeURL plainUrls "https://v" "/keys" = .ok "https://v/keys?api-version=7.0" := by decide +kernel
  refine ⟨⟨_, hurl⟩, ?_, ?_⟩
  · rw [hurl]
    exact ⟨fetchPage_twoPages first second _, fetchPage_twoPages first second _, trivial⟩
  · intro page hpage item hitem
    simp only [List.mem_cons, List.not_mem_nil, or_false] at hpage
    rcases hpage with rfl | rfl
    · exact hserves item (List.mem_append_left _ hitem)
    · exact hserves item (List.mem_append_right _ hitem)

/-- An RSA key and an EC key on the first page, and an EC key on the second. -/
theorem keys_listed_of_twoPages :
    (iterator "https://v" plainUrls (twoPages [⟨"r"⟩, ⟨"k"⟩] [⟨"k"⟩]) tezosCrypt).Lists {}
        (twoKeys.ecKeys [⟨[⟨"r"⟩, ⟨"k"⟩], "next"⟩, ⟨[⟨"k"⟩], ""⟩]) ∧
      (twoKeys.ecKeys [⟨[⟨"r"⟩, ⟨"k"⟩], "next"⟩, ⟨[⟨"k"⟩], ""⟩]).length = 2 := by
  refine ⟨(keys_listed_iff tezosCrypt_correct (twoPages_servedBy (by decide))).2 ⟨?_, ?_⟩, rfl⟩
  · rintro page hpage
    cases hpage
  · intro item _ n e hkind
    simp only [twoKeys] at hkind
    split_ifs at hkind
    obtain ⟨rfl, rfl⟩ := KeyKind.rsa.inj hkind
    decide

/-- A first page without keys hides the key on the second. -/
theorem key_after_empty_page :
    twoKeys.ServedBy "https://v" plainUrls (twoPages [] [⟨"k"⟩]) tezosCrypt [⟨[], "next"⟩, ⟨[⟨"k"⟩], ""⟩] ∧
      twoKeys.ecKeys [⟨[], "next"⟩, ⟨[⟨"k"⟩], ""⟩] =
        [⟨twoKeys.bundle ⟨"k"⟩, (unitKey .P256).toEcdsaPublicKey⟩] ∧
      (iterator "https://v" plainUrls (twoPages [] [⟨"k"⟩]) tezosCrypt).Lists {} [] ∧
      ¬ (iterator "https://v" plainUrls (twoPages [] [⟨"k"⟩]) tezosCrypt).Lists {}
        (twoKeys.ecKeys [⟨[], "next"⟩, ⟨[⟨"k"⟩], ""⟩]) := by
  have hserved : twoKeys.ServedBy "https://v" plainUrls (twoPages [] [⟨"k"⟩]) tezosCrypt
      [⟨[], "next"⟩, ⟨[⟨"k"⟩], ""⟩] := twoPages_servedBy (by decide)
  have hkeys : twoKeys.ecKeys [⟨[], "next"⟩, ⟨[⟨"k"⟩], ""⟩] =
      [⟨twoKeys.bundle ⟨"k"⟩, (unitKey .P256).toEcdsaPublicKey⟩] := rfl
  have hlists : ∀ ks, (iterator "https://v" plainUrls (twoPages [] [⟨"k"⟩]) tezosCrypt).Lists {} ks ↔ ks = [] :=
    (iterator_follows tezosCrypt_correct).lists_nil (reading_start hserved)
  refine ⟨hserved, hkeys, (hlists []).2 rfl, fun h => ?_⟩
  rw [hlists, hkeys] at h
  cases h

end Signatory.Vault.Azure
