import WinterWind.Http.QueryString
import WinterWind.Library.SortedEntries
import WinterWind.Utils.Base64

/-!
# Signed requests (`src/core/oauthclient.cpp`)

`append_oauth_header` signs the parameters of the request that follows: it collects the `oauth_`
parameters and the staged URI parameters in a `std::map`, escapes each once and joins them. The
request is then sent by `HTTPClient::request`, which escapes the staged parameters on its own.

* The 32 random bytes of the nonce, the clock and OpenSSL's HMAC-SHA1 are parameters.
* A `std::map` is kept in the order of its keys (`insertEntry`).
* `p_count` and `p_max` are the `uint32_t` of the source.

`SignsSent` is what RFC 5849 asks for: the signed text lists the `oauth_` parameters and those of
the query that is sent, as they are escaped there, in the order of the escaped names. The map
orders the names before they are escaped, and a reserved byte, whatever its value, is escaped
to something smaller than any unreserved one.

Results:
* `parameterLoop_eq`, `count_parameterLoop`: the text that is signed.
* **`signsSent_iff`**: the signed text is the one asked for iff the names are ordered alike before
  and after they are escaped, the URL brings no parameters of its own, and there are not too many.
-/

namespace WinterWind.Http

open Library

/-! ## The source functions -/

/-- `OAuthClient`. -/
structure OAuthClient where
  client : HTTPClient := {}
  consumerKey : Bytes
  consumerSecret : Bytes
  accessToken : Bytes := []
  accessTokenSecret : Bytes := []

/-- `isalnum` of the "C" locale. -/
def isalnum (c : UInt8) : Bool := (48 ≤ c && c ≤ 57) || (65 ≤ c && c ≤ 90) || (97 ≤ c && c ≤ 122)

/-- What is drawn from outside for one header: the bytes of `oauth_nonce` and the time. -/
structure Draw where
  nonce : Bytes
  time : Int64

namespace OAuthClient

/-- The `oauth_` parameters, before the signature. -/
def protocolParams (oauth : OAuthClient) (draw : Draw) : List (Bytes × Bytes) :=
  [(ascii "oauth_consumer_key", oauth.consumerKey),
    (ascii "oauth_nonce", (base64Encode draw.nonce).filter isalnum),
    (ascii "oauth_signature_method", ascii "HMAC-SHA1"),
    (ascii "oauth_timestamp", ascii (toString draw.time.toInt)),
    (ascii "oauth_token", oauth.accessToken),
    (ascii "oauth_version", ascii "1.0")]

/-- `ordered_params`, with the request's parameters in the order they are iterated in. -/
def orderedParams (oauth : OAuthClient) (draw : Draw) (uri : Iteration oauth.client.uriParams) :
    List (Bytes × Bytes) :=
  (oauth.protocolParams draw ++ uri.pairs.map fun p => (p.1, p.2)).foldl
    (fun m a => insertEntry a.1 a.2 m) []

/-- The loop that fills `parameter_string`. -/
def parameterLoop (pMax : UInt32) : List (Bytes × Bytes) → UInt32 → Bytes → Bytes
  | [], _, parameterString => parameterString
  | p :: rest, pCount, parameterString =>
    let parameterString :=
      parameterString ++ httpStringEscape p.1 ++ ascii "=" ++ httpStringEscape p.2
    parameterLoop pMax rest (pCount + 1)
      (if pCount + 1 ≠ pMax then parameterString ++ ascii "&" else parameterString)

/-- `parameter_string`. -/
def parameterString (oauth : OAuthClient) (draw : Draw) (uri : Iteration oauth.client.uriParams) :
    Bytes :=
  let params := oauth.orderedParams draw uri
  parameterLoop (UInt32.ofNat params.length) params 0 []

/-- `signature`, the text that is signed with the two secrets. -/
def signatureBase (method url parameterString : Bytes) : Bytes :=
  method ++ ascii "&" ++ httpStringEscape url ++ ascii "&" ++ httpStringEscape parameterString

/-- The loop that fills `header`. -/
def headerLoop : List (Bytes × Bytes) → UInt32 → Bytes → Bytes
  | [], _, header => header
  | p :: rest, pCount, header =>
    if p.1.take (ascii "oauth_").length ≠ ascii "oauth_" then headerLoop rest pCount header
    else
      let header :=
        header ++ httpStringEscape p.1 ++ ascii "=\"" ++ httpStringEscape p.2 ++ ascii "\""
      headerLoop rest (pCount + 1) (if pCount + 1 ≠ 7 then header ++ ascii ", " else header)

/-- `OAuthClient::append_oauth_header(method, url)`. -/
def appendOauthHeader (oauth : OAuthClient) (hmacSha1 : Bytes → Bytes → Bytes) (draw : Draw)
    (uri : Iteration oauth.client.uriParams) (method url : Bytes) : OAuthClient :=
  let signature := signatureBase method url (oauth.parameterString draw uri)
  let signingKey :=
    httpStringEscape oauth.consumerSecret ++ ascii "&" ++ httpStringEscape oauth.accessTokenSecret
  let params := insertEntry (ascii "oauth_signature") (base64Encode (hmacSha1 signingKey signature))
    (oauth.orderedParams draw uri)
  { oauth with
    client := oauth.client.addHttpHeader (ascii "Authorization")
      (headerLoop params 0 (ascii "OAuth ")) }

end OAuthClient

/-! ## What is to be signed -/

/-- The order of RFC 5849 for escaped parameters: by name, then by value. -/
def Precedes (p q : Bytes × Bytes) : Prop := p.1 < q.1 ∨ p.1 = q.1 ∧ ¬q.2 < p.2

/-- A parameter as it is written. -/
def pairText (p : Bytes × Bytes) : Bytes := p.1 ++ 61 :: p.2

/-- A parameter, escaped. -/
def escapedPair (p : Bytes × Bytes) : Bytes × Bytes := (httpStringEscape p.1, httpStringEscape p.2)

/-- The parameters of a URL, as they stand there. -/
def queryPairs (url : Bytes) : List (Bytes × Bytes) := (queryPieces url).map splitPair

/-- The text that is signed lists the `oauth_` parameters and the parameters of the URL that is
sent next, each once, in order. -/
def SignsSent (oauth : OAuthClient) (draw : Draw) (query : Query) : Prop :=
  ∀ (hmacSha1 : Bytes → Bytes → Bytes) (uri : Iteration oauth.client.uriParams)
    (method url : Bytes)
    (orders : Orders (oauth.appendOauthHeader hmacSha1 draw uri method url).client),
    let sent := (oauth.appendOauthHeader hmacSha1 draw uri method url).client.sent query orders
    ∃ params : List (Bytes × Bytes),
      params.Perm ((oauth.protocolParams draw).map escapedPair ++ queryPairs sent.url) ∧
      params.Pairwise Precedes ∧
      oauth.parameterString draw uri = [38].intercalate (params.map pairText)

/-! ## The text that is signed -/

theorem ofNat_sub_eq_iff {n k : Nat} (h : k ≤ n) :
    UInt32.ofNat (n - k) = UInt32.ofNat n ↔ k % 2 ^ 32 = 0 := by
  rw [← UInt32.toNat_inj, UInt32.toNat_ofNat', UInt32.toNat_ofNat']
  omega

theorem ofNat_sub_add_one {n k : Nat} (h : k + 1 ≤ n) :
    UInt32.ofNat (n - (k + 1)) + 1 = UInt32.ofNat (n - k) := by
  rw [← UInt32.toNat_inj, UInt32.toNat_add, UInt32.toNat_ofNat', UInt32.toNat_ofNat']
  have : (1 : UInt32).toNat = 1 := rfl
  omega

/-- **Up to `2^32` parameters** are joined with `&`. -/
theorem parameterLoop_eq {n : Nat} (hn : n ≤ 2 ^ 32) : ∀ (rest : List (Bytes × Bytes))
    (text : Bytes), rest.length ≤ n →
      OAuthClient.parameterLoop (UInt32.ofNat n) rest (UInt32.ofNat (n - rest.length)) text =
        text ++ [38].intercalate (rest.map fun p => pairText (escapedPair p))
  | [], text, _ => by simp [OAuthClient.parameterLoop]
  | p :: rest, text, h => by
    rw [List.length_cons] at h
    have ih := parameterLoop_eq hn rest
    have hcount : UInt32.ofNat (n - rest.length) ≠ UInt32.ofNat n ↔ rest ≠ [] := by
      rw [ne_eq, ofNat_sub_eq_iff (by omega), ← List.length_pos_iff]
      omega
    rw [OAuthClient.parameterLoop, List.length_cons, ofNat_sub_add_one h, ih _ (by omega)]
    simp only [hcount]
    cases rest with
    | nil => simp [pairText, escapedPair, ascii]
    | cons q rest => simp [pairText, escapedPair, ascii, List.intercalate_cons_cons]

theorem amp_not_mem_escaped (p : Bytes × Bytes) : 38 ∉ pairText (escapedPair p) :=
  amp_not_mem_formField ⟨p.1, p.2⟩

/-- In general a `&` follows a parameter unless the number of those left is a multiple of `2^32`. -/
theorem count_parameterLoop {n : Nat} : ∀ (rest : List (Bytes × Bytes)) (text : Bytes),
    rest.length ≤ n →
      (OAuthClient.parameterLoop (UInt32.ofNat n) rest (UInt32.ofNat (n - rest.length)) text).count
          38 = text.count 38 + (List.range rest.length).countP fun k => k % 2 ^ 32 ≠ 0
  | [], text, _ => by simp [OAuthClient.parameterLoop]
  | p :: rest, text, h => by
    rw [List.length_cons] at h
    have ih := @count_parameterLoop n rest
    have hcount : UInt32.ofNat (n - rest.length) ≠ UInt32.ofNat n ↔ rest.length % 2 ^ 32 ≠ 0 := by
      rw [ne_eq, ofNat_sub_eq_iff (by omega)]
    have hfree : (text ++ httpStringEscape p.1 ++ ascii "=" ++ httpStringEscape p.2).count 38 =
        text.count 38 := by
      have h0 := List.count_eq_zero.mpr (amp_not_mem_escaped p)
      simp only [pairText, escapedPair, List.count_append, List.count_cons] at h0
      simp only [List.count_append, ascii]
      simp
      omega
    have hamp : (ascii "&").count 38 = 1 := by decide
    rw [OAuthClient.parameterLoop, List.length_cons, ofNat_sub_add_one h, ih _ (by omega),
      List.range_succ, List.countP_append, List.countP_singleton]
    by_cases hk : rest.length % 2 ^ 32 = 0
    · have hlast := not_congr hcount
      rw [if_neg (hlast.mpr (not_not_intro hk)), hfree, if_neg (by simpa using hk), Nat.add_zero]
    · rw [if_pos (hcount.mpr hk), List.count_append, hfree, hamp, if_pos (by simpa using hk)]
      omega

/-- Beyond `m` parameters two of them are not followed by a `&`. -/
theorem countP_range_lt {m : Nat} (hm : 0 < m) : ∀ n : Nat, m < n →
    ((List.range n).countP fun k => k % m ≠ 0) + 2 ≤ n := by
  have hone : ∀ n : Nat, 0 < n → ((List.range n).countP fun k => k % m ≠ 0) + 1 ≤ n := by
    intro n hn
    induction n, hn using Nat.le_induction with
    | base => simp [List.range_succ]
    | succ n _ ih =>
      rw [List.range_succ, List.countP_append, List.countP_singleton]
      split <;> omega
  intro n hn
  induction n, hn using Nat.le_induction with
  | base =>
    have h := hone m hm
    rw [Nat.succ_eq_add_one, List.range_succ, List.countP_append, List.countP_singleton,
      if_neg (by simp)]
    omega
  | succ n _ ih =>
    rw [List.range_succ, List.countP_append, List.countP_singleton]
    split <;> omega

theorem count_join : ∀ {fs : List Bytes}, (∀ f ∈ fs, 38 ∉ f) →
    ([38].intercalate fs).count 38 = fs.length - 1
  | [], _ => rfl
  | [f], h => by
    simpa [List.count_eq_zero] using h
  | f :: g :: fs, h => by
    rw [List.forall_mem_cons] at h
    have ih := count_join h.2
    rw [List.intercalate_cons_cons]
    simp only [List.count_append, ih, List.count_eq_zero.mpr h.1, List.length_cons,
      List.count_singleton_self]
    omega

/-! ## The order of the parameters -/

section Ordered

variable {oauth : OAuthClient} {draw : Draw} {query : Query}
  (hnames : ∀ name value, oauth.client.uriParams.lookup name = some value →
    ¬ascii "oauth_" <+: name)

/-- A parameter that is signed. -/
def Signed (oauth : OAuthClient) (draw : Draw) (p : Bytes × Bytes) : Prop :=
  p ∈ oauth.protocolParams draw ∨ oauth.client.uriParams.lookup p.1 = some p.2

/-- The staged parameters, in the order of an iteration. -/
def stagedPairs (uri : Iteration oauth.client.uriParams) : List (Bytes × Bytes) :=
  uri.pairs.map fun p => (p.1, p.2)

theorem mem_stagedPairs (uri : Iteration oauth.client.uriParams) {p : Bytes × Bytes} :
    p ∈ stagedPairs uri ↔ oauth.client.uriParams.lookup p.1 = some p.2 := by
  rw [← uri.mem_pairs_iff]
  unfold stagedPairs
  constructor
  · intro h
    obtain ⟨q, hq, rfl⟩ := List.mem_map.mp h
    exact hq
  · intro h
    exact List.mem_map.mpr ⟨_, h, rfl⟩

theorem map_fst_protocolParams : (oauth.protocolParams draw).map Prod.fst =
    [ascii "oauth_consumer_key", ascii "oauth_nonce", ascii "oauth_signature_method",
      ascii "oauth_timestamp", ascii "oauth_token", ascii "oauth_version"] := rfl

theorem length_protocolParams : (oauth.protocolParams draw).length = 6 := rfl

include hnames in
theorem nodup_params (uri : Iteration oauth.client.uriParams) :
    ((oauth.protocolParams draw ++ stagedPairs uri).map Prod.fst).Nodup := by
  have hoauth : ∀ name ∈ (oauth.protocolParams draw).map Prod.fst, ascii "oauth_" <+: name := by
    rw [map_fst_protocolParams]
    decide
  rw [List.map_append, List.nodup_append]
  refine ⟨by rw [map_fst_protocolParams]; decide, ?_, ?_⟩
  · have h := uri.nodupKeys
    unfold List.NodupKeys List.keys at h
    rwa [stagedPairs, List.map_map]
  · rintro a ha b hb rfl
    obtain ⟨p, hp, rfl⟩ := List.mem_map.mp hb
    exact hnames p.1 p.2 ((mem_stagedPairs uri).mp hp) (hoauth p.1 ha)

include hnames in
/-- **The map holds every parameter once, in the order of the names.** -/
theorem orderedParams_spec (uri : Iteration oauth.client.uriParams) :
    Sorted (oauth.orderedParams draw uri) ∧
      (oauth.orderedParams draw uri).Perm (oauth.protocolParams draw ++ stagedPairs uri) :=
  foldl_insertEntry_spec _ [] List.Pairwise.nil (nodup_params hnames uri)

include hnames in
theorem mem_orderedParams (uri : Iteration oauth.client.uriParams) {p : Bytes × Bytes} :
    p ∈ oauth.orderedParams draw uri ↔ Signed oauth draw p := by
  rw [(orderedParams_spec hnames uri).2.mem_iff, List.mem_append, mem_stagedPairs]
  rfl

/-- Two parameters are ordered alike before and after they are escaped: every reserved byte is
escaped to less than any unreserved one. -/
def OrderKept (p q : Bytes × Bytes) : Prop :=
  List.Lex (EncodedBefore isUnreserved) (kept p.1) (kept q.1) ∨
    kept p.1 = kept q.1 ∧ ¬List.Lex (EncodedBefore isUnreserved) (kept q.2) (kept p.2)

theorem lt_of_isUnreserved : ∀ c, isUnreserved c = true → 37 < c :=
  forall_byte (P := fun c => isUnreserved c = true → 37 < c) (by decide +kernel)

theorem precedes_escapedPair_iff {p q : Bytes × Bytes} :
    Precedes (escapedPair p) (escapedPair q) ↔ OrderKept p q := by
  unfold Precedes OrderKept escapedPair
  simp only [httpStringEscape_eq, percentEncode_lt_iff lt_of_isUnreserved]
  have hinj : percentEncode isUnreserved (kept p.1) = percentEncode isUnreserved (kept q.1) ↔
      kept p.1 = kept q.1 :=
    ⟨percentEncode_injective isUnreserved_percent, congrArg _⟩
  rw [hinj]

include hnames in
/-- The map is in the order asked for iff that order agrees with the order of the names. -/
theorem pairwise_orderedParams_iff (uri : Iteration oauth.client.uriParams) :
    ((oauth.orderedParams draw uri).map escapedPair).Pairwise Precedes ↔
      ∀ p q, Signed oauth draw p → Signed oauth draw q → p.1 < q.1 → OrderKept p q := by
  have hsorted := (@orderedParams_spec oauth draw hnames uri).1
  rw [List.pairwise_map]
  simp only [precedes_escapedPair_iff, ← mem_orderedParams hnames uri]
  constructor
  · intro h p q hp hq hlt
    have hirrefl (a : Bytes × Bytes) : ¬a.1 < a.1 := irrefl_of (· < ·) a.1
    have hafter : (oauth.orderedParams draw uri).Pairwise fun a b => a.1 < b.1 → OrderKept a b :=
      h.imp fun {a b} hab (_ : a.1 < b.1) => hab
    have hbefore : (oauth.orderedParams draw uri).Pairwise fun a b => b.1 < a.1 → OrderKept b a :=
      hsorted.imp fun {a b} hab hba => absurd (trans_of (· < ·) hab hba) (hirrefl a)
    exact hafter.forall_of_forall_of_flip (fun a _ haa => absurd haa (hirrefl a)) hbefore hp hq hlt
  · intro h
    exact hsorted.imp_of_mem fun hp hq hlt => h _ _ hp hq hlt

end Ordered

/-! ## The parameters of the URL that is sent -/

theorem splitPair_pairText {a : Bytes × Bytes} (h : 61 ∉ a.1) : splitPair (pairText a) = a := by
  have hall : ∀ c ∈ a.1, decide (c ≠ 61) = true := fun c hc => decide_eq_true fun e => h (e ▸ hc)
  rw [splitPair, pairText, List.takeWhile_append_of_pos hall, List.dropWhile_append_of_pos hall]
  simp

theorem equals_not_mem_splitPair (s : Bytes) : 61 ∉ (splitPair s).1 :=
  fun h => absurd (List.mem_takeWhile_imp h) (by decide)

/-- A piece is written out as it is, or with a `=` more. -/
theorem pairText_splitPair (s : Bytes) :
    s.length ≤ (pairText (splitPair s)).length ∧ (38 ∉ s → 38 ∉ pairText (splitPair s)) := by
  have happ := List.takeWhile_append_dropWhile (p := fun c : UInt8 => decide (c ≠ 61)) (l := s)
  unfold pairText splitPair
  constructor
  · have hlen := congrArg List.length happ
    simp only [List.length_append, List.length_cons, List.length_tail] at hlen ⊢
    omega
  · intro hs hmem
    rw [← happ] at hs
    simp only [List.mem_append, not_or] at hs
    rcases List.mem_append.mp hmem with h | h
    · exact hs.1 h
    · rcases List.mem_cons.mp h with h | h
      · exact absurd h (by decide)
      · exact hs.2 (List.mem_of_mem_tail h)

/-- The parameters of a URL can be told apart once they are written out. -/
theorem queryPairs_free {url : Bytes} {a : Bytes × Bytes} (ha : a ∈ queryPairs url) :
    61 ∉ a.1 ∧ 38 ∉ pairText a := by
  obtain ⟨s, hs, rfl⟩ := List.mem_map.mp ha
  have hamp := not_mem_of_mem_splitOn (List.mem_filter.mp hs).1
  exact ⟨equals_not_mem_splitPair s, (pairText_splitPair s).2 hamp⟩

/-- The URL brings no parameters of its own: with nothing staged it has none, and otherwise it has
no `?`. -/
structure SentAlone (url : Bytes) (uriParams : UnorderedMap Bytes Bytes) : Prop where
  none_staged : uriParams = ∅ → queryPieces url = []
  staged : uriParams ≠ ∅ → 63 ∉ url

section Sent

variable {cli : HTTPClient} {query : Query} (orders : Orders cli) (hurl : 0 ∉ query.url)
  (hfrag : 35 ∉ query.url)

/-- The staged parameters as they are escaped. -/
def sentPairs (orders : Orders cli) : List (Bytes × Bytes) :=
  orders.uri.pairs.map fun p => escapedPair (p.1, p.2)

theorem pairs_eq_nil_iff {m : UnorderedMap Bytes Bytes} (it : Iteration m) :
    it.pairs = [] ↔ m = ∅ := by
  refine ⟨fun h => Finmap.ext_lookup fun k => ?_, it.pairs_of_empty⟩
  rw [← it.dlookup_pairs, h, Finmap.lookup_empty]
  rfl

theorem map_pairText_sentPairs :
    (sentPairs orders).map pairText = orders.uri.pairs.map formField := by
  rw [sentPairs, List.map_map]
  rfl

include hurl hfrag in
/-- Behind a query, more is sent than what is staged. -/
theorem sent_second (hquery : 63 ∈ query.url) (hne : orders.uri.pairs ≠ []) :
    (sentPairs orders).length ≤ (queryPairs (cli.sent query orders).url).length ∧
      ((sentPairs orders).map fun a => (pairText a).length).sum <
        ((queryPairs (cli.sent query orders).url).map fun a => (pairText a).length).sum := by
  obtain ⟨hfne, hfamp, hffrag⟩ := fields_free orders.uri.pairs
  have htexts := map_pairText_sentPairs orders
  rw [url_sent _ _ hurl, if_neg hne]
  obtain ⟨p, ps, e⟩ := List.exists_cons_of_ne_nil hne
  rw [e, List.map_cons] at hfne hfamp hffrag htexts ⊢
  rw [List.forall_mem_cons] at hfne
  obtain ⟨P, last, -, hnew⟩ := queryPieces_second hquery hfrag hffrag hfne.2 hfamp
  have hlen := congrArg List.length htexts
  have hsum := congrArg (fun l => (l.map List.length).sum) htexts
  have hle : ∀ pieces : List Bytes, (pieces.map List.length).sum ≤
      ((pieces.map splitPair).map fun a => (pairText a).length).sum := by
    intro pieces
    induction pieces with
    | nil => simp
    | cons s pieces ih =>
      have := (pairText_splitPair s).1
      simp only [List.map_cons, List.sum_cons]
      omega
  have hpieces := hle (P ++ (last ++ 63 :: formField p) :: ps.map formField)
  rw [queryPairs, hnew]
  simp only [List.map_map, List.map_append, List.map_cons, List.length_append, List.length_cons,
    List.length_map, List.sum_append, List.sum_cons, Function.comp_def] at hlen hsum hpieces ⊢
  omega

include hurl hfrag in
/-- Behind a URL without a query, exactly what is staged is sent. -/
theorem sent_first (hquery : 63 ∉ query.url) (hne : orders.uri.pairs ≠ []) :
    queryPairs (cli.sent query orders).url = sentPairs orders := by
  obtain ⟨hfne, hfamp, hffrag⟩ := fields_free orders.uri.pairs
  rw [url_sent _ _ hurl, if_neg hne, queryPairs]
  have hpieces :
      queryPieces (query.url ++ 63 :: [38].intercalate (orders.uri.pairs.map formField)) =
        orders.uri.pairs.map formField := by
    obtain ⟨p, ps, e⟩ := List.exists_cons_of_ne_nil hne
    rw [e, List.map_cons] at hfne hfamp hffrag ⊢
    exact queryPieces_first hquery hfrag hffrag hfne hfamp
  rw [hpieces, sentPairs, List.map_map]
  refine List.map_congr_left fun p _ => ?_
  exact splitPair_formField [] List.not_mem_nil p

include hurl hfrag in
/-- Nothing that is staged is lost. -/
theorem length_sentPairs_le :
    (sentPairs orders).length ≤ (queryPairs (cli.sent query orders).url).length := by
  by_cases hnil : orders.uri.pairs = []
  · simp [sentPairs, hnil]
  · by_cases hquery : 63 ∈ query.url
    · exact (sent_second orders hurl hfrag hquery hnil).1
    · rw [sent_first orders hurl hfrag hquery hnil]

include hurl hfrag in
/-- **The parameters of the URL that is sent are those staged** iff the URL brings none. -/
theorem perm_queryPairs_iff : (queryPairs (cli.sent query orders).url).Perm (sentPairs orders) ↔
    SentAlone query.url cli.uriParams := by
  by_cases hnil : orders.uri.pairs = []
  · have hempty := (pairs_eq_nil_iff orders.uri).mp hnil
    have hpairs : sentPairs orders = [] := by rw [sentPairs, hnil, List.map_nil]
    rw [url_sent _ _ hurl, if_pos hnil, hpairs, List.perm_nil, queryPairs, List.map_eq_nil_iff]
    exact ⟨fun h => ⟨fun _ => h, fun hne => absurd hempty hne⟩, fun h => h.none_staged hempty⟩
  · have hne := mt (pairs_eq_nil_iff orders.uri).mpr hnil
    constructor
    · intro hperm
      refine ⟨fun hempty => absurd hempty hne, fun _ hquery => ?_⟩
      have hlt := (sent_second orders hurl hfrag hquery hnil).2
      have hsum := (hperm.map fun a => (pairText a).length).sum_eq
      omega
    · intro h
      rw [sent_first orders hurl hfrag (h.staged hne) hnil]

end Sent

/-! ## The text and the parameters -/

section Text

variable {oauth : OAuthClient} {draw : Draw} (uri : Iteration oauth.client.uriParams)

theorem escapedPair_free (p : Bytes × Bytes) :
    61 ∉ (escapedPair p).1 ∧ 38 ∉ pairText (escapedPair p) :=
  ⟨separator_not_mem_httpStringEscape p.1 61 (by simp), amp_not_mem_escaped p⟩

/-- Parameters that can be told apart are read back from their text. -/
theorem eq_of_join_eq {params params' : List (Bytes × Bytes)}
    (h : ∀ a ∈ params, 61 ∉ a.1 ∧ 38 ∉ pairText a) (h' : ∀ a ∈ params', 61 ∉ a.1 ∧ 38 ∉ pairText a)
    (hne : params ≠ []) (hne' : params' ≠ [])
    (htext : [38].intercalate (params.map pairText) = [38].intercalate (params'.map pairText)) :
    params = params' := by
  have hread : ∀ l : List (Bytes × Bytes), (∀ a ∈ l, 61 ∉ a.1 ∧ 38 ∉ pairText a) → l ≠ [] →
      (([38].intercalate (l.map pairText)).splitOn 38).map splitPair = l := by
    intro l hl hlne
    have hamp : ∀ t ∈ l.map pairText, 38 ∉ t := by
      intro t ht
      obtain ⟨a, ha, rfl⟩ := List.mem_map.mp ht
      exact (hl a ha).2
    rw [List.splitOn_intercalate 38 hamp (by simpa), List.map_map]
    exact (List.map_congr_left fun a ha => splitPair_pairText (hl a ha).1).trans l.map_id
  rw [← hread params h hne, htext, hread params' h' hne']

variable (hnames : ∀ name value, oauth.client.uriParams.lookup name = some value →
    ¬ascii "oauth_" <+: name)

include hnames in
theorem length_orderedParams :
    (oauth.orderedParams draw uri).length = oauth.client.uriParams.entries.card + 6 := by
  rw [(orderedParams_spec hnames uri).2.length_eq, List.length_append, stagedPairs,
    List.length_map, uri.length_pairs]
  exact Nat.add_comm 6 _

include hnames in
/-- The signed text lists the map in its order, up to `2^32` parameters. -/
theorem parameterString_eq (hcard : oauth.client.uriParams.entries.card + 6 ≤ 2 ^ 32) :
    oauth.parameterString draw uri =
      [38].intercalate (((oauth.orderedParams draw uri).map escapedPair).map pairText) := by
  have hlen := @length_orderedParams oauth draw uri hnames
  have h := parameterLoop_eq (hlen ▸ hcard) (oauth.orderedParams draw uri) [] le_rfl
  rw [Nat.sub_self, List.nil_append] at h
  rw [OAuthClient.parameterString, List.map_map]
  exact h

include hnames in
/-- Beyond that, it has the `&` of fewer parameters. -/
theorem count_parameterString (hcard : 2 ^ 32 < oauth.client.uriParams.entries.card + 6) :
    (oauth.parameterString draw uri).count 38 + 2 ≤ oauth.client.uriParams.entries.card + 6 := by
  have hlen := @length_orderedParams oauth draw uri hnames
  have h := count_parameterLoop (oauth.orderedParams draw uri) [] le_rfl
  rw [Nat.sub_self, List.count_nil, Nat.zero_add, hlen] at h
  rw [OAuthClient.parameterString, hlen]
  exact (congrArg (· + 2) h).trans_le (countP_range_lt (by decide) _ hcard)

end Text

/-! ## The law -/

section Law

variable (oauth : OAuthClient) (draw : Draw) (query : Query)
  (hnames : ∀ name value, oauth.client.uriParams.lookup name = some value →
    ¬ascii "oauth_" <+: name)

theorem perm_sentPairs {cli : HTTPClient} (orders : Orders cli) (uri : Iteration cli.uriParams) :
    (uri.pairs.map fun p => escapedPair (p.1, p.2)).Perm (sentPairs orders) :=
  (Multiset.coe_eq_coe.mp (uri.enumerates.trans orders.uri.enumerates.symm)).map _

theorem queryPairs_params_free {url : Bytes} {params : List (Bytes × Bytes)}
    (h : params.Perm ((oauth.protocolParams draw).map escapedPair ++ queryPairs url)) :
    ∀ a ∈ params, 61 ∉ a.1 ∧ 38 ∉ pairText a := by
  intro a ha
  rcases List.mem_append.mp (h.mem_iff.mp ha) with hp | hq
  · obtain ⟨p, -, rfl⟩ := List.mem_map.mp hp
    exact escapedPair_free p
  · exact queryPairs_free hq

include hnames in
/-- The map, escaped, is the parameters to sign iff the staged ones are those sent. -/
theorem perm_orderedParams_iff (uri : Iteration oauth.client.uriParams) (l : List (Bytes × Bytes)) :
    ((oauth.orderedParams draw uri).map escapedPair).Perm
        ((oauth.protocolParams draw).map escapedPair ++ l) ↔
      l.Perm (uri.pairs.map fun p => escapedPair (p.1, p.2)) := by
  have hmap := ((@orderedParams_spec oauth draw hnames uri).2.map escapedPair).trans
    (List.Perm.of_eq List.map_append)
  have hstaged : (stagedPairs uri).map escapedPair =
      uri.pairs.map fun p => escapedPair (p.1, p.2) := by
    rw [stagedPairs, List.map_map]
    rfl
  rw [hstaged] at hmap
  exact ⟨fun h => ((List.perm_append_left_iff _).mp (hmap.symm.trans h)).symm,
    fun h => hmap.trans ((List.perm_append_left_iff _).mpr h.symm)⟩

theorem map_escapedPair_free (l : List (Bytes × Bytes)) :
    ∀ a ∈ l.map escapedPair, 61 ∉ a.1 ∧ 38 ∉ pairText a := by
  intro a ha
  obtain ⟨p, -, rfl⟩ := List.mem_map.mp ha
  exact escapedPair_free p

include hnames in
/-- A text with as many parameters as the map is the text of the map. -/
theorem eq_of_parameterString_eq (uri : Iteration oauth.client.uriParams)
    {params : List (Bytes × Bytes)} (hfree : ∀ a ∈ params, 61 ∉ a.1 ∧ 38 ∉ pairText a)
    (hlen : oauth.client.uriParams.entries.card + 6 ≤ params.length)
    (htext : oauth.parameterString draw uri = [38].intercalate (params.map pairText)) :
    oauth.client.uriParams.entries.card + 6 ≤ 2 ^ 32 ∧
      (oauth.orderedParams draw uri).map escapedPair = params := by
  have hcard : oauth.client.uriParams.entries.card + 6 ≤ 2 ^ 32 := by
    by_contra hgt
    have hcount := @count_parameterString oauth draw uri hnames (Nat.lt_of_not_le hgt)
    have hamp : ∀ t ∈ params.map pairText, 38 ∉ t := by
      intro t ht
      obtain ⟨a, ha, rfl⟩ := List.mem_map.mp ht
      exact (hfree a ha).2
    rw [htext, count_join hamp, List.length_map] at hcount
    omega
  refine ⟨hcard, eq_of_join_eq (map_escapedPair_free _) hfree ?_ ?_ ?_⟩
  · refine List.ne_nil_of_length_pos ?_
    rw [List.length_map, length_orderedParams uri hnames]
    omega
  · exact List.ne_nil_of_length_pos (by omega)
  · rw [← parameterString_eq uri hnames hcard, htext]

include hnames in
/-- What the law asks for. -/
theorem agrees_of_signsSent (hurl : 0 ∉ query.url) (hfrag : 35 ∉ query.url)
    (h : SignsSent oauth draw query) :
    (∀ p q, Signed oauth draw p → Signed oauth draw q → p.1 < q.1 → OrderKept p q) ∧
      SentAlone query.url oauth.client.uriParams ∧
      oauth.client.uriParams.entries.card + 6 ≤ 2 ^ 32 := by
  obtain ⟨uri⟩ := Iteration.nonempty oauth.client.uriParams
  obtain ⟨orders⟩ := Orders.nonempty
    (oauth.appendOauthHeader (fun _ _ => []) draw uri [] []).client
  obtain ⟨params, hperm, hpair, htext⟩ := h (fun _ _ => []) uri [] [] orders
  have hsent := perm_sentPairs orders uri
  have hlen : oauth.client.uriParams.entries.card + 6 ≤ params.length := by
    have hlost := length_sentPairs_le orders hurl hfrag
    rw [← hsent.length_eq, List.length_map, uri.length_pairs] at hlost
    rw [hperm.length_eq, List.length_append, List.length_map, length_protocolParams]
    omega
  -- the text determines the parameters, so they are those of the map, in its order
  obtain ⟨hcard, rfl⟩ := eq_of_parameterString_eq oauth draw hnames uri
    (queryPairs_params_free oauth draw hperm) hlen htext
  have hperm' := (perm_orderedParams_iff oauth draw hnames uri _).mp hperm
  exact ⟨(pairwise_orderedParams_iff hnames uri).mp hpair,
    (perm_queryPairs_iff orders hurl hfrag).mp (hperm'.trans hsent), hcard⟩

include hnames in
/-- **What is signed is what is sent** iff every two names are ordered alike before and after they
are escaped, the URL brings no parameters of its own, and the parameters are not more than the
counters count. -/
theorem signsSent_iff (hurl : 0 ∉ query.url) (hfrag : 35 ∉ query.url) :
    SignsSent oauth draw query ↔
      (∀ p q, Signed oauth draw p → Signed oauth draw q → p.1 < q.1 → OrderKept p q) ∧
        SentAlone query.url oauth.client.uriParams ∧
        oauth.client.uriParams.entries.card + 6 ≤ 2 ^ 32 := by
  refine ⟨agrees_of_signsSent oauth draw query hnames hurl hfrag, ?_⟩
  rintro ⟨horder, hsent, hcard⟩ hmacSha1 uri method url orders
  refine ⟨(oauth.orderedParams draw uri).map escapedPair, ?_, ?_, ?_⟩
  · rw [perm_orderedParams_iff oauth draw hnames]
    exact ((perm_queryPairs_iff orders hurl hfrag).mpr hsent).trans (perm_sentPairs orders uri).symm
  · exact (pairwise_orderedParams_iff hnames uri).mpr horder
  · exact parameterString_eq uri hnames hcard

end Law

/-- Names without reserved bytes are ordered alike. -/
theorem orderKept_of_escape_eq {p q : Bytes × Bytes} (hp : httpStringEscape p.1 = p.1)
    (hq : httpStringEscape q.1 = q.1) (h : p.1 < q.1) : OrderKept p q := by
  refine precedes_escapedPair_iff.mp (Or.inl ?_)
  rwa [escapedPair, escapedPair, hp, hq]

/-- A client with parameters staged. -/
def stagedClient (calls : List UriCall) : OAuthClient :=
  { client := HTTPClient.stageUri {} calls, consumerKey := ascii "key",
    consumerSecret := ascii "secret" }

theorem lookup_stagedClient_iff {calls : List UriCall} {name value : Bytes} :
    (stagedClient calls).client.uriParams.lookup name = some value ↔
      ∃ c ∈ lastCalls calls, c.name = name ∧ c.stored = value :=
  lookup_stageUri_iff rfl

/-- The names are those of the protocol and those of the calls. -/
theorem name_of_signed {calls : List UriCall} {draw : Draw} {p : Bytes × Bytes}
    (h : Signed (stagedClient calls) draw p) :
    p.1 ∈ ((stagedClient calls).protocolParams draw).map Prod.fst ∨
      p.1 ∈ (lastCalls calls).map UriCall.name := by
  rcases h with h | h
  · exact Or.inl (List.mem_map_of_mem h)
  · obtain ⟨c, hc, hname, -⟩ := lookup_stagedClient_iff.mp h
    exact Or.inr (List.mem_map.mpr ⟨c, hc, hname⟩)

theorem signsSent_count :
    SignsSent (stagedClient [⟨ascii "count", ascii "20", true⟩]) ⟨[], 0⟩
      { url := ascii "https://api.twitter.com/1.1/statuses/user_timeline.json" } := by
  refine (signsSent_iff _ _ _ ?_ (by decide) (by decide)).mpr ⟨?_, ⟨?_, ?_⟩, by decide⟩
  · intro name value h
    obtain ⟨c, hc, rfl, -⟩ := lookup_stagedClient_iff.mp h
    rw [List.mem_singleton.mp hc]
    decide
  · have hplain : ∀ p, Signed (stagedClient [⟨ascii "count", ascii "20", true⟩]) ⟨[], 0⟩ p →
        httpStringEscape p.1 = p.1 := by
      intro p hp
      rcases name_of_signed hp with h | h
      · rw [map_fst_protocolParams] at h
        revert h
        generalize p.1 = name
        revert name
        decide +kernel
      · rw [List.mem_singleton.mp h]
        decide +kernel
    exact fun p q hp hq h => orderKept_of_escape_eq (hplain p hp) (hplain q hq) h
  · intro _
    decide +kernel
  · intro _
    decide

/-- `[` comes after `1` as a byte, but is escaped to `%5B`. -/
theorem not_signsSent_bracket :
    ¬SignsSent (stagedClient [⟨ascii "a[", [], true⟩, ⟨ascii "a1", [], true⟩]) ⟨[], 0⟩
      { url := ascii "https://api.twitter.com/1.1/statuses/user_timeline.json" } := by
  intro h
  have hnames : ∀ name value, (stagedClient [⟨ascii "a[", [], true⟩,
      ⟨ascii "a1", [], true⟩]).client.uriParams.lookup name = some value →
        ¬ascii "oauth_" <+: name := by
    intro name value hlookup
    obtain ⟨c, hc, rfl, -⟩ := lookup_stagedClient_iff.mp hlookup
    clear hlookup
    revert c
    decide
  have horder := (agrees_of_signsSent _ _ _ hnames (by decide) (by decide) h).1
  have hkept := horder (ascii "a1", []) (ascii "a[", [])
    (Or.inr (lookup_stagedClient_iff.mpr ⟨⟨ascii "a1", [], true⟩, by decide, rfl, by decide⟩))
    (Or.inr (lookup_stagedClient_iff.mpr ⟨⟨ascii "a[", [], true⟩, by decide, rfl, by decide⟩))
    (by decide)
  have hbytes : ¬(escapedPair (ascii "a1", [])).1 < (escapedPair (ascii "a[", [])).1 ∧
      (escapedPair (ascii "a1", [])).1 ≠ (escapedPair (ascii "a[", [])).1 := by decide +kernel
  rcases precedes_escapedPair_iff.mpr hkept with hlt | ⟨heq, -⟩
  · exact hbytes.1 hlt
  · exact hbytes.2 heq

end WinterWind.Http
