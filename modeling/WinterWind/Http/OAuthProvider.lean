import WinterWind.Http.OAuthHeader
import WinterWind.Http.JsonExchange
import Mathlib.Algebra.Order.BigOperators.Group.List

/-!
# A provider that checks signatures (RFC 5849)

The other side of `append_oauth_header`: `Accepts` is the check that a provider makes of a request
with the credentials it has issued. It reads the `Authorization` header and the query of the URL,
decodes every name and value, and signs the parameters on its own.

* The provider encodes with `percentEncode`, which has no limit on the size of a text.
* Whether a nonce was used before, or the time is right, is not looked at.

Results:
* `readAuthorization_headerLoop`: the header is read as the parameters it was written from.
* **`accepts_signed`**: the provider accepts what `append_oauth_header` has signed, if the names
  that are staged are ordered alike before and after they are escaped, and the texts are short.
-/

namespace WinterWind.Http

open Library

/-! ## The provider -/

/-- What a provider has issued to a client. -/
structure Credentials where
  consumerKey : Bytes
  consumerSecret : Bytes
  accessToken : Bytes
  accessTokenSecret : Bytes

def encode (s : Bytes) : Bytes := percentEncode isUnreserved s

def encodedPair (p : Bytes × Bytes) : Bytes × Bytes := (encode p.1, encode p.2)

/-- The value of a header. -/
def headerValueOf (name : Bytes) (lines : List Bytes) : Option Bytes :=
  lines.findSome? fun line =>
    if name ++ ascii ": " <+: line then some (line.drop (name ++ ascii ": ").length) else none

/-- A parameter of the header, which stands there as `name="value"`. -/
def readItem (item : Bytes) : Bytes × Bytes :=
  (percentDecode (splitPair item).1, percentDecode (splitPair item).2.tail.dropLast)

/-- The parameters of an `Authorization` header. -/
def readAuthorization (value : Bytes) : Option (List (Bytes × Bytes)) :=
  if ascii "OAuth " <+: value then
    some (((value.drop (ascii "OAuth ").length).splitOn 44).map fun item =>
      readItem (item.dropWhile (· == 32)))
  else none

/-- A URL without its query. -/
def baseUrl (url : Bytes) : Bytes := url.takeWhile (· ≠ 63)

/-- The text that is signed. -/
def providerBase (method url : Bytes) (signed : List (Bytes × Bytes)) : Bytes :=
  method ++ ascii "&" ++ encode url ++ ascii "&" ++
    encode ([38].intercalate (signed.map pairText))

/-- **The check of a request.** -/
structure Accepts (hmacSha1 : Bytes → Bytes → Bytes) (c : Credentials) (sent : SentRequest)
    (params : List (Bytes × Bytes)) : Prop where
  header : (headerValueOf (ascii "Authorization") sent.headers).bind readAuthorization = some params
  names : (params.map Prod.fst).Nodup
  consumerKey : params.lookup (ascii "oauth_consumer_key") = some c.consumerKey
  token : params.lookup (ascii "oauth_token") = some c.accessToken
  version : params.lookup (ascii "oauth_version") = some (ascii "1.0")
  signatureMethod : params.lookup (ascii "oauth_signature_method") = some (ascii "HMAC-SHA1")
  signature : ∃ signed : List (Bytes × Bytes),
    signed.Perm ((params.filter (·.1 ≠ ascii "oauth_signature") ++
      queryParams sent.url).map encodedPair) ∧
    signed.Pairwise Precedes ∧
    params.lookup (ascii "oauth_signature") = some (base64Encode (hmacSha1
      (encode c.consumerSecret ++ ascii "&" ++ encode c.accessTokenSecret)
      (providerBase sent.wireMethod (baseUrl sent.url) signed)))

/-! ## Short texts -/

/-- A C string whose size is an `int`. -/
def Short (s : Bytes) : Prop := 0 ∉ s ∧ s.length < 2 ^ 31

theorem Short.kept_eq {s : Bytes} (h : Short s) : kept s = s :=
  (kept_eq_self_iff h.1).mpr (.inl h.2)

theorem Short.escape_eq {s : Bytes} (h : Short s) : httpStringEscape s = encode s := by
  rw [httpStringEscape_eq, h.kept_eq, encode]

theorem length_kept_le (s : Bytes) : (kept s).length ≤ s.length := by
  unfold kept
  split
  · exact Nat.zero_le _
  · split
    · exact (List.takeWhile_prefix _).length_le
    · exact List.length_take_le' _ _

theorem length_escape_le (s : Bytes) : (httpStringEscape s).length ≤ 3 * s.length := by
  obtain ⟨c, hlength, hc⟩ := length_escape s
  have hkept := length_kept_le s
  omega

theorem nul_not_mem_base64Encode (s : Bytes) : 0 ∉ base64Encode s := by
  rw [base64Encode, base64EncodePriv_eq]
  intro hmem
  rcases List.mem_append.mp hmem with hsymbol | hpad
  · exact absurd (symbols_subset (by decide) _ hsymbol) (by decide)
  · exact absurd (List.eq_of_mem_replicate hpad) (by decide)

theorem length_base64Encode {s : Bytes} (h : s.length < 2 ^ 28) :
    (base64Encode s).length ≤ 2 * s.length + 4 := by
  rw [base64Encode, base64EncodePriv_eq, Nat.mod_eq_of_lt (by omega), List.take_length,
    List.length_append, List.length_map, length_sextets, List.length_replicate, padding]
  omega

/-- Encoded bytes are a short text. -/
theorem short_base64Encode {s : Bytes} (h : s.length < 2 ^ 28) : Short (base64Encode s) := by
  have hlength := length_base64Encode h
  exact ⟨nul_not_mem_base64Encode s, by omega⟩

theorem length_join_le (fs : List Bytes) :
    ([38].intercalate fs).length ≤ (fs.map fun f => f.length + 1).sum := by
  induction fs with
  | nil => simp
  | cons f fs ih =>
    cases fs with
    | nil => simp
    | cons g fs =>
      rw [List.intercalate_cons_cons, List.map_cons, List.sum_cons]
      simp only [List.length_append, List.length_singleton]
      omega

theorem encode_kept (s : Bytes) : encode (kept s) = httpStringEscape s :=
  (httpStringEscape_eq s).symm

/-! ## The header, read -/

theorem headerValueOf_eq {name value : Bytes} {lines : List Bytes}
    (hmem : name ++ ascii ": " ++ value ∈ lines)
    (honly : ∀ line ∈ lines, name ++ ascii ": " <+: line → line = name ++ ascii ": " ++ value) :
    headerValueOf name lines = some value := by
  unfold headerValueOf
  induction lines with
  | nil => cases hmem
  | cons line lines ih =>
    rw [List.findSome?_cons]
    by_cases hline : name ++ ascii ": " <+: line
    · rw [if_pos hline, honly line List.mem_cons_self hline, List.drop_left]
    · rw [if_neg hline]
      refine ih ?_ fun line' hline' => honly line' (List.mem_cons_of_mem line hline')
      rcases List.mem_cons.mp hmem with rfl | hmem
      · exact absurd (List.prefix_append _ _) hline
      · exact hmem

/-- The bytes of an item. -/
theorem not_mem_headerItem {c : UInt8} (hc : isUnreserved c = false) (hpercent : c ≠ 37)
    (hequals : c ≠ 61) (hquote : c ≠ 34) (p : Bytes × Bytes) : c ∉ headerItem p := by
  have hname := not_mem_httpStringEscape p.1 hc hpercent
  have hvalue := not_mem_httpStringEscape p.2 hc hpercent
  have heq : c ∉ ascii "=\"" := by
    rw [show ascii "=\"" = [61, 34] from rfl]
    simp [hequals, hquote]
  have hlast : c ∉ ascii "\"" := by
    rw [show ascii "\"" = [34] from rfl]
    simp [hquote]
  unfold headerItem
  simp only [List.mem_append, not_or]
  exact ⟨⟨⟨hname, heq⟩, hvalue⟩, hlast⟩

/-- An item is read as it was written, up to what escaping keeps. -/
theorem readItem_headerItem (p : Bytes × Bytes) :
    readItem (headerItem p) = (kept p.1, kept p.2) := by
  have hitem : headerItem p =
      pairText (httpStringEscape p.1, 34 :: (httpStringEscape p.2 ++ [34])) := by
    unfold headerItem pairText
    simp [show ascii "=\"" = [61, 34] from rfl, show ascii "\"" = [34] from rfl]
  have hsplit := @splitPair_pairText (httpStringEscape p.1, 34 :: (httpStringEscape p.2 ++ [34]))
    (separator_not_mem_httpStringEscape p.1 61 (by simp))
  rw [readItem, hitem, hsplit]
  dsimp only
  rw [List.tail_cons, List.dropLast_concat, percentDecode_escape, percentDecode_escape]

/-- The blanks behind the commas belong to the items. -/
theorem intercalate_comma (item : Bytes) (items : List Bytes) :
    (ascii ", ").intercalate (item :: items) =
      [44].intercalate (item :: items.map (32 :: ·)) := by
  induction items generalizing item with
  | nil => simp
  | cons next items ih =>
    have hblank (rest : List Bytes) : [44].intercalate ((32 :: next) :: rest) =
        32 :: [44].intercalate (next :: rest) := by
      cases rest <;> simp [List.intercalate_cons_cons]
    rw [List.intercalate_cons_cons, ih, List.map_cons, List.intercalate_cons_cons, hblank,
      show ascii ", " = [44, 32] from rfl]
    simp

/-- **The items of a header** are read as they were written. -/
theorem readAuthorization_items {params : List (Bytes × Bytes)} (hne : params ≠ []) :
    readAuthorization (ascii "OAuth " ++ (ascii ", ").intercalate (params.map headerItem)) =
      some (params.map fun p => (kept p.1, kept p.2)) := by
  have hcomma (p : Bytes × Bytes) : 44 ∉ headerItem p :=
    not_mem_headerItem (by decide) (by decide) (by decide) (by decide) p
  have hblank (p : Bytes × Bytes) : (headerItem p).dropWhile (· == 32) = headerItem p := by
    have hnot : 32 ∉ headerItem p :=
      not_mem_headerItem (by decide) (by decide) (by decide) (by decide) p
    cases hitem : headerItem p with
    | nil => rfl
    | cons c rest =>
      have hc : c ≠ 32 := by
        rintro rfl
        exact hnot (hitem ▸ List.mem_cons_self)
      rw [List.dropWhile_cons_of_neg (by simpa using hc)]
  obtain ⟨p, rest, rfl⟩ := List.exists_cons_of_ne_nil hne
  have hsplit : (((ascii ", ").intercalate ((p :: rest).map headerItem)).splitOn 44) =
      headerItem p :: (rest.map headerItem).map (32 :: ·) := by
    rw [List.map_cons, intercalate_comma]
    refine List.splitOn_intercalate 44 (fun s hs => ?_) (List.cons_ne_nil _ _)
    rcases List.mem_cons.mp hs with rfl | hs
    · exact hcomma p
    · obtain ⟨_, hitem, rfl⟩ := List.mem_map.mp hs
      obtain ⟨q, -, rfl⟩ := List.mem_map.mp hitem
      rw [List.mem_cons, not_or]
      exact ⟨by decide, hcomma q⟩
  rw [readAuthorization, if_pos (List.prefix_append _ _), List.drop_left, hsplit, List.map_cons,
    List.map_map, List.map_map, List.map_cons]
  congr 2
  · rw [hblank, readItem_headerItem]
  · refine List.map_congr_left fun q _ => ?_
    change readItem ((32 :: headerItem q).dropWhile (· == 32)) = _
    rw [List.dropWhile_cons_of_pos rfl, hblank, readItem_headerItem]

/-! ## What is signed, checked -/

section Check

variable {oauth : OAuthClient} {hmacSha1 : Bytes → Bytes → Bytes} {draw : Draw}
  {uri : Iteration oauth.client.uriParams} {method url : Bytes}
  (hnames : ∀ name value, oauth.client.uriParams.lookup name = some value →
    ¬ascii "oauth_" <+: name)

include hnames in
/-- The header lists the parameters of the protocol and the signature. -/
theorem perm_oauthParams : (oauthParams oauth hmacSha1 draw uri method url).Perm
    ((ascii "oauth_signature", oauth.signature hmacSha1 draw uri method url) ::
      oauth.protocolParams draw) := by
  have hprotocol : ∀ p ∈ oauth.protocolParams draw, IsOAuth p ∧ p.1 ≠ ascii "oauth_signature" := by
    have hall : ∀ name ∈ (oauth.protocolParams draw).map Prod.fst,
        ascii "oauth_" <+: name ∧ name ≠ ascii "oauth_signature" := by
      rw [map_fst_protocolParams]
      decide
    exact fun p hp => hall p.1 (List.mem_map_of_mem hp)
  have hstaged : ∀ p ∈ stagedPairs uri, ¬IsOAuth p := fun p hp =>
    hnames p.1 p.2 ((mem_stagedPairs uri).mp hp)
  have hordered := (@orderedParams_spec oauth draw hnames uri).2
  have hfree : ∀ p ∈ oauth.orderedParams draw uri, ascii "oauth_signature" ≠ p.1 := by
    intro p hp heq
    rcases List.mem_append.mp (hordered.mem_iff.mp hp) with hp | hp
    · exact (hprotocol p hp).2 heq.symm
    · refine hstaged p hp ?_
      rw [IsOAuth, ← heq]
      decide
  have hperm := ((perm_insertEntry (oauth.signature hmacSha1 draw uri method url) hfree).trans
    (hordered.cons _)).filter fun p => decide (IsOAuth p)
  have hkeep : (oauth.protocolParams draw).filter (fun p => decide (IsOAuth p)) =
      oauth.protocolParams draw :=
    List.filter_eq_self.mpr fun p hp => decide_eq_true (hprotocol p hp).1
  have hdrop : (stagedPairs uri).filter (fun p => decide (IsOAuth p)) = [] :=
    List.filter_eq_nil_iff.mpr fun p hp => by simpa using hstaged p hp
  have hsignature : decide (IsOAuth (ascii "oauth_signature",
      oauth.signature hmacSha1 draw uri method url)) = true :=
    decide_eq_true (show ascii "oauth_" <+: ascii "oauth_signature" by decide)
  rw [@List.filter_cons_of_pos _ (fun p => decide (IsOAuth p)) _ _ hsignature, List.filter_append,
    hkeep, hdrop, List.append_nil] at hperm
  exact hperm

include hnames in
/-- The header, as it is written. -/
theorem headerLoop_headerParams :
    OAuthClient.headerLoop (oauth.headerParams hmacSha1 draw uri method url) 0 (ascii "OAuth ") =
      ascii "OAuth " ++ (ascii ", ").intercalate
        ((oauthParams oauth hmacSha1 draw uri method url).map headerItem) := by
  have hperm := @perm_oauthParams oauth hmacSha1 draw uri method url hnames
  have hlength : (oauthParams oauth hmacSha1 draw uri method url).length = 7 := by
    rw [hperm.length_eq, List.length_cons, length_protocolParams]
  have hall := fun p => @isOAuth_of_mem oauth hmacSha1 draw uri method url p
  have hloop := (headerLoop_eq_iff hall hlength.ge (ascii "OAuth ")).mpr hlength
  rw [headerLoop_filter]
  exact hloop

include hnames in
/-- The header is read as the parameters it was written from. -/
theorem readAuthorization_headerLoop :
    readAuthorization (OAuthClient.headerLoop (oauth.headerParams hmacSha1 draw uri method url) 0
      (ascii "OAuth ")) =
        some ((oauthParams oauth hmacSha1 draw uri method url).map fun p => (p.1, kept p.2)) := by
  have hperm := @perm_oauthParams oauth hmacSha1 draw uri method url hnames
  have hne : oauthParams oauth hmacSha1 draw uri method url ≠ [] := by
    refine List.ne_nil_of_length_pos ?_
    rw [hperm.length_eq]
    exact Nat.succ_pos _
  have hnameKept : ∀ name ∈ ascii "oauth_signature" ::
      (oauth.protocolParams draw).map Prod.fst, kept name = name := by
    rw [map_fst_protocolParams]
    decide
  rw [headerLoop_headerParams hnames, readAuthorization_items hne]
  refine congrArg some (List.map_congr_left fun p hp => ?_)
  have hname : p.1 ∈ ascii "oauth_signature" :: (oauth.protocolParams draw).map Prod.fst :=
    List.mem_map_of_mem (f := Prod.fst) (hperm.mem_iff.mp hp)
  rw [hnameKept p.1 hname]

include hnames in
/-- What the provider signs is what was signed: the parameters it has read are those of the map. -/
theorem perm_signed {sent : SentRequest}
    (hquery : (queryPairs sent.url).Perm (uri.pairs.map fun p => escapedPair (p.1, p.2))) :
    ((oauth.orderedParams draw uri).map escapedPair).Perm
      (((((oauthParams oauth hmacSha1 draw uri method url).map fun p => (p.1, kept p.2)).filter
        (·.1 ≠ ascii "oauth_signature")) ++ queryParams sent.url).map encodedPair) := by
  have hprotocol : (((oauthParams oauth hmacSha1 draw uri method url).map
      fun p => (p.1, kept p.2)).filter (·.1 ≠ ascii "oauth_signature")).Perm
        ((oauth.protocolParams draw).map fun p => (p.1, kept p.2)) := by
    have hall : ∀ name ∈ (oauth.protocolParams draw).map Prod.fst,
        name ≠ ascii "oauth_signature" := by
      rw [map_fst_protocolParams]
      decide
    have hkeep : ((oauth.protocolParams draw).map fun p => (p.1, kept p.2)).filter
        (·.1 ≠ ascii "oauth_signature") =
          (oauth.protocolParams draw).map fun p => (p.1, kept p.2) := by
      refine List.filter_eq_self.mpr fun q hq => decide_eq_true ?_
      obtain ⟨p, hp, rfl⟩ := List.mem_map.mp hq
      exact hall p.1 (List.mem_map_of_mem hp)
    have hperm := ((@perm_oauthParams oauth hmacSha1 draw uri method url hnames).map
      fun p => (p.1, kept p.2)).filter (·.1 ≠ ascii "oauth_signature")
    rw [List.map_cons, List.filter_cons_of_neg (by simp), hkeep] at hperm
    exact hperm
  have hencoded : ((oauth.protocolParams draw).map fun p => (p.1, kept p.2)).map encodedPair =
      (oauth.protocolParams draw).map escapedPair := by
    have hnameKept : ∀ name ∈ (oauth.protocolParams draw).map Prod.fst,
        encode name = httpStringEscape name := by
      rw [map_fst_protocolParams]
      decide
    rw [List.map_map]
    refine List.map_congr_left fun p hp => ?_
    exact Prod.ext (hnameKept p.1 (List.mem_map_of_mem hp)) (encode_kept p.2)
  have hdecoded : (queryParams sent.url).map encodedPair =
      (queryPairs sent.url).map fun a =>
        (encode (percentDecode a.1), encode (percentDecode a.2)) := by
    rw [queryParams, queryPairs, List.map_map, List.map_map]
    rfl
  have hstaged : ((uri.pairs.map fun p => escapedPair (p.1, p.2)).map
      fun a => (encode (percentDecode a.1), encode (percentDecode a.2))) =
        uri.pairs.map fun p => escapedPair (p.1, p.2) := by
    rw [List.map_map]
    refine List.map_congr_left fun p _ => ?_
    simp only [Function.comp_apply, escapedPair, percentDecode_escape, encode_kept]
  rw [List.map_append, hdecoded]
  exact ((perm_orderedParams_iff oauth draw hnames uri _).mpr (List.Perm.refl _)).trans
    (((hprotocol.map encodedPair).trans (List.Perm.of_eq hencoded)).symm.append
      ((hquery.map fun a => (encode (percentDecode a.1), encode (percentDecode a.2))).trans
        (List.Perm.of_eq hstaged)).symm)

include hnames in
/-- How long the text is that is signed. -/
theorem short_parameterString (hcard : oauth.client.uriParams.entries.card + 6 ≤ 2 ^ 32)
    (hlength : ((oauth.protocolParams draw ++ stagedPairs uri).map
      fun p => 3 * p.1.length + 3 * p.2.length + 2).sum < 2 ^ 31) :
    Short (oauth.parameterString draw uri) := by
  have hperm := (@orderedParams_spec oauth draw hnames uri).2
  rw [← (hperm.map fun p => 3 * p.1.length + 3 * p.2.length + 2).sum_eq] at hlength
  rw [parameterString_eq uri hnames hcard]
  constructor
  · refine not_mem_join (by decide) fun f hf => ?_
    obtain ⟨a, ha, rfl⟩ := List.mem_map.mp hf
    obtain ⟨p, -, rfl⟩ := List.mem_map.mp ha
    exact not_mem_formField (by decide) (by decide) (by decide) ⟨p.1, p.2⟩
  · refine lt_of_le_of_lt ((length_join_le _).trans ?_) hlength
    rw [List.map_map, List.map_map]
    refine List.sum_le_sum fun p _ => ?_
    have hname := length_escape_le p.1
    have hvalue := length_escape_le p.2
    simp only [Function.comp_apply, pairText, escapedPair, List.length_append, List.length_cons]
    omega

/-- What the provider has issued to the client. -/
def OAuthClient.credentials (oauth : OAuthClient) : Credentials where
  consumerKey := oauth.consumerKey
  consumerSecret := oauth.consumerSecret
  accessToken := oauth.accessToken
  accessTokenSecret := oauth.accessTokenSecret

/-- The texts that are escaped are C strings whose sizes are `int`s. -/
structure ShortTexts (oauth : OAuthClient) (hmacSha1 : Bytes → Bytes → Bytes) (draw : Draw)
    (uri : Iteration oauth.client.uriParams) (method url : Bytes) : Prop where
  consumerKey : Short oauth.consumerKey
  consumerSecret : Short oauth.consumerSecret
  accessToken : Short oauth.accessToken
  accessTokenSecret : Short oauth.accessTokenSecret
  signature : Short (oauth.signature hmacSha1 draw uri method url)
  parameterString : Short (oauth.parameterString draw uri)
  url : Short url

include hnames in
/-- **The provider accepts a request that was signed**: it has the header of the client, the staged
parameters in its query and nothing else, and the method and the URL that were signed. -/
theorem accepts_signed {sent : SentRequest}
    (hshort : ShortTexts oauth hmacSha1 draw uri method url)
    (horder : ∀ p q, Signed oauth draw p → Signed oauth draw q → p.1 < q.1 → OrderKept p q)
    (hcard : oauth.client.uriParams.entries.card + 6 ≤ 2 ^ 32)
    (hheader : headerValueOf (ascii "Authorization") sent.headers =
      some (OAuthClient.headerLoop (oauth.headerParams hmacSha1 draw uri method url) 0
        (ascii "OAuth ")))
    (hquery : (queryPairs sent.url).Perm (uri.pairs.map fun p => escapedPair (p.1, p.2)))
    (hurl : baseUrl sent.url = url) (hmethod : sent.wireMethod = method) :
    Accepts hmacSha1 oauth.credentials sent
      ((oauthParams oauth hmacSha1 draw uri method url).map fun p => (p.1, kept p.2)) := by
  have hperm := (@perm_oauthParams oauth hmacSha1 draw uri method url hnames).map
    fun p => (p.1, kept p.2)
  have hkeys : (((oauthParams oauth hmacSha1 draw uri method url).map
      fun p => (p.1, kept p.2)).map Prod.fst).Nodup := by
    rw [List.map_map]
    exact nodup_map_fst_oauthParams oauth hmacSha1 draw uri method url
  have hlookup (name value : Bytes) (hmem : (name, value) ∈ ((ascii "oauth_signature",
      oauth.signature hmacSha1 draw uri method url) :: oauth.protocolParams draw)) :
      ((oauthParams oauth hmacSha1 draw uri method url).map fun p => (p.1, kept p.2)).lookup name =
        some (kept value) := by
    refine (lookup_eq_some_iff_mem hkeys).mpr (hperm.mem_iff.mpr ?_)
    exact List.mem_map_of_mem (f := fun p : Bytes × Bytes => (p.1, kept p.2)) hmem
  have htext : OAuthClient.signatureBase method url (oauth.parameterString draw uri) =
      providerBase sent.wireMethod (baseUrl sent.url)
        ((oauth.orderedParams draw uri).map escapedPair) := by
    rw [OAuthClient.signatureBase, providerBase, hmethod, hurl, hshort.url.escape_eq,
      hshort.parameterString.escape_eq, parameterString_eq uri hnames hcard]
  refine ⟨?_, hkeys, ?_, ?_, ?_, ?_, _, perm_signed hnames hquery,
    (pairwise_orderedParams_iff hnames uri).mpr horder, ?_⟩
  · rw [hheader, Option.bind_some, readAuthorization_headerLoop hnames]
  · rw [hlookup _ oauth.consumerKey (by simp [OAuthClient.protocolParams]),
      hshort.consumerKey.kept_eq]
    rfl
  · rw [hlookup _ oauth.accessToken (by simp [OAuthClient.protocolParams]),
      hshort.accessToken.kept_eq]
    rfl
  · exact hlookup _ (ascii "1.0") (by simp [OAuthClient.protocolParams])
  · exact hlookup _ (ascii "HMAC-SHA1") (by simp [OAuthClient.protocolParams])
  · rw [hlookup _ _ List.mem_cons_self, hshort.signature.kept_eq, OAuthClient.signature,
      hshort.consumerSecret.escape_eq, hshort.accessTokenSecret.escape_eq, htext]
    rfl

end Check

end WinterWind.Http
