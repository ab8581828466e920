import WinterWind.Http.HttpServer
import WinterWind.Library.Percent
import Mathlib.Data.Finset.Max

/-!
# The HTTP client (`src/core/httpclient.cpp`), and forms sent to the server

The client stages headers, URI parameters and form parameters, and `request` turns them into one
libcurl transfer. `SentRequest` lists what the transfer was configured with.

* `curl_easy_escape` is given the size converted to `int`. As documented, a negative length gives
  a null pointer, and the length 0 stands for `strlen`.
* A C string ends at its first NUL (`cStr`).
* The maps are iterated in an unspecified order, which `request` takes as an argument.
* `CurlAnswer` is what the transfer leaves: the response code and the bytes written.
* `CURLOPT_FOLLOWLOCATION` is set on every transfer (`SentRequest.followLocation`). What libcurl
  then sends on its own when an answer redirects it is part of the transfer, and is not modelled.

Results:
* `httpStringEscape_eq_self_iff`: the strings that escaping leaves alone.
* `eq_of_permuted`: escaping permutes no set of strings except by fixing each of them.
* **`formTrip_iff`**: the server decodes a staged form to the original map iff nothing in it needs
  escaping and no value is empty. The values are escaped twice, and the server undoes neither.
-/

namespace WinterWind.Http

open Library

/-! ## libcurl's escaping -/

/-- The bytes that are not escaped: `A-Z a-z 0-9 - . _ ~`. -/
def isUnreserved (c : UInt8) : Bool :=
  (48 ≤ c && c ≤ 57) || (65 ≤ c && c ≤ 90) || (97 ≤ c && c ≤ 122) || c == 45 || c == 46 ||
    c == 95 || c == 126

/-- `curl_easy_escape(curl, string, length)`. -/
def curlEasyEscape (string : Bytes) (length : Int) : Option Bytes :=
  if length < 0 then none
  else if length = 0 then some (percentEncode isUnreserved (cStr string))
  else some (percentEncode isUnreserved (string.take length.toNat))

/-- `HTTPClient::http_string_escape(src, dst)`: the value of `dst`. -/
def httpStringEscape (src : Bytes) : Bytes :=
  match curlEasyEscape src (toInt src.length) with
  | some output => cStr output
  | none => []

/-! ## The client -/

/-- `HTTPClient`. -/
structure HTTPClient where
  username : Bytes := []
  password : Bytes := []
  httpHeaders : UnorderedMap Bytes Bytes := ∅
  uriParams : UnorderedMap Bytes Bytes := ∅
  formParams : UnorderedMap Bytes Bytes := ∅
  httpCode : Int := 0
  maxFileSize : UInt32 := 1024 * 1024

/-- `Query`, with the bits of `Query::Flag`. -/
structure Query where
  url : Bytes
  flag : UInt8 := 0x01
  method : Method := .get
  postData : Bytes := []

def Query.flagAuth : UInt8 := 0x02
def Query.flagNoVerifyPeer : UInt8 := 0x04
def Query.flagKeepHeaderCacheAfterRequest : UInt8 := 0x08
def Query.flagNoResponseAwaited : UInt8 := 0x10

/-- What a transfer is configured with. -/
structure SentRequest where
  url : Bytes
  followLocation : Bool
  maxFileSize : UInt32
  verifyPeer : Bool
  customRequest : Option Bytes
  userPwd : Option Bytes
  headers : List Bytes
  postFields : Option Bytes

/-- What a transfer leaves behind. -/
structure CurlAnswer where
  responseCode : Int
  written : Bytes

namespace HTTPClient

def addHttpHeader (cli : HTTPClient) (header value : Bytes) : HTTPClient :=
  { cli with httpHeaders := cli.httpHeaders.insert header value }

/-- `HTTPClient::add_uri_param`. `escape` is `true` by default, here and for `add_form_param`. -/
def addUriParam (cli : HTTPClient) (param value : Bytes) (escape : Bool) : HTTPClient :=
  { cli with
    uriParams := cli.uriParams.insert param (if escape then httpStringEscape value else value) }

def addFormParam (cli : HTTPClient) (param value : Bytes) (escape : Bool) : HTTPClient :=
  { cli with
    formParams := cli.formParams.insert param (if escape then httpStringEscape value else value) }

/-- `method_str`. -/
def methodStr : Method → Bytes
  | .delete => ascii "DELETE"
  | .get => ascii "GET"
  | .head => ascii "HEAD"
  | .patch => ascii "PATCH"
  | .post => ascii "POST"
  | .propfind => ascii "PROPFIND"
  | .put => ascii "PUT"

/-- The `CURLOPT_CUSTOMREQUEST` of a method. -/
def customRequest : Method → Option Bytes
  | .post => none
  | .get => none
  | m => some (methodStr m)

/-- The two parameter loops of `request`: each parameter is escaped and appended after `lead`, or
after `&` from the second one on. -/
def appendParams (lead : Bytes) : List (Σ _ : Bytes, Bytes) → Bytes → Bytes
  | [], buf => buf
  | p :: rest, buf =>
    appendParams (ascii "&") rest
      (buf ++ lead ++ httpStringEscape p.1 ++ ascii "=" ++ httpStringEscape p.2)

/-- `HTTPClient::request(query, res)`: the transfer, the client after it and the value of `res`. -/
def request (cli : HTTPClient) (query : Query) (uri : Iteration cli.uriParams)
    (headers : Iteration cli.httpHeaders) (form : Iteration cli.formParams)
    (perform : SentRequest → CurlAnswer) (res : Bytes) : SentRequest × HTTPClient × Bytes :=
  let url := appendParams (ascii "?") uri.pairs query.url
  let postData := if form.pairs.isEmpty then query.postData else appendParams [] form.pairs []
  let sent : SentRequest :=
    { url := cStr url
      followLocation := true
      maxFileSize := cli.maxFileSize
      verifyPeer := query.flag &&& Query.flagNoVerifyPeer == 0
      customRequest := customRequest query.method
      userPwd :=
        if query.flag &&& Query.flagAuth != 0 then
          some (cStr (cli.username ++ ascii ":" ++ cli.password))
        else none
      headers := headers.pairs.map fun h => cStr (h.1 ++ ascii ": " ++ h.2)
      postFields := if postData.isEmpty then none else some (cStr postData) }
  let answer := perform sent
  let cleared := query.flag &&& Query.flagKeepHeaderCacheAfterRequest == 0
  (sent,
    { cli with
      httpCode := answer.responseCode
      httpHeaders := if cleared then ∅ else cli.httpHeaders
      uriParams := ∅
      formParams := ∅ },
    res ++ answer.written)

/-- The client after its form parameters were staged, in some order, with the default escaping. -/
def stageForm (cli : HTTPClient) (pairs : List (Σ _ : Bytes, Bytes)) : HTTPClient :=
  pairs.foldl (fun cli p => cli.addFormParam p.1 p.2 true) cli

end HTTPClient

/-! ## What escaping does -/

theorem isUnreserved_percent : isUnreserved 37 = false := by decide

theorem isUnreserved_digit : ∀ n < 16, isUnreserved (hexDigit n) = true := by decide

/-- An escaped string has no NUL, no `&` and no `=`. -/
theorem not_mem_percentEncode {s : Bytes} {c : UInt8} (hc : isUnreserved c = false)
    (hne : c ≠ 37) : c ∉ percentEncode isUnreserved s := by
  intro h
  rcases mem_percentEncode h with hu | rfl | ⟨n, hn, rfl⟩
  · exact absurd hu (by simp [hc])
  · exact hne rfl
  · exact absurd (isUnreserved_digit n hn) (by simp [hc])

/-- **What `http_string_escape` writes** for a string without NUL: nothing if the size becomes
negative, otherwise the encoding of as many bytes as the size says, 0 standing for all. -/
theorem httpStringEscape_cases {s : Bytes} (h : 0 ∉ s) :
    2 ^ 31 ≤ s.length % 2 ^ 32 ∧ httpStringEscape s = [] ∨
      s.length % 2 ^ 32 = 0 ∧ httpStringEscape s = percentEncode isUnreserved s ∨
      0 < s.length % 2 ^ 32 ∧ s.length % 2 ^ 32 < 2 ^ 31 ∧
        httpStringEscape s = percentEncode isUnreserved (s.take (s.length % 2 ^ 32)) := by
  have hclean (t : Bytes) : cStr (percentEncode isUnreserved t) = percentEncode isUnreserved t :=
    cStr_of_not_mem (not_mem_percentEncode (by decide) (by decide))
  unfold httpStringEscape curlEasyEscape toInt
  by_cases hneg : s.length % 2 ^ 32 < 2 ^ 31
  · rw [if_pos hneg, if_neg (by omega)]
    by_cases hzero : s.length % 2 ^ 32 = 0
    · rw [if_pos (by omega), cStr_of_not_mem h]
      exact Or.inr (Or.inl ⟨hzero, hclean s⟩)
    · rw [if_neg (by omega)]
      refine Or.inr (Or.inr ⟨by omega, hneg, ?_⟩)
      exact hclean _
  · rw [if_neg hneg, if_pos (by omega)]
    exact Or.inl ⟨by omega, rfl⟩

/-- The strings that survive escaping: unreserved bytes only, and a size that keeps its value as
an `int` or becomes 0. -/
def Plain (s : Bytes) : Prop :=
  (∀ b ∈ s, isUnreserved b = true) ∧ (s.length < 2 ^ 31 ∨ s.length % 2 ^ 32 = 0)

/-- **The strings that escaping leaves alone.** -/
theorem httpStringEscape_eq_self_iff {s : Bytes} (h : 0 ∉ s) :
    httpStringEscape s = s ↔ Plain s := by
  constructor
  · intro e
    rcases httpStringEscape_cases h with ⟨hneg, e'⟩ | ⟨hzero, e'⟩ | ⟨hpos, hlt, e'⟩
    · rw [e] at e'
      rw [e'] at hneg
      exact absurd hneg (by simp)
    · exact ⟨percentEncode_eq_self_iff.mp (e'.symm.trans e), Or.inr hzero⟩
    · have hlen := congrArg List.length (e'.symm.trans e)
      have hc := List.countP_le_length (p := (!isUnreserved ·)) (l := s.take (s.length % 2 ^ 32))
      rw [length_percentEncode, List.length_take] at hlen
      rw [List.length_take] at hc
      have hs : s.length % 2 ^ 32 = s.length := by omega
      rw [hs, List.take_length] at e'
      exact ⟨percentEncode_eq_self_iff.mp (e'.symm.trans e), Or.inl (by omega)⟩
  · rintro ⟨hall, hsize⟩
    rcases httpStringEscape_cases h with ⟨hneg, -⟩ | ⟨-, e⟩ | ⟨hpos, hlt, e⟩
    · omega
    · rw [e, percentEncode_of_unreserved hall]
    · have hs : s.length % 2 ^ 32 = s.length := by omega
      rw [e, hs, List.take_length, percentEncode_of_unreserved hall]

theorem not_mem_httpStringEscape (s : Bytes) {c : UInt8} (hc : isUnreserved c = false)
    (hne : c ≠ 37) : c ∉ httpStringEscape s := by
  unfold httpStringEscape curlEasyEscape
  split
  · rename_i output houtput
    intro hmem
    have hmem' : c ∈ output := (List.takeWhile_prefix _).subset hmem
    split at houtput
    · simp at houtput
    · split at houtput
      · exact not_mem_percentEncode hc hne (Option.some.inj houtput ▸ hmem')
      · exact not_mem_percentEncode hc hne (Option.some.inj houtput ▸ hmem')
  · exact List.not_mem_nil

/-- An escaped string has no NUL and none of the separators of a form. -/
theorem separator_not_mem_httpStringEscape (s : Bytes) :
    ∀ c ∈ [0, 38, 61], c ∉ httpStringEscape s := by
  intro c hc
  simp only [List.mem_cons, List.not_mem_nil, or_false] at hc
  rcases hc with rfl | rfl | rfl <;> exact not_mem_httpStringEscape s (by decide) (by decide)

/-- In any first bytes of an escaped string at most every third one needs escaping. -/
theorem countP_take_httpStringEscape {s : Bytes} (h : 0 ∉ s) (r : Nat) :
    3 * ((httpStringEscape s).take r).countP (!isUnreserved ·) ≤ r + 2 := by
  rcases httpStringEscape_cases h with ⟨-, e⟩ | ⟨-, e⟩ | ⟨-, -, e⟩
  · simp [e]
  · rw [e]
    exact countP_take_percentEncode isUnreserved_percent isUnreserved_digit s r
  · rw [e]
    exact countP_take_percentEncode isUnreserved_percent isUnreserved_digit _ r

section Permuted

variable {K : Finset Bytes} (hK : ∀ k ∈ K, ∃ k' ∈ K, httpStringEscape k' = k)

/-- The strings of `K` that escaping changes. -/
def changed (K : Finset Bytes) : Finset Bytes := K.filter fun k => httpStringEscape k ≠ k

include hK in
theorem not_mem_of_permuted {k : Bytes} (hk : k ∈ K) : 0 ∉ k := by
  obtain ⟨k', -, rfl⟩ := hK k hk
  exact separator_not_mem_httpStringEscape k' 0 (by simp)

include hK in
/-- A changed string is the escape of a changed one. -/
theorem exists_changed {k : Bytes} (hk : k ∈ changed K) :
    ∃ k' ∈ changed K, httpStringEscape k' = k := by
  rw [changed, Finset.mem_filter] at hk
  obtain ⟨k', hk', e⟩ := hK k hk.1
  refine ⟨k', Finset.mem_filter.mpr ⟨hk', fun e' => hk.2 ?_⟩, e⟩
  rw [← e, e', e']

omit hK in
theorem ne_nil_of_changed {k : Bytes} (hk : k ∈ changed K) : k ≠ [] := by
  rintro rfl
  exact (Finset.mem_filter.mp hk).2 rfl

omit hK in
/-- A changed string that is escaped as a whole grows. -/
theorem lt_of_changed {k k' : Bytes} (hk : k ∈ changed K)
    (e : percentEncode isUnreserved k = k') (e' : httpStringEscape k = k') :
    k.length < k'.length := by
  have hres : k.countP (!isUnreserved ·) ≠ 0 := by
    intro hz
    refine (Finset.mem_filter.mp hk).2 (e'.trans (e.symm.trans ?_))
    exact percentEncode_of_unreserved fun b hb => by simpa using List.countP_eq_zero.mp hz b hb
  rw [← e, length_percentEncode]
  omega

include hK in
/-- A changed string whose escape is not longer was cut. -/
theorem long_of_shorter {k k' : Bytes} (hk' : k' ∈ changed K) (e : httpStringEscape k' = k)
    (hne : k ≠ []) (hle : k.length ≤ k'.length) : 2 ^ 32 ≤ k'.length := by
  have h0 := not_mem_of_permuted hK (Finset.mem_filter.mp hk').1
  rcases httpStringEscape_cases h0 with ⟨-, e'⟩ | ⟨-, e'⟩ | ⟨-, -, e'⟩
  · exact absurd (e.symm.trans e') hne
  · have := lt_of_changed hk' (e'.symm.trans e) e
    omega
  · by_contra hshort
    rw [Nat.mod_eq_of_lt (by omega), List.take_length] at e'
    have := lt_of_changed hk' (e'.symm.trans e) e
    omega

include hK in
/-- A changed string of `2^32` bytes or more comes from a shorter one whose size is a multiple of
`2^32`: escaping a piece below `2^31` of an escaped string does not make it that long. -/
theorem multiple_of_long {k k' : Bytes} (hk' : k' ∈ changed K) (e : httpStringEscape k' = k)
    (hne : k ≠ []) (hlong : 2 ^ 32 ≤ k.length) :
    k'.length % 2 ^ 32 = 0 ∧ k'.length < k.length := by
  have hmem := (Finset.mem_filter.mp hk').1
  rcases httpStringEscape_cases (not_mem_of_permuted hK hmem) with
    ⟨-, e'⟩ | ⟨hzero, e'⟩ | ⟨hpos, hlt, e'⟩
  · exact absurd (e.symm.trans e') hne
  · exact ⟨hzero, lt_of_changed hk' (e'.symm.trans e) e⟩
  · obtain ⟨w, hw, rfl⟩ := hK k' hmem
    have hlen := congrArg List.length (e'.symm.trans e)
    have hc := countP_take_httpStringEscape (not_mem_of_permuted hK hw)
      ((httpStringEscape w).length % 2 ^ 32)
    rw [length_percentEncode, List.length_take] at hlen
    omega

include hK in
/-- **Escaping permutes a finite set of strings only by fixing each of them.** -/
theorem eq_of_permuted {k : Bytes} (hk : k ∈ K) : httpStringEscape k = k := by
  by_contra hne
  have hN : (changed K).Nonempty := ⟨k, Finset.mem_filter.mpr ⟨hk, hne⟩⟩
  -- the shortest changed string is the escape of one that was cut
  obtain ⟨p, hp, hmin⟩ := Finset.exists_min_image (changed K) List.length hN
  obtain ⟨p', hp', e⟩ := exists_changed hK hp
  have hlong := long_of_shorter hK hp' e (ne_nil_of_changed hp) (hmin p' hp')
  -- a string that long is the escape of a multiple of `2^32`, and so on without end
  have hQ : ((changed K).filter fun q => q.length % 2 ^ 32 = 0).Nonempty := by
    obtain ⟨q, hq, eq⟩ := exists_changed hK hp'
    have hmul := multiple_of_long hK hq eq (ne_nil_of_changed hp') hlong
    exact ⟨q, Finset.mem_filter.mpr ⟨hq, hmul.1⟩⟩
  obtain ⟨q, hq, hqmin⟩ := Finset.exists_min_image _ List.length hQ
  rw [Finset.mem_filter] at hq
  obtain ⟨q', hq', eq⟩ := exists_changed hK hq.1
  have hqne := ne_nil_of_changed hq.1
  have hqlong : 2 ^ 32 ≤ q.length := by
    have := List.length_pos_of_ne_nil hqne
    omega
  obtain ⟨hmul, hshorter⟩ := multiple_of_long hK hq' eq hqne hqlong
  have := hqmin q' (Finset.mem_filter.mpr ⟨hq', hmul⟩)
  omega

end Permuted

/-! ## The body of a form -/

/-- One parameter as `request` writes it. -/
def formField (p : Σ _ : Bytes, Bytes) : Bytes :=
  httpStringEscape p.1 ++ 61 :: httpStringEscape p.2

/-- The form loop joins the fields with `&`. -/
theorem appendParams_eq : ∀ (pairs : List (Σ _ : Bytes, Bytes)) (lead buf : Bytes), pairs ≠ [] →
    HTTPClient.appendParams lead pairs buf = buf ++ lead ++ [38].intercalate (pairs.map formField)
  | [], _, _, h => absurd rfl h
  | [p], lead, buf, _ => by
    simp [HTTPClient.appendParams, formField, ascii]
  | p :: q :: rest, lead, buf, _ => by
    rw [HTTPClient.appendParams, appendParams_eq (q :: rest) _ _ (List.cons_ne_nil q rest)]
    simp only [List.map_cons, List.intercalate_cons_cons]
    simp [formField, ascii]

theorem formField_ne_nil (p : Σ _ : Bytes, Bytes) : formField p ≠ [] := by
  simp [formField]

theorem amp_not_mem_formField (p : Σ _ : Bytes, Bytes) : 38 ∉ formField p := by
  have h1 := separator_not_mem_httpStringEscape p.1 38 (by simp)
  have h2 := separator_not_mem_httpStringEscape p.2 38 (by simp)
  simp [formField, h1, h2]

/-- The server splits a form body at its `&` into the fields. -/
theorem split_body (pairs : List (Σ _ : Bytes, Bytes)) :
    strSplit (HTTPClient.appendParams [] pairs []) 38 [] = pairs.map formField := by
  by_cases hp : pairs = []
  · subst hp
    rfl
  · rw [appendParams_eq pairs [] [] hp, List.append_nil, List.nil_append]
    refine strSplit_intercalate (by simpa using hp) ?_ ?_
    · intro f hf
      obtain ⟨p, -, rfl⟩ := List.mem_map.mp hf
      exact amp_not_mem_formField p
    · intro h
      obtain ⟨p, -, e⟩ := List.mem_map.mp (List.mem_of_getLast? h)
      exact formField_ne_nil p e

/-- The server splits a field at its `=`; an empty value leaves the name alone. -/
theorem split_field (p : Σ _ : Bytes, Bytes) :
    strSplit (formField p) 61 [] =
      if httpStringEscape p.2 = [] then [httpStringEscape p.1]
      else [httpStringEscape p.1, httpStringEscape p.2] := by
  have h1 := separator_not_mem_httpStringEscape p.1 61 (by simp)
  have h2 := separator_not_mem_httpStringEscape p.2 61 (by simp)
  have hsplit : (formField p).splitOn 61 = [httpStringEscape p.1, httpStringEscape p.2] := by
    rw [formField, List.splitOn_append_cons_self_of_not_mem h1, List.splitOn_eq_singleton h2]
  rw [strSplit_eq, hsplit, List.nil_append, dropEmptyLast]
  split
  · rename_i h
    rw [if_pos (by simpa using h)]
    rfl
  · rename_i h
    rw [if_neg (by simpa using h)]

/-- **What the server makes of the fields**: it accepts them iff no name and no value escapes to
nothing, and stores them as escaped. -/
theorem parsePieces_formField (result : UnorderedMap Bytes Bytes) :
    ∀ (pairs : List (Σ _ : Bytes, Bytes)) (postData : UnorderedMap Bytes Bytes),
      parsePieces (pairs.map formField) postData = some result ↔
        (∀ p ∈ pairs, httpStringEscape p.1 ≠ [] ∧ httpStringEscape p.2 ≠ []) ∧
          pairs.foldl (fun m p => m.insert (httpStringEscape p.1) (httpStringEscape p.2)) postData =
            result
  | [], postData => by simp [parsePieces]
  | p :: rest, postData => by
    have ih := parsePieces_formField result rest
    have hne : (formField p).isEmpty = false := by simp [formField]
    rw [List.map_cons, parsePieces, hne, split_field, List.forall_mem_cons, List.foldl_cons]
    by_cases h2 : httpStringEscape p.2 = []
    · simp [h2]
    · by_cases h1 : httpStringEscape p.1 = []
      · simp [h1, h2]
      · simp [h1, h2, ih]

/-- The fields staged by `add_form_param`. -/
theorem lookup_stageForm {cli : HTTPClient} {m : UnorderedMap Bytes Bytes} (it : Iteration m)
    (k : Bytes) :
    (HTTPClient.stageForm { cli with formParams := ∅ } it.pairs).formParams.lookup k =
      (m.lookup k).map httpStringEscape := by
  have hfold : ∀ (pairs : List (Σ _ : Bytes, Bytes)) (cli : HTTPClient),
      (HTTPClient.stageForm cli pairs).formParams =
        pairs.foldl (fun m p => m.insert p.1 (httpStringEscape p.2)) cli.formParams := by
    intro pairs
    induction pairs with
    | nil => intro cli; rfl
    | cons p pairs ih =>
      intro cli
      exact ih (cli.addFormParam p.1 p.2 true)
  rw [hfold, lookup_foldl_insert httpStringEscape k _ _ it.nodupKeys, it.dlookup_pairs,
    Finmap.lookup_empty, Option.or_none]

/-! ## The trip of a form -/

/-- A form staged in a client, in any order, and sent in any order, is accepted by the server as
the map it was. -/
def FormTrip (m : UnorderedMap Bytes Bytes) : Prop :=
  ∀ (cli : HTTPClient) (query : Query) (staging : Iteration m),
    let staged := HTTPClient.stageForm { cli with formParams := ∅ } staging.pairs
    ∀ (uri : Iteration staged.uriParams) (headers : Iteration staged.httpHeaders)
      (form : Iteration staged.formParams) (perform : SentRequest → CurlAnswer) (res : Bytes),
      let sent := (staged.request { query with postData := [] } uri headers form perform res).1
      parsePostData (sent.postFields.getD []) ∅ = some m

theorem nul_not_mem_appendParams : ∀ (pairs : List (Σ _ : Bytes, Bytes)) (lead buf : Bytes),
    0 ∉ lead → 0 ∉ buf → 0 ∉ HTTPClient.appendParams lead pairs buf
  | [], _, _, _, hbuf => hbuf
  | p :: rest, lead, buf, hlead, hbuf => by
    have h1 := separator_not_mem_httpStringEscape p.1 0 (by simp)
    have h2 := separator_not_mem_httpStringEscape p.2 0 (by simp)
    refine nul_not_mem_appendParams rest _ _ (by decide) ?_
    simp [hlead, hbuf, h1, h2, ascii]

/-- The server's reading of a sent form, in terms of the staged pairs. -/
theorem parse_sent_iff {cli : HTTPClient} {query : Query} (hq : query.postData = [])
    (uri : Iteration cli.uriParams) (headers : Iteration cli.httpHeaders)
    (form : Iteration cli.formParams) (perform : SentRequest → CurlAnswer) (res : Bytes)
    (result : UnorderedMap Bytes Bytes) :
    parsePostData ((cli.request query uri headers form perform res).1.postFields.getD []) ∅ =
        some result ↔
      (∀ p ∈ form.pairs, httpStringEscape p.1 ≠ [] ∧ httpStringEscape p.2 ≠ []) ∧
        form.pairs.foldl (fun m p => m.insert (httpStringEscape p.1) (httpStringEscape p.2)) ∅ =
          result := by
  have hdata : (if form.pairs.isEmpty then query.postData
      else HTTPClient.appendParams [] form.pairs []) =
        HTTPClient.appendParams [] form.pairs [] := by
    split
    · rename_i h
      rw [List.isEmpty_iff.mp h, hq]
      rfl
    · rfl
  have hbody : (cli.request query uri headers form perform res).1.postFields.getD [] =
      HTTPClient.appendParams [] form.pairs [] := by
    have hnul := nul_not_mem_appendParams form.pairs [] [] List.not_mem_nil List.not_mem_nil
    simp only [HTTPClient.request, hdata]
    split
    · rename_i h
      exact (List.isEmpty_iff.mp h).symm
    · exact cStr_of_not_mem hnul
  rw [hbody, parsePostData, split_body, parsePieces_formField]

section Trip

variable (cli : HTTPClient) {m : UnorderedMap Bytes Bytes} (staging : Iteration m)
  (form : Iteration (HTTPClient.stageForm { cli with formParams := ∅ } staging.pairs).formParams)

/-- What the server stored came from a pair of the original map, its value escaped twice. -/
theorem exists_of_trip
    (hall : ∀ p ∈ form.pairs, httpStringEscape p.1 ≠ [] ∧ httpStringEscape p.2 ≠ [])
    (hfold : form.pairs.foldl
      (fun m p => m.insert (httpStringEscape p.1) (httpStringEscape p.2)) ∅ = m)
    {k v : Bytes} (hk : m.lookup k = some v) :
    v ≠ [] ∧ ∃ k' v', m.lookup k' = some v' ∧ httpStringEscape k' = k ∧
      httpStringEscape (httpStringEscape v') = v := by
  rw [← hfold] at hk
  rcases exists_of_lookup_foldl _ _ _ _ hk with ⟨p, hp, rfl, rfl⟩ | h
  · have hstaged := form.mem_pairs_iff.mp hp
    rw [lookup_stageForm, Option.map_eq_some_iff] at hstaged
    obtain ⟨v', hv', e⟩ := hstaged
    exact ⟨(hall p hp).2, p.1, v', hv', rfl, by rw [e]⟩
  · rw [Finmap.lookup_empty] at h
    exact absurd h (by simp)

/-- When the server stores the map that was staged, escaping leaves its names and values alone. -/
theorem fixed_of_trip
    (hall : ∀ p ∈ form.pairs, httpStringEscape p.1 ≠ [] ∧ httpStringEscape p.2 ≠ [])
    (hfold : form.pairs.foldl
      (fun m p => m.insert (httpStringEscape p.1) (httpStringEscape p.2)) ∅ = m)
    {k v : Bytes} (hkv : m.lookup k = some v) :
    httpStringEscape k = k ∧ httpStringEscape v = v ∧ v ≠ [] := by
  -- the names are permuted by escaping, hence fixed
  have hkeys : ∀ k ∈ m.keys, ∃ k' ∈ m.keys, httpStringEscape k' = k := by
    intro k hk
    obtain ⟨v, hv⟩ := Finmap.mem_iff.mp (Finmap.mem_keys.mp hk)
    obtain ⟨-, k', v', hk', e, -⟩ := exists_of_trip cli staging form hall hfold hv
    exact ⟨k', Finmap.mem_keys.mpr (Finmap.mem_iff.mpr ⟨v', hk'⟩), e⟩
  obtain ⟨hv, k', v', hk', ek, ev⟩ := exists_of_trip cli staging form hall hfold hkv
  have hfix := eq_of_permuted hkeys (Finmap.mem_keys.mpr (Finmap.mem_iff.mpr ⟨v', hk'⟩))
  obtain rfl : k' = k := hfix.symm.trans ek
  obtain rfl : v' = v := Option.some.inj (hk'.symm.trans hkv)
  -- and so is the pair of a value and its escape
  have hpair : ∀ x ∈ ({v', httpStringEscape v'} : Finset Bytes),
      ∃ y ∈ ({v', httpStringEscape v'} : Finset Bytes), httpStringEscape y = x := by
    intro x hx
    rw [Finset.mem_insert, Finset.mem_singleton] at hx
    rcases hx with rfl | rfl
    · exact ⟨httpStringEscape x, by simp, ev⟩
    · exact ⟨v', by simp, rfl⟩
  exact ⟨hfix, eq_of_permuted hpair (Finset.mem_insert_self v' _), hv⟩

/-- The staged pairs of a map that escaping leaves alone are those of the map. -/
theorem mem_map_of_fixed
    (hfixed : ∀ k v, m.lookup k = some v → httpStringEscape k = k ∧ httpStringEscape v = v)
    {p : Σ _ : Bytes, Bytes} (hp : p ∈ form.pairs) : m.lookup p.1 = some p.2 := by
  have hstaged := form.mem_pairs_iff.mp hp
  rw [lookup_stageForm, Option.map_eq_some_iff] at hstaged
  obtain ⟨v, hv, e⟩ := hstaged
  rw [hv, ← (hfixed p.1 v hv).2, e]

/-- A map that escaping leaves alone is stored as it is. -/
theorem foldl_of_fixed
    (hfixed : ∀ k v, m.lookup k = some v → httpStringEscape k = k ∧ httpStringEscape v = v) :
    form.pairs.foldl (fun m p => m.insert (httpStringEscape p.1) (httpStringEscape p.2)) ∅ =
      m := by
  have hcongr : form.pairs.foldl
      (fun (m : UnorderedMap Bytes Bytes) p =>
        m.insert (httpStringEscape p.1) (httpStringEscape p.2)) ∅ =
        form.pairs.foldl (fun m p => m.insert p.1 (id p.2)) ∅ :=
    List.foldl_ext _ _ _ fun acc p hp => by
      obtain ⟨e1, e2⟩ := hfixed p.1 p.2 (mem_map_of_fixed cli staging form hfixed hp)
      rw [e1, e2]
      rfl
  rw [hcongr]
  refine Finmap.ext_lookup fun k => ?_
  rw [lookup_foldl_insert id k _ _ form.nodupKeys, form.dlookup_pairs, lookup_stageForm,
    Finmap.lookup_empty, Option.or_none, Option.map_id, id]
  cases hk : m.lookup k with
  | none => rfl
  | some v => rw [Option.map_some, (hfixed k v hk).2]

end Trip

/-- **When a form survives the trip.** For a map from non-empty names to values, without NUL, the
server accepts the body and decodes it to that map iff nothing in the names and the values needs
escaping and no value is empty. -/
theorem formTrip_iff (m : UnorderedMap Bytes Bytes)
    (hm : ∀ k v, m.lookup k = some v → k ≠ [] ∧ 0 ∉ k ∧ 0 ∉ v) :
    FormTrip m ↔ ∀ k v, m.lookup k = some v → Plain k ∧ Plain v ∧ v ≠ [] := by
  constructor
  · intro h k v hkv
    obtain ⟨staging⟩ := Iteration.nonempty m
    obtain ⟨uri⟩ := Iteration.nonempty (HTTPClient.stageForm {} staging.pairs).uriParams
    obtain ⟨headers⟩ := Iteration.nonempty (HTTPClient.stageForm {} staging.pairs).httpHeaders
    obtain ⟨form⟩ := Iteration.nonempty (HTTPClient.stageForm {} staging.pairs).formParams
    have hsent := h {} { url := [] } staging uri headers form (fun _ => ⟨0, []⟩) []
    obtain ⟨hall, hfold⟩ := (parse_sent_iff rfl uri headers form _ _ m).mp hsent
    obtain ⟨hk, hv, hne⟩ := fixed_of_trip {} staging form hall hfold hkv
    obtain ⟨-, h0k, h0v⟩ := hm k v hkv
    exact ⟨(httpStringEscape_eq_self_iff h0k).mp hk, (httpStringEscape_eq_self_iff h0v).mp hv, hne⟩
  · intro h cli query staging staged uri headers form perform res
    have hfixed : ∀ k v, m.lookup k = some v →
        httpStringEscape k = k ∧ httpStringEscape v = v := by
      intro k v hkv
      obtain ⟨-, h0k, h0v⟩ := hm k v hkv
      obtain ⟨hpk, hpv, -⟩ := h k v hkv
      exact ⟨(httpStringEscape_eq_self_iff h0k).mpr hpk,
        (httpStringEscape_eq_self_iff h0v).mpr hpv⟩
    refine (parse_sent_iff rfl uri headers form perform res m).mpr
      ⟨fun p hp => ?_, foldl_of_fixed cli staging form hfixed⟩
    have hkv := mem_map_of_fixed cli staging form hfixed hp
    obtain ⟨e1, e2⟩ := hfixed p.1 p.2 hkv
    rw [e1, e2]
    exact ⟨(hm p.1 p.2 hkv).1, (h p.1 p.2 hkv).2.2⟩

theorem eq_of_lookup_singleton {a b k v : Bytes}
    (h : (Finmap.singleton a b : UnorderedMap Bytes Bytes).lookup k = some v) : k = a ∧ v = b := by
  by_cases hk : k = a
  · subst hk
    rw [Finmap.lookup_singleton_eq] at h
    exact ⟨rfl, (Option.some.inj h).symm⟩
  · have hnone : (Finmap.singleton a b : UnorderedMap Bytes Bytes).lookup k = none := by
      rw [Finmap.lookup_eq_none, Finmap.mem_singleton]
      exact hk
    rw [hnone] at h
    exact absurd h (by simp)

/-- The form of the unit test. -/
theorem formTrip_ilikedogs :
    FormTrip (Finmap.singleton (ascii "post_param") (ascii "ilikedogs")) := by
  refine (formTrip_iff _ fun k v h => ?_).mpr fun k v h => ?_
  · obtain ⟨rfl, rfl⟩ := eq_of_lookup_singleton h
    decide
  · obtain ⟨rfl, rfl⟩ := eq_of_lookup_singleton h
    exact ⟨⟨List.all_eq_true.mp (by decide), Or.inl (by decide)⟩,
      ⟨List.all_eq_true.mp (by decide), Or.inl (by decide)⟩, by decide⟩

/-- The value `b c` is sent as `b%2520c`, and stored as that. -/
theorem not_formTrip_space :
    (∀ k v, (Finmap.singleton (ascii "a") (ascii "b c") : UnorderedMap Bytes Bytes).lookup k =
      some v → k ≠ [] ∧ 0 ∉ k ∧ 0 ∉ v) ∧
    ¬FormTrip (Finmap.singleton (ascii "a") (ascii "b c")) := by
  refine ⟨fun k v h => ?_, fun h => ?_⟩
  · obtain ⟨rfl, rfl⟩ := eq_of_lookup_singleton h
    decide
  · have hsent := h {} { url := [] } ⟨[⟨ascii "a", ascii "b c"⟩], rfl⟩ ⟨[], rfl⟩ ⟨[], rfl⟩
      ⟨[⟨ascii "a", ascii "b%20c"⟩], by decide⟩ (fun _ => ⟨0, []⟩) []
    exact absurd hsent (by decide)

end WinterWind.Http
