import WinterWind.Http.OAuthProvider

/-!
# The Twitter client (`src/extras/twitterclient.cpp`)

`authenticate`, `get_user_timeline` and `get_home_timeline`, in any order, on one client.

* `Outside` is what the client does not decide: the network, OpenSSL's HMAC-SHA1, the bytes and the
  time drawn for each request, and the order in which `append_oauth_header` visits the parameters.
* Nothing catches `Json::LogicError`, which leaves the client as it is; it may be called again.
* `append_bearer_header` is called by nothing.

Results:
* `tokenRequest_asking`, `timelineRequest_signed`: the two kinds of request.
* `performed`: one call is one request, and leaves nothing staged.
* **`twitter_run`**: every run sends one request for each call, and each as it should be sent. A
  timeline is asked for with the parameters of its call and no others, and a provider accepts it.
-/

namespace WinterWind.Extras

open Library Http

/-- `TwitterClient::Response` -/
inductive TwitterResponse where
  | ok
  | invalidResponse
  | unauthorized
  | forbidden
  deriving Repr, DecidableEq

/-- What is left open by the client, at each number of requests sent so far. -/
structure Outside where
  net : Net
  hmacSha1 : Bytes → Bytes → Bytes
  draw : Nat → Draw
  signing : Nat → (cli : HTTPClient) → Iteration cli.uriParams

/-- `TwitterClient` -/
structure TwitterClient where
  consumerKey : Bytes
  consumerSecret : Bytes
  accessToken : Bytes := []
  accessTokenSecret : Bytes := []
  transfers : Transfers := ⟨{}, []⟩
  bearerToken : Bytes := []

def twitterApiUrl : Bytes := ascii "https://api.twitter.com"

def twitterOauth2Token : Bytes := ascii "/oauth2/token"

def twitterHomeTimeline : Bytes := ascii "/1.1/statuses/home_timeline.json"

def twitterUserTimeline : Bytes := ascii "/1.1/statuses/user_timeline.json"

namespace TwitterClient

/-- The `OAuthClient` in it, with parameters staged. -/
def oauth (c : TwitterClient) (params : List UriCall) : OAuthClient where
  client := c.transfers.client.stageUri params
  consumerKey := c.consumerKey
  consumerSecret := c.consumerSecret
  accessToken := c.accessToken
  accessTokenSecret := c.accessTokenSecret

/-- The value of the header that `append_auth_header` adds. -/
def authorization (c : TwitterClient) : Bytes :=
  ascii "Basic " ++ base64Encode (c.consumerKey ++ ascii ":" ++ c.consumerSecret)

section Calls

variable (out : Outside) (json : JsonLib) (realText : Option Rat → Bytes)

/-- `TwitterClient::get_oauth2_token` -/
def getOauth2Token (c : TwitterClient) : TwitterClient × Except Fault TwitterResponse :=
  let t := c.transfers.addHttpHeader (ascii "Authorization") c.authorization
  let t := t.addHttpHeader (ascii "Content-Type")
    (ascii "application/x-www-form-urlencoded;charset=UTF-8")
  let t := t.addFormParam (ascii "grant_type") (ascii "client_credentials") true
  let (t, res) :=
    t.request out.net { url := twitterApiUrl ++ twitterOauth2Token, method := .post } []
  let c := { c with transfers := t }
  if t.client.httpCode = 403 then (c, .ok .forbidden)
  else
    match json.parse res .null with
    | (false, _) => (c, .ok .invalidResponse)
    | (true, jsonRes) =>
      match jsonRes.isMember (ascii "access_token") with
      | .error fault => (c, .error fault)
      | .ok false => (c, .ok .invalidResponse)
      | .ok true =>
        match jsonRes.member (ascii "access_token") >>= (·.asString realText) with
        | .error fault => (c, .error fault)
        | .ok token => ({ c with bearerToken := token }, .ok .ok)

/-- What both timelines do, once their parameters are staged. -/
def timeline (c : TwitterClient) (url : Bytes) (params : List UriCall) (res : Value) :
    TwitterClient × TwitterResponse × Value :=
  let number := c.transfers.sent.length
  let oauth := (c.oauth params).appendOauthHeader out.hmacSha1 (out.draw number)
    (out.signing number (c.oauth params).client) (ascii "GET") url
  let (t, _, res) := Transfers.getJson out.net json { c.transfers with client := oauth.client }
    { url := url } res
  ({ c with transfers := t },
    if t.client.httpCode = 401 then .unauthorized
    else if t.client.httpCode = 403 then .forbidden
    else .ok,
    res)

/-- The parameters that both timelines stage. -/
def countParams (count : UInt16) (sinceId : UInt32) : List UriCall :=
  (if 0 < count then [⟨ascii "count", decimal count.toNat, true⟩] else []) ++
    (if 0 < sinceId then [⟨ascii "since_id", decimal sinceId.toNat, true⟩] else [])

/-- The parameters that `get_user_timeline` stages. -/
def userParams (count : UInt16) (sinceId : UInt32) (includeRts contributorDetails : Bool) :
    List UriCall :=
  countParams count sinceId ++
    (if includeRts then [⟨ascii "include_rts", ascii "true", true⟩] else []) ++
    (if contributorDetails then [⟨ascii "contributor_details", ascii "true", true⟩] else [])

/-- `TwitterClient::get_user_timeline` -/
def getUserTimeline (c : TwitterClient) (res : Value) (count : UInt16 := 0) (sinceId : UInt32 := 0)
    (includeRts contributorDetails : Bool := false) : TwitterClient × TwitterResponse × Value :=
  c.timeline out json (twitterApiUrl ++ twitterUserTimeline)
    (userParams count sinceId includeRts contributorDetails) res

/-- `TwitterClient::get_home_timeline` -/
def getHomeTimeline (c : TwitterClient) (res : Value) (count : UInt16 := 0)
    (sinceId : UInt32 := 0) : TwitterClient × TwitterResponse × Value :=
  c.timeline out json (twitterApiUrl ++ twitterHomeTimeline) (countParams count sinceId) res

end Calls

end TwitterClient

/-! ## Runs -/

/-- A call of the client. -/
inductive TwitterCall where
  | authenticate
  | userTimeline (res : Value) (count : UInt16) (sinceId : UInt32)
      (includeRts contributorDetails : Bool)
  | homeTimeline (res : Value) (count : UInt16) (sinceId : UInt32)

namespace TwitterClient

variable (out : Outside) (json : JsonLib) (realText : Option Rat → Bytes)

def perform (c : TwitterClient) : TwitterCall → TwitterClient
  | .authenticate => (c.getOauth2Token out json realText).1
  | .userTimeline res count sinceId includeRts contributorDetails =>
    (c.getUserTimeline out json res count sinceId includeRts contributorDetails).1
  | .homeTimeline res count sinceId => (c.getHomeTimeline out json res count sinceId).1

/-- The client after calls, whatever they return. -/
def run (c : TwitterClient) (calls : List TwitterCall) : TwitterClient :=
  calls.foldl (perform out json realText) c

/-- What the provider has issued. -/
def credentials (c : TwitterClient) : Credentials :=
  ⟨c.consumerKey, c.consumerSecret, c.accessToken, c.accessTokenSecret⟩

end TwitterClient

/-! ## What a call should send -/

/-- A number that is asked for if it is not 0. -/
def askedNumber (name : Bytes) (n : Nat) : List (Bytes × Bytes) :=
  if n = 0 then [] else [(name, decimal n)]

/-- A flag that is asked for if it is set. -/
def askedFlag (name : Bytes) (flag : Bool) : List (Bytes × Bytes) :=
  if flag then [(name, ascii "true")] else []

namespace TwitterCall

/-- The parameters of a call. -/
def asked : TwitterCall → List (Bytes × Bytes)
  | authenticate => []
  | userTimeline _ count sinceId includeRts contributorDetails =>
    askedNumber (ascii "count") count.toNat ++ askedNumber (ascii "since_id") sinceId.toNat ++
      askedFlag (ascii "include_rts") includeRts ++
      askedFlag (ascii "contributor_details") contributorDetails
  | homeTimeline _ count sinceId =>
    askedNumber (ascii "count") count.toNat ++ askedNumber (ascii "since_id") sinceId.toNat

/-- The URL of a call, without its parameters. -/
def url : TwitterCall → Bytes
  | authenticate => ascii "https://api.twitter.com/oauth2/token"
  | userTimeline .. => ascii "https://api.twitter.com/1.1/statuses/user_timeline.json"
  | homeTimeline .. => ascii "https://api.twitter.com/1.1/statuses/home_timeline.json"

end TwitterCall

/-- The request for a token: the consumer's key and secret, and nothing of the user. -/
structure TokenRequest (c : Credentials) (sent : SentRequest) : Prop where
  method : sent.wireMethod = ascii "POST"
  body : sent.wireBody = ascii "grant_type=client_credentials"
  headers : sent.headers.Perm
    [ascii "Authorization: Basic " ++ base64Encode (c.consumerKey ++ ascii ":" ++ c.consumerSecret),
      ascii "Content-Type: application/x-www-form-urlencoded;charset=UTF-8"]

/-- The request for a timeline, which a provider accepts. -/
structure TimelineRequest (hmacSha1 : Bytes → Bytes → Bytes) (c : Credentials)
    (sent : SentRequest) : Prop where
  method : sent.wireMethod = ascii "GET"
  body : sent.postFields = none
  accepted : ∃ params, Accepts hmacSha1 c sent params

/-- **What a call should send.** -/
structure Sends (hmacSha1 : Bytes → Bytes → Bytes) (c : Credentials) (call : TwitterCall)
    (sent : SentRequest) : Prop where
  url : baseUrl sent.url = call.url
  params : (queryParams sent.url).Perm call.asked
  verifyPeer : sent.verifyPeer = true
  noLogin : sent.userPwd = none
  request : match call with
    | .authenticate => TokenRequest c sent
    | _ => TimelineRequest hmacSha1 c sent

/-! ## The parameters of a timeline -/

/-- All the parameters there are. -/
def allParams (count : UInt16) (sinceId : UInt32) : List UriCall :=
  [⟨ascii "count", decimal count.toNat, true⟩, ⟨ascii "since_id", decimal sinceId.toNat, true⟩,
    ⟨ascii "include_rts", ascii "true", true⟩, ⟨ascii "contributor_details", ascii "true", true⟩]

theorem sublist_singleton {α : Type} (condition : Prop) [Decidable condition] (a : α) :
    (if condition then [a] else []).Sublist [a] := by
  split
  · exact List.Sublist.refl [a]
  · exact List.nil_sublist [a]

theorem sublist_userParams (count : UInt16) (sinceId : UInt32) (includeRts contributors : Bool) :
    (TwitterClient.userParams count sinceId includeRts contributors).Sublist
      (allParams count sinceId) :=
  (((sublist_singleton _ _).append (sublist_singleton _ _)).append
    (sublist_singleton _ _)).append (sublist_singleton _ _)

theorem sublist_countParams (count : UInt16) (sinceId : UInt32) :
    (TwitterClient.countParams count sinceId).Sublist (allParams count sinceId) :=
  ((sublist_singleton _ _).append (sublist_singleton _ _)).trans
    (List.sublist_append_left _ [_, _])

theorem isUnreserved_decimal {n : Nat} {b : UInt8} (h : b ∈ decimal n) : isUnreserved b = true := by
  have hdigit : ∀ b, isDigit b = true → isUnreserved b = true :=
    forall_byte (P := fun b => isDigit b = true → isUnreserved b = true) (by decide +kernel)
  exact hdigit b (isDigit_of_mem_decimal h)

theorem lastCalls_of_nodup {calls : List UriCall} (h : (calls.map UriCall.name).Nodup) :
    lastCalls calls = calls := by
  induction calls with
  | nil => rfl
  | cons c calls ih =>
    rw [List.map_cons, List.nodup_cons] at h
    rw [lastCalls, ih h.2, if_neg]
    rintro ⟨d, hd, hname⟩
    exact h.1 (hname ▸ List.mem_map_of_mem hd)

section Params

variable {params : List UriCall} {count : UInt16} {sinceId : UInt32}
  (hparams : params.Sublist (allParams count sinceId))

include hparams in
/-- A parameter is one of four, and escaping leaves it alone. -/
theorem param_spec {p : UriCall} (hp : p ∈ params) :
    p.name ∈ (allParams count sinceId).map UriCall.name ∧ p.escape = true ∧
      (∀ b ∈ p.value, isUnreserved b = true) ∧ p.value.length ≤ 10 := by
  have hmem := hparams.subset hp
  refine ⟨List.mem_map_of_mem hmem, ?_⟩
  have hcount := count.toNat_lt
  have hsince := sinceId.toNat_lt
  simp only [allParams, List.mem_cons, List.not_mem_nil, or_false] at hmem
  rcases hmem with rfl | rfl | rfl | rfl
  · exact ⟨rfl, fun _ => isUnreserved_decimal, length_decimal_le (by decide) (by omega)⟩
  · exact ⟨rfl, fun _ => isUnreserved_decimal, length_decimal_le (by decide) (by omega)⟩
  · exact ⟨rfl, List.all_eq_true.mp (by decide), by decide⟩
  · exact ⟨rfl, List.all_eq_true.mp (by decide), by decide⟩

include hparams in
theorem lastCalls_params : lastCalls params = params := by
  have hnodup : ((allParams count sinceId).map UriCall.name).Nodup := by
    change [ascii "count", ascii "since_id", ascii "include_rts",
      ascii "contributor_details"].Nodup
    decide
  exact lastCalls_of_nodup (hnodup.sublist (hparams.map UriCall.name))

include hparams in
/-- What is staged is what was given. -/
theorem stored_param {p : UriCall} (hp : p ∈ params) : Plain p.value ∧ p.stored = p.value := by
  obtain ⟨-, hescape, hunreserved, hlength⟩ := param_spec hparams hp
  have hplain : Plain p.value := ⟨hunreserved, Or.inl (by omega)⟩
  have hnul : 0 ∉ p.value := fun h => absurd (hunreserved 0 h) (by decide)
  refine ⟨hplain, ?_⟩
  rw [UriCall.stored, if_pos hescape]
  exact (httpStringEscape_eq_self_iff hnul).mpr hplain

end Params

/-! ## What is sent -/

theorem stageUri_eq (cli : HTTPClient) (params : List UriCall) :
    (cli.stageUri params).httpHeaders = cli.httpHeaders ∧
      (cli.stageUri params).formParams = cli.formParams := by
  induction params generalizing cli with
  | nil => exact ⟨rfl, rfl⟩
  | cons p params ih => exact ih (cli.addUriParam p.name p.value p.escape)

section Sent

variable {cli : HTTPClient} {query : Query} (orders : Orders cli)

/-- Two headers, in some order. -/
theorem headers_sent {name value name' value' : Bytes} (hne : name ≠ name')
    (hheaders : cli.httpHeaders =
      ((∅ : UnorderedMap Bytes Bytes).insert name value).insert name' value') :
    (cli.sent query orders).headers.Perm [headerLine name value, headerLine name' value'] := by
  let pairs : List (Σ _ : Bytes, Bytes) := [⟨name, value⟩, ⟨name', value'⟩]
  have hkeys : pairs.NodupKeys := by
    simp [pairs, List.NodupKeys, List.keys, hne]
  have hpairs : orders.headers.pairs.Perm pairs := by
    refine List.lookup_ext orders.headers.nodupKeys hkeys fun header text => ?_
    rw [orders.headers.dlookup_pairs, hheaders]
    by_cases hlast : header = name'
    · subst hlast
      rw [Finmap.lookup_insert, List.dlookup_cons_ne _ _ hne.symm, List.dlookup_cons_eq]
    · rw [Finmap.lookup_insert_of_ne _ hlast]
      by_cases hfirst : header = name
      · subst hfirst
        rw [Finmap.lookup_insert, List.dlookup_cons_eq]
      · rw [Finmap.lookup_insert_of_ne _ hfirst, List.dlookup_cons_ne _ _ hfirst,
          List.dlookup_cons_ne _ _ hlast, Finmap.lookup_empty]
        rfl
  exact hpairs.map fun p => headerLine p.1 p.2

theorem baseUrl_sent (hnul : 0 ∉ query.url) (hquery : 63 ∉ query.url) :
    baseUrl (cli.sent query orders).url = query.url := by
  have hall : ∀ c ∈ query.url, decide (c ≠ 63) = true := fun c hc =>
    decide_eq_true fun e => hquery (e ▸ hc)
  rw [url_sent cli orders hnul, baseUrl]
  split
  · exact List.takeWhile_eq_self_iff.mpr hall
  · rw [List.takeWhile_append_of_pos hall, List.takeWhile_cons_of_neg (by decide), List.append_nil]

end Sent

/-! ## Timelines -/

/-- A C string whose size is an `int`, also when it is escaped with a few more. -/
def Brief (s : Bytes) : Prop := 0 ∉ s ∧ s.length < 2 ^ 28

theorem Brief.short {s : Bytes} (h : Brief s) : Short s := ⟨h.1, h.2.trans (by decide)⟩

structure BriefCredentials (c : Credentials) : Prop where
  consumerKey : Brief c.consumerKey
  consumerSecret : Brief c.consumerSecret
  accessToken : Brief c.accessToken
  accessTokenSecret : Brief c.accessTokenSecret

/-- What is known of the outside: the size of a digest, and of what is drawn for a nonce. -/
structure Outside.Sized (out : Outside) : Prop where
  digest : ∀ key text, (out.hmacSha1 key text).length = 20
  nonce : ∀ number, (out.draw number).nonce.length = 32

section Timeline

variable {out : Outside} {c : TwitterClient} {params : List UriCall} {count : UInt16}
  {sinceId : UInt32} (hclean : Clean c.transfers.client)
  (hparams : params.Sublist (allParams count sinceId))

include hclean in
theorem mem_uriParams_iff {name value : Bytes} :
    (c.oauth params).client.uriParams.lookup name = some value ↔
      ∃ p ∈ lastCalls params, p.name = name ∧ p.stored = value :=
  lookup_stageUri_iff hclean.uriParams

include hclean hparams in
/-- What is staged for the signature. -/
theorem staged_spec {name value : Bytes}
    (h : (c.oauth params).client.uriParams.lookup name = some value) :
    name ∈ (allParams count sinceId).map UriCall.name ∧ value.length ≤ 10 := by
  obtain ⟨p, hp, rfl, rfl⟩ := (mem_uriParams_iff hclean).mp h
  rw [lastCalls_params hparams] at hp
  obtain ⟨hname, -, -, hlength⟩ := param_spec hparams hp
  exact ⟨hname, (stored_param hparams hp).2 ▸ hlength⟩

include hclean hparams in
theorem names_staged (name value : Bytes)
    (h : (c.oauth params).client.uriParams.lookup name = some value) :
    ¬ascii "oauth_" <+: name := by
  have hall : ∀ name ∈ (allParams count sinceId).map UriCall.name, ¬ascii "oauth_" <+: name := by
    change ∀ name ∈ [ascii "count", ascii "since_id", ascii "include_rts",
      ascii "contributor_details"], ¬ascii "oauth_" <+: name
    decide
  exact hall name (staged_spec hclean hparams h).1

include hclean hparams in
/-- **Every name is escaped to itself**, so the map is in the order that is to be signed. -/
theorem order_staged {draw : Draw} (p q : Bytes × Bytes) (hp : Signed (c.oauth params) draw p)
    (hq : Signed (c.oauth params) draw q) (hlt : p.1 < q.1) : OrderKept p q := by
  have hescape : ∀ name ∈ [ascii "oauth_consumer_key", ascii "oauth_nonce",
      ascii "oauth_signature_method", ascii "oauth_timestamp", ascii "oauth_token",
      ascii "oauth_version", ascii "count", ascii "since_id", ascii "include_rts",
      ascii "contributor_details"], httpStringEscape name = name := by
    decide +kernel
  have hsigned (p : Bytes × Bytes) (hp : Signed (c.oauth params) draw p) :
      httpStringEscape p.1 = p.1 := by
    refine hescape p.1 ?_
    rcases hp with hp | hp
    · have hname := List.mem_map_of_mem (f := Prod.fst) hp
      rw [map_fst_protocolParams] at hname
      exact List.mem_append_left [_, _, _, _] hname
    · exact List.mem_append_right [_, _, _, _, _, _] (staged_spec hclean hparams hp).1
  exact orderKept_of_escape_eq (hsigned p hp) (hsigned q hq) hlt

include hclean hparams in
theorem card_staged : (c.oauth params).client.uriParams.entries.card ≤ 4 := by
  obtain ⟨it⟩ := Iteration.nonempty (c.oauth params).client.uriParams
  rw [← it.length_pairs, (pairs_stageUri hclean.uriParams it).length_eq, storedPairs,
    List.length_map, lastCalls_params hparams]
  exact hparams.length_le

/-- The parameters of the protocol are short. -/
theorem sum_protocolParams_le {draw : Draw} (hcredentials : BriefCredentials c.credentials)
    (hnonce : draw.nonce.length = 32) :
    (((c.oauth params).protocolParams draw).map
      fun p => 3 * p.1.length + 3 * p.2.length + 2).sum ≤ 6 * 2 ^ 28 + 1000 := by
  have hkey : c.consumerKey.length < 2 ^ 28 := hcredentials.consumerKey.2
  have htoken : c.accessToken.length < 2 ^ 28 := hcredentials.accessToken.2
  have hdrawn : ((base64Encode draw.nonce).filter isalnum).length ≤ 68 := by
    have hencoded := @length_base64Encode draw.nonce (by omega)
    have hfilter := List.length_filter_le isalnum (base64Encode draw.nonce)
    omega
  have htime : (ascii (toString draw.time.toInt)).length ≤ 20 := by
    have hlow := draw.time.le_toInt
    have hhigh := draw.time.toInt_lt
    rw [ascii, map_toString]
    exact @length_signedDecimal_le _ 19 (by decide) (by omega)
  have hnames : (ascii "oauth_consumer_key").length = 18 ∧ (ascii "oauth_nonce").length = 11 ∧
      (ascii "oauth_signature_method").length = 22 ∧ (ascii "HMAC-SHA1").length = 9 ∧
      (ascii "oauth_timestamp").length = 15 ∧ (ascii "oauth_token").length = 11 ∧
      (ascii "oauth_version").length = 13 ∧ (ascii "1.0").length = 3 := by decide
  simp only [OAuthClient.protocolParams, TwitterClient.oauth, List.map_cons, List.map_nil,
    List.sum_cons, List.sum_nil]
  omega

include hclean hparams in
/-- The texts that are escaped are short. -/
theorem shortTexts_timeline (hcredentials : BriefCredentials c.credentials) (hout : out.Sized)
    {number : Nat} (uri : Iteration (c.oauth params).client.uriParams) {method url : Bytes}
    (hurl : Short url) :
    ShortTexts (c.oauth params) out.hmacSha1 (out.draw number) uri method url := by
  have hnames := names_staged hclean hparams
  have hcard := card_staged hclean hparams
  have hprotocol := @sum_protocolParams_le c params _ hcredentials (hout.nonce number)
  have hstaged : ((stagedPairs uri).map fun p => 3 * p.1.length + 3 * p.2.length + 2).sum ≤
      4 * 89 := by
    have hall : ∀ name ∈ (allParams count sinceId).map UriCall.name, name.length ≤ 19 := by
      change ∀ name ∈ [ascii "count", ascii "since_id", ascii "include_rts",
        ascii "contributor_details"], name.length ≤ 19
      decide
    have hlength : ((stagedPairs uri).map fun p => 3 * p.1.length + 3 * p.2.length + 2).length ≤
        4 := by
      rwa [List.length_map, stagedPairs, List.length_map, uri.length_pairs]
    refine le_trans (List.sum_le_card_nsmul _ 89 fun n hn => ?_) (Nat.mul_le_mul_right 89 hlength)
    obtain ⟨p, hp, rfl⟩ := List.mem_map.mp hn
    obtain ⟨hname, hvalue⟩ := staged_spec hclean hparams ((mem_stagedPairs uri).mp hp)
    have hshort := hall p.1 hname
    omega
  exact {
    consumerKey := hcredentials.consumerKey.short
    consumerSecret := hcredentials.consumerSecret.short
    accessToken := hcredentials.accessToken.short
    accessTokenSecret := hcredentials.accessTokenSecret.short
    signature := short_base64Encode (by rw [hout.digest]; decide)
    parameterString := short_parameterString hnames (by omega) (by
      rw [List.map_append, List.sum_append]
      omega)
    url := hurl }

theorem not_mem_intercalate {b : UInt8} {sep : Bytes} (hsep : b ∉ sep) {items : List Bytes}
    (h : ∀ item ∈ items, b ∉ item) : b ∉ sep.intercalate items := by
  induction items with
  | nil => simp
  | cons item items ih =>
    rw [List.forall_mem_cons] at h
    cases items with
    | nil => simpa using h.1
    | cons next items =>
      rw [List.intercalate_cons_cons]
      simp only [List.mem_append, not_or]
      exact ⟨⟨h.1, hsep⟩, ih h.2⟩

/-- The value of the header that signs a request. -/
def TwitterClient.signedHeader (out : Outside) (c : TwitterClient) (url : Bytes)
    (params : List UriCall) : Bytes :=
  OAuthClient.headerLoop ((c.oauth params).headerParams out.hmacSha1
    (out.draw c.transfers.sent.length)
    (out.signing c.transfers.sent.length (c.oauth params).client) (ascii "GET") url) 0
    (ascii "OAuth ")

/-- The client when a timeline is asked for. -/
def TwitterClient.signed (out : Outside) (c : TwitterClient) (url : Bytes)
    (params : List UriCall) : Transfers :=
  ({ c.transfers with
    client := ((c.oauth params).appendOauthHeader out.hmacSha1 (out.draw c.transfers.sent.length)
      (out.signing c.transfers.sent.length (c.oauth params).client) (ascii "GET") url).client } :
    Transfers).prepareJsonQuery

theorem transfers_timeline (json : JsonLib) (url : Bytes) (res : Value) :
    (c.timeline out json url params res).1.transfers =
      ((c.signed out url params).request out.net { url := url } []).1 := rfl

include hclean in
theorem httpHeaders_signed (url : Bytes) : (c.signed out url params).client.httpHeaders =
    ((∅ : UnorderedMap Bytes Bytes).insert (ascii "Authorization")
      (c.signedHeader out url params)).insert (ascii "Content-Type")
        (ascii "application/json") := by
  change (((c.transfers.client.stageUri params).httpHeaders.insert _ _).insert _ _) = _
  rw [(stageUri_eq c.transfers.client params).1, hclean.headers]
  rfl

include hclean hparams in
theorem not_mem_signedHeader (url : Bytes) : 0 ∉ c.signedHeader out url params := by
  unfold TwitterClient.signedHeader
  rw [headerLoop_headerParams (names_staged hclean hparams), List.mem_append, not_or]
  refine ⟨by decide, not_mem_intercalate (by decide) fun item hitem => ?_⟩
  obtain ⟨p, -, rfl⟩ := List.mem_map.mp hitem
  exact not_mem_headerItem (by decide) (by decide) (by decide) (by decide) p

include hclean hparams in
/-- The header of the request is the one that was written. -/
theorem headerValueOf_signed (url : Bytes) (query : Query) :
    headerValueOf (ascii "Authorization")
        ((c.signed out url params).next out.net query).headers =
      some (c.signedHeader out url params) := by
  have hperm := @headers_sent _ query (out.net.orders c.transfers.sent.length
    (c.signed out url params).client) _ _ _ _ (by decide) (httpHeaders_signed hclean url)
  have hline : headerLine (ascii "Authorization") (c.signedHeader out url params) =
      ascii "Authorization" ++ ascii ": " ++ c.signedHeader out url params := by
    refine cStr_of_not_mem ?_
    rw [List.mem_append, not_or]
    exact ⟨by decide, not_mem_signedHeader hclean hparams url⟩
  have hjson : headerLine (ascii "Content-Type") (ascii "application/json") =
      ascii "Content-Type: application/json" := by decide
  refine headerValueOf_eq (hperm.mem_iff.mpr ?_) fun line hmem hprefix => ?_
  · rw [hline]
    exact List.mem_cons_self
  · rcases List.mem_cons.mp (hperm.mem_iff.mp hmem) with rfl | hmem
    · exact hline
    · rw [List.mem_singleton.mp hmem, hjson] at hprefix
      exact absurd hprefix (by decide)

include hclean hparams in
/-- The parameters of the query are the ones that were staged. -/
theorem queryParams_signed {url : Bytes} (hnul : 0 ∉ url) (hfragment : 35 ∉ url)
    (hquery : 63 ∉ url) :
    (queryParams ((c.signed out url params).next out.net { url := url }).url).Perm
      (params.map fun p => (p.name, p.value)) := by
  let orders := out.net.orders c.transfers.sent.length (c.signed out url params).client
  have hread : ((orders.uri.pairs.map formField).map readPiece).Perm
      (params.map fun p => (p.name, p.value)) := by
    have hpairs := @readPiece_fields params _ (pairs_stageUri hclean.uriParams orders.uri)
    rw [lastCalls_params hparams] at hpairs
    refine hpairs.trans (List.Perm.of_eq (List.map_congr_left fun p hp => ?_))
    obtain ⟨hname, -⟩ := param_spec hparams hp
    obtain ⟨hplain, hstored⟩ := stored_param hparams hp
    have hnames : ∀ name ∈ (allParams count sinceId).map UriCall.name, kept name = name := by
      change ∀ name ∈ [ascii "count", ascii "since_id", ascii "include_rts",
        ascii "contributor_details"], kept name = name
      decide
    have hvalue : kept p.value = p.value :=
      (kept_eq_self_iff fun h => absurd (hplain.1 0 h) (by decide)).mpr hplain.2
    rw [hnames p.name hname, hstored, hvalue]
  change (queryParams ((c.signed out url params).client.sent { url := url } orders).url).Perm _
  rw [url_sent _ orders hnul]
  by_cases hnil : orders.uri.pairs = []
  · rw [if_pos hnil, queryParams_none hquery]
    rwa [hnil] at hread
  · rw [if_neg hnil, queryParams_first hfragment hquery hnil]
    exact hread

include hclean hparams in
/-- **A timeline is asked for in a request that a provider accepts.** -/
theorem timelineRequest_signed (hcredentials : BriefCredentials c.credentials) (hout : out.Sized)
    {url : Bytes} (hurl : Short url) (hfragment : 35 ∉ url) (hquery : 63 ∉ url) :
    TimelineRequest out.hmacSha1 c.credentials
      ((c.signed out url params).next out.net { url := url }) := by
  have hform : (c.signed out url params).client.formParams = ∅ :=
    (stageUri_eq c.transfers.client params).2.trans hclean.formParams
  have hbody : ((c.signed out url params).next out.net { url := url }).postFields = none :=
    Transfers.postFields_next hform
  have hmethod : ((c.signed out url params).next out.net { url := url }).wireMethod =
      ascii "GET" := by
    rw [SentRequest.wireMethod, hbody]
    rfl
  let orders := out.net.orders c.transfers.sent.length (c.signed out url params).client
  have halone : SentAlone url (c.signed out url params).client.uriParams :=
    ⟨fun _ => List.map_eq_nil_iff.mp (queryParams_none hquery), fun _ => hquery⟩
  have hsent := (@perm_queryPairs_iff _ { url := url } orders hurl.1 hfragment).mpr halone
  have hcard := card_staged hclean hparams
  refine ⟨hmethod, hbody, _, accepts_signed (names_staged hclean hparams)
    (shortTexts_timeline hclean hparams hcredentials hout _ hurl)
    (order_staged hclean hparams) (by omega) (headerValueOf_signed hclean hparams url _)
    (hsent.trans (perm_sentPairs orders _).symm) (baseUrl_sent orders hurl.1 hquery) hmethod⟩

end Timeline

/-! ## The token -/

section Token

variable {out : Outside} {json : JsonLib} {realText : Option Rat → Bytes} {c : TwitterClient}
  (hclean : Clean c.transfers.client)

/-- The client when a token is asked for. -/
def TwitterClient.askingToken (c : TwitterClient) : Transfers :=
  ((c.transfers.addHttpHeader (ascii "Authorization") c.authorization).addHttpHeader
    (ascii "Content-Type") (ascii "application/x-www-form-urlencoded;charset=UTF-8")).addFormParam
      (ascii "grant_type") (ascii "client_credentials") true

def tokenQuery : Query := { url := twitterApiUrl ++ twitterOauth2Token, method := .post }

/-- Whatever the answer is, one request is sent, and the texts of the client stay. -/
theorem client_getOauth2Token : ((c.getOauth2Token out json realText).1.transfers =
      (c.askingToken.request out.net tokenQuery []).1) ∧
    (c.getOauth2Token out json realText).1.credentials = c.credentials := by
  unfold TwitterClient.getOauth2Token
  dsimp only
  split
  · exact ⟨rfl, rfl⟩
  · split
    · exact ⟨rfl, rfl⟩
    · split
      · exact ⟨rfl, rfl⟩
      · exact ⟨rfl, rfl⟩
      · split
        · exact ⟨rfl, rfl⟩
        · exact ⟨rfl, rfl⟩

include hclean in
/-- **A token is asked for with the consumer's key and secret.** -/
theorem tokenRequest_asking :
    TokenRequest c.credentials (c.askingToken.next out.net tokenQuery) := by
  let orders := out.net.orders c.transfers.sent.length c.askingToken.client
  have hform : orders.form.pairs = [⟨ascii "grant_type", ascii "client_credentials"⟩] := by
    refine List.perm_singleton.mp (List.lookup_ext orders.form.nodupKeys
      (List.nodupKeys_singleton _) fun name value => ?_)
    have hstaged : c.askingToken.client.formParams =
        (∅ : UnorderedMap Bytes Bytes).insert (ascii "grant_type")
          (ascii "client_credentials") := by
      have hescape : httpStringEscape (ascii "client_credentials") =
          ascii "client_credentials" := by decide +kernel
      change c.transfers.client.formParams.insert (ascii "grant_type")
        (httpStringEscape (ascii "client_credentials")) = _
      rw [hclean.formParams, hescape]
    rw [orders.form.dlookup_pairs, hstaged]
    by_cases hname : name = ascii "grant_type"
    · subst hname
      rw [Finmap.lookup_insert, List.dlookup_cons_eq]
    · rw [Finmap.lookup_insert_of_ne _ hname, List.dlookup_cons_ne _ _ hname, Finmap.lookup_empty]
      rfl
  have hpost : (c.askingToken.next out.net tokenQuery).postFields =
      some (ascii "grant_type=client_credentials") := by
    change (let postData := if orders.form.pairs.isEmpty then tokenQuery.postData
        else HTTPClient.appendParams [] orders.form.pairs []
      if postData.isEmpty then none else some (cStr postData)) = _
    rw [hform]
    decide +kernel
  have hheaders := @headers_sent _ tokenQuery orders (ascii "Authorization") c.authorization
    (ascii "Content-Type") (ascii "application/x-www-form-urlencoded;charset=UTF-8") (by decide)
    (by
      change Finmap.insert _ _ (Finmap.insert _ _ c.transfers.client.httpHeaders) = _
      rw [hclean.headers])
  have hline : headerLine (ascii "Authorization") c.authorization =
      ascii "Authorization" ++ ascii ": " ++ c.authorization := by
    refine cStr_of_not_mem ?_
    have hvalue : 0 ∉ c.authorization := by
      rw [TwitterClient.authorization, List.mem_append, not_or]
      exact ⟨by decide, nul_not_mem_base64Encode _⟩
    rw [List.mem_append, not_or]
    exact ⟨by decide, hvalue⟩
  exact {
    method := by rw [SentRequest.wireMethod, hpost]; rfl
    body := by rw [SentRequest.wireBody, hpost]; rfl
    headers := by
      rw [hline] at hheaders
      exact hheaders }

end Token

/-! ## Runs -/

section Runs

variable {out : Outside} {json : JsonLib} {realText : Option Rat → Bytes}

/-- It is not sent with a login, and the other side is verified. -/
theorem flags_next {net : Net} {t : Transfers} {query : Query} (hflag : query.flag = 0x01) :
    (t.next net query).verifyPeer = true ∧ (t.next net query).userPwd = none := by
  simp only [Transfers.next, HTTPClient.sent, HTTPClient.request, hflag]
  exact ⟨rfl, rfl⟩

theorem asked_homeTimeline (res : Value) (count : UInt16) (sinceId : UInt32) :
    (TwitterClient.countParams count sinceId).map (fun p => (p.name, p.value)) =
      (TwitterCall.homeTimeline res count sinceId).asked := by
  have hnumber (name : Bytes) (n : Nat) :
      (if 0 < n then [(⟨name, decimal n, true⟩ : UriCall)] else []).map
        (fun p => (p.name, p.value)) = askedNumber name n := by
    unfold askedNumber
    split <;> split <;> first | rfl | omega
  unfold TwitterClient.countParams TwitterCall.asked
  simp only [UInt16.lt_iff_toNat_lt, UInt32.lt_iff_toNat_lt]
  exact List.map_append.trans (congrArg₂ _ (hnumber _ _) (hnumber _ _))

theorem asked_userTimeline (res : Value) (count : UInt16) (sinceId : UInt32)
    (includeRts contributors : Bool) :
    (TwitterClient.userParams count sinceId includeRts contributors).map
        (fun p => (p.name, p.value)) =
      (TwitterCall.userTimeline res count sinceId includeRts contributors).asked := by
  have hflag (name : Bytes) (flag : Bool) :
      (if flag then [(⟨name, ascii "true", true⟩ : UriCall)] else []).map
        (fun p => (p.name, p.value)) = askedFlag name flag := by
    cases flag <;> rfl
  unfold TwitterClient.userParams
  rw [List.map_append, List.map_append, hflag, hflag, asked_homeTimeline res]
  rfl

variable {c : TwitterClient} (hclean : Clean c.transfers.client)
  (hcredentials : BriefCredentials c.credentials) (hout : out.Sized)

theorem urls_wellFormed : ∀ url ∈ [twitterApiUrl ++ twitterOauth2Token,
    twitterApiUrl ++ twitterUserTimeline, twitterApiUrl ++ twitterHomeTimeline],
      0 ∉ url ∧ url.length < 2 ^ 31 ∧ 35 ∉ url ∧ 63 ∉ url := by decide

/-- One call: the request it sends, and what it leaves. -/
structure Performed (out : Outside) (c : TwitterClient) (call : TwitterCall)
    (c' : TwitterClient) : Prop where
  sent : ∃ sent, c'.transfers.sent = c.transfers.sent ++ [sent] ∧
    Sends out.hmacSha1 c.credentials call sent
  clean : Clean c'.transfers.client
  credentials : c'.credentials = c.credentials

include hclean in
theorem performed_authenticate :
    Performed out c .authenticate (c.perform out json realText .authenticate) := by
  obtain ⟨htransfers, hsame⟩ := @client_getOauth2Token out json realText c
  obtain ⟨hnul, -, -, hquery⟩ := urls_wellFormed tokenQuery.url List.mem_cons_self
  have huri : c.askingToken.client.uriParams = ∅ := hclean.uriParams
  have hurl : (c.askingToken.next out.net tokenQuery).url = tokenQuery.url := by
    rw [Transfers.url_next huri, cStr_of_not_mem hnul]
  have hbase : baseUrl tokenQuery.url = tokenQuery.url :=
    List.takeWhile_eq_self_iff.mpr fun b hb => decide_eq_true fun e => hquery (e ▸ hb)
  refine ⟨⟨c.askingToken.next out.net tokenQuery, ?_, ?_⟩, ?_, hsame⟩
  · rw [TwitterClient.perform, htransfers, Transfers.sent_request]
    rfl
  · exact {
      url := by
        rw [hurl, hbase]
        decide
      params := by
        rw [hurl, queryParams_none hquery]
        exact List.Perm.refl []
      verifyPeer := (flags_next rfl).1
      noLogin := (flags_next rfl).2
      request := tokenRequest_asking hclean }
  · rw [TwitterClient.perform, htransfers]
    exact Transfers.clean_request rfl (by decide)

/-- A call for a timeline. -/
inductive AsksTimeline : TwitterCall → Prop
  | user (res : Value) (count : UInt16) (sinceId : UInt32) (includeRts contributors : Bool) :
    AsksTimeline (.userTimeline res count sinceId includeRts contributors)
  | home (res : Value) (count : UInt16) (sinceId : UInt32) :
    AsksTimeline (.homeTimeline res count sinceId)

include hclean hcredentials hout in
theorem performed_timeline {call : TwitterCall} (hcall : AsksTimeline call)
    {params : List UriCall} {count : UInt16} {sinceId : UInt32}
    (hparams : params.Sublist (allParams count sinceId))
    (hasked : params.map (fun p => (p.name, p.value)) = call.asked)
    (hurl : call.url ∈ [twitterApiUrl ++ twitterOauth2Token,
      twitterApiUrl ++ twitterUserTimeline, twitterApiUrl ++ twitterHomeTimeline])
    (res : Value) :
    Performed out c call (c.timeline out json call.url params res).1 := by
  obtain ⟨hnul, hlength, hfragment, hquery⟩ := urls_wellFormed call.url hurl
  have hrequest := @timelineRequest_signed out c params count sinceId hclean hparams hcredentials
    hout call.url ⟨hnul, hlength⟩ hfragment hquery
  refine ⟨⟨(c.signed out call.url params).next out.net { url := call.url }, rfl, ?_⟩,
    @Transfers.clean_request _ _ _ _ 0x01 rfl (by decide), rfl⟩
  exact {
    url := baseUrl_sent _ hnul hquery
    params := hasked ▸ queryParams_signed hclean hparams hnul hfragment hquery
    verifyPeer := (flags_next rfl).1
    noLogin := (flags_next rfl).2
    request := by
      cases hcall
      · exact hrequest
      · exact hrequest }

include hclean hcredentials hout in
/-- **What a call sends.** -/
theorem performed (call : TwitterCall) :
    Performed out c call (c.perform out json realText call) := by
  cases call with
  | authenticate => exact performed_authenticate hclean
  | userTimeline res count sinceId includeRts contributors =>
    exact performed_timeline hclean hcredentials hout (.user ..)
      (sublist_userParams count sinceId includeRts contributors)
      (asked_userTimeline res count sinceId includeRts contributors) (by
        change twitterApiUrl ++ twitterUserTimeline ∈ _
        simp) res
  | homeTimeline res count sinceId =>
    exact performed_timeline hclean hcredentials hout (.home ..)
      (sublist_countParams count sinceId) (asked_homeTimeline res count sinceId) (by
        change twitterApiUrl ++ twitterHomeTimeline ∈ _
        simp) res

omit hclean hcredentials in
include hout in
/-- **Every run** sends one request for each call, in order, and each as the call should be sent:
a token is asked for with the consumer's key and secret, and a timeline with the parameters of its
call and no others, in a request that a provider accepts. A request is a transfer that the client
makes: what libcurl sends within it to follow a redirect is not counted. -/
theorem twitter_run (json : JsonLib) (realText : Option Rat → Bytes) (calls : List TwitterCall) :
    ∀ c : TwitterClient, Clean c.transfers.client → BriefCredentials c.credentials →
      ∃ sents, (c.run out json realText calls).transfers.sent = c.transfers.sent ++ sents ∧
        List.Forall₂ (Sends out.hmacSha1 c.credentials) calls sents := by
  induction calls with
  | nil => exact fun c _ _ => ⟨[], (List.append_nil _).symm, .nil⟩
  | cons call calls ih =>
    intro c hclean hcredentials
    have hstep := @performed out json realText c hclean hcredentials hout call
    obtain ⟨sent, hsent, hsends⟩ := hstep.sent
    obtain ⟨sents, hrun, hall⟩ := ih (c.perform out json realText call) hstep.clean
      (hstep.credentials ▸ hcredentials)
    refine ⟨sent :: sents, ?_, .cons hsends (hstep.credentials ▸ hall)⟩
    exact hrun.trans (by rw [hsent, List.append_assoc, List.singleton_append])

end Runs

/-- The token, then a timeline, of a client that has just been built. -/
theorem twitter_run_home : ∃ out : Outside, ∃ sents,
    ((⟨ascii "key", ascii "secret", ascii "token", ascii "hidden", ⟨{}, []⟩, []⟩ :
        TwitterClient).run out ⟨fun _ => [], fun _ root => (false, root)⟩ (fun _ => [])
      [.authenticate, .homeTimeline .null 20 0]).transfers.sent = [] ++ sents ∧
    List.Forall₂ (Sends out.hmacSha1 ⟨ascii "key", ascii "secret", ascii "token", ascii "hidden"⟩)
      [.authenticate, .homeTimeline .null 20 0] sents := by
  let out : Outside :=
    { net := ⟨fun _ cli => (Orders.nonempty cli).some, fun _ => ⟨200, []⟩⟩
      hmacSha1 := fun _ _ => List.replicate 20 0
      draw := fun _ => ⟨List.replicate 32 0, 0⟩
      signing := fun _ cli => (Iteration.nonempty cli.uriParams).some }
  have hout : out.Sized := ⟨fun _ _ => List.length_replicate, fun _ => List.length_replicate⟩
  exact ⟨out, twitter_run hout _ _ _ _ ⟨rfl, rfl, rfl⟩
    ⟨⟨by decide, by decide⟩, ⟨by decide, by decide⟩, ⟨by decide, by decide⟩,
      ⟨by decide, by decide⟩⟩⟩

end WinterWind.Extras
