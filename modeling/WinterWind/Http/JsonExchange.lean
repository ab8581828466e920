import WinterWind.Http.Dispatch
import WinterWind.Http.Transfers
import WinterWind.Library.Simulation

/-!
# Json calls between a client and a server (`src/core/httpclient.cpp`, `src/core/httpserver.cpp`)

An `HTTPClient` whose requests arrive at a `Server`: what `_get_json`, `_post_json`, `_put_json` and
`_delete` amount to as calls of the server's handlers, over whole runs of a client.

* `Wire` is libcurl, the network and libmicrohttpd: how a transfer that is carried out looks to the
  server. Its laws are that the path of the URL is delivered as it is when there is nothing in it to
  rewrite, that the `Content-Type` line is delivered as the content type when no other line names
  it, that the chunks make up the body, and that the answer comes back if its code allows a text.
  The method is the custom request, else `POST` with a body and `GET` without. An answer larger than
  `CURLOPT_MAXFILESIZE` is not written. The answers of a `Server` have no `Location`, so
  `CURLOPT_FOLLOWLOCATION` has nothing to follow.
* A header may stand in a transfer if it leaves the rest alone (`PlainHeader`): its name is none
  that delimits or addresses the request, and no character in it ends the line.
* A body that comes in more than one chunk is handled as its first chunk, so a call is judged when
  its body comes in at most one (`ClientEvent.Admissible`).
* `JsonCall.value` is the value a call is meant to carry. `_get_json` without request data and
  `_delete` carry none, but announce json all the same.
* `RemoteCall` says what a call of a handler over the wire should be.

Results:
* `exchange_handled`, `exchange_refused`: one request, as the server sees it.
* `perform_call`: each of the helpers is one request, judged by its code and its text.
* `path_next`: a request goes to the path of the URL it was asked for.
* **`json_exchange`**: in every run each call reaches the handler of its method and path exactly
  once, with the value it carries, and returns the handler's value; a call that carries none
  reaches no handler at all.
-/

namespace WinterWind.Http

open Library

/-! ## The wire -/

/-- The lower case of an ASCII letter. -/
def lowerCase (c : UInt8) : UInt8 := if 65 ≤ c ∧ c ≤ 90 then c + 32 else c

/-- The header line is one of `Content-Type`, in any case. -/
def NamesContentType (line : Bytes) : Prop :=
  (line.takeWhile (· != 58)).map lowerCase = ascii "content-type"

/-- The line of a header, as `request` writes it. -/
def headerLine (name value : Bytes) : Bytes := cStr (name ++ ascii ": " ++ value)

/-- The line that announces json. -/
def jsonHeader : Bytes := headerLine (ascii "Content-Type") (ascii "application/json")

/-- The headers by which a request is delimited, addressed or answered in steps. -/
def framingHeaders : List Bytes :=
  [ascii "connection", ascii "content-length", ascii "expect", ascii "host", ascii "te",
    ascii "trailer", ascii "transfer-encoding", ascii "upgrade"]

/-- A header that leaves the rest of its request alone. -/
structure PlainHeader (name value : Bytes) : Prop where
  name_ne : name ≠ []
  token : ∀ c ∈ name, isUnreserved c = true
  printable : ∀ c ∈ value, 32 ≤ c ∧ c ≤ 126
  ordinary : name.map lowerCase ∉ framingHeaders

/-- All the headers of the transfer do. -/
def SentRequest.HeadersPlain (sent : SentRequest) : Prop :=
  ∀ line ∈ sent.headers, ∃ name value, PlainHeader name value ∧ line = headerLine name value

/-- A code that an answer with a text can have. -/
def CarriesText (code : UInt32) : Prop :=
  200 ≤ code ∧ code ≤ 999 ∧ code ≠ 204 ∧ code ≠ 205 ∧ code ≠ 304

/-- What libcurl hands on of an answer: nothing that is larger than allowed, 0 being no limit. -/
def SentRequest.limited (sent : SentRequest) (text : Bytes) : Bytes :=
  if sent.maxFileSize.toNat ≠ 0 ∧ sent.maxFileSize.toNat < text.length then [] else text

/-- The method of a transfer. -/
def SentRequest.wireMethod (sent : SentRequest) : Bytes :=
  sent.customRequest.getD (if sent.postFields.isSome then ascii "POST" else ascii "GET")

/-- The body of a transfer. -/
def SentRequest.wireBody (sent : SentRequest) : Bytes := sent.postFields.getD []

/-- A path that is delivered as it is: there is nothing in it to unescape, no dot segment to remove,
and nothing that ends it. -/
structure PlainPath (path : Bytes) : Prop where
  slash : path.head? = some 47
  plain : ∀ c ∈ path, isUnreserved c = true ∨ c = 47
  noDots : ∀ segment ∈ path.splitOn 47, segment ≠ ascii "." ∧ segment ≠ ascii ".."

/-- The URL leads to the path at the origin, with parameters or without. -/
def UrlAt (origin url path : Bytes) : Prop :=
  ∃ rest, url = origin ++ path ++ rest ∧ (rest = [] ∨ rest.head? = some 63)

/-- How a transfer arrives at the server, whose scheme, host and port are `origin`, and how the
answer comes back. `Carries` are the transfers that get there whole and are answered: the head fits
into the memory of a connection, and nothing is lost. -/
structure Wire where
  origin : Bytes
  Carries : SentRequest → Prop
  connection : SentRequest → MHDConnection
  path : SentRequest → Bytes
  chunks : SentRequest → List Bytes
  answer : SentRequest → UInt32 → Bytes → CurlAnswer
  origin_noNul : 0 ∉ origin
  path_eq : ∀ (sent : SentRequest) (p : Bytes), Carries sent → UrlAt origin sent.url p →
    PlainPath p → path sent = p
  chunks_ne : ∀ (sent : SentRequest), ∀ chunk ∈ chunks sent, chunk ≠ []
  chunks_flatten : ∀ sent, Carries sent → sent.HeadersPlain →
    (chunks sent).flatten = sent.wireBody
  contentType : ∀ (sent : SentRequest), Carries sent → sent.HeadersPlain →
    jsonHeader ∈ sent.headers →
    (∀ line ∈ sent.headers, NamesContentType line → line = jsonHeader) →
    (connection sent).contentType = some (ascii "application/json")
  answer_eq : ∀ (sent : SentRequest) (code : UInt32) (text : Bytes), Carries sent →
    CarriesText code → answer sent code text = ⟨code.toNat, sent.limited text⟩

/-- The transfer is carried out, with its body in at most one chunk. -/
structure Wire.CarriesWhole (wire : Wire) (sent : SentRequest) : Prop where
  carries : wire.Carries sent
  oneChunk : (wire.chunks sent).length ≤ 1

theorem Wire.CarriesWhole.chunks_eq {wire : Wire} {sent : SentRequest}
    (h : wire.CarriesWhole sent) (hplain : sent.HeadersPlain) :
    wire.chunks sent = inOneChunk sent.wireBody := by
  have hne := wire.chunks_ne sent
  have hlength := h.oneChunk
  rw [← wire.chunks_flatten sent h.carries hplain, inOneChunk]
  match hchunks : wire.chunks sent with
  | [] => rfl
  | [chunk] =>
    rw [hchunks] at hne
    rw [List.flatten_singleton, if_neg (hne chunk List.mem_cons_self)]
  | _ :: _ :: _ =>
    rw [hchunks] at hlength
    simp at hlength

section Exchange

variable (wire : Wire) (server : Server) (json : JsonLib)

/-- One transfer: the queries that handlers are given, and the answer. -/
def exchange (sent : SentRequest) : List HTTPQuery × CurlAnswer :=
  let served := serve server json (wire.connection sent) (wire.path sent) sent.wireMethod
    (wire.chunks sent)
  (served.1,
    match served.2 with
    | [(code, text)] => wire.answer sent code text
    | _ => ⟨0, []⟩)

/-- The server as all there is outside the client. -/
def exchangeNet (orders : Nat → (cli : HTTPClient) → Orders cli) : Net where
  orders := orders
  answer sents :=
    match sents.getLast? with
    | some sent => (exchange wire server json sent).2
    | none => ⟨0, []⟩

end Exchange

/-! ## The calls -/

/-- A call of one of the json helpers, with its query. -/
inductive JsonCall where
  | getJson (query : Query)
  | getJsonOf (query : Query) (req : Value)
  | postJson (query : Query) (data : Value)
  | putJson (query : Query) (data : Value)
  | deleteJson (query : Query)

namespace JsonCall

def query : JsonCall → Query
  | getJson query => query
  | getJsonOf query _ => query
  | postJson query _ => query
  | putJson query _ => query
  | deleteJson query => query

/-- The value the call carries. -/
def value : JsonCall → Option Value
  | getJson _ => none
  | getJsonOf _ req => some req
  | postJson _ data => some data
  | putJson _ data => some data
  | deleteJson _ => none

/-- `_post_json` and `_put_json`, which look at the response code. -/
def checksCode : JsonCall → Bool
  | postJson .. => true
  | putJson .. => true
  | _ => false

/-- The call, with the value of `res` after it. -/
def perform (net : Net) (json : JsonLib) (t : Transfers) (res : Value) :
    JsonCall → Transfers × Bool × Value
  | getJson query => t.getJson net json query res
  | getJsonOf query req => t.getJson net json query res (json.write req)
  | postJson query data => t.postJson net json query data res
  | putJson query data => t.putJson net json query data res
  | deleteJson query => t.deleteJson net json query res

end JsonCall

/-- A call as it is seen: the value of its result argument before it, the transfer, the queries
given to handlers, and what it returns with the result argument after it. -/
structure ExchangeEvent where
  call : JsonCall
  res : Value
  sent : SentRequest
  received : List HTTPQuery
  outcome : Bool × Value

/-- The value survives `Json::FastWriter` and `Json::Reader`, and its text is a C string. -/
structure Transmits (json : JsonLib) (v : Value) : Prop where
  faithful : json.Faithful v
  noNul : 0 ∉ json.write v

theorem Transmits.isEmpty_write {json : JsonLib} {v : Value} (h : Transmits json v) :
    (json.write v).isEmpty = false := by
  have hlast := h.faithful.newline
  cases htext : json.write v with
  | nil =>
    rw [htext] at hlast
    exact nomatch hlast
  | cons c rest => rfl

/-- The method of a query whose transfer has a body or not: `request` names no method to libcurl for
`GET` and `POST`, so the body decides between these. -/
def Method.onWire (hasBody : Bool) : Method → Method
  | .get => if hasBody then .post else .get
  | .post => if hasBody then .post else .get
  | m => m

/-- What a call over the wire should be. A value reaches the handler that is registered for the path
of the call's URL, once, and the handler's value comes back; `400` is a failure to the calls that
look at it. Without a handler or a value nothing is called, and the call fails. -/
def RemoteCall (wire : Wire) (server : Server) (json : JsonLib) (e : ExchangeEvent) : Prop :=
  match e.call.value with
  | none => e.received = [] ∧ e.outcome.1 = false
  | some data => ∀ path, UrlAt wire.origin e.call.query.url path → PlainPath path →
    match (server.handlers (e.call.query.method.onWire true)).lookup path with
    | none => e.received = [] ∧ e.outcome.1 = false
    | some urlHandler =>
      ∃ q : HTTPQuery, q.url = path ∧ q.data = .json data ∧ e.received = [q] ∧
        (urlHandler q = none → e.outcome.1 = false) ∧
        ∀ v code, urlHandler q = some (.json v code) → CarriesText code.toUInt32 →
          Transmits json v → e.sent.limited (json.write v) = json.write v →
          e.outcome = if e.call.checksCode && code == 400 then (false, e.res) else (true, v)

/-- What happens at the client. -/
inductive ClientEvent where
  | header (name value : Bytes)
  | uriParam (param value : Bytes) (escape : Bool)
  | call (e : ExchangeEvent)

section Run

variable (wire : Wire) (server : Server) (json : JsonLib)
  (orders : Nat → (cli : HTTPClient) → Orders cli)

/-- One step of a client of the server. -/
inductive ClientStep : Transfers → ClientEvent → Transfers → Prop
  | header (t : Transfers) (name value : Bytes) :
    ClientStep t (.header name value) (t.addHttpHeader name value)
  | uriParam (t : Transfers) (param value : Bytes) (escape : Bool) :
    ClientStep t (.uriParam param value escape) (t.addUriParam param value escape)
  | call (t t' : Transfers) (call : JsonCall) (res : Value) (sent : SentRequest)
    (outcome : Bool × Value)
    (hperform : call.perform (exchangeNet wire server json orders) json t res = (t', outcome))
    (hsent : t'.sent = t.sent ++ [sent]) :
    ClientStep t (.call ⟨call, res, sent, (exchange wire server json sent).1, outcome⟩) t'

/-- The header may be staged: it leaves the rest of a request alone, and it does not name the
content type under another name. -/
def Stageable (name value : Bytes) : Prop :=
  PlainHeader name value ∧
    (NamesContentType (headerLine name value) → name = ascii "Content-Type")

/-- A header may be staged. A call has a method with an answer body, carries what its text can carry
and no other text, and its transfer is carried out, with the body in at most one chunk. -/
def ClientEvent.Admissible : ClientEvent → Prop
  | header name value => Stageable name value
  | uriParam .. => True
  | call e => e.call.query.method ≠ .head ∧ wire.CarriesWhole e.sent ∧
    match e.call.value with
    | none => e.call.query.postData = []
    | some data => Transmits json data

/-- No form is staged, and no header that may not be. -/
structure ReadyForJson (cli : HTTPClient) : Prop where
  noForm : cli.formParams = ∅
  headers : ∀ name value, cli.httpHeaders.lookup name = some value → Stageable name value

end Run

/-! ## One transfer -/

section Exchange

variable {wire : Wire} {server : Server} {json : JsonLib} {sent : SentRequest} {m : Method}

theorem readBody_json (body : Bytes) : readBody json (some (ascii "application/json")) body =
    if (json.parse body .null).1 then some (.json (json.parse body .null).2) else none := by
  unfold readBody
  dsimp only
  rw [if_neg (by decide : ascii "application/json" ≠ _), if_pos rfl]

/-- **A json text that is read reaches its handler.** -/
theorem exchange_handled {urlHandler : ServerRequestHandler} {data : Value}
    (hchunk : wire.chunks sent = inOneChunk sent.wireBody)
    (htype : (wire.connection sent).contentType = some (ascii "application/json"))
    (hm : methodOf sent.wireMethod = some m)
    (hh : (server.handlers m).lookup (wire.path sent) = some urlHandler)
    (hparse : json.parse sent.wireBody .null = (true, data)) :
    exchange wire server json sent =
      let q := queryOf (wire.connection sent) (wire.path sent) (.json data)
      let queued := (urlHandler q).elim (400, badRequest) (Response.queued json)
      ([q], wire.answer sent queued.1 queued.2) := by
  have hread : readBody json (wire.connection sent).contentType sent.wireBody =
      some (.json data) := by
    rw [htype, readBody_json, hparse]
    rfl
  unfold exchange
  rw [hchunk, serve_inOneChunk hm, answer_handled hh hread]
  dsimp only
  cases urlHandler (queryOf (wire.connection sent) (wire.path sent) (.json data)) <;> rfl

/-- **Without a handler, or with a text that is not read**, nothing is called. -/
theorem exchange_refused (hchunk : wire.chunks sent = inOneChunk sent.wireBody)
    (htype : (wire.connection sent).contentType = some (ascii "application/json"))
    (hm : methodOf sent.wireMethod = some m)
    (h : (server.handlers m).lookup (wire.path sent) = none ∨
      (json.parse sent.wireBody .null).1 = false) :
    exchange wire server json sent = ([], wire.answer sent 400 badRequest) := by
  have hrefused : (server.handlers m).lookup (wire.path sent) = none ∨
      readBody json (wire.connection sent).contentType sent.wireBody = none := by
    refine h.imp_right fun hparse => ?_
    rw [htype, readBody_json, hparse]
    rfl
  unfold exchange
  rw [hchunk, serve_inOneChunk hm, answer_refused hrefused]

theorem limited_eq (sent : SentRequest) (text : Bytes) :
    sent.limited text = [] ∨ sent.limited text = text := by
  unfold SentRequest.limited
  split
  · exact Or.inl rfl
  · exact Or.inr rfl

/-! ## The calls as requests -/

theorem methodOf_wireMethod (m : Method) (hhead : m ≠ .head) (hasBody : Bool) :
    methodOf ((HTTPClient.customRequest m).getD
      (if hasBody then ascii "POST" else ascii "GET")) = some (m.onWire hasBody) := by
  cases m <;> first | exact absurd rfl hhead | (cases hasBody <;> decide)

end Exchange

namespace JsonCall

/-- The query that is requested. -/
def sentQuery (json : JsonLib) : JsonCall → Query
  | getJson query => query
  | getJsonOf query req => { query with postData := json.write req }
  | postJson query data => { query with postData := json.write data }
  | putJson query data => { query with postData := json.write data }
  | deleteJson query => query

/-- What the call makes of the response code and of the text. -/
def judge (json : JsonLib) (call : JsonCall) (code : Int) (text : Bytes) (res : Value) :
    Bool × Value :=
  if call.checksCode then
    if code = 400 then (false, res)
    else if call.query.flag &&& Query.flagNoResponseAwaited != 0 && text.isEmpty then (true, res)
    else if text.isEmpty then (false, res)
    else json.parse text res
  else json.parse text res

variable {net : Net} {json : JsonLib} {t : Transfers} {res : Value}

/-- **A call is one request**, judged by what comes back. -/
theorem perform_call (call : JsonCall) (hwrite : ∀ v, call.value = some v → json.write v ≠ []) :
    call.perform net json t res =
      let r := t.prepareJsonQuery.request net (call.sentQuery json) []
      (r.1, call.judge json r.1.client.httpCode r.2 res) := by
  cases call with
  | getJsonOf query req =>
    have hne : (json.write req).isEmpty = false := by
      simpa using hwrite req rfl
    dsimp only [perform, Transfers.getJson]
    rw [hne]
    rfl
  | _ => rfl

theorem sentQuery_method (call : JsonCall) : (call.sentQuery json).method = call.query.method := by
  cases call <;> rfl

end JsonCall

/-! ## What a call sends -/

section Sent

variable {wire : Wire} {server : Server} {json : JsonLib} {net : Net} {t : Transfers}
  {query : Query}

theorem plainHeader_json : PlainHeader (ascii "Content-Type") (ascii "application/json") where
  name_ne := by decide
  token := List.all_eq_true.mp rfl
  printable c hc := by
    have hall : (ascii "application/json").all (fun c => decide (32 ≤ c ∧ c ≤ 126)) = true := rfl
    exact of_decide_eq_true (List.all_eq_true.mp hall c hc)
  ordinary := by decide

/-- The headers of a json call. -/
theorem lookup_prepareJsonQuery (t : Transfers) (name : Bytes) :
    t.prepareJsonQuery.client.httpHeaders.lookup name =
      if name = ascii "Content-Type" then some (ascii "application/json")
      else t.client.httpHeaders.lookup name := by
  change (t.client.httpHeaders.insert (ascii "Content-Type") _).lookup name = _
  by_cases hname : name = ascii "Content-Type"
  · rw [if_pos hname, hname, Finmap.lookup_insert]
  · rw [if_neg hname, Finmap.lookup_insert_of_ne _ hname]

/-- The lines of a request are those of the headers that are staged. -/
theorem mem_headers_next {t : Transfers} {line : Bytes} : line ∈ (t.next net query).headers ↔
    ∃ name value, t.client.httpHeaders.lookup name = some value ∧ line = headerLine name value := by
  have hheaders : (t.next net query).headers =
      (net.orders t.sent.length t.client).headers.pairs.map fun p => headerLine p.1 p.2 := rfl
  rw [hheaders, List.mem_map]
  constructor
  · rintro ⟨⟨name, value⟩, hmem, rfl⟩
    exact ⟨name, value, (Iteration.mem_pairs_iff _).mp hmem, rfl⟩
  · rintro ⟨name, value, hlookup, rfl⟩
    exact ⟨⟨name, value⟩, (Iteration.mem_pairs_iff _).mpr hlookup, rfl⟩

/-- A json call stages json. -/
theorem ReadyForJson.prepareJsonQuery (h : ReadyForJson t.client) :
    ReadyForJson t.prepareJsonQuery.client where
  noForm := h.noForm
  headers name value hlookup := by
    rw [lookup_prepareJsonQuery] at hlookup
    split at hlookup
    · rename_i hname
      rw [hname, ← Option.some.inj hlookup]
      exact ⟨plainHeader_json, fun _ => rfl⟩
    · exact h.headers name value hlookup

theorem headersPlain_next (h : ReadyForJson t.client) : (t.next net query).HeadersPlain := by
  intro line hline
  obtain ⟨name, value, hlookup, rfl⟩ := mem_headers_next.mp hline
  exact ⟨name, value, (h.headers name value hlookup).1, rfl⟩

/-- A json call announces json. -/
theorem contentType_next (h : ReadyForJson t.client)
    (hcarries : wire.Carries (t.prepareJsonQuery.next net query)) :
    (wire.connection (t.prepareJsonQuery.next net query)).contentType =
      some (ascii "application/json") := by
  refine wire.contentType _ hcarries (headersPlain_next h.prepareJsonQuery) ?_
    fun line hline hnames => ?_
  · refine mem_headers_next.mpr ⟨ascii "Content-Type", ascii "application/json", ?_, rfl⟩
    rw [lookup_prepareJsonQuery, if_pos rfl]
  · obtain ⟨name, value, hlookup, rfl⟩ := mem_headers_next.mp hline
    have hname : name = ascii "Content-Type" :=
      (h.prepareJsonQuery.headers name value hlookup).2 hnames
    rw [lookup_prepareJsonQuery, if_pos hname] at hlookup
    rw [hname, ← Option.some.inj hlookup, jsonHeader]

/-- A path has no NUL. -/
theorem PlainPath.noNul {path : Bytes} (h : PlainPath path) : 0 ∉ path := by
  intro hmem
  rcases h.plain 0 hmem with hzero | hzero
  · exact absurd hzero (by decide)
  · exact absurd hzero (by decide)

theorem cStr_append {s t : Bytes} (hs : 0 ∉ s) : cStr (s ++ t) = s ++ cStr t := by
  refine List.takeWhile_append_of_pos fun c hc => ?_
  rw [bne_iff_ne]
  rintro rfl
  exact hs hc

/-- A request asks for the URL of its query, with the parameters behind it. -/
theorem url_next (t : Transfers) : ∃ params, (t.next net query).url = cStr (query.url ++ params) ∧
    (params = [] ∨ params.head? = some 63) := by
  have hurl : (t.next net query).url = cStr (HTTPClient.appendParams (ascii "?")
      (net.orders t.sent.length t.client).uri.pairs query.url) := rfl
  by_cases hnil : (net.orders t.sent.length t.client).uri.pairs = []
  · refine ⟨[], ?_, Or.inl rfl⟩
    rw [hurl, hnil, List.append_nil]
    rfl
  · refine ⟨ascii "?" ++ [38].intercalate
      ((net.orders t.sent.length t.client).uri.pairs.map formField), ?_, Or.inr rfl⟩
    rw [hurl, appendParams_eq _ _ _ hnil, List.append_assoc]

/-- **A request goes to the path of its query**, whatever parameters it has. -/
theorem path_next {path : Bytes} (hcarries : wire.Carries (t.prepareJsonQuery.next net query))
    (hurl : UrlAt wire.origin query.url path) (hplain : PlainPath path) :
    wire.path (t.prepareJsonQuery.next net query) = path := by
  refine wire.path_eq _ _ hcarries ?_ hplain
  obtain ⟨rest, hquery, hrest⟩ := hurl
  obtain ⟨params, hparamsUrl, hparams⟩ := @url_next net query t.prepareJsonQuery
  have hsent : (t.prepareJsonQuery.next net query).url =
      wire.origin ++ path ++ cStr (rest ++ params) := by
    have hfront : 0 ∉ wire.origin ++ path :=
      List.mem_append.not.mpr (not_or.mpr ⟨wire.origin_noNul, hplain.noNul⟩)
    calc (t.prepareJsonQuery.next net query).url
      _ = cStr (query.url ++ params) := hparamsUrl
      _ = cStr (wire.origin ++ path ++ (rest ++ params)) := by rw [hquery, List.append_assoc _ rest]
      _ = wire.origin ++ path ++ cStr (rest ++ params) := cStr_append hfront
  refine ⟨cStr (rest ++ params), hsent, ?_⟩
  have hhead : rest ++ params = [] ∨ (rest ++ params).head? = some 63 := by
    rcases hrest with rfl | hrest
    · exact hparams
    · refine Or.inr ?_
      rw [List.head?_append, hrest]
      rfl
  cases htext : rest ++ params with
  | nil => exact Or.inl rfl
  | cons c text =>
    rw [htext] at hhead
    obtain rfl := Option.some.inj (hhead.resolve_left (List.cons_ne_nil c text))
    exact Or.inr rfl

/-- What the request of a call with this text is sent as. -/
theorem wire_next (hform : t.client.formParams = ∅) (hnul : 0 ∉ query.postData)
    (hhead : query.method ≠ .head) :
    let sent := t.prepareJsonQuery.next net query
    sent.wireBody = query.postData ∧
      methodOf sent.wireMethod = some (query.method.onWire (!query.postData.isEmpty)) := by
  have hfields : (t.prepareJsonQuery.next net query).postFields =
      if query.postData.isEmpty then none else some query.postData := by
    rw [@Transfers.postFields_next net t.prepareJsonQuery query hform, cStr_of_not_mem hnul]
  have hmethod := methodOf_wireMethod query.method hhead (!query.postData.isEmpty)
  dsimp only [SentRequest.wireBody, SentRequest.wireMethod]
  rw [hfields]
  cases hdata : query.postData with
  | nil =>
    rw [hdata] at hmethod
    exact ⟨rfl, hmethod⟩
  | cons c rest =>
    rw [hdata] at hmethod
    exact ⟨rfl, hmethod⟩

end Sent

/-! ## Runs -/

section Run

variable {wire : Wire} {server : Server} {json : JsonLib}
  {orders : Nat → (cli : HTTPClient) → Orders cli}

theorem answer_concat (sents : List SentRequest) (sent : SentRequest) :
    (exchangeNet wire server json orders).answer (sents ++ [sent]) =
      (exchange wire server json sent).2 := by
  dsimp only [exchangeNet]
  rw [List.getLast?_concat]

/-- What a call returns is judged from the exchange of its one request. -/
theorem perform_exchange {t t' : Transfers} {call : JsonCall} {res : Value} {sent : SentRequest}
    {outcome : Bool × Value} (hwrite : ∀ v, call.value = some v → json.write v ≠ [])
    (hperform : call.perform (exchangeNet wire server json orders) json t res = (t', outcome))
    (hsent : t'.sent = t.sent ++ [sent]) :
    sent = t.prepareJsonQuery.next (exchangeNet wire server json orders) (call.sentQuery json) ∧
      outcome = call.judge json (exchange wire server json sent).2.responseCode
        (exchange wire server json sent).2.written res := by
  rw [JsonCall.perform_call call hwrite] at hperform
  obtain ⟨rfl, rfl⟩ := Prod.mk.inj hperform
  rw [Transfers.sent_request] at hsent
  have hnext := (List.append_cancel_left hsent)
  obtain rfl := (List.cons.inj hnext).1.symm
  have hanswer := @answer_concat wire server json orders t.sent
    (t.prepareJsonQuery.next (exchangeNet wire server json orders) (call.sentQuery json))
  rw [← hanswer]
  exact ⟨rfl, rfl⟩

/-- The answer to a bad request is a failure of every call. -/
theorem judge_badRequest (call : JsonCall) {sent : SentRequest} (hcarries : wire.Carries sent)
    (res : Value) (hempty : ∀ root, (json.parse [] root).1 = false)
    (hbad : ∀ root, (json.parse badRequest root).1 = false) :
    (call.judge json (wire.answer sent 400 badRequest).responseCode
      (wire.answer sent 400 badRequest).written res).1 = false := by
  have hcode : CarriesText 400 := ⟨by decide, by decide, by decide, by decide, by decide⟩
  rw [wire.answer_eq sent 400 badRequest hcarries hcode]
  unfold JsonCall.judge
  split
  · rfl
  · rcases limited_eq sent badRequest with h | h
    · rw [h]
      exact hempty res
    · rw [h]
      exact hbad res

/-- A text that is read is what the call returns, unless the call fails on its code. -/
theorem judge_written (call : JsonCall) {v : Value} (hv : Transmits json v) (code : UInt16)
    (res : Value) : call.judge json (code.toUInt32.toNat : Nat) (json.write v) res =
      if call.checksCode && code == 400 then (false, res) else (true, v) := by
  have hne := hv.isEmpty_write
  have hcode : ((code.toUInt32.toNat : Nat) : Int) = 400 ↔ code = 400 := by
    rw [UInt16.toNat_toUInt32, ← UInt16.toNat_inj]
    exact Int.ofNat_inj
  unfold JsonCall.judge
  simp only [hcode, hne, hv.faithful.inverse res, Bool.and_false, Bool.false_eq_true, if_false,
    Bool.and_eq_true, beq_iff_eq]
  split <;> simp_all

/-- A call without a value fails and reaches no handler. -/
theorem remoteCall_none {t : Transfers} {call : JsonCall} {res : Value} {sent : SentRequest}
    (hnone : call.value = none)
    (hsent : sent =
      t.prepareJsonQuery.next (exchangeNet wire server json orders) (call.sentQuery json))
    (hwhole : wire.CarriesWhole sent) (hready : ReadyForJson t.client)
    (hdata : call.query.postData = []) (hhead : call.query.method ≠ .head)
    (hempty : ∀ root, (json.parse [] root).1 = false)
    (hbad : ∀ root, (json.parse badRequest root).1 = false) :
    (exchange wire server json sent).1 = [] ∧
      (call.judge json (exchange wire server json sent).2.responseCode
        (exchange wire server json sent).2.written res).1 = false := by
  have hquery : call.sentQuery json = call.query := by
    cases call <;> first | rfl | exact nomatch hnone
  rw [hquery] at hsent
  obtain ⟨hbody, hmethod⟩ := @wire_next (exchangeNet wire server json orders) t call.query
    hready.noForm (by simp [hdata]) hhead
  rw [← hsent] at hbody hmethod
  have htype : (wire.connection sent).contentType = some (ascii "application/json") := by
    have hcarries := hwhole.carries
    rw [hsent] at hcarries ⊢
    exact contentType_next hready hcarries
  have hplain : sent.HeadersPlain := hsent ▸ headersPlain_next hready.prepareJsonQuery
  rw [hdata] at hbody
  rw [exchange_refused (hwhole.chunks_eq hplain) htype hmethod
    (Or.inr (by rw [hbody]; exact hempty _))]
  exact ⟨rfl, judge_badRequest call hwhole.carries res hempty hbad⟩

/-- A call with a value is a call of the handler. -/
theorem remoteCall_some {t : Transfers} {call : JsonCall} {res data : Value} {sent : SentRequest}
    (hvalue : call.value = some data)
    (hsent : sent =
      t.prepareJsonQuery.next (exchangeNet wire server json orders) (call.sentQuery json))
    (hwhole : wire.CarriesWhole sent) (hready : ReadyForJson t.client)
    (hdata : Transmits json data) (hhead : call.query.method ≠ .head)
    (hempty : ∀ root, (json.parse [] root).1 = false)
    (hbad : ∀ root, (json.parse badRequest root).1 = false) :
    RemoteCall wire server json ⟨call, res, sent, (exchange wire server json sent).1,
      call.judge json (exchange wire server json sent).2.responseCode
        (exchange wire server json sent).2.written res⟩ := by
  have hne := hdata.isEmpty_write
  have hquery : call.sentQuery json = { call.query with postData := json.write data } := by
    cases call with
    | getJson => exact nomatch hvalue
    | deleteJson => exact nomatch hvalue
    | _ =>
      obtain rfl := Option.some.inj hvalue
      rfl
  rw [hquery] at hsent
  obtain ⟨hbody, hmethod⟩ := @wire_next (exchangeNet wire server json orders) t
    { call.query with postData := json.write data } hready.noForm hdata.noNul hhead
  have hcarries := hwhole.carries
  have htype : (wire.connection sent).contentType = some (ascii "application/json") := by
    rw [hsent] at hcarries ⊢
    exact contentType_next hready hcarries
  have hchunk := hwhole.chunks_eq (hsent ▸ headersPlain_next hready.prepareJsonQuery)
  rw [← hsent] at hbody hmethod
  dsimp only at hbody hmethod
  rw [hne] at hmethod
  unfold RemoteCall
  simp only [hvalue]
  intro path hurl hplain
  have hpath : wire.path sent = path := by
    rw [hsent] at hcarries ⊢
    exact path_next hcarries hurl hplain
  rw [← hpath]
  cases hh : (server.handlers (call.query.method.onWire true)).lookup (wire.path sent) with
  | none =>
    rw [exchange_refused hchunk htype hmethod (Or.inl hh)]
    exact ⟨rfl, judge_badRequest call hcarries res hempty hbad⟩
  | some urlHandler =>
    have hparse : json.parse sent.wireBody .null = (true, data) := by
      rw [hbody]
      exact hdata.faithful.inverse _
    rw [exchange_handled hchunk htype hmethod hh hparse]
    refine ⟨queryOf (wire.connection sent) (wire.path sent) (.json data), rfl, rfl, rfl,
      fun hnone => ?_, fun v code hsome hcode hv hlimit => ?_⟩
    · simp only [hnone, Option.elim_none]
      exact judge_badRequest call hcarries res hempty hbad
    · simp only [hsome, Option.elim_some, Response.queued, wire.answer_eq sent _ _ hcarries hcode,
        hlimit]
      exact judge_written call hv code res

/-- Staging a header. -/
theorem ReadyForJson.addHttpHeader {cli : HTTPClient} (h : ReadyForJson cli) {name value : Bytes}
    (hheader : Stageable name value) : ReadyForJson (cli.addHttpHeader name value) where
  noForm := h.noForm
  headers name' value' hlookup := by
    change (cli.httpHeaders.insert name value).lookup name' = _ at hlookup
    by_cases heq : name' = name
    · subst heq
      rw [Finmap.lookup_insert] at hlookup
      obtain rfl := Option.some.inj hlookup
      exact hheader
    · rw [Finmap.lookup_insert_of_ne _ heq] at hlookup
      exact h.headers name' value' hlookup

/-- A request of a ready client leaves it ready. -/
theorem ReadyForJson.request {net : Net} {t : Transfers} (h : ReadyForJson t.client)
    (query : Query) (text : Bytes) : ReadyForJson (t.request net query text).1.client where
  noForm := rfl
  headers name value hlookup := by
    change (if query.flag &&& Query.flagKeepHeaderCacheAfterRequest == 0 then ∅
      else t.client.httpHeaders).lookup name = _ at hlookup
    split at hlookup
    · exact nomatch hlookup
    · exact h.headers name value hlookup

/-- **One step**: a call is a remote call, and the client stays ready. -/
theorem clientStep_remoteCall (hempty : ∀ root, (json.parse [] root).1 = false)
    (hbad : ∀ root, (json.parse badRequest root).1 = false) {t t' : Transfers} {event : ClientEvent}
    (hready : ReadyForJson t.client) (hadmissible : event.Admissible wire json)
    (hstep : ClientStep wire server json orders t event t') :
    (∀ e, event = .call e → RemoteCall wire server json e) ∧ ReadyForJson t'.client := by
  cases hstep with
  | header name value =>
    exact ⟨fun e he => ClientEvent.noConfusion he, hready.addHttpHeader hadmissible⟩
  | uriParam =>
    exact ⟨fun e he => ClientEvent.noConfusion he, ⟨hready.noForm, hready.headers⟩⟩
  | call _ call res sent outcome hperform hsent =>
    obtain ⟨hhead, hwhole, hcarries⟩ := hadmissible
    dsimp only at hhead hwhole hcarries
    have hwrite : ∀ v, call.value = some v → json.write v ≠ [] := by
      intro v hv
      rw [hv] at hcarries
      exact fun hnil => by simpa [hnil] using hcarries.isEmpty_write
    refine ⟨?_, ?_⟩
    · rintro _ ⟨⟩
      obtain ⟨hnext, rfl⟩ := perform_exchange hwrite hperform hsent
      cases hvalue : call.value with
      | none =>
        rw [hvalue] at hcarries
        unfold RemoteCall
        simp only [hvalue]
        exact remoteCall_none hvalue hnext hwhole hready hcarries hhead hempty hbad
      | some data =>
        rw [hvalue] at hcarries
        exact remoteCall_some hvalue hnext hwhole hready hcarries hhead hempty hbad
    · rw [JsonCall.perform_call call hwrite] at hperform
      obtain ⟨rfl, -⟩ := Prod.mk.inj hperform
      exact hready.prepareJsonQuery.request _ _

/-- **Json calls are calls of the handlers**, in every run of a client that stages no form. -/
theorem json_exchange (wire : Wire) (server : Server) (json : JsonLib)
    (orders : Nat → (cli : HTTPClient) → Orders cli)
    (hempty : ∀ root, (json.parse [] root).1 = false)
    (hbad : ∀ root, (json.parse badRequest root).1 = false) {t t' : Transfers}
    {events : List ClientEvent} (hready : ReadyForJson t.client)
    (hadmissible : ∀ event ∈ events, event.Admissible wire json)
    (hrun : Trace (ClientStep wire server json orders) t events t') :
    ∀ e, .call e ∈ events → RemoteCall wire server json e := by
  have hstep (t : Transfers) (event : ClientEvent) (t' : Transfers) (ht : ReadyForJson t.client)
      (hevent : event.Admissible wire json)
      (hstep : ClientStep wire server json orders t event t') :
      (∀ e, event = .call e → RemoteCall wire server json e) ∧ ReadyForJson t'.client :=
    clientStep_remoteCall hempty hbad ht hevent hstep
  exact fun e he => hrun.forall_labels hstep hready hadmissible _ he e rfl

end Run

/-! ## A wire and a server -/

instance (line : Bytes) : Decidable (NamesContentType line) :=
  inferInstanceAs (Decidable (_ = _))

/-- The first line that names the content type. -/
def contentTypeLine (sent : SentRequest) : Option Bytes :=
  sent.headers.find? fun line => decide (NamesContentType line)

theorem contentTypeLine_eq {sent : SentRequest} {line : Bytes} (hmem : line ∈ sent.headers)
    (hnames : NamesContentType line) (hall : ∀ l ∈ sent.headers, NamesContentType l → l = line) :
    contentTypeLine sent = some line := by
  unfold contentTypeLine
  cases hfind : sent.headers.find? fun line => decide (NamesContentType line) with
  | none => exact absurd (decide_eq_true hnames) (List.find?_eq_none.mp hfind line hmem)
  | some l =>
    have hl : decide (NamesContentType l) = true :=
      List.find?_some (p := fun line => decide (NamesContentType line)) hfind
    rw [hall l (List.mem_of_find?_eq_some hfind) (of_decide_eq_true hl)]

/-- A wire that delivers the URL up to its parameters, and the body at once. -/
def plainWire (origin : Bytes) (h : 0 ∉ origin) : Wire where
  origin := origin
  Carries _ := True
  connection sent :=
    { contentType := (contentTypeLine sent).map (·.drop (ascii "Content-Type: ").length)
      headers := []
      getArguments := [] }
  path sent := (sent.url.drop origin.length).takeWhile (· ≠ 63)
  chunks sent := inOneChunk sent.wireBody
  answer sent code text := ⟨code.toNat, sent.limited text⟩
  origin_noNul := h
  path_eq sent p _ hurl hplain := by
    obtain ⟨rest, hsent, hrest⟩ := hurl
    have hp : ∀ c ∈ p, decide (c ≠ 63) = true := by
      intro c hc
      refine decide_eq_true ?_
      rintro rfl
      rcases hplain.plain 63 hc with hmark | hmark
      · exact absurd hmark (by decide)
      · exact absurd hmark (by decide)
    have hend : rest.takeWhile (· ≠ 63) = [] := by
      cases rest with
      | nil => rfl
      | cons c rest =>
        obtain rfl := Option.some.inj (hrest.resolve_left (List.cons_ne_nil c rest))
        rfl
    rw [hsent, List.append_assoc, List.drop_left, List.takeWhile_append_of_pos hp, hend,
      List.append_nil]
  chunks_ne sent chunk hchunk := ne_nil_of_mem_inOneChunk hchunk
  chunks_flatten sent _ _ := by
    unfold inOneChunk
    split
    · rename_i hnil
      rw [hnil]
      rfl
    · exact List.flatten_singleton
  contentType sent _ _ hmem hall := by
    rw [contentTypeLine_eq hmem (by decide) hall]
    rfl
  answer_eq _ _ _ _ _ := rfl

/-- The wire to a server on this host. -/
def localWire : Wire := plainWire (ascii "http://localhost") (by decide)

/-- A server that answers a json value with itself. -/
def echoServer : Server where
  handlers _ := Finmap.singleton (ascii "/") fun q =>
    match q.data with
    | .json v => some (.json v 200)
    | _ => none

/-- A json library for the empty object. -/
def emptyObjectJson : JsonLib where
  write _ := ascii "\x7b\x7d\n"
  parse text root := if text = ascii "\x7b\x7d\n" then (true, .object []) else (false, root)

theorem transmits_emptyObject : Transmits emptyObjectJson (.object []) where
  faithful :=
    { newline := rfl
      inverse := fun _ => rfl
      cut := fun k root hk => by
        have hlength : (emptyObjectJson.write (.object [])).length = 3 := rfl
        obtain rfl | rfl : k = 0 ∨ k = 1 := by omega
        · rfl
        · rfl }
  noNul := by decide

/-- The call that posts an empty object. -/
def postEmptyObject : JsonCall := .postJson ⟨ascii "http://localhost/", 0x01, .get, []⟩ (.object [])

theorem length_inOneChunk_le (body : Bytes) : (inOneChunk body).length ≤ 1 := by
  unfold inOneChunk
  split
  · exact Nat.zero_le 1
  · exact le_rfl

theorem admissible_postEmptyObject (sent : SentRequest) (received : List HTTPQuery)
    (outcome : Bool × Value) : ClientEvent.Admissible localWire emptyObjectJson
      (.call ⟨postEmptyObject, .null, sent, received, outcome⟩) :=
  ⟨fun h => Method.noConfusion h, ⟨trivial, length_inOneChunk_le _⟩, transmits_emptyObject⟩

/-- It is answered by the handler of `POST`. -/
theorem json_exchange_echo : ∃ sent received outcome, RemoteCall localWire echoServer
    emptyObjectJson ⟨postEmptyObject, .null, sent, received, outcome⟩ := by
  let orders (_ : Nat) (cli : HTTPClient) : Orders cli := (Orders.nonempty cli).some
  have hstep : ClientStep localWire echoServer emptyObjectJson orders ⟨{}, []⟩
      (.call ⟨postEmptyObject, .null, _, _, _⟩) _ :=
    .call ⟨{}, []⟩ _ postEmptyObject .null _ _ rfl rfl
  have hready : ReadyForJson ({} : HTTPClient) := ⟨rfl, fun _ _ h => absurd h (by simp)⟩
  refine ⟨_, _, _, json_exchange _ _ _ orders (fun _ => rfl) (fun _ => rfl) hready ?_
    (.cons hstep (.nil _)) _ List.mem_cons_self⟩
  exact List.forall_mem_singleton.mpr (admissible_postEmptyObject _ _ _)

end WinterWind.Http
