import WinterWind.Http.HttpClient
import WinterWind.Utils.Json

/-!
# A client and its transfers (`src/core/httpclient.cpp`)

`Transfers` is an `HTTPClient` with the requests it has sent so far. A `Net` is everything outside
it: the order in which each map is iterated at each request, and what libcurl leaves of the last of
the requests sent, which may depend on all of them.

* `request` is `HTTPClient::request` in that setting; `getJson`, `putJson`, `postJson` and
  `deleteJson` are `_get_json`, `_put_json`, `_post_json` and `_delete`, which parse what the
  transfer has written.

Results:
* `sent_request`: a request is sent once, as `HTTPClient.request` builds it.
* `uriParams_request`, `formParams_request`, `clean_request`: it leaves nothing staged.
-/

namespace WinterWind.Http

/-- One order for each of a client's maps. -/
structure Orders (cli : HTTPClient) where
  uri : Iteration cli.uriParams
  headers : Iteration cli.httpHeaders
  form : Iteration cli.formParams

theorem Orders.nonempty (cli : HTTPClient) : Nonempty (Orders cli) :=
  ⟨⟨(Iteration.nonempty _).some, (Iteration.nonempty _).some, (Iteration.nonempty _).some⟩⟩

/-- What is left open by the client: the orders at the `k`-th request, and what libcurl leaves of
the last request of a list. -/
structure Net where
  orders : Nat → (cli : HTTPClient) → Orders cli
  answer : List SentRequest → CurlAnswer

/-- Nothing is staged. -/
structure Clean (cli : HTTPClient) : Prop where
  headers : cli.httpHeaders = ∅
  uriParams : cli.uriParams = ∅
  formParams : cli.formParams = ∅

/-- What `request` sends, whatever comes of it. -/
def HTTPClient.sent (cli : HTTPClient) (query : Query) (orders : Orders cli) : SentRequest :=
  (cli.request query orders.uri orders.headers orders.form (fun _ => ⟨0, []⟩) []).1

/-- An `HTTPClient` and the requests it has sent, in order. -/
structure Transfers where
  client : HTTPClient
  sent : List SentRequest := []

namespace Transfers

variable (net : Net)

/-- `request(query, res)`, with the value of `res` after it. -/
def request (t : Transfers) (query : Query) (res : Bytes) : Transfers × Bytes :=
  let orders := net.orders t.sent.length t.client
  let r := t.client.request query orders.uri orders.headers orders.form
    (fun sent => net.answer (t.sent ++ [sent])) res
  (⟨r.2.1, t.sent ++ [r.1]⟩, r.2.2)

def addHttpHeader (t : Transfers) (header value : Bytes) : Transfers :=
  { t with client := t.client.addHttpHeader header value }

def addUriParam (t : Transfers) (param value : Bytes) (escape : Bool) : Transfers :=
  { t with client := t.client.addUriParam param value escape }

def addFormParam (t : Transfers) (param value : Bytes) (escape : Bool) : Transfers :=
  { t with client := t.client.addFormParam param value escape }

/-- `HTTPClient::prepare_json_query` -/
def prepareJsonQuery (t : Transfers) : Transfers :=
  t.addHttpHeader (ascii "Content-Type") (ascii "application/json")

/-- `HTTPClient::_get_json(query, res, reqdata)`, with the value of `res` after it. -/
def getJson (json : JsonLib) (t : Transfers) (query : Query) (res : Value)
    (reqdata : Bytes := []) : Transfers × Bool × Value :=
  let query := if reqdata.isEmpty then query else { query with postData := reqdata }
  let r := t.prepareJsonQuery.request net query []
  (r.1, json.parse r.2 res)

/-- `HTTPClient::_put_json(query, data, res)`, with the value of `res` after it. -/
def putJson (json : JsonLib) (t : Transfers) (query : Query) (data res : Value) :
    Transfers × Bool × Value :=
  let r := t.prepareJsonQuery.request net { query with postData := json.write data } []
  (r.1,
    if r.1.client.httpCode = 400 then (false, res)
    else if query.flag &&& Query.flagNoResponseAwaited != 0 && r.2.isEmpty then (true, res)
    else if r.2.isEmpty then (false, res)
    else json.parse r.2 res)

/-- `HTTPClient::_post_json(query, data, res)`, which does what `_put_json` does. -/
def postJson (json : JsonLib) (t : Transfers) (query : Query) (data res : Value) :
    Transfers × Bool × Value :=
  t.putJson net json query data res

/-- `HTTPClient::_delete(query, res)`, with the value of `res` after it. -/
def deleteJson (json : JsonLib) (t : Transfers) (query : Query) (res : Value) :
    Transfers × Bool × Value :=
  let r := t.prepareJsonQuery.request net query []
  (r.1, json.parse r.2 res)

/-- What the next request is sent as. -/
def next (t : Transfers) (query : Query) : SentRequest :=
  t.client.sent query (net.orders t.sent.length t.client)

variable {net} {t : Transfers} {query : Query} {res : Bytes}

/-- What a request is sent as does not depend on its answer. -/
theorem sent_request : (t.request net query res).1.sent = t.sent ++ [t.next net query] := rfl

/-- With no form parameter staged, the body is the query's. -/
theorem postFields_next (hform : t.client.formParams = ∅) : (t.next net query).postFields =
    if query.postData.isEmpty then none else some (cStr query.postData) := by
  have hpairs := (net.orders t.sent.length t.client).form.pairs_of_empty hform
  simp only [next, HTTPClient.sent, HTTPClient.request, hpairs, List.isEmpty_nil, if_true]

/-- With no URI parameter staged, the URL is the query's. -/
theorem url_next (huri : t.client.uriParams = ∅) (query : Query) :
    (t.next net query).url = cStr query.url := by
  have hpairs := (net.orders t.sent.length t.client).uri.pairs_of_empty huri
  simp only [next, HTTPClient.sent, HTTPClient.request, hpairs, HTTPClient.appendParams]

/-- Nothing is left staged, unless the headers are kept. -/
theorem clean_request {flag : UInt8} (hquery : query.flag = flag)
    (hflag : (flag &&& Query.flagKeepHeaderCacheAfterRequest == 0) = true) :
    Clean (t.request net query res).1.client := by
  subst hquery
  exact ⟨if_pos hflag, rfl, rfl⟩

@[simp] theorem uriParams_request : (t.request net query res).1.client.uriParams = ∅ := rfl

@[simp] theorem formParams_request : (t.request net query res).1.client.formParams = ∅ := rfl

end Transfers

end WinterWind.Http
