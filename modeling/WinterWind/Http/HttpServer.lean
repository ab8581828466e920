import WinterWind.Utils.Json
import WinterWind.Utils.StringUtils

/-!
# The HTTP server (`src/core/httpserver.cpp`, `src/core/httpresponse.cpp`)

`requestHandler` is the callback libmicrohttpd invokes several times for one request: once when
the headers are read, once for each upload chunk, and once more with no data. `serve` is such a
sequence of calls, ended by the first one that returns `MHD_NO`.

* libmicrohttpd is what a connection answers: the `Content-Type` value, and the pairs it iterates,
  whose key and value pointers may be null.
* A handler is a function of the query; a null `ResponsePtr` is `none`. What the handlers were
  given is recorded in the order of the calls, and so is every queued response.
* `QueryData` is the dynamic type of the query with the fields that type adds.
* `parse_post_data` fills the map of a query that is dropped when it fails, so the map is returned
  only on success.

Results:
* `serve_eq`: what a request leads to is decided by the first non-empty chunk.
* **`serve_chunks_iff`**: cutting a body into chunks changes nothing exactly when no handler is
  registered or the first chunk is read as the whole body is.
-/

namespace WinterWind.Http

/-- `Method`, less the bound `METHOD_MAX`. -/
inductive Method where
  | delete
  | get
  | head
  | patch
  | post
  | propfind
  | put
  deriving Repr, DecidableEq

/-- The comparisons of `request_handler` with the method's name. -/
def methodOf (method : Bytes) : Option Method :=
  if method = ascii "GET" then some .get
  else if method = ascii "POST" then some .post
  else if method = ascii "PUT" then some .put
  else if method = ascii "PATCH" then some .patch
  else if method = ascii "PROPFIND" then some .propfind
  else if method = ascii "DELETE" then some .delete
  else if method = ascii "HEAD" then some .head
  else none

/-- What `HTTPFormQuery` and `HTTPJsonQuery` add to an `HTTPQuery`. -/
inductive QueryData where
  | none
  | form (postData : UnorderedMap Bytes Bytes)
  | json (jsonQuery : Value)

/-- `HTTPQuery` and its subclasses. -/
structure HTTPQuery where
  url : Bytes
  headers : UnorderedMap Bytes Bytes
  getParams : UnorderedMap Bytes Bytes
  data : QueryData

/-- `Response` and `JSONResponse`. -/
inductive Response where
  | raw (response : Bytes) (httpCode : UInt16)
  | json (jsonResponse : Value) (httpCode : UInt16)

/-- `ServerRequestHandler`. -/
abbrev ServerRequestHandler := HTTPQuery → Option Response

/-- `Server::m_handlers`. -/
structure Server where
  handlers : Method → UnorderedMap Bytes ServerRequestHandler

/-- `ServerRequestSession`. -/
structure ServerRequestSession where
  result : Bytes := []
  dataHandled : Bool := false
  httpCode : UInt32 := 200
  deriving Repr, DecidableEq

/-- What libmicrohttpd knows of a request. -/
structure MHDConnection where
  contentType : Option Bytes
  headers : List (Option Bytes × Option Bytes)
  getArguments : List (Option Bytes × Option Bytes)

/-- `response >> session`. -/
def Response.toSession (json : JsonLib) (session : ServerRequestSession) :
    Response → ServerRequestSession
  | .raw response httpCode => { session with httpCode := httpCode.toUInt32, result := response }
  | .json jsonResponse httpCode =>
    { session with result := json.write jsonResponse, httpCode := httpCode.toUInt32 }

/-- `mhd_iter_headers` and `mhd_iter_getargs`, which differ in the map they fill. -/
def mhdIter (m : UnorderedMap Bytes Bytes) : Option Bytes × Option Bytes → UnorderedMap Bytes Bytes
  | (some key, some value) => m.insert key value
  | _ => m

/-- The loop of `parse_post_data` over the pieces between `&`. -/
def parsePieces : List Bytes → UnorderedMap Bytes Bytes → Option (UnorderedMap Bytes Bytes)
  | [], postData => some postData
  | s :: rest, postData =>
    if s.isEmpty then none
    else
      match strSplit s 61 [] with
      | [key, value] =>
        if key.isEmpty || value.isEmpty then none
        else parsePieces rest (postData.insert key value)
      | _ => none

/-- `Server::parse_post_data`. -/
def parsePostData (data : Bytes) (postData : UnorderedMap Bytes Bytes) :
    Option (UnorderedMap Bytes Bytes) :=
  parsePieces (strSplit data 38 []) postData

/-- The part of `handle_query` that reads the body as the content type says. -/
def readBody (json : JsonLib) (contentType : Option Bytes) (uploadData : Bytes) :
    Option QueryData :=
  match contentType with
  | none => some .none
  | some contentType =>
    if contentType = ascii "application/x-www-form-urlencoded" then
      (parsePostData uploadData ∅).map .form
    else if contentType = ascii "application/json" then
      if (json.parse uploadData .null).1 then some (.json (json.parse uploadData .null).2) else none
    else some .none

/-- `Server::handle_query`: the query given to a handler, if any, the returned status and the
session after the call. -/
def handleQuery (server : Server) (json : JsonLib) (m : Method) (conn : MHDConnection) (url : Bytes)
    (uploadData : Bytes) (session : ServerRequestSession) :
    List HTTPQuery × Bool × ServerRequestSession :=
  match (server.handlers m).lookup url with
  | none => ([], false, session)
  | some urlHandler =>
    match readBody json conn.contentType uploadData with
    | none => ([], false, session)
    | some data =>
      let q : HTTPQuery :=
        { url := url
          headers := conn.headers.foldl mhdIter ∅
          getParams := conn.getArguments.foldl mhdIter ∅
          data := data }
      match urlHandler q with
      | none =>
        ([q], false,
          if conn.contentType = some (ascii "application/json") then
            { session with result := ascii "\x7b\x7d" }
          else session)
      | some httpResponse => ([q], true, httpResponse.toSession json session)

/-- `BAD_REQUEST`. -/
def badRequest : Bytes :=
  ascii ("<html><head><title>Bad request</title></head><body>" ++
    "<h1>Bad request</h1></body></html>")

/-- One call of `request_handler`: whether it returns `MHD_YES`, `*con_cls` after it, the queries
given to a handler and the responses queued (status code and body). -/
structure Turn where
  ret : Bool
  conCls : Option ServerRequestSession
  queries : List HTTPQuery := []
  queued : List (UInt32 × Bytes) := []

/-- The lines of `request_handler` between the session lookup and the size test: the query is
handled unless that was done. -/
def handleOnce (server : Server) (json : JsonLib) (m : Method) (conn : MHDConnection) (url : Bytes)
    (uploadData : Bytes) (session : ServerRequestSession) :
    List HTTPQuery × ServerRequestSession :=
  if session.dataHandled then ([], session)
  else
    match handleQuery server json m conn url uploadData session with
    | (queries, true, session) => (queries, session)
    | (queries, false, session) => (queries, { session with result := badRequest, httpCode := 400 })

/-- `Server::request_handler`. -/
def requestHandler (server : Server) (json : JsonLib) (conn : MHDConnection) (url method : Bytes)
    (uploadData : Bytes) (conCls : Option ServerRequestSession) : Turn :=
  match methodOf method with
  | none => { ret := false, conCls := conCls }
  | some m =>
    match conCls with
    | none => { ret := true, conCls := some {} }
    | some session =>
      let (queries, session) := handleOnce server json m conn url uploadData session
      if 0 < uploadData.length then
        { ret := true, conCls := some { session with dataHandled := true }, queries := queries }
      else
        { ret := true, conCls := none, queries := queries
          queued := [(session.httpCode, session.result)] }

section Request

variable (server : Server) (json : JsonLib) (conn : MHDConnection) (url method : Bytes)

/-- The calls libmicrohttpd makes, each with its upload data. -/
def calls : Option ServerRequestSession → List Bytes → List HTTPQuery × List (UInt32 × Bytes)
  | _, [] => ([], [])
  | conCls, uploadData :: rest =>
    let turn := requestHandler server json conn url method uploadData conCls
    if turn.ret then
      (turn.queries ++ (calls turn.conCls rest).1, turn.queued ++ (calls turn.conCls rest).2)
    else (turn.queries, turn.queued)

/-- One request whose body arrives in `chunks`: the headers, the chunks, the final call. -/
def serve (chunks : List Bytes) : List HTTPQuery × List (UInt32 × Bytes) :=
  calls server json conn url method none ([] :: (chunks ++ [[]]))

/-- The chunks of a body that arrives at once. -/
def inOneChunk (body : Bytes) : List Bytes := if body = [] then [] else [body]

/-! ## What one request leads to -/

/-- The queries and the response that come from handling `data` in a new session. -/
def answer (m : Method) (data : Bytes) : List HTTPQuery × List (UInt32 × Bytes) :=
  let handled := handleOnce server json m conn url data {}
  (handled.1, [(handled.2.httpCode, handled.2.result)])

variable {server json conn url method}

/-- Once the data is handled, further chunks do nothing and the last call queues the result. -/
theorem calls_of_handled {m : Method} (hm : methodOf method = some m) :
    ∀ (chunks : List Bytes) (session : ServerRequestSession), (∀ c ∈ chunks, c ≠ []) →
      session.dataHandled = true →
      calls server json conn url method (some session) (chunks ++ [[]]) =
        ([], [(session.httpCode, session.result)])
  | [], session, _, hs => by
    simp [calls, requestHandler, hm, handleOnce, hs]
  | c :: chunks, session, h, hs => by
    have hc : 0 < c.length := List.length_pos_of_ne_nil (h c List.mem_cons_self)
    have hrest : ∀ c ∈ chunks, c ≠ [] := fun d hd => h d (List.mem_cons_of_mem c hd)
    have ih := calls_of_handled hm chunks { session with dataHandled := true } hrest rfl
    rw [List.cons_append, calls]
    simp only [requestHandler, hm, handleOnce, hs, if_true, hc, ih, List.nil_append]

theorem serve_unknown (hm : methodOf method = none) (chunks : List Bytes) :
    serve server json conn url method chunks = ([], []) := by
  simp [serve, calls, requestHandler, hm]

/-- **The first chunk decides.** With no chunk, the final call handles the empty data. -/
theorem serve_eq {m : Method} (hm : methodOf method = some m) {chunks : List Bytes}
    (h : ∀ c ∈ chunks, c ≠ []) :
    serve server json conn url method chunks =
      answer server json conn url m (chunks.headD []) := by
  have hfirst : serve server json conn url method chunks =
      calls server json conn url method (some {}) (chunks ++ [[]]) := by
    rw [serve, calls]
    simp [requestHandler, hm]
  rw [hfirst]
  cases chunks with
  | nil => simp [calls, requestHandler, hm, answer]
  | cons c chunks =>
    have hc : 0 < c.length := List.length_pos_of_ne_nil (h c List.mem_cons_self)
    have hrest : ∀ c ∈ chunks, c ≠ [] := fun d hd => h d (List.mem_cons_of_mem c hd)
    rw [List.cons_append, calls]
    simp only [requestHandler, hm, hc, if_true, List.nil_append]
    rw [calls_of_handled hm chunks _ hrest rfl]
    simp [answer]

/-- The handler is given what the body is read as, once, or nothing if it is refused. -/
theorem data_answer {m : Method} {urlHandler : ServerRequestHandler}
    (hh : (server.handlers m).lookup url = some urlHandler) (data : Bytes) :
    (answer server json conn url m data).1.map HTTPQuery.data =
      (readBody json conn.contentType data).toList := by
  simp only [answer, handleOnce, handleQuery, hh, Bool.false_eq_true, if_false]
  cases readBody json conn.contentType data with
  | none => rfl
  | some body =>
    dsimp only
    split
    · rename_i h
      split at h
      · simp at h
      · obtain ⟨rfl, -⟩ := Prod.mk.inj h
        rfl
    · rename_i h
      split at h
      · obtain ⟨rfl, -⟩ := Prod.mk.inj h
        rfl
      · simp at h

/-- Two bodies lead to the same queries and response iff no handler is registered or they are
read alike. -/
theorem answer_eq_iff {m : Method} {data data' : Bytes} :
    answer server json conn url m data = answer server json conn url m data' ↔
      ∀ urlHandler, (server.handlers m).lookup url = some urlHandler →
        readBody json conn.contentType data = readBody json conn.contentType data' := by
  constructor
  · intro h urlHandler hh
    have hq := congrArg (fun a => a.1.map HTTPQuery.data) h
    simp only [data_answer hh] at hq
    simpa using congrArg List.head? hq
  · intro h
    cases hh : (server.handlers m).lookup url with
    | none => simp only [answer, handleOnce, handleQuery, hh]
    | some urlHandler => simp only [answer, handleOnce, handleQuery, h urlHandler hh]

theorem headD_inOneChunk (body : Bytes) : (inOneChunk body).headD [] = body := by
  unfold inOneChunk
  split
  · rename_i h
    rw [h]
    rfl
  · rfl

theorem ne_nil_of_mem_inOneChunk {body c : Bytes} (h : c ∈ inOneChunk body) : c ≠ [] := by
  unfold inOneChunk at h
  split at h
  · exact absurd h List.not_mem_nil
  · rename_i hne
    obtain rfl := List.mem_singleton.mp h
    exact hne

end Request

/-- **When cutting a body into chunks changes nothing.** For every cut into non-empty chunks, the
queries given to handlers and the response are those of the body in one chunk iff the method or
the URL has no handler, or the first chunk alone is read as the whole body is. -/
theorem serve_chunks_iff (server : Server) (json : JsonLib) (conn : MHDConnection)
    (url method : Bytes) (chunks : List Bytes) (h : ∀ c ∈ chunks, c ≠ []) :
    serve server json conn url method chunks =
        serve server json conn url method (inOneChunk chunks.flatten) ↔
      ∀ m urlHandler, methodOf method = some m →
        (server.handlers m).lookup url = some urlHandler →
        readBody json conn.contentType (chunks.headD []) =
          readBody json conn.contentType chunks.flatten := by
  cases hm : methodOf method with
  | none => simp [serve_unknown hm]
  | some m =>
    rw [serve_eq hm h, serve_eq hm fun c hc => ne_nil_of_mem_inOneChunk hc, headD_inOneChunk,
      answer_eq_iff]
    constructor
    · rintro hall m' urlHandler hm' hh
      obtain rfl := Option.some.inj hm'
      exact hall urlHandler hh
    · intro hall urlHandler hh
      exact hall m urlHandler rfl hh

/-- A server that answers a form posted to `/` by whether it has a parameter `b`. -/
def formServer : Server where
  handlers _ := Finmap.singleton (ascii "/") fun q =>
    match q.data with
    | .form postData =>
      some (.raw (if (postData.lookup (ascii "b")).isSome then ascii "yes" else ascii "no") 200)
    | _ => none

/-- A connection that sends a form. -/
def formConnection : MHDConnection where
  contentType := some (ascii "application/x-www-form-urlencoded")
  headers := [(some (ascii "Content-Type"), some (ascii "application/x-www-form-urlencoded"))]
  getArguments := []

def noJson : JsonLib := ⟨fun _ => [], fun _ root => (false, root)⟩

theorem serve_chunks_form :
    serve formServer noJson formConnection (ascii "/") (ascii "POST")
        [ascii "a=1&a=2", ascii "&a=2"] =
      serve formServer noJson formConnection (ascii "/") (ascii "POST")
        (inOneChunk [ascii "a=1&a=2", ascii "&a=2"].flatten) := by
  have e : parsePostData (ascii "a=1&a=2") ∅ = parsePostData (ascii "a=1&a=2&a=2") ∅ := by decide
  exact (serve_chunks_iff _ _ _ _ _ _ (by decide)).mpr fun _ _ _ _ =>
    congrArg (Option.map QueryData.form) e

/-- The form `a=1&b=2`, cut before the second parameter, is handled as `a=1`. -/
theorem serve_chunks_form_cut : (∀ c ∈ [ascii "a=1", ascii "&b=2"], c ≠ []) ∧
    serve formServer noJson formConnection (ascii "/") (ascii "POST")
        [ascii "a=1", ascii "&b=2"] ≠
      serve formServer noJson formConnection (ascii "/") (ascii "POST")
        (inOneChunk [ascii "a=1", ascii "&b=2"].flatten) := by
  refine ⟨by decide, fun h => ?_⟩
  exact absurd (congrArg Prod.snd h) (by decide)

end WinterWind.Http
