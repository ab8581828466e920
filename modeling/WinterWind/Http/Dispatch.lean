import WinterWind.Http.FormData

/-!
# What a request is answered (`Server::request_handler` over `Server::handle_query`)

`Dispatches` says which handler call and which response a request with one of the seven methods is
to lead to, when its body arrives in at most one chunk. The query is described by what
libmicrohttpd knows of the request (`IsQueryOf`) and by what its content type makes of the body
(`Reads`), not by the functions that fill it. A form is read by one of two grammars: the one that
forms have (`ReadsForm`), or all that the parser takes for one (`ReadsLooseForm`).

Both functions write the session. When a handler returns null, `handle_query` stores `{}` for a
json request, and `request_handler` overwrites it with `BAD_REQUEST`.

Results:
* `readBody_iff`: what `handle_query` makes of a body.
* `answer_handled`, `answer_refused`: the two outcomes of a request.
* **`dispatches_iff`**: the intended response is queued unless a handler returns null for a json
  request, or a form is accepted that is none.
-/

namespace WinterWind.Http

/-! ## The intended response -/

/-- The value libmicrohttpd delivers last for `key`; pairs with a null pointer do not count. -/
def lastValue (pairs : List (Option Bytes × Option Bytes)) (key : Bytes) : Option Bytes :=
  (((pairs.filterMap fun p => p.1.bind fun k => p.2.map fun v => (k, v)).filter
    fun a => a.1 = key).map Prod.snd).getLast?

/-- An acceptable body, and the kind and the data of the query that its content type makes of it.
A body that is neither a form nor json is not read. -/
inductive Reads (readsForm : Bytes → UnorderedMap Bytes Bytes → Prop) (json : JsonLib)
    (body : Bytes) : Option Bytes → QueryData → Prop where
  | unread {contentType : Option Bytes}
    (hform : contentType ≠ some (ascii "application/x-www-form-urlencoded"))
    (hjson : contentType ≠ some (ascii "application/json")) :
    Reads readsForm json body contentType .none
  | form {postData : UnorderedMap Bytes Bytes} (h : readsForm body postData) :
    Reads readsForm json body (some (ascii "application/x-www-form-urlencoded")) (.form postData)
  | json {jsonQuery : Value} (h : json.parse body .null = (true, jsonQuery)) :
    Reads readsForm json body (some (ascii "application/json")) (.json jsonQuery)

/-- The query of a request whose body is read as `data`: its URL, its headers and its GET
arguments. -/
structure IsQueryOf (conn : MHDConnection) (url : Bytes) (data : QueryData) (q : HTTPQuery) :
    Prop where
  url : q.url = url
  headers : ∀ key, q.headers.lookup key = lastValue conn.headers key
  getParams : ∀ key, q.getParams.lookup key = lastValue conn.getArguments key
  data : q.data = data

/-- The status code and the body of a response. -/
def Response.queued (json : JsonLib) : Response → UInt32 × Bytes
  | .raw response httpCode => (httpCode.toUInt32, response)
  | .json jsonResponse httpCode => (httpCode.toUInt32, json.write jsonResponse)

/-- What is queued for the result of a handler. -/
def intended (json : JsonLib) (conn : MHDConnection) : Option Response → UInt32 × Bytes
  | some response => response.queued json
  | none =>
    (400, if conn.contentType = some (ascii "application/json") then ascii "\x7b\x7d"
      else badRequest)

section Request

variable (readsForm : Bytes → UnorderedMap Bytes Bytes → Prop) (server : Server) (json : JsonLib)
  (conn : MHDConnection) (url method body : Bytes)

/-- The registered handler gets the query of the request and decides the response; without one, or
with a body that is not acceptable, nothing is called and the request is bad. -/
structure Dispatches (m : Method) : Prop where
  handled : ∀ urlHandler data, (server.handlers m).lookup url = some urlHandler →
    Reads readsForm json body conn.contentType data →
    ∃ q, IsQueryOf conn url data q ∧
      serve server json conn url method (inOneChunk body) =
        ([q], [intended json conn (urlHandler q)])
  refused : (server.handlers m).lookup url = none ∨
      (∀ data, ¬Reads readsForm json body conn.contentType data) →
    serve server json conn url method (inOneChunk body) = ([], [(400, badRequest)])

/-- No handler registered for the method and the URL returns null for the query of an accepted
json body. -/
def NoNullForJson : Prop :=
  ∀ m urlHandler jsonQuery q, methodOf method = some m →
    (server.handlers m).lookup url = some urlHandler →
    conn.contentType = some (ascii "application/json") →
    json.parse body .null = (true, jsonQuery) →
    IsQueryOf conn url (.json jsonQuery) q → urlHandler q ≠ none

/-- A form for which a handler is registered is refused, or has neither a `&` at its end nor a `=`
at the end of a field. -/
def NoLooseForm : Prop :=
  ∀ m urlHandler, methodOf method = some m → (server.handlers m).lookup url = some urlHandler →
    conn.contentType = some (ascii "application/x-www-form-urlencoded") →
    (∃ s ∈ looseFields body, ¬LooseField s) ∨
      body.getLast? ≠ some 38 ∧ ∀ s ∈ body.splitOn 38, s.getLast? ≠ some 61

/-! ## The response -/

variable {readsForm server json conn url method body}

/-- **What `handle_query` makes of a body** is what its content type says, with the grammar of the
parser. -/
theorem readBody_iff {contentType : Option Bytes} {data : QueryData} :
    readBody json contentType body = some data ↔
      Reads ReadsLooseForm json body contentType data := by
  constructor
  · intro h
    unfold readBody at h
    split at h
    · obtain rfl := Option.some.inj h
      exact .unread (by simp) (by simp)
    · split at h
      · rename_i hform
        obtain ⟨postData, hparse, rfl⟩ := Option.map_eq_some_iff.mp h
        rw [hform]
        exact .form (readsLooseForm_iff.mpr hparse)
      · rename_i hform
        split at h
        · rename_i hjson
          split at h
          · rename_i hparse
            obtain rfl := Option.some.inj h
            rw [hjson]
            exact .json (Prod.ext hparse rfl)
          · simp at h
        · rename_i hjson
          obtain rfl := Option.some.inj h
          exact .unread (by simpa using hform) (by simpa using hjson)
  · intro h
    cases h with
    | unread hform hjson =>
      cases contentType with
      | none => rfl
      | some contentType =>
        rw [readBody, if_neg (by simpa using hform), if_neg (by simpa using hjson)]
    | form h =>
      rw [readBody, if_pos rfl, readsLooseForm_iff.mp h]
      rfl
    | json h =>
      have hne : ascii "application/json" ≠ ascii "application/x-www-form-urlencoded" := by decide
      simp only [readBody, if_neg hne, h, if_true]

theorem readBody_eq_none {contentType : Option Bytes} :
    readBody json contentType body = none ↔
      ∀ data, ¬Reads ReadsLooseForm json body contentType data := by
  simp only [← readBody_iff, Option.eq_none_iff_forall_ne_some]

theorem foldl_mhdIter (pairs : List (Option Bytes × Option Bytes)) (m : UnorderedMap Bytes Bytes) :
    pairs.foldl mhdIter m =
      (pairs.filterMap fun p => p.1.bind fun k => p.2.map fun v => (k, v)).foldl
        (fun m a => m.insert a.1 a.2) m := by
  induction pairs generalizing m with
  | nil => rfl
  | cons p pairs ih =>
    obtain ⟨key, value⟩ := p
    rw [List.foldl_cons, ih]
    cases key with
    | none => rfl
    | some key =>
      cases value with
      | none => rfl
      | some value => rfl

theorem lookup_mhdIter (pairs : List (Option Bytes × Option Bytes)) (key : Bytes) :
    (pairs.foldl mhdIter ∅).lookup key = lastValue pairs key := by
  rw [foldl_mhdIter, lookup_foldl_last, Finmap.lookup_empty, Option.or_none, lastValue]

/-- The query that `handle_query` builds. -/
def queryOf (conn : MHDConnection) (url : Bytes) (data : QueryData) : HTTPQuery where
  url := url
  headers := conn.headers.foldl mhdIter ∅
  getParams := conn.getArguments.foldl mhdIter ∅
  data := data

theorem isQueryOf_queryOf {data : QueryData} : IsQueryOf conn url data (queryOf conn url data) :=
  ⟨rfl, lookup_mhdIter _, lookup_mhdIter _, rfl⟩

/-- It is the only one. -/
theorem IsQueryOf.eq {data : QueryData} {q : HTTPQuery} (h : IsQueryOf conn url data q) :
    q = queryOf conn url data := by
  have hheaders : q.headers = conn.headers.foldl mhdIter ∅ :=
    Finmap.ext_lookup fun key => (h.headers key).trans (lookup_mhdIter _ key).symm
  have hparams : q.getParams = conn.getArguments.foldl mhdIter ∅ :=
    Finmap.ext_lookup fun key => (h.getParams key).trans (lookup_mhdIter _ key).symm
  obtain ⟨qurl, headers, getParams, qdata⟩ := q
  obtain rfl : qurl = url := h.url
  obtain rfl : headers = _ := hheaders
  obtain rfl : getParams = _ := hparams
  obtain rfl : qdata = data := h.data
  rfl

/-- **The handler is called once**, and what is queued is its response or the bad request. -/
theorem answer_handled {m : Method} {urlHandler : ServerRequestHandler} {data : QueryData}
    (hh : (server.handlers m).lookup url = some urlHandler)
    (hd : readBody json conn.contentType body = some data) :
    answer server json conn url m body =
      ([queryOf conn url data],
        [match urlHandler (queryOf conn url data) with
          | some response => response.queued json
          | none => (400, badRequest)]) := by
  unfold answer handleOnce handleQuery queryOf
  simp only [hh, hd, Bool.false_eq_true, if_false]
  split
  · rename_i h
    split at h
    · simp at h
    · rename_i response hr
      obtain ⟨rfl, -, rfl⟩ := by simpa using h
      rw [hr]
      cases response with
      | raw response httpCode => rfl
      | json jsonResponse httpCode => rfl
  · rename_i h
    split at h
    · rename_i hr
      obtain ⟨rfl, -⟩ := Prod.mk.inj h
      rw [hr]
    · simp at h

theorem answer_refused {m : Method}
    (h : (server.handlers m).lookup url = none ∨ readBody json conn.contentType body = none) :
    answer server json conn url m body = ([], [(400, badRequest)]) := by
  unfold answer handleOnce handleQuery
  cases hh : (server.handlers m).lookup url with
  | none => simp
  | some urlHandler =>
    rw [hh] at h
    simp [h.resolve_left (by simp)]

theorem serve_inOneChunk {m : Method} (hm : methodOf method = some m) :
    serve server json conn url method (inOneChunk body) = answer server json conn url m body := by
  rw [serve_eq hm fun c hc => ne_nil_of_mem_inOneChunk hc, headD_inOneChunk]

/-- A handler that returns null for a json request is not answered as intended. -/
theorem Dispatches.ne_none {m : Method} {urlHandler : ServerRequestHandler} {jsonQuery : Value}
    {q : HTTPQuery} (h : Dispatches readsForm server json conn url method body m)
    (hm : methodOf method = some m) (hh : (server.handlers m).lookup url = some urlHandler)
    (hjson : conn.contentType = some (ascii "application/json"))
    (hparse : json.parse body .null = (true, jsonQuery))
    (hq : IsQueryOf conn url (.json jsonQuery) q) : urlHandler q ≠ none := by
  intro hnull
  obtain ⟨q', hq', hserve⟩ := h.handled urlHandler (.json jsonQuery) hh (hjson ▸ .json hparse)
  have hread : readBody json conn.contentType body = some (.json jsonQuery) :=
    readBody_iff.mpr (hjson ▸ .json hparse)
  have heq : q' = q := hq'.eq.trans hq.eq.symm
  rw [serve_inOneChunk hm, answer_handled hh hread, ← hq.eq, heq, hnull] at hserve
  simp only [intended, hjson, if_true, Prod.mk.injEq, List.cons.injEq, and_true, true_and]
    at hserve
  exact absurd hserve (by decide)

/-- A body that is read is not answered as a refused one. -/
theorem Dispatches.exists_reads {m : Method} {urlHandler : ServerRequestHandler} {data : QueryData}
    (h : Dispatches readsForm server json conn url method body m)
    (hm : methodOf method = some m) (hh : (server.handlers m).lookup url = some urlHandler)
    (hread : readBody json conn.contentType body = some data) :
    ∃ data, Reads readsForm json body conn.contentType data := by
  by_contra hnone
  have hserve := h.refused (Or.inr (not_exists.mp hnone))
  rw [serve_inOneChunk hm, answer_handled hh hread] at hserve
  exact absurd (congrArg Prod.fst hserve) (List.cons_ne_nil _ _)

/-- With the grammar of the parser, only a null result goes wrong. -/
theorem dispatches_of_noNullForJson {m : Method} (hm : methodOf method = some m)
    (h : NoNullForJson server json conn url method body) :
    Dispatches ReadsLooseForm server json conn url method body m := by
  refine ⟨fun urlHandler data hh hreads => ⟨_, isQueryOf_queryOf, ?_⟩, fun hrefused => ?_⟩
  · rw [serve_inOneChunk hm, answer_handled hh (readBody_iff.mpr hreads)]
    cases hr : urlHandler (queryOf conn url data) with
    | some response => rfl
    | none =>
      have hjson : conn.contentType ≠ some (ascii "application/json") := by
        intro hjson
        cases hjson ▸ hreads with
        | unread _ hne => exact hne rfl
        | json hparse => exact h m urlHandler _ _ hm hh hjson hparse isQueryOf_queryOf hr
      simp only [intended, if_neg hjson]
  · rw [serve_inOneChunk hm, answer_refused (hrefused.imp_right readBody_eq_none.mpr)]

/-- The two grammars agree on a body that is refused by both or has nothing at an end. -/
theorem reads_iff_of_ends {contentType : Option Bytes} {data : QueryData}
    (h : contentType = some (ascii "application/x-www-form-urlencoded") →
      (∃ s ∈ looseFields body, ¬LooseField s) ∨
        body.getLast? ≠ some 38 ∧ ∀ s ∈ body.splitOn 38, s.getLast? ≠ some 61) :
    Reads ReadsForm json body contentType data ↔
      Reads ReadsLooseForm json body contentType data := by
  constructor
  · intro hreads
    cases hreads with
    | unread hform hjson => exact .unread hform hjson
    | form hform => exact .form (readsForm_iff.mp hform).1
    | json hparse => exact .json hparse
  · intro hreads
    cases hreads with
    | unread hform hjson => exact .unread hform hjson
    | form hform =>
      have hsome := (isSome_parsePostData body ∅).mp (by rw [readsLooseForm_iff.mp hform]; rfl)
      refine .form (readsForm_iff.mpr ⟨hform, (h rfl).resolve_left ?_⟩)
      rintro ⟨s, hs, hloose⟩
      exact hloose (hsome s hs)
    | json hparse => exact .json hparse

/-- With the grammar of forms, the parser must not be the looser one. -/
theorem dispatches_of_noLooseForm {m : Method} (hm : methodOf method = some m)
    (hnull : NoNullForJson server json conn url method body)
    (h : NoLooseForm server conn url method body) :
    Dispatches ReadsForm server json conn url method body m := by
  have hloose := dispatches_of_noNullForJson hm hnull
  refine ⟨fun urlHandler data hh hreads => ?_, fun hrefused => ?_⟩
  · exact hloose.handled urlHandler data hh ((reads_iff_of_ends (h m urlHandler hm hh)).mp hreads)
  · cases hh : (server.handlers m).lookup url with
    | none => exact hloose.refused (Or.inl hh)
    | some urlHandler =>
      refine hloose.refused (Or.inr fun data hreads => ?_)
      have hnone := hrefused.resolve_left (by rw [hh]; simp)
      exact hnone data ((reads_iff_of_ends (h m urlHandler hm hh)).mpr hreads)

theorem Dispatches.noLooseForm {m : Method}
    (h : Dispatches ReadsForm server json conn url method body m)
    (hm : methodOf method = some m) : NoLooseForm server conn url method body := by
  intro m' urlHandler hm' hh hform
  obtain rfl := Option.some.inj (hm.symm.trans hm')
  by_cases hloose : ∀ s ∈ looseFields body, LooseField s
  · have hsome := (isSome_parsePostData body ∅).mpr hloose
    obtain ⟨postData, hparse⟩ := Option.isSome_iff_exists.mp hsome
    have hread : readBody json conn.contentType body = some (.form postData) :=
      readBody_iff.mpr (hform ▸ .form (readsLooseForm_iff.mpr hparse))
    obtain ⟨data, hreads⟩ := h.exists_reads hm hh hread
    cases hform ▸ hreads with
    | unread hne _ => exact absurd rfl hne
    | form hread => exact Or.inr (readsForm_iff.mp hread).2
  · push Not at hloose
    exact Or.inl hloose

end Request

/-- **When the intended response is queued**: no handler that is registered for the method and the
URL returns null for this request, or the request is not a json one; and where a form is what the
grammar says, not what the parser takes, it is none of the bodies on which the two differ. -/
theorem dispatches_iff (server : Server) (json : JsonLib) (conn : MHDConnection)
    (url method body : Bytes) :
    ((∀ m, methodOf method = some m →
        Dispatches ReadsLooseForm server json conn url method body m) ↔
      NoNullForJson server json conn url method body) ∧
    ((∀ m, methodOf method = some m → Dispatches ReadsForm server json conn url method body m) ↔
      NoNullForJson server json conn url method body ∧
        NoLooseForm server conn url method body) := by
  refine ⟨⟨fun h m urlHandler jsonQuery q hm => ?_, fun h m hm => ?_⟩,
    ⟨fun h => ⟨fun m urlHandler jsonQuery q hm => ?_, fun m urlHandler hm => ?_⟩, fun h m hm => ?_⟩⟩
  · exact (h m hm).ne_none hm
  · exact dispatches_of_noNullForJson hm h
  · exact (h m hm).ne_none hm
  · exact (h m hm).noLooseForm hm m urlHandler hm
  · exact dispatches_of_noLooseForm hm h.1 h.2

/-- A server whose only handler returns null. -/
def nullServer : Server where
  handlers _ := Finmap.singleton (ascii "/") fun _ => none

/-- A connection that sends a json text. -/
def jsonConnection : MHDConnection where
  contentType := some (ascii "application/json")
  headers := [(some (ascii "Content-Type"), some (ascii "application/json"))]
  getArguments := []

/-- A json library that reads an empty object from every text. -/
def objectJson : JsonLib := ⟨fun _ => ascii "\x7b\x7d", fun _ _ => (true, .object [])⟩

/-- An empty object posted to a handler that returns null, whatever a form is. -/
theorem not_dispatches_null :
    (¬∀ m, methodOf (ascii "POST") = some m → Dispatches ReadsLooseForm nullServer objectJson
      jsonConnection (ascii "/") (ascii "POST") (ascii "\x7b\x7d") m) ∧
    ¬∀ m, methodOf (ascii "POST") = some m → Dispatches ReadsForm nullServer objectJson
      jsonConnection (ascii "/") (ascii "POST") (ascii "\x7b\x7d") m := by
  refine ⟨fun h => ?_, fun h => ?_⟩
  · exact (h .post rfl).ne_none rfl Finmap.lookup_singleton_eq rfl rfl isQueryOf_queryOf rfl
  · exact (h .post rfl).ne_none rfl Finmap.lookup_singleton_eq rfl rfl isQueryOf_queryOf rfl

end WinterWind.Http
