import WinterWind.Http.Transfers

/-!
# The GitLab client (`src/extras/gitlabapiclient.cpp`)

The operations on issues and merge requests that look their object up before they change it.

* Every operation stages the token, and nothing else, before its request, so no parameter is ever
  left staged; `GitlabAPIClient` carries that.
* `GitlabRetCod` is an enumeration with `GITLAB_RC_OK = 0`. Where the source negates a code, the
  model asks whether its value is 0.
* `get_issues` and `get_merge_requests` ignore what `_get_json` returns and look at the HTTP code.
* A call ends with a code or throws; what it has sent by then stays sent.

Results:
* `Operation.mutations_failed`: after a failed lookup, the close and delete operations send their
  request to a URL without an id.
* **`followsLookup_iff`**: an operation follows its lookup only where the lookup decides nothing.
-/

namespace WinterWind.Extras

open Http

/-- `GitlabRetCod`, in the order of the source. -/
inductive GitlabRetCod where
  | ok
  | invalidParams
  | invalidResponse
  | serviceUnavailable
  | notFound
  deriving Repr, DecidableEq

/-- The value of the enumerator. -/
def GitlabRetCod.value : GitlabRetCod → Nat
  | ok => 0
  | invalidParams => 1
  | invalidResponse => 2
  | serviceUnavailable => 3
  | notFound => 4

theorem GitlabRetCod.value_eq_zero {rc : GitlabRetCod} : rc.value = 0 ↔ rc = .ok := by
  cases rc <;> simp [value]

/-- `GitlabIssue`. -/
structure GitlabIssue where
  title : Bytes
  description : Bytes := []
  confidential : Bool := false
  dueDate : Bytes := []
  labels : List Bytes := []

/-- `GitlabAPIClient`, with no parameter staged. -/
structure GitlabAPIClient where
  serverUri : Bytes
  apiToken : Bytes
  transfers : Transfers
  uriParams_eq : transfers.client.uriParams = ∅
  formParams_eq : transfers.client.formParams = ∅

/-- `api_v3_endpoint` -/
def apiV3Endpoint : Bytes := ascii "/api/v3"

namespace GitlabAPIClient

variable (net : Net) (json : JsonLib) (realText : Option Rat → Bytes)

/-- `m_http_code` -/
def httpCode (g : GitlabAPIClient) : Int := g.transfers.client.httpCode

/-- `add_http_header("PRIVATE-TOKEN", m_api_token)` -/
def addToken (g : GitlabAPIClient) : GitlabAPIClient where
  serverUri := g.serverUri
  apiToken := g.apiToken
  transfers := g.transfers.addHttpHeader (ascii "PRIVATE-TOKEN") g.apiToken
  uriParams_eq := g.uriParams_eq
  formParams_eq := g.formParams_eq

/-- `request(query, res)` with an empty `res`. -/
def request (g : GitlabAPIClient) (query : Query) : GitlabAPIClient where
  serverUri := g.serverUri
  apiToken := g.apiToken
  transfers := (g.transfers.request net query []).1
  uriParams_eq := rfl
  formParams_eq := rfl

/-- `_get_json(query, tmp_result)` with a `null` `tmp_result`, which is returned. -/
def getJson (g : GitlabAPIClient) (query : Query) : GitlabAPIClient × Value :=
  let r := g.transfers.getJson net json query .null
  ({ serverUri := g.serverUri
     apiToken := g.apiToken
     transfers := r.1
     uriParams_eq := rfl
     formParams_eq := rfl }, r.2.2)

/-- The URL of a project. -/
def projectUrl (g : GitlabAPIClient) (projectId : UInt32) : Bytes :=
  g.serverUri ++ apiV3Endpoint ++ ascii "/projects/" ++ ascii (toString projectId.toNat)

/-- `GITLAB_RC_HTTP_CODE(INVALID_RESPONSE)` -/
def invalidResponseCode (g : GitlabAPIClient) : GitlabRetCod :=
  if g.httpCode = 503 then .serviceUnavailable else .invalidResponse

/-- The query for the objects of a project. -/
def listQuery (endpoint : Bytes) (g : GitlabAPIClient) (projectId : UInt32) (filter : Bytes) :
    Query where
  url := g.projectUrl projectId ++ endpoint ++
    if filter.isEmpty then [] else ascii "?" ++ filter

/-- `get_issues` and `get_merge_requests`, at their endpoints: the code, and `result` after the
call. -/
def getList (endpoint : Bytes) (g : GitlabAPIClient) (projectId : UInt32) (filter : Bytes)
    (result : Value) : GitlabAPIClient × GitlabRetCod × Value :=
  let r := g.addToken.getJson net json (listQuery endpoint g projectId filter)
  if r.1.httpCode ≠ 200 ∨ r.2.empty then (r.1, r.1.invalidResponseCode, result)
  else (r.1, .ok, r.2)

def getIssues : GitlabAPIClient → UInt32 → Bytes → Value → GitlabAPIClient × GitlabRetCod × Value :=
  getList net json (ascii "/issues")

def getMergeRequests :
    GitlabAPIClient → UInt32 → Bytes → Value → GitlabAPIClient × GitlabRetCod × Value :=
  getList net json (ascii "/merge_requests")

/-- How a lookup ends: the client, the code or what is thrown, and `result` after it. -/
structure Lookup where
  client : GitlabAPIClient
  code : Except Fault GitlabRetCod
  result : Value

/-- The filter `"iid=" + std::to_string(issue_id)`. -/
def iidFilter (issueId : UInt32) : Bytes := ascii "iid=" ++ ascii (toString issueId.toNat)

/-- `get_issue(project_id, issue_id, result)` with a `null` `result`. -/
def getIssue (g : GitlabAPIClient) (projectId issueId : UInt32) : Lookup :=
  let r := g.getIssues net json projectId (iidFilter issueId) .null
  if r.2.1 = .ok then
    match r.2.2.element 0 with
    | .error f => ⟨r.1, .error f, .null⟩
    | .ok first =>
      match first.isMember (ascii "id") with
      | .error f => ⟨r.1, .error f, first⟩
      | .ok true => ⟨r.1, .ok .ok, first⟩
      | .ok false => ⟨r.1, .ok .invalidResponse, first⟩
  else ⟨r.1, .ok .notFound, .null⟩

/-- `get_merge_request(project_id, issue_id, result)` with a `null` `result`. -/
def getMergeRequest (g : GitlabAPIClient) (projectId issueId : UInt32) : Lookup :=
  let r := g.getMergeRequests net json projectId (iidFilter issueId) .null
  if r.2.1 = .ok then
    match r.2.2.element 0 with
    | .error f => ⟨r.1, .error f, .null⟩
    | .ok first => ⟨r.1, .ok .ok, first⟩
  else ⟨r.1, .ok .notFound, .null⟩

/-! ## The operations -/

/-- `v["id"].asString()` -/
def idText (v : Value) : Except Fault Bytes := do
  (← v.member (ascii "id")).asString realText

/-- `build_issue_data(issue, post_data)`, appended to an empty `post_data`. -/
def buildIssueData (issue : GitlabIssue) : Bytes :=
  ascii "title=" ++ httpStringEscape issue.title ++
    (if issue.confidential then ascii "&confidential=true" else []) ++
    (if issue.description.isEmpty then []
      else ascii "&description=" ++ httpStringEscape issue.description) ++
    (if issue.dueDate.isEmpty then [] else ascii "&due_date=" ++ httpStringEscape issue.dueDate) ++
    (if issue.labels.isEmpty then []
      else
        ascii "&labels=" ++
          issue.labels.foldl (fun encoded l =>
            (if encoded.isEmpty then encoded else encoded ++ ascii ",") ++ httpStringEscape l) [])

/-- What the operations do with their lookup: the code, or what is thrown. `text` is the end of the
URL, and `success` the HTTP code of a success. -/
def act (lookup : Lookup) (text : Value → Except Fault Bytes) (query : Bytes → Query)
    (success : Int) : GitlabAPIClient × Except Fault GitlabRetCod :=
  match lookup.code with
  | .error f => (lookup.client, .error f)
  | .ok rc =>
    -- `if (!get_issue(...))`
    if rc.value = 0 then (lookup.client, .ok .notFound)
    else
      match text lookup.result with
      | .error f => (lookup.client.addToken, .error f)
      | .ok id =>
        let g := lookup.client.addToken.request net (query id)
        (g, .ok (if g.httpCode = success then .ok else .invalidResponse))

def modifyIssue (g : GitlabAPIClient) (projectId issueId : UInt32) (issue : GitlabIssue) :
    GitlabAPIClient × Except Fault GitlabRetCod :=
  if issue.title.isEmpty then (g, .ok .invalidParams)
  else
    -- the URL ends in `issue_res.asString()`
    act net (g.getIssue net json projectId issueId) (Value.asString realText)
      (fun id =>
        { url := g.projectUrl projectId ++ ascii "/issues/" ++ id
          method := .put
          postData := buildIssueData issue })
      201

def closeIssue (g : GitlabAPIClient) (projectId issueId : UInt32) :
    GitlabAPIClient × Except Fault GitlabRetCod :=
  act net (g.getIssue net json projectId issueId) (idText realText)
    (fun id =>
      { url := g.projectUrl projectId ++ ascii "/issues/" ++ id
        method := .put
        postData := ascii "state_event=close" })
    200

def deleteIssue (g : GitlabAPIClient) (projectId issueId : UInt32) :
    GitlabAPIClient × Except Fault GitlabRetCod :=
  act net (g.getIssue net json projectId issueId) (idText realText)
    (fun id =>
      { url := g.projectUrl projectId ++ ascii "/issues/" ++ id
        method := .delete })
    200

def closeMergeRequest (g : GitlabAPIClient) (projectId issueId : UInt32) :
    GitlabAPIClient × Except Fault GitlabRetCod :=
  act net (g.getMergeRequest net json projectId issueId) (idText realText)
    (fun id =>
      { url := g.projectUrl projectId ++ ascii "/merge_requests/" ++ id
        method := .put
        postData := ascii "state_event=close" })
    200

def deleteMergeRequest (g : GitlabAPIClient) (projectId issueId : UInt32) :
    GitlabAPIClient × Except Fault GitlabRetCod :=
  act net (g.getMergeRequest net json projectId issueId) (idText realText)
    (fun id =>
      { url := g.projectUrl projectId ++ ascii "/merge_requests/" ++ id
        method := .delete })
    200

/-- The operations that look their object up. -/
inductive Operation where
  | closeIssue
  | deleteIssue
  | modifyIssue (issue : GitlabIssue)
  | closeMergeRequest
  | deleteMergeRequest

namespace Operation

def perform (g : GitlabAPIClient) (projectId issueId : UInt32) :
    Operation → GitlabAPIClient × Except Fault GitlabRetCod
  | closeIssue => g.closeIssue net json realText projectId issueId
  | deleteIssue => g.deleteIssue net json realText projectId issueId
  | modifyIssue issue => g.modifyIssue net json realText projectId issueId issue
  | closeMergeRequest => g.closeMergeRequest net json realText projectId issueId
  | deleteMergeRequest => g.deleteMergeRequest net json realText projectId issueId

/-- The lookup an operation makes: none if the new title is empty. -/
def lookup (g : GitlabAPIClient) (projectId issueId : UInt32) : Operation → Option Lookup
  | closeIssue | deleteIssue => some (g.getIssue net json projectId issueId)
  | modifyIssue issue =>
    if issue.title.isEmpty then none else some (g.getIssue net json projectId issueId)
  | closeMergeRequest | deleteMergeRequest => some (g.getMergeRequest net json projectId issueId)

end Operation

/-! ## What is sent -/

/-- A request that changes something: one with a method of its own, or with a body. -/
def mutating (r : SentRequest) : Bool := r.customRequest.isSome || r.postFields.isSome

/-- The mutating requests sent between two states of a client. -/
def mutations (before after : GitlabAPIClient) : List SentRequest :=
  (after.transfers.sent.drop before.transfers.sent.length).filter mutating

/-- The text of the id of an object that has one. -/
def idOf : Value → Option Bytes
  | .object ms => (findMember (ascii "id") ms).bind fun v => (v.asString realText).toOption
  | _ => none

/-- What the lookup obliges its operation to do. -/
structure FollowsLookup (g : GitlabAPIClient) (lookup : Lookup)
    (r : GitlabAPIClient × Except Fault GitlabRetCod) : Prop where
  found : ∀ k, lookup.code = .ok .ok → idOf realText lookup.result = some k →
    ∃ sent, mutations g r.1 = [sent] ∧ k <:+ sent.url
  failed : ∀ rc, lookup.code = .ok rc → rc ≠ .ok → mutations g r.1 = [] ∧ r.2 = .ok .notFound

/-- The outcomes of a lookup that tell an operation what to do: an object with an id, or a
failure. -/
def Decides (lookup : Lookup) : Prop :=
  (∃ k, lookup.code = .ok .ok ∧ idOf realText lookup.result = some k) ∨
    ∃ rc, lookup.code = .ok rc ∧ rc ≠ .ok

variable {net json realText}

theorem mutating_next {t : Transfers} (hform : t.client.formParams = ∅) (query : Query) :
    mutating (t.next net query) =
      ((HTTPClient.customRequest query.method).isSome || !query.postData.isEmpty) := by
  rw [mutating, Transfers.postFields_next hform]
  cases query.postData.isEmpty <;> rfl

theorem url_next {t : Transfers} (huri : t.client.uriParams = ∅) (query : Query) :
    (t.next net query).url = cStr query.url := Transfers.url_next huri query

theorem sent_request (g : GitlabAPIClient) (query : Query) :
    (g.request net query).transfers.sent = g.transfers.sent ++ [g.transfers.next net query] := rfl

/-- `get_issues` and `get_merge_requests` send one request, which changes nothing. -/
theorem sent_getList (endpoint : Bytes) (g : GitlabAPIClient) (projectId : UInt32) (filter : Bytes)
    (result : Value) :
    ∃ sent, (getList net json endpoint g projectId filter result).1.transfers.sent =
      g.transfers.sent ++ [sent] ∧ mutating sent = false := by
  refine ⟨g.addToken.transfers.prepareJsonQuery.next net (listQuery endpoint g projectId filter),
    ?_, ?_⟩
  · unfold getList
    dsimp only
    split <;> rfl
  · exact mutating_next (t := g.addToken.transfers.prepareJsonQuery) g.formParams_eq _

theorem sent_getIssue (g : GitlabAPIClient) (projectId issueId : UInt32) :
    ∃ sent, (g.getIssue net json projectId issueId).client.transfers.sent =
      g.transfers.sent ++ [sent] ∧ mutating sent = false := by
  obtain ⟨sent, hsent, hmut⟩ :=
    @sent_getList net json (ascii "/issues") g projectId (iidFilter issueId) .null
  refine ⟨sent, ?_, hmut⟩
  rw [← hsent]
  unfold getIssue
  dsimp only
  split
  · split
    · rfl
    · split <;> rfl
  · rfl

theorem sent_getMergeRequest (g : GitlabAPIClient) (projectId issueId : UInt32) :
    ∃ sent, (g.getMergeRequest net json projectId issueId).client.transfers.sent =
      g.transfers.sent ++ [sent] ∧ mutating sent = false := by
  obtain ⟨sent, hsent, hmut⟩ :=
    @sent_getList net json (ascii "/merge_requests") g projectId (iidFilter issueId) .null
  refine ⟨sent, ?_, hmut⟩
  rw [← hsent]
  unfold getMergeRequest
  dsimp only
  split
  · split <;> rfl
  · rfl

/-- Every lookup sends one request, which changes nothing. -/
theorem Operation.sent_lookup {op : Operation} {g : GitlabAPIClient} {projectId issueId : UInt32}
    {lookup : Lookup} (h : op.lookup net json g projectId issueId = some lookup) :
    ∃ sent, lookup.client.transfers.sent = g.transfers.sent ++ [sent] ∧ mutating sent = false := by
  cases op with
  | closeIssue | deleteIssue =>
    obtain rfl := Option.some.inj h
    exact sent_getIssue g projectId issueId
  | modifyIssue issue =>
    simp only [Operation.lookup] at h
    split at h
    · cases h
    · obtain rfl := Option.some.inj h
      exact sent_getIssue g projectId issueId
  | closeMergeRequest | deleteMergeRequest =>
    obtain rfl := Option.some.inj h
    exact sent_getMergeRequest g projectId issueId

/-! ## The branch taken -/

section Act

variable {lookup : Lookup} {text : Value → Except Fault Bytes} {query : Bytes → Query}
  {success : Int}

/-- A lookup that succeeds is taken for one that fails, and nothing more is sent. -/
theorem act_found (h : lookup.code = .ok .ok) :
    act net lookup text query success = (lookup.client, .ok .notFound) := by
  simp only [act, h, GitlabRetCod.value, if_true]

/-- After a lookup that fails, the operation goes on to the change. -/
theorem act_failed {rc : GitlabRetCod} (h : lookup.code = .ok rc) (hrc : rc ≠ .ok) :
    (act net lookup text query success).2 ≠ .ok .notFound := by
  have hvalue : ¬ rc.value = 0 := fun e => hrc (GitlabRetCod.value_eq_zero.mp e)
  simp only [act, h, if_neg hvalue]
  split
  · nofun
  · dsimp only
    split <;> nofun

/-- **The change without an id.** After a lookup that fails, the request is sent with whatever
text the untouched result has. -/
theorem sent_act_failed {rc : GitlabRetCod} {id : Bytes} (h : lookup.code = .ok rc)
    (hrc : rc ≠ .ok) (hid : text lookup.result = .ok id) :
    ∃ sent, (act net lookup text query success).1.transfers.sent =
        lookup.client.transfers.sent ++ [sent] ∧
      sent.url = cStr (query id).url ∧
      mutating sent =
        ((HTTPClient.customRequest (query id).method).isSome || !(query id).postData.isEmpty) := by
  have hvalue : ¬ rc.value = 0 := fun e => hrc (GitlabRetCod.value_eq_zero.mp e)
  refine ⟨lookup.client.addToken.transfers.next net (query id), ?_,
    url_next (t := lookup.client.addToken.transfers) lookup.client.uriParams_eq _, ?_⟩
  · simp only [act, h, if_neg hvalue, hid]
    rfl
  · exact mutating_next (t := lookup.client.addToken.transfers) lookup.client.formParams_eq _

end Act

/-- A lookup that fails leaves no id behind. -/
theorem idText_getIssue {g : GitlabAPIClient} {projectId issueId : UInt32} {rc : GitlabRetCod}
    (h : (g.getIssue net json projectId issueId).code = .ok rc) (hrc : rc ≠ .ok) :
    idText realText (g.getIssue net json projectId issueId).result = .ok [] := by
  unfold getIssue at h ⊢
  dsimp only at h ⊢
  split at h
  · rename_i hlist
    rw [if_pos hlist]
    split at h
    · cases h
    · split at h
      · cases h
      · exact absurd (Except.ok.inj h).symm hrc
      · rename_i hmember
        obtain ⟨ms, hms, hfind⟩ := bind_eq_ok.mp hmember
        have hnone : findMember (ascii "id") ms = none :=
          Option.isNone_iff_eq_none.mp (Option.isSome_eq_false_iff.mp (Except.ok.inj hfind))
        simp only [idText, Value.member, hms, bind, Except.bind, pure, Except.pure, hnone]
        rfl
  · rename_i hlist
    rw [if_neg hlist]
    rfl

theorem idText_getMergeRequest {g : GitlabAPIClient} {projectId issueId : UInt32}
    {rc : GitlabRetCod} (h : (g.getMergeRequest net json projectId issueId).code = .ok rc)
    (hrc : rc ≠ .ok) :
    idText realText (g.getMergeRequest net json projectId issueId).result = .ok [] := by
  unfold getMergeRequest at h ⊢
  dsimp only at h ⊢
  split at h
  · split at h
    · cases h
    · exact absurd (Except.ok.inj h).symm hrc
  · rename_i hlist
    rw [if_neg hlist]
    rfl

variable (realText) in
/-- What an operation does is decided by its lookup, if it makes one; the URL of its change is that
of the issues, or the merge requests, and a text of the result. -/
theorem Operation.perform_eq {op : Operation} {g : GitlabAPIClient} {projectId issueId : UInt32}
    {lookup : Lookup} (h : op.lookup net json g projectId issueId = some lookup) :
    ∃ text query success endpoint,
      op.perform net json realText g projectId issueId = act net lookup text query success ∧
      ((∀ issue, op ≠ .modifyIssue issue) → text = idText realText) ∧
      (endpoint = ascii "/issues/" ∨ endpoint = ascii "/merge_requests/") ∧
      ∀ id, (HTTPClient.customRequest (query id).method).isSome = true ∧
        (query id).url = g.projectUrl projectId ++ endpoint ++ id := by
  cases op with
  | closeIssue | deleteIssue =>
    obtain rfl := Option.some.inj h
    exact ⟨_, _, _, _, rfl, fun _ => rfl, .inl rfl, fun id => ⟨rfl, rfl⟩⟩
  | closeMergeRequest | deleteMergeRequest =>
    obtain rfl := Option.some.inj h
    exact ⟨_, _, _, _, rfl, fun _ => rfl, .inr rfl, fun id => ⟨rfl, rfl⟩⟩
  | modifyIssue issue =>
    simp only [Operation.lookup] at h
    split at h
    · cases h
    · rename_i htitle
      obtain rfl := Option.some.inj h
      simp only [Operation.perform, GitlabAPIClient.modifyIssue, if_neg htitle]
      exact ⟨_, _, _, _, rfl, fun hop => absurd rfl (hop issue), .inl rfl, fun id => ⟨rfl, rfl⟩⟩

/-- A lookup that fails leaves no id behind. -/
theorem Operation.idText_lookup {op : Operation} {g : GitlabAPIClient} {projectId issueId : UInt32}
    {lookup : Lookup} {rc : GitlabRetCod}
    (h : op.lookup net json g projectId issueId = some lookup) (hcode : lookup.code = .ok rc)
    (hrc : rc ≠ .ok) : idText realText lookup.result = .ok [] := by
  cases op with
  | closeIssue | deleteIssue =>
    obtain rfl := Option.some.inj h
    exact idText_getIssue hcode hrc
  | modifyIssue issue =>
    simp only [Operation.lookup] at h
    split at h
    · cases h
    · obtain rfl := Option.some.inj h
      exact idText_getIssue hcode hrc
  | closeMergeRequest | deleteMergeRequest =>
    obtain rfl := Option.some.inj h
    exact idText_getMergeRequest hcode hrc

/-- **The change after a failed lookup.** The close and delete operations then send their request
to the URL of the project's issues, or merge requests, without an id. -/
theorem Operation.mutations_failed {op : Operation} {g : GitlabAPIClient}
    {projectId issueId : UInt32} {lookup : Lookup} {rc : GitlabRetCod}
    (hop : ∀ issue, op ≠ .modifyIssue issue)
    (h : op.lookup net json g projectId issueId = some lookup) (hcode : lookup.code = .ok rc)
    (hrc : rc ≠ .ok) :
    ∃ sent, mutations g (op.perform net json realText g projectId issueId).1 = [sent] ∧
      (sent.url = cStr (g.projectUrl projectId ++ ascii "/issues/") ∨
        sent.url = cStr (g.projectUrl projectId ++ ascii "/merge_requests/")) := by
  obtain ⟨first, hfirst, hmut⟩ := Operation.sent_lookup h
  obtain ⟨text, query, success, endpoint, hperform, htext, hendpoint, hquery⟩ :=
    Operation.perform_eq realText h
  obtain ⟨sent, hsent, hurl, hsends⟩ :=
    @sent_act_failed net lookup text query success rc [] hcode hrc
      (htext hop ▸ Operation.idText_lookup h hcode hrc)
  refine ⟨sent, ?_, ?_⟩
  · rw [(hquery []).1, Bool.true_or] at hsends
    rw [hperform, mutations, hsent, hfirst, List.append_assoc, List.drop_left]
    simp [hmut, hsends]
  · rw [hurl, (hquery []).2, List.append_nil]
    rcases hendpoint with rfl | rfl
    · exact .inl rfl
    · exact .inr rfl

/-- An operation does not follow a lookup that decides. -/
theorem not_decides_of_follows {op : Operation} {g : GitlabAPIClient} {projectId issueId : UInt32}
    {lookup : Lookup} (h : op.lookup net json g projectId issueId = some lookup)
    (hfollows : FollowsLookup realText g lookup
      (op.perform net json realText g projectId issueId)) : ¬ Decides realText lookup := by
  obtain ⟨text, query, success, -, hperform, -⟩ := Operation.perform_eq realText h
  rw [hperform] at hfollows
  rintro (⟨k, hcode, hid⟩ | ⟨rc, hcode, hrc⟩)
  · obtain ⟨sent, hsent, -⟩ := hfollows.found k hcode hid
    obtain ⟨first, hfirst, hmut⟩ := Operation.sent_lookup h
    rw [act_found hcode, mutations, hfirst, List.drop_left] at hsent
    simp [hmut] at hsent
  · exact act_failed hcode hrc (hfollows.failed rc hcode hrc).2

/-- **When an operation follows its lookup**: only where the lookup decides nothing, because none is
made, because it throws, or because what it found has no id. Where it finds an object with an id,
the operation sends nothing and answers `GITLAB_RC_NOT_FOUND`; where it fails, the operation goes
on. -/
theorem followsLookup_iff (net : Net) (json : JsonLib) (realText : Option Rat → Bytes)
    (g : GitlabAPIClient) (projectId issueId : UInt32) (op : Operation) :
    (∀ lookup, op.lookup net json g projectId issueId = some lookup →
        FollowsLookup realText g lookup (op.perform net json realText g projectId issueId)) ↔
      ∀ lookup, op.lookup net json g projectId issueId = some lookup →
        ¬ Decides realText lookup := by
  refine forall₂_congr fun lookup h => ⟨not_decides_of_follows h, fun hnot => ?_⟩
  exact ⟨fun k hcode hid => absurd (.inl ⟨k, hcode, hid⟩) hnot,
    fun rc hcode hrc => absurd (.inr ⟨rc, hcode, hrc⟩) hnot⟩

/-- A client of `https://gitlab.com` that has sent nothing. -/
def gitlabCom : GitlabAPIClient where
  serverUri := ascii "https://gitlab.com"
  apiToken := ascii "token"
  transfers := ⟨{}, []⟩
  uriParams_eq := rfl
  formParams_eq := rfl

/-- The answer to a lookup that finds an issue, whose id is 5. -/
def foundText : Bytes := ascii "[\x7b\"id\":5\x7d]"

/-- What the reader makes of `foundText`. -/
def foundJson : JsonLib where
  write _ := []
  parse text root :=
    if text = foundText then (true, .array [.object [(ascii "id", .int 5)]]) else (false, root)

/-- `delete_issue` refuses to delete an issue that its lookup has found. -/
theorem not_followsLookup_deleteIssue :
    ∃ orders, ¬ ∀ lookup,
      Operation.deleteIssue.lookup ⟨orders, fun _ => ⟨200, foundText⟩⟩ foundJson gitlabCom 7 12 =
          some lookup →
        FollowsLookup (fun _ => []) gitlabCom lookup
          (Operation.deleteIssue.perform ⟨orders, fun _ => ⟨200, foundText⟩⟩ foundJson
            (fun _ => []) gitlabCom 7 12) := by
  refine ⟨fun _ cli => (Orders.nonempty cli).some,
    fun h => not_decides_of_follows rfl (h _ rfl) (.inl ?_)⟩
  exact ⟨ascii "5", rfl, rfl⟩

end GitlabAPIClient

end WinterWind.Extras
