import WinterWind.Extras.GitlabGetters
import WinterWind.Library.Simulation

/-!
# The requests of the GitLab client (`src/extras/gitlabapiclient.cpp`)

The operations that create and delete, and what holds of every request the client sends, whichever
operations are called in whatever order.

* The members of a request object are assigned in the order of the source (`requestObject`).
* `create_tag` posts to the labels of the project. `delete_tag` takes every code but 200 for a
  missing tag. The model keeps both.
* `delete_groups` ends at the first code that is not `GITLAB_RC_OK`, `delete_projects` goes on after
  `GITLAB_RC_NOT_FOUND`.
* `Call` is a call of any operation, `Call.changes` how many requests that change something it may
  send.
* A request is a transfer that the client starts. libcurl makes further ones of the same method and
  headers when an answer redirects it (`SentRequest.followLocation`), and takes dot segments out of
  the path, such as a tag named `..`.

Results:
* `Keeps.request`, `Keeps.getJson`, `Keeps.postJson`: one request with the token staged.
* **`gitlab_requests`**: every request of a run carries the token and has a URL that begins with the
  endpoint, and no call changes more than it is asked to; the getters change nothing.
-/

namespace WinterWind.Extras

open Http Library

/-- `GitlabTag`. -/
structure GitlabTag where
  name : Bytes
  ref : Bytes
  message : Bytes := []
  releaseDescription : Bytes := []

/-- `GitlabGroupVisibility`. -/
inductive GitlabGroupVisibility where
  | groupPrivate
  | groupInternal
  | groupPublic

/-- The value of the enumerator. -/
def GitlabGroupVisibility.value : GitlabGroupVisibility → Nat
  | groupPrivate => 0
  | groupInternal => 10
  | groupPublic => 20

/-- `GitlabProjectVisibility`. -/
inductive GitlabProjectVisibility where
  | projectPrivate
  | projectInternal
  | projectPublic

/-- The value of the enumerator. -/
def GitlabProjectVisibility.value : GitlabProjectVisibility → Nat
  | projectPrivate => 0
  | projectInternal => 10
  | projectPublic => 20

/-- `GitlabGroup`. -/
structure GitlabGroup where
  name : Bytes
  path : Bytes
  description : Bytes := []
  visibility : GitlabGroupVisibility := .groupPrivate
  enableLfs : Bool := false
  accessRequests : Bool := true

/-- `GitlabProject`. -/
structure GitlabProject where
  name : Bytes
  path : Bytes := []
  namespaceId : UInt32 := 0
  description : Bytes := []
  issuesEnabled : Bool := true
  mergeRequestsEnabled : Bool := true
  buildsEnabled : Bool := true
  wikiEnabled : Bool := true
  snippetsEnabled : Bool := true
  containerRegistryEnabled : Bool := false
  sharedRunnersEnabled : Bool := false
  visibilityLevel : GitlabProjectVisibility := .projectPublic
  publicBuilds : Bool := true
  onlyAllowMergeIfBuildSucceeds : Bool := false
  onlyAllowMergeIfAllDiscussionsAreResolved : Bool := false
  lfsEnabled : Bool := false
  requestAccessEnabled : Bool := true

/-- A `Json::Value` to which these members are assigned in turn. -/
def requestObject (fields : List (Bytes × Value)) : Value :=
  .object (fields.foldl (fun ms f => insertMember f.1 f.2 ms) [])

/-- `ADD_REQ_FIELD_IF_NOT_EMPTY(r, n, f)` -/
def fieldIfNotEmpty (n f : Bytes) : List (Bytes × Value) :=
  if f.isEmpty then [] else [(n, .string f)]

namespace GitlabAPIClient

/-! ## Creating and deleting -/

section Operations

variable (net : Net) (json : JsonLib) (realText : Option Rat → Bytes)

/-- A client of its own has nothing staged. -/
theorem uriParams_new : (⟨{}, []⟩ : Transfers).client.uriParams = ∅ := rfl

theorem formParams_new : (⟨{}, []⟩ : Transfers).client.formParams = ∅ := rfl

/-- `GitlabAPIClient(server_uri, api_token)` -/
def construct (serverUri apiToken : Bytes) : GitlabAPIClient where
  serverUri := serverUri
  apiToken := apiToken
  transfers := ⟨{}, []⟩
  uriParams_eq := uriParams_new
  formParams_eq := formParams_new

/-- `_post_json(query, data, res)`, with the value of `res` after it. -/
def postJson (g : GitlabAPIClient) (query : Query) (data res : Value) :
    GitlabAPIClient × Bool × Value :=
  let r := g.transfers.postJson net json query data res
  ({ serverUri := g.serverUri
     apiToken := g.apiToken
     transfers := r.1
     uriParams_eq := rfl
     formParams_eq := rfl }, r.2)

/-- A change whose success is the HTTP code `success`, and its codes. -/
def change (g : GitlabAPIClient) (query : Query) (success : Int) (otherwise : GitlabRetCod) :
    GitlabAPIClient × Except Fault GitlabRetCod :=
  let g := g.addToken.request net query
  (g, .ok (if g.httpCode = success then .ok else otherwise))

/-- `create_issue` -/
def createIssue (g : GitlabAPIClient) (projectId : UInt32) (issue : GitlabIssue) :
    GitlabAPIClient × Except Fault GitlabRetCod :=
  if issue.title.isEmpty then (g, .ok .invalidParams)
  else
    change net g
      { url := g.projectUrl projectId ++ ascii "/issues"
        method := .post
        postData := buildIssueData issue }
      201 .invalidResponse

/-- An object that is posted, as a `Lookup` with the value of `res` after it. -/
def create (g : GitlabAPIClient) (url : Bytes) (request res : Value) : Lookup :=
  let r := g.addToken.postJson net json { url := url, method := .post } request res
  ⟨r.1, .ok (if r.2.1 && r.1.httpCode == 201 then .ok else .invalidResponse), r.2.2⟩

/-- `create_label(project_id, label, color_id, res)` -/
def createLabel (g : GitlabAPIClient) (projectId : UInt32) (label colorId : Bytes) (res : Value) :
    Lookup :=
  create net json g (g.projectUrl projectId ++ ascii "/labels")
    (requestObject [(ascii "name", .string label), (ascii "color", .string colorId)]) res

/-- `create_label(ns, name, label, color_id, res)` -/
def createLabelNs (g : GitlabAPIClient) (ns name label colorId : Bytes) (res : Value) : Lookup :=
  onProject (g.projectOf net json realText name ns .standard) res
    fun g projectId => createLabel net json g projectId label colorId res

/-- `delete_label(project_id, label)` -/
def deleteLabel (g : GitlabAPIClient) (projectId : UInt32) (label : Bytes) :
    GitlabAPIClient × Except Fault GitlabRetCod :=
  if label.isEmpty then (g, .ok .invalidParams)
  else
    change net g
      { url := g.projectUrl projectId ++ ascii "/labels?name=" ++ httpStringEscape label
        method := .delete }
      200 .invalidResponse

/-- `delete_label(ns, name, label)` -/
def deleteLabelNs (g : GitlabAPIClient) (ns name label : Bytes) :
    GitlabAPIClient × Except Fault GitlabRetCod :=
  match g.projectOf net json realText name ns .standard with
  | (g, .error f) => (g, .error f)
  | (g, .ok (.error rc)) => (g, .ok rc)
  | (g, .ok (.ok projectId)) => deleteLabel net g projectId label

/-- `create_tag` -/
def createTag (g : GitlabAPIClient) (projectId : UInt32) (tag : GitlabTag) : Lookup :=
  -- posted to `/labels`
  create net json g (g.projectUrl projectId ++ ascii "/labels")
    (requestObject
      [(ascii "tag_name", .string tag.name), (ascii "ref", .string tag.ref),
        (ascii "message", .string tag.message),
        (ascii "release_description", .string tag.releaseDescription)]) .null

/-- `delete_tag` -/
def deleteTag (g : GitlabAPIClient) (projectId : UInt32) (tagName : Bytes) :
    GitlabAPIClient × Except Fault GitlabRetCod :=
  change net g
    { url := g.projectUrl projectId ++ ascii "/tags/" ++ httpStringEscape tagName
      method := .delete }
    200 .notFound

/-- `create_group`, whose `bool` is the code. -/
def createGroup (g : GitlabAPIClient) (group : GitlabGroup) (res : Value) : Lookup :=
  create net json g (g.serverUri ++ apiV3Endpoint ++ ascii "/groups")
    (requestObject
      ([(ascii "name", .string group.name), (ascii "path", .string group.path)] ++
        fieldIfNotEmpty (ascii "description") group.description ++
        [(ascii "visibility_level", .int (Int64.ofNat group.visibility.value)),
          (ascii "lfs_enabled", .boolean group.enableLfs),
          (ascii "request_access_enabled", .boolean group.accessRequests)])) res

/-- `create_project` -/
def createProject (g : GitlabAPIClient) (project : GitlabProject) (res : Value) : Lookup :=
  if project.name.isEmpty then ⟨g, .ok .invalidParams, res⟩
  else
    create net json g (g.serverUri ++ apiV3Endpoint ++ ascii "/projects")
      (requestObject
        ([(ascii "name", .string project.name),
            (ascii "path",
              .string (if project.path.isEmpty then project.name else project.path))] ++
          fieldIfNotEmpty (ascii "description") project.description ++
          (if project.namespaceId > 0 then
            [(ascii "namespace_id", .uint project.namespaceId.toUInt64)] else []) ++
          [(ascii "issues_enabled", .boolean project.issuesEnabled),
            (ascii "merge_requests_enabled", .boolean project.mergeRequestsEnabled),
            (ascii "builds_enabled", .boolean project.buildsEnabled),
            (ascii "wiki_enabled", .boolean project.wikiEnabled),
            (ascii "snippets_enabled", .boolean project.snippetsEnabled),
            (ascii "container_registry_enabled", .boolean project.containerRegistryEnabled),
            (ascii "shared_runners_enabled", .boolean project.sharedRunnersEnabled),
            (ascii "visibility_level", .uint (UInt64.ofNat project.visibilityLevel.value)),
            (ascii "public_builds", .boolean project.publicBuilds),
            (ascii "only_allow_merge_if_build_succeeds",
              .boolean project.onlyAllowMergeIfBuildSucceeds),
            (ascii "only_allow_merge_if_all_discussions_are_resolved",
              .boolean project.onlyAllowMergeIfAllDiscussionsAreResolved),
            (ascii "lfs_enabled", .boolean project.lfsEnabled),
            (ascii "request_access_enabled", .boolean project.requestAccessEnabled)])) res

/-- The deletion of the object that a search has found, below `endpoint`. -/
def deleteFound (endpoint : Bytes) (found : Lookup) :
    GitlabAPIClient × Except Fault GitlabRetCod :=
  match found.code with
  | .error f => (found.client, .error f)
  | .ok rc =>
    if rc ≠ .ok then (found.client, .ok rc)
    else
      match idText realText found.result with
      -- the token is staged before the URL is put together
      | .error f => (found.client.addToken, .error f)
      | .ok id =>
        change net found.client
          { url := found.client.serverUri ++ apiV3Endpoint ++ endpoint ++ id, method := .delete }
          200 .invalidResponse

/-- `delete_group` -/
def deleteGroup (g : GitlabAPIClient) (name : Bytes) :
    GitlabAPIClient × Except Fault GitlabRetCod :=
  deleteFound net realText (ascii "/groups/") (g.getGroup net json realText name .null)

/-- `delete_project` -/
def deleteProject (g : GitlabAPIClient) (name : Bytes) :
    GitlabAPIClient × Except Fault GitlabRetCod :=
  deleteFound net realText (ascii "/projects/")
    (g.getProject net json realText name .null .standard)

/-- The loops over names: `continues` are the codes after which the next name is taken. -/
def deleteEach (delete : GitlabAPIClient → Bytes → GitlabAPIClient × Except Fault GitlabRetCod)
    (continues : List GitlabRetCod) :
    GitlabAPIClient → List Bytes → GitlabAPIClient × Except Fault GitlabRetCod
  | g, [] => (g, .ok .ok)
  | g, name :: names =>
    match delete g name with
    | (g, .error f) => (g, .error f)
    | (g, .ok rc) => if rc ∈ continues then deleteEach delete continues g names else (g, .ok rc)

/-- `delete_groups` -/
def deleteGroups : GitlabAPIClient → List Bytes → GitlabAPIClient × Except Fault GitlabRetCod :=
  deleteEach (deleteGroup net json realText) [.ok]

/-- `delete_projects` -/
def deleteProjects : GitlabAPIClient → List Bytes → GitlabAPIClient × Except Fault GitlabRetCod :=
  deleteEach (deleteProject net json realText) [.ok, .notFound]

end Operations

/-! ## Calls -/

/-- A call of an operation. -/
inductive Call where
  | get (getter : Getter) (result : Value)
  | onFound (op : Operation) (projectId issueId : UInt32)
  | createIssue (projectId : UInt32) (issue : GitlabIssue)
  | createLabel (projectId : UInt32) (label colorId : Bytes) (res : Value)
  | createLabelNs (ns name label colorId : Bytes) (res : Value)
  | deleteLabel (projectId : UInt32) (label : Bytes)
  | deleteLabelNs (ns name label : Bytes)
  | createTag (projectId : UInt32) (tag : GitlabTag)
  | deleteTag (projectId : UInt32) (tagName : Bytes)
  | createGroup (group : GitlabGroup) (res : Value)
  | deleteGroup (name : Bytes)
  | deleteGroups (groups : List Bytes)
  | createProject (project : GitlabProject) (res : Value)
  | deleteProject (name : Bytes)
  | deleteProjects (projects : List Bytes)

namespace Call

/-- The client after a call. -/
def after (net : Net) (json : JsonLib) (realText : Option Rat → Bytes) (g : GitlabAPIClient) :
    Call → GitlabAPIClient
  | get getter result => (getter.perform net json realText g result).client
  | onFound op projectId issueId => (op.perform net json realText g projectId issueId).1
  | createIssue projectId issue => (g.createIssue net projectId issue).1
  | createLabel projectId label colorId res =>
    (g.createLabel net json projectId label colorId res).client
  | createLabelNs ns name label colorId res =>
    (g.createLabelNs net json realText ns name label colorId res).client
  | deleteLabel projectId label => (g.deleteLabel net projectId label).1
  | deleteLabelNs ns name label => (g.deleteLabelNs net json realText ns name label).1
  | createTag projectId tag => (g.createTag net json projectId tag).client
  | deleteTag projectId tagName => (g.deleteTag net projectId tagName).1
  | createGroup group res => (g.createGroup net json group res).client
  | deleteGroup name => (g.deleteGroup net json realText name).1
  | deleteGroups groups => (g.deleteGroups net json realText groups).1
  | createProject project res => (g.createProject net json project res).client
  | deleteProject name => (g.deleteProject net json realText name).1
  | deleteProjects projects => (g.deleteProjects net json realText projects).1

/-- How many changes a call asks for. -/
def changes : Call → Nat
  | get _ _ => 0
  | deleteGroups groups => groups.length
  | deleteProjects projects => projects.length
  | _ => 1

end Call

/-- The line of the token. -/
def tokenLine (apiToken : Bytes) : Bytes := cStr (ascii "PRIVATE-TOKEN" ++ ascii ": " ++ apiToken)

/-- The line that announces json. -/
def jsonLine : Bytes := cStr (ascii "Content-Type" ++ ascii ": " ++ ascii "application/json")

/-- A request with the token, and with nothing else that identifies anyone, to the server. -/
structure Authenticated (serverUri apiToken : Bytes) (sent : SentRequest) : Prop where
  token : tokenLine apiToken ∈ sent.headers
  others : ∀ line ∈ sent.headers, line = tokenLine apiToken ∨ line = jsonLine
  url : cStr (serverUri ++ apiV3Endpoint) <+: sent.url
  userPwd : sent.userPwd = none
  verifyPeer : sent.verifyPeer = true

/-- Nothing but the token is staged. -/
def OnlyToken (g : GitlabAPIClient) : Prop :=
  ∀ header value, g.transfers.client.httpHeaders.lookup header = some value →
    header = ascii "PRIVATE-TOKEN" ∧ value = g.apiToken

/-- From `g` to `g'` the client sends authenticated requests, at most `n` of which change
something. -/
structure Keeps (n : Nat) (g g' : GitlabAPIClient) : Prop where
  serverUri : g'.serverUri = g.serverUri
  apiToken : g'.apiToken = g.apiToken
  staged : OnlyToken g → OnlyToken g'
  sent : OnlyToken g → ∃ new, g'.transfers.sent = g.transfers.sent ++ new ∧
    (∀ sent ∈ new, Authenticated g.serverUri g.apiToken sent) ∧ new.countP mutating ≤ n

/-! ## Composing -/

section Keeps

variable {net : Net} {json : JsonLib} {realText : Option Rat → Bytes} {g g' g'' : GitlabAPIClient}
  {n m : Nat}

theorem Keeps.refl (n : Nat) (g : GitlabAPIClient) : Keeps n g g where
  serverUri := rfl
  apiToken := rfl
  staged := id
  sent _ := ⟨[], (List.append_nil _).symm, fun _ h => absurd h List.not_mem_nil, Nat.zero_le n⟩

theorem Keeps.trans (h : Keeps n g g') (h' : Keeps m g' g'') : Keeps (n + m) g g'' where
  serverUri := h'.serverUri.trans h.serverUri
  apiToken := h'.apiToken.trans h.apiToken
  staged hg := h'.staged (h.staged hg)
  sent hg := by
    obtain ⟨new, hnew, hauth, hcount⟩ := h.sent hg
    obtain ⟨new', hnew', hauth', hcount'⟩ := h'.sent (h.staged hg)
    rw [h.serverUri, h.apiToken] at hauth'
    refine ⟨new ++ new', by rw [hnew', hnew, List.append_assoc], ?_, ?_⟩
    · exact List.forall_mem_append.mpr ⟨hauth, hauth'⟩
    · rw [List.countP_append]
      exact Nat.add_le_add hcount hcount'

theorem Keeps.mono (h : Keeps n g g') (hle : n ≤ m) : Keeps m g g' where
  serverUri := h.serverUri
  apiToken := h.apiToken
  staged := h.staged
  sent hg := by
    obtain ⟨new, hnew, hauth, hcount⟩ := h.sent hg
    exact ⟨new, hnew, hauth, hcount.trans hle⟩

theorem lookup_headers_addToken (g : GitlabAPIClient) (header : Bytes) :
    g.addToken.transfers.client.httpHeaders.lookup header =
      if header = ascii "PRIVATE-TOKEN" then some g.apiToken
      else g.transfers.client.httpHeaders.lookup header := by
  split
  · subst header
    exact Finmap.lookup_insert g.transfers.client.httpHeaders
  · exact Finmap.lookup_insert_of_ne g.transfers.client.httpHeaders ‹_›

theorem OnlyToken.addToken (h : OnlyToken g) : OnlyToken g.addToken := by
  intro header value hlookup
  rw [lookup_headers_addToken] at hlookup
  split at hlookup
  · exact ⟨‹_›, (Option.some.inj hlookup).symm⟩
  · exact h header value hlookup

/-- Staging the token sends nothing. -/
theorem Keeps.addToken (g : GitlabAPIClient) : Keeps 0 g g.addToken where
  serverUri := rfl
  apiToken := rfl
  staged := OnlyToken.addToken
  sent _ := ⟨[], (List.append_nil _).symm, fun _ h => absurd h List.not_mem_nil, Nat.le_refl 0⟩

end Keeps

/-! ## One request -/

section Request

variable {net : Net} {json : JsonLib} {t : Transfers} {query : Query} {g : GitlabAPIClient}

/-- The parameters are appended to the URL. -/
theorem prefix_appendParams : ∀ (pairs : List (Σ _ : Bytes, Bytes)) (lead buf : Bytes),
    buf <+: HTTPClient.appendParams lead pairs buf
  | [], _, buf => List.prefix_refl buf
  | p :: rest, lead, buf => by
    refine List.IsPrefix.trans ?_ (prefix_appendParams rest (ascii "&") _)
    rw [List.append_assoc, List.append_assoc, List.append_assoc]
    exact List.prefix_append buf _

theorem cStr_prefix {s u : Bytes} (h : s <+: u) : cStr s <+: cStr u := by
  obtain ⟨rest, rfl⟩ := h
  unfold cStr
  rw [List.takeWhile_append]
  split
  · rename_i hlen
    rw [(List.takeWhile_prefix _).eq_of_length hlen]
    exact List.prefix_append s _
  · exact List.prefix_refl _

/-- **One request** with the token staged, and perhaps the announcement of json. -/
theorem authenticated_next {serverUri apiToken : Bytes}
    (htoken : t.client.httpHeaders.lookup (ascii "PRIVATE-TOKEN") = some apiToken)
    (hothers : ∀ header value, t.client.httpHeaders.lookup header = some value →
      header = ascii "PRIVATE-TOKEN" ∧ value = apiToken ∨
        header = ascii "Content-Type" ∧ value = ascii "application/json")
    (hurl : serverUri ++ apiV3Endpoint <+: query.url) (hflag : query.flag = 0x01) :
    Authenticated serverUri apiToken (t.next net query) where
  token := by
    have hmem := ((net.orders t.sent.length t.client).headers.mem_pairs_iff).mpr htoken
    exact List.mem_map_of_mem hmem
  others line hline := by
    obtain ⟨⟨header, value⟩, hmem, rfl⟩ := List.mem_map.mp hline
    have hlookup := ((net.orders t.sent.length t.client).headers.mem_pairs_iff).mp hmem
    rcases hothers header value hlookup with ⟨rfl, rfl⟩ | ⟨rfl, rfl⟩
    · exact .inl rfl
    · exact .inr rfl
  url := cStr_prefix (hurl.trans (prefix_appendParams _ _ _))
  userPwd := by
    simp only [Transfers.next, HTTPClient.sent, HTTPClient.request, hflag]
    rfl
  verifyPeer := by
    simp only [Transfers.next, HTTPClient.sent, HTTPClient.request, hflag]
    rfl

/-- The same, where json is announced. -/
theorem authenticated_next_json
    (hothers : OnlyToken g) (hurl : g.serverUri ++ apiV3Endpoint <+: query.url)
    (hflag : query.flag = 0x01)
    (hheaders : t.client.httpHeaders = g.addToken.transfers.client.httpHeaders) :
    Authenticated g.serverUri g.apiToken (t.prepareJsonQuery.next net query) := by
  have hlookup (header : Bytes) : t.prepareJsonQuery.client.httpHeaders.lookup header =
      if header = ascii "Content-Type" then some (ascii "application/json")
      else g.addToken.transfers.client.httpHeaders.lookup header := by
    rw [← hheaders]
    split
    · subst header
      exact Finmap.lookup_insert t.client.httpHeaders
    · exact Finmap.lookup_insert_of_ne t.client.httpHeaders ‹_›
  refine authenticated_next ?_ (fun header value h => ?_) hurl hflag
  · rw [hlookup, if_neg (by decide), lookup_headers_addToken, if_pos rfl]
  · rw [hlookup] at h
    split at h
    · exact .inr ⟨‹_›, (Option.some.inj h).symm⟩
    · exact .inl (hothers.addToken header value h)

theorem headers_request (hflag : query.flag = 0x01) {res : Bytes} :
    (t.request net query res).1.client.httpHeaders = ∅ := by
  simp only [Transfers.request, HTTPClient.request, hflag]
  rfl

theorem onlyToken_of_empty (h : g.transfers.client.httpHeaders = ∅) : OnlyToken g := by
  intro header value hlookup
  rw [h, Finmap.lookup_empty] at hlookup
  cases hlookup

/-- A client that has sent one request and has nothing staged. -/
theorem keeps_of_sent {g' : GitlabAPIClient} {sent : SentRequest} {n : Nat}
    (huri : g'.serverUri = g.serverUri) (htoken : g'.apiToken = g.apiToken)
    (hheaders : g'.transfers.client.httpHeaders = ∅)
    (hsent : g'.transfers.sent = g.transfers.sent ++ [sent])
    (hauth : OnlyToken g → Authenticated g.serverUri g.apiToken sent)
    (hcount : [sent].countP mutating ≤ n) : Keeps n g g' where
  serverUri := huri
  apiToken := htoken
  staged _ := onlyToken_of_empty hheaders
  sent hg := ⟨[sent], hsent, fun _ hr => List.mem_singleton.mp hr ▸ hauth hg, hcount⟩

/-- **`request` with the token staged.** -/
theorem Keeps.request (hurl : g.serverUri ++ apiV3Endpoint <+: query.url)
    (hflag : query.flag = 0x01) : Keeps 1 g (g.addToken.request net query) := by
  refine keeps_of_sent rfl rfl (headers_request hflag) (sent_request g.addToken query)
    (fun hg => ?_) List.countP_le_length
  refine authenticated_next ?_ (fun header value h => .inl (hg.addToken header value h)) hurl hflag
  rw [lookup_headers_addToken, if_pos rfl]

/-- **`_post_json` with the token staged.** -/
theorem Keeps.postJson (hurl : g.serverUri ++ apiV3Endpoint <+: query.url)
    (hflag : query.flag = 0x01) (data res : Value) :
    Keeps 1 g (g.addToken.postJson net json query data res).1 :=
  let sent : Query := { query with postData := json.write data }
  keeps_of_sent rfl rfl (@headers_request net _ sent hflag [])
    (Transfers.sent_request (t := g.addToken.transfers.prepareJsonQuery))
    (fun hg => authenticated_next_json hg hurl hflag rfl) List.countP_le_length

/-- A query in `_get_json`, whatever parameters are staged beside the token. -/
theorem keeps_of_getJson {g' : GitlabAPIClient} (huri : g'.serverUri = g.serverUri)
    (htoken : g'.apiToken = g.apiToken)
    (hg' : g'.transfers = ((t.addHttpHeader (ascii "PRIVATE-TOKEN")
      g.apiToken).prepareJsonQuery.request net query []).1)
    (hsent : t.sent = g.transfers.sent)
    (hheaders : t.client.httpHeaders = g.transfers.client.httpHeaders)
    (hform : t.client.formParams = ∅) (hurl : g.serverUri ++ apiV3Endpoint <+: query.url)
    (hflag : query.flag = 0x01) (hmethod : query.method = .get) (hdata : query.postData = []) :
    Keeps 0 g g' := by
  let staged := t.addHttpHeader (ascii "PRIVATE-TOKEN") g.apiToken
  refine @keeps_of_sent g g' (staged.prepareJsonQuery.next net query) 0 huri htoken ?_ ?_
    (fun hg => authenticated_next_json hg hurl hflag ?_) ?_
  · rw [hg']
    exact headers_request hflag
  · rw [hg', ← hsent]
    rfl
  · change Finmap.insert _ _ t.client.httpHeaders = _
    rw [hheaders]
    rfl
  · have hmut := @mutating_next net staged.prepareJsonQuery hform query
    rw [hmethod, hdata] at hmut
    exact (List.countP_cons_of_neg (by simp [hmut, HTTPClient.customRequest])).le

/-- **`_get_json` with the token staged**, which changes nothing. -/
theorem Keeps.getJson (hurl : g.serverUri ++ apiV3Endpoint <+: query.url)
    (hflag : query.flag = 0x01) (hmethod : query.method = .get) (hdata : query.postData = []) :
    Keeps 0 g (g.addToken.getJson net json query).1 :=
  keeps_of_getJson rfl rfl rfl rfl rfl g.formParams_eq hurl hflag hmethod hdata

theorem prefix_endpoint (g : GitlabAPIClient) (rest rest' : Bytes) :
    g.serverUri ++ apiV3Endpoint <+: g.serverUri ++ apiV3Endpoint ++ rest ++ rest' :=
  (List.prefix_append _ rest).trans (List.prefix_append _ rest')

theorem prefix_endpoint_projectUrl (g : GitlabAPIClient) (projectId : UInt32) :
    g.serverUri ++ apiV3Endpoint <+: g.projectUrl projectId :=
  prefix_endpoint g (ascii "/projects/") _

/-- **`get_projects` asks with a parameter.** -/
theorem Keeps.askProjects (name : Bytes) (scope : GitlabProjectSearchScope) :
    Keeps 0 g (g.askProjects net json name scope).1.1 := by
  unfold GitlabAPIClient.askProjects
  dsimp only
  split
  · exact keeps_of_getJson rfl rfl rfl rfl rfl g.formParams_eq (prefix_endpoint g _ _) rfl rfl rfl
  · exact keeps_of_getJson rfl rfl rfl rfl rfl g.formParams_eq (prefix_endpoint g _ _) rfl rfl rfl

end Request

/-! ## The operations -/

section Operations

variable {net : Net} {json : JsonLib} {realText : Option Rat → Bytes} {g : GitlabAPIClient}

theorem client_listed {accepts : Bool} {rejected : GitlabRetCod} {check : Value → Except Fault Bool}
    {r : GitlabAPIClient × Value} {result : Value} :
    (listed accepts rejected check r result).client = r.1 := by
  unfold listed
  split
  · split <;> rfl
  · rfl

theorem client_searched {test : Value → Except Fault Bool} {list : Lookup} {result : Value} :
    (searched test list result).client = list.client := by
  unfold searched
  split
  · rfl
  · split
    · rfl
    · split <;> rfl

theorem keeps_askList (endpoint : Bytes) (projectId : UInt32) (filter : Bytes) :
    Keeps 0 g (askList net json endpoint g projectId filter).1 := by
  refine Keeps.getJson ?_ rfl rfl rfl
  refine (prefix_endpoint_projectUrl g projectId).trans ?_
  rw [listQuery, List.append_assoc]
  exact List.prefix_append _ _

theorem keeps_getList (endpoint : Bytes) (projectId : UInt32) (filter : Bytes) (result : Value) :
    Keeps 0 g (getList net json endpoint g projectId filter result).1 := by
  have hclient : (getList net json endpoint g projectId filter result).1 =
      (askList net json endpoint g projectId filter).1 := by
    unfold getList
    dsimp only
    split <;> rfl
  exact hclient ▸ keeps_askList endpoint projectId filter

theorem keeps_getLabels (projectId : UInt32) (result : Value) :
    Keeps 0 g (g.getLabels net json projectId result).client := by
  unfold getLabels
  rw [client_listed]
  exact Keeps.getJson ((prefix_endpoint_projectUrl g projectId).trans (List.prefix_append _ _)) rfl
    rfl rfl

theorem keeps_getNamespaces (name : Bytes) (result : Value) :
    Keeps 0 g (g.getNamespaces net json name result).client := by
  unfold getNamespaces
  rw [client_listed]
  exact Keeps.getJson (prefix_endpoint g _ _) rfl rfl rfl

theorem keeps_getGroups (filter : Bytes) (result : Value) :
    Keeps 0 g (g.getGroups net json filter result).client := by
  unfold getGroups
  rw [client_listed]
  exact Keeps.getJson (prefix_endpoint g _ _) rfl rfl rfl

theorem keeps_getProjects (name : Bytes) (result : Value) (scope : GitlabProjectSearchScope) :
    Keeps 0 g (g.getProjects net json name result scope).client := by
  unfold getProjects
  dsimp only
  split
  · exact Keeps.askProjects name scope
  · rw [client_listed]
    exact Keeps.askProjects name scope

/-- A search in a list that is not made for an empty name. -/
theorem keeps_search {name : Bytes} {test : Value → Except Fault Bool} {list : Lookup}
    {result : Value} (h : Keeps 0 g list.client) :
    Keeps 0 g (if name.isEmpty then ⟨g, .ok .invalidParams, result⟩
      else searched test list result : Lookup).client := by
  split
  · exact Keeps.refl 0 g
  · rw [client_searched]
    exact h

theorem keeps_getIssueInto (projectId issueId : UInt32) (result : Value) :
    Keeps 0 g (g.getIssueInto net json projectId issueId result).client := by
  have hlist : Keeps 0 g (g.getIssues net json projectId (iidFilter issueId) .null).1 :=
    keeps_getList (ascii "/issues") projectId (iidFilter issueId) .null
  unfold getIssueInto
  dsimp only
  split
  · split
    · exact hlist
    · split <;> exact hlist
  · exact hlist

theorem keeps_getMergeRequestInto (projectId issueId : UInt32) (result : Value) :
    Keeps 0 g (g.getMergeRequestInto net json projectId issueId result).client := by
  have hlist : Keeps 0 g (g.getMergeRequests net json projectId (iidFilter issueId) .null).1 :=
    keeps_getList (ascii "/merge_requests") projectId (iidFilter issueId) .null
  unfold getMergeRequestInto
  dsimp only
  split
  · split <;> exact hlist
  · exact hlist

theorem keeps_getProjectNs (name ns : Bytes) (result : Value) (scope : GitlabProjectSearchScope) :
    Keeps 0 g (g.getProjectNs net json realText name ns result scope).client :=
  keeps_search (keeps_getProjects name .null scope)

/-- Whatever is done with the project that is found. -/
theorem keeps_onProject {project ns : Bytes} {scope : GitlabProjectSearchScope} {result : Value}
    {k : GitlabAPIClient → UInt32 → Lookup} {n : Nat}
    (hk : ∀ g projectId, Keeps n g (k g projectId).client) :
    Keeps n g (onProject (g.projectOf net json realText project ns scope) result k).client := by
  have hproject : Keeps 0 g (g.projectOf net json realText project ns scope).1 :=
    keeps_getProjectNs project ns .null scope
  unfold onProject
  split
  · exact hproject.mono (Nat.zero_le n)
  · exact hproject.mono (Nat.zero_le n)
  · exact (hproject.trans (hk _ _)).mono (Nat.zero_add n).le

/-- **The getters change nothing.** -/
theorem Getter.keeps (getter : Getter) (result : Value) :
    Keeps 0 g (getter.perform net json realText g result).client := by
  cases getter with
  | getIssues projectId filter | getMergeRequests projectId filter =>
    exact keeps_getList _ projectId filter result
  | getIssue projectId issueId => exact keeps_getIssueInto projectId issueId result
  | getIssueNs ns project issueId scope =>
    exact keeps_onProject fun g projectId => keeps_getIssueInto projectId issueId result
  | getMergeRequest projectId issueId => exact keeps_getMergeRequestInto projectId issueId result
  | getLabels projectId => exact keeps_getLabels projectId result
  | getLabel projectId name => exact keeps_search (keeps_getLabels projectId .null)
  | getLabelNs ns project name scope =>
    exact keeps_onProject fun g projectId => keeps_search (keeps_getLabels projectId .null)
  | getNamespaces name => exact keeps_getNamespaces name result
  | getNamespace name => exact keeps_search (keeps_getNamespaces name .null)
  | getGroups filter => exact keeps_getGroups filter result
  | getGroup name => exact keeps_search (keeps_getGroups _ .null)
  | getProjects name scope => exact keeps_getProjects name result scope
  | getProject name scope => exact keeps_search (keeps_getProjects name .null scope)
  | getProjectNs name ns scope => exact keeps_getProjectNs name ns result scope

theorem keeps_change {query : Query} {success : Int} {otherwise : GitlabRetCod}
    (hurl : g.serverUri ++ apiV3Endpoint <+: query.url) (hflag : query.flag = 0x01) :
    Keeps 1 g (change net g query success otherwise).1 :=
  Keeps.request hurl hflag

theorem keeps_create {url : Bytes} (hurl : g.serverUri ++ apiV3Endpoint <+: url)
    (request res : Value) : Keeps 1 g (create net json g url request res).client :=
  Keeps.postJson hurl rfl request res

/-- The change after a lookup, below the endpoint of the client it started from. -/
theorem keeps_act {lookup : Lookup} {text : Value → Except Fault Bytes} {query : Bytes → Query}
    {success : Int} (hlookup : Keeps 0 g lookup.client)
    (hurl : ∀ id, g.serverUri ++ apiV3Endpoint <+: (query id).url)
    (hflag : ∀ id, (query id).flag = 0x01) :
    Keeps 1 g (act net lookup text query success).1 := by
  unfold act
  split
  · exact hlookup.mono (Nat.zero_le 1)
  · split
    · exact hlookup.mono (Nat.zero_le 1)
    · split
      · exact (hlookup.trans (Keeps.addToken _)).mono (Nat.zero_le 1)
      · exact hlookup.trans (Keeps.request (hlookup.serverUri ▸ hurl _) (hflag _))

/-- The changes to an object that is looked up. -/
theorem Operation.keeps (op : Operation) (projectId issueId : UInt32) :
    Keeps 1 g (op.perform net json realText g projectId issueId).1 := by
  have hissue : Keeps 0 g (g.getIssue net json projectId issueId).client :=
    keeps_getIssueInto projectId issueId .null
  have hmerge : Keeps 0 g (g.getMergeRequest net json projectId issueId).client :=
    keeps_getMergeRequestInto projectId issueId .null
  have hurl (endpoint id : Bytes) :
      g.serverUri ++ apiV3Endpoint <+: g.projectUrl projectId ++ endpoint ++ id :=
    (prefix_endpoint_projectUrl g projectId).trans
      ((List.prefix_append _ endpoint).trans (List.prefix_append _ id))
  cases op with
  | closeIssue | deleteIssue => exact keeps_act hissue (hurl _) fun _ => rfl
  | closeMergeRequest | deleteMergeRequest => exact keeps_act hmerge (hurl _) fun _ => rfl
  | modifyIssue issue =>
    dsimp only [Operation.perform, GitlabAPIClient.modifyIssue]
    split
    · exact Keeps.refl 1 g
    · exact keeps_act hissue (hurl _) fun _ => rfl

theorem keeps_deleteLabel (projectId : UInt32) (label : Bytes) :
    Keeps 1 g (g.deleteLabel net projectId label).1 := by
  unfold deleteLabel
  split
  · exact Keeps.refl 1 g
  · exact keeps_change ((prefix_endpoint_projectUrl g projectId).trans
      ((List.prefix_append _ _).trans (List.prefix_append _ _))) rfl

theorem keeps_deleteLabelNs (ns name label : Bytes) :
    Keeps 1 g (g.deleteLabelNs net json realText ns name label).1 := by
  have hproject : Keeps 0 g (g.projectOf net json realText name ns .standard).1 :=
    keeps_getProjectNs name ns .null .standard
  unfold deleteLabelNs
  split
  · rename_i heq
    exact (heq ▸ hproject).mono (Nat.zero_le 1)
  · rename_i heq
    exact (heq ▸ hproject).mono (Nat.zero_le 1)
  · rename_i heq
    rw [heq] at hproject
    exact hproject.trans (keeps_deleteLabel _ label)

theorem keeps_deleteFound {endpoint : Bytes} {found : Lookup} (hfound : Keeps 0 g found.client) :
    Keeps 1 g (deleteFound net realText endpoint found).1 := by
  unfold deleteFound
  split
  · exact hfound.mono (Nat.zero_le 1)
  · split
    · exact hfound.mono (Nat.zero_le 1)
    · split
      · exact (hfound.trans (Keeps.addToken _)).mono (Nat.zero_le 1)
      · exact hfound.trans (keeps_change (prefix_endpoint _ _ _) rfl)

/-- One change a name. -/
theorem keeps_deleteEach
    {delete : GitlabAPIClient → Bytes → GitlabAPIClient × Except Fault GitlabRetCod}
    (hdelete : ∀ g name, Keeps 1 g (delete g name).1) (continues : List GitlabRetCod) :
    ∀ (names : List Bytes) (g : GitlabAPIClient),
      Keeps names.length g (deleteEach delete continues g names).1
  | [], g => Keeps.refl 0 g
  | name :: names, g => by
    have hfirst := hdelete g name
    have hle : 1 ≤ (name :: names).length := Nat.succ_le_succ (Nat.zero_le _)
    rw [deleteEach]
    split
    · rename_i heq
      exact (heq ▸ hfirst).mono hle
    · rename_i g' rc heq
      rw [heq] at hfirst
      split
      · exact (hfirst.trans (keeps_deleteEach hdelete continues names g')).mono
          (Nat.add_comm 1 names.length).le
      · exact hfirst.mono hle

/-- **Every call** sends authenticated requests and changes no more than it is asked to. -/
theorem Call.keeps (call : Call) : Keeps call.changes g (call.after net json realText g) := by
  have hgroup (g : GitlabAPIClient) (name : Bytes) :
      Keeps 1 g (g.deleteGroup net json realText name).1 :=
    keeps_deleteFound (keeps_search (keeps_getGroups _ .null))
  have hproject (g : GitlabAPIClient) (name : Bytes) :
      Keeps 1 g (g.deleteProject net json realText name).1 :=
    keeps_deleteFound (keeps_search (keeps_getProjects name .null .standard))
  have hlabels (g : GitlabAPIClient) (projectId : UInt32) :
      g.serverUri ++ apiV3Endpoint <+: g.projectUrl projectId ++ ascii "/labels" :=
    (prefix_endpoint_projectUrl g projectId).trans (List.prefix_append _ _)
  cases call with
  | get getter result => exact getter.keeps result
  | onFound op projectId issueId => exact op.keeps projectId issueId
  | createIssue projectId issue =>
    dsimp only [after, GitlabAPIClient.createIssue]
    split
    · exact Keeps.refl 1 g
    · exact keeps_change ((prefix_endpoint_projectUrl g projectId).trans (List.prefix_append _ _))
        rfl
  | createLabel projectId label colorId res => exact keeps_create (hlabels g projectId) _ res
  | createLabelNs ns name label colorId res =>
    exact keeps_onProject fun g projectId => keeps_create (hlabels g projectId) _ res
  | deleteLabel projectId label => exact keeps_deleteLabel projectId label
  | deleteLabelNs ns name label => exact keeps_deleteLabelNs ns name label
  | createTag projectId tag => exact keeps_create (hlabels g projectId) _ .null
  | deleteTag projectId tagName =>
    exact keeps_change ((prefix_endpoint_projectUrl g projectId).trans
      ((List.prefix_append _ _).trans (List.prefix_append _ _))) rfl
  | createGroup group res => exact keeps_create (List.prefix_append _ _) _ res
  | deleteGroup name => exact hgroup g name
  | deleteGroups groups => exact keeps_deleteEach hgroup _ groups g
  | createProject project res =>
    dsimp only [after, GitlabAPIClient.createProject]
    split
    · exact Keeps.refl 1 g
    · exact keeps_create (List.prefix_append _ _) _ res
  | deleteProject name => exact hproject g name
  | deleteProjects projects => exact keeps_deleteEach hproject _ projects g

/-! ## Runs -/

/-- A call of a run, with the requests it has sent. -/
structure CallEvent where
  call : Call
  sent : List SentRequest

variable (net json realText) in
/-- One call. A call that throws leaves the client usable, with what it had sent. -/
def CallStep (g : GitlabAPIClient) (e : CallEvent) (g' : GitlabAPIClient) : Prop :=
  g' = e.call.after net json realText g ∧ g'.transfers.sent = g.transfers.sent ++ e.sent

/-- **Every run of a client**, whatever the server answers: each request a call sends carries the
token in its header and no other credentials, has a URL that begins with the endpoint, and verifies
its peer; and a call sends no more changes than it is asked for, so that a getter sends none. What
libcurl sends for a redirect is not counted. -/
theorem gitlab_requests (net : Net) (json : JsonLib) (realText : Option Rat → Bytes)
    (serverUri apiToken : Bytes) (events : List CallEvent) (g : GitlabAPIClient)
    (hrun : Trace (CallStep net json realText) (construct serverUri apiToken) events g) :
    ∀ e ∈ events, (∀ sent ∈ e.sent, Authenticated serverUri apiToken sent) ∧
      e.sent.countP mutating ≤ e.call.changes := by
  refine Trace.forall_labels
    (I := fun g => g.serverUri = serverUri ∧ g.apiToken = apiToken ∧ OnlyToken g)
    (P := fun _ => True) (fun g e g' hg _ hstep => ?_)
    ⟨rfl, rfl, onlyToken_of_empty rfl⟩ (fun _ _ => trivial) hrun
  obtain ⟨rfl, rfl, hstaged⟩ := hg
  obtain ⟨rfl, hsent⟩ := hstep
  have hkeeps : Keeps e.call.changes g (e.call.after net json realText g) := e.call.keeps
  obtain ⟨new, hnew, hauth, hcount⟩ := hkeeps.sent hstaged
  obtain rfl := List.append_cancel_left (hsent.symm.trans hnew)
  exact ⟨⟨hauth, hcount⟩, hkeeps.serverUri, hkeeps.apiToken, hkeeps.staged hstaged⟩

/-- A search for a label, and its deletion. -/
theorem gitlab_requests_deleteLabel : ∃ events : List CallEvent,
    events.map CallEvent.call =
      [.get (.getLabel 7 (ascii "bug")) .null, .deleteLabel 7 (ascii "bug")] ∧
    ∀ e ∈ events,
      (∀ sent ∈ e.sent, Authenticated (ascii "https://gitlab.com") (ascii "token") sent) ∧
        e.sent.countP mutating ≤ e.call.changes := by
  let net : Net := ⟨fun _ cli => (Orders.nonempty cli).some, fun _ => ⟨200, foundText⟩⟩
  let g := construct (ascii "https://gitlab.com") (ascii "token")
  let get : Call := .get (.getLabel 7 (ascii "bug")) .null
  let delete : Call := .deleteLabel 7 (ascii "bug")
  let g' := get.after net foundJson (fun _ => []) g
  refine ⟨[⟨get, g'.transfers.sent⟩,
    ⟨delete, [g'.addToken.transfers.next net
      { url := g'.projectUrl 7 ++ ascii "/labels?name=" ++ httpStringEscape (ascii "bug")
        method := .delete }]⟩], rfl, ?_⟩
  exact gitlab_requests net foundJson (fun _ => []) _ _ _ _
    (.cons ⟨rfl, rfl⟩ (.cons ⟨rfl, rfl⟩ (.nil _)))

end Operations

end GitlabAPIClient

end WinterWind.Extras
