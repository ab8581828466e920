import WinterWind.Extras.GitlabApiClient

/-!
# The getters of the GitLab client (`src/extras/gitlabapiclient.cpp`)

The functions that give a `Json::Value &result` a value: the lists, the searches in them by name,
the lookups by number, and the forms that find the project first.

* A getter ends as a `Lookup`: the client, the code or what is thrown, and `result` after it.
* The lists differ in what they accept (`accepts`) and in what every element must have (`check`);
  the searches differ in their list and in the test of an element.
* `get_issues` and `get_merge_requests` take an answer of any type; an element of an answer that is
  not an array is not read but throws.

Results:
* `listed_spec`, `searched_spec`: `result` is set at the end, after every check.
* `getIssueInto_spec`, `getMergeRequestInto_spec`: a lookup by number takes the first element.
* **`gitlabGetter_atomic_iff`**: a getter leaves `result` alone on failure, and sets it to what was
  searched for otherwise; except that `get_issue` sets it before it asks whether the issue has an
  id, and that no lookup by number looks at the number of what it gives.
-/

namespace WinterWind.Extras

open Http

/-- `GitlabProjectSearchScope`. -/
inductive GitlabProjectSearchScope where
  | standard
  | all
  | visible
  | owned
  | starred
  deriving Repr, DecidableEq

namespace GitlabAPIClient

/-! ## What is asked of the elements -/

/-- `v` has all these members. -/
def hasMembers (v : Value) : List Bytes → Except Fault Bool
  | [] => .ok true
  | key :: keys => do if ← v.isMember key then hasMembers v keys else return false

def checkLabel (l : Value) : Except Fault Bool := hasMembers l [ascii "name", ascii "color"]

def checkNamespace (n : Value) : Except Fault Bool :=
  hasMembers n [ascii "id", ascii "path", ascii "kind"]

def checkGroup (g : Value) : Except Fault Bool := hasMembers g [ascii "id", ascii "name"]

def checkProject (p : Value) : Except Fault Bool := do
  if ← hasMembers p [ascii "id", ascii "name", ascii "http_url_to_repo", ascii "namespace"] then
    hasMembers (← p.member (ascii "namespace")) [ascii "id", ascii "name"]
  else return false

/-- The loop over the elements that ends at the first one without what it must have. -/
def checkAll (check : Value → Except Fault Bool) : List Value → Except Fault Bool
  | [] => .ok true
  | v :: vs => do if ← check v then checkAll check vs else return false

/-- The loop over the elements that ends at the first one that passes the test. -/
def findFirst (test : Value → Except Fault Bool) : List Value → Except Fault (Option Value)
  | [] => .ok none
  | v :: vs => do if ← test v then return some v else findFirst test vs

/-- `v.isArray()`. -/
def isArray : Value → Bool
  | .array _ => true
  | _ => false

section Getters

variable (net : Net) (json : JsonLib) (realText : Option Rat → Bytes)

/-- `v[key].asString() == s`. -/
def hasText (key s : Bytes) (v : Value) : Except Fault Bool := do
  return (← (← v.member key).asString realText) == s

/-- `p["name"].asString() == name && p["namespace"]["name"].asString() == ns`. -/
def isProject (name ns : Bytes) (p : Value) : Except Fault Bool := do
  if ← hasText realText (ascii "name") name p then
    hasText realText (ascii "name") ns (← p.member (ascii "namespace"))
  else return false

/-! ## Lists -/

/-- The end of a list getter, once the answer is there: `accepts` is its first test, and `rejected`
the code when that fails. -/
def listed (accepts : Bool) (rejected : GitlabRetCod) (check : Value → Except Fault Bool)
    (r : GitlabAPIClient × Value) (result : Value) : Lookup :=
  if accepts then
    match checkAll check r.2.children with
    | .error f => ⟨r.1, .error f, result⟩
    | .ok false => ⟨r.1, .ok .invalidResponse, result⟩
    | .ok true => ⟨r.1, .ok .ok, r.2⟩
  else ⟨r.1, .ok rejected, result⟩

/-- The answer to the query for the objects of a project. -/
def askList (endpoint : Bytes) (g : GitlabAPIClient) (projectId : UInt32) (filter : Bytes) :
    GitlabAPIClient × Value :=
  g.addToken.getJson net json (listQuery endpoint g projectId filter)

/-- `get_issues` and `get_merge_requests`, as a `Lookup`. -/
def getObjects (endpoint : Bytes) (g : GitlabAPIClient) (projectId : UInt32) (filter : Bytes)
    (result : Value) : Lookup :=
  let r := getList net json endpoint g projectId filter result
  ⟨r.1, .ok r.2.1, r.2.2⟩

def askLabels (g : GitlabAPIClient) (projectId : UInt32) : GitlabAPIClient × Value :=
  g.addToken.getJson net json { url := g.projectUrl projectId ++ ascii "/labels" }

/-- `get_labels` -/
def getLabels (g : GitlabAPIClient) (projectId : UInt32) (result : Value) : Lookup :=
  let r := g.askLabels net json projectId
  listed (r.1.httpCode == 200 && !r.2.empty && isArray r.2) r.1.invalidResponseCode checkLabel r
    result

def askNamespaces (g : GitlabAPIClient) (name : Bytes) : GitlabAPIClient × Value :=
  g.addToken.getJson net json
    { url := g.serverUri ++ apiV3Endpoint ++ ascii "/namespaces" ++
        if name.isEmpty then [] else ascii "?search=" ++ name }

/-- `get_namespaces` -/
def getNamespaces (g : GitlabAPIClient) (name : Bytes) (result : Value) : Lookup :=
  let r := g.askNamespaces net json name
  listed (r.1.httpCode == 200 && !r.2.empty && isArray r.2) r.1.invalidResponseCode checkNamespace
    r result

def askGroups (g : GitlabAPIClient) (filter : Bytes) : GitlabAPIClient × Value :=
  g.addToken.getJson net json
    { url := g.serverUri ++ apiV3Endpoint ++ ascii "/groups" ++
        if filter.isEmpty then [] else ascii "?" ++ filter }

/-- `get_groups`, which takes an empty array too. -/
def getGroups (g : GitlabAPIClient) (filter : Bytes) (result : Value) : Lookup :=
  let r := g.askGroups net json filter
  listed (r.1.httpCode == 200 && isArray r.2) r.1.invalidResponseCode checkGroup r result

/-- The end of the URL for a scope. -/
def endpointSuffix : GitlabProjectSearchScope → Bytes
  | .owned => ascii "/owned"
  | .all => ascii "/all"
  | .visible => ascii "/visible"
  | .starred => ascii "starred"
  | .standard => []

/-- The query of `get_projects`, with whether its answer could be parsed. The name is a staged
parameter. -/
def askProjects (g : GitlabAPIClient) (name : Bytes) (searchScope : GitlabProjectSearchScope) :
    (GitlabAPIClient × Value) × Bool :=
  let staged := if name.isEmpty then g.transfers else
    g.transfers.addUriParam (ascii "search") name true
  let query : Query :=
    { url := g.serverUri ++ apiV3Endpoint ++ ascii "/projects" ++ endpointSuffix searchScope }
  let r := (staged.addHttpHeader (ascii "PRIVATE-TOKEN") g.apiToken).getJson net json query .null
  (({ serverUri := g.serverUri
      apiToken := g.apiToken
      transfers := r.1
      uriParams_eq := rfl
      formParams_eq := rfl }, r.2.2), r.2.1)

/-- `get_projects` -/
def getProjects (g : GitlabAPIClient) (name : Bytes) (result : Value)
    (searchScope : GitlabProjectSearchScope) : Lookup :=
  let r := g.askProjects net json name searchScope
  if !r.2 then ⟨r.1.1, .ok r.1.1.invalidResponseCode, result⟩
  else
    listed (r.1.1.httpCode == 200 && !r.1.2.empty && isArray r.1.2) .invalidResponse checkProject
      r.1 result

/-! ## Searches -/

/-- The end of a search, once its list is there. -/
def searched (test : Value → Except Fault Bool) (list : Lookup) (result : Value) : Lookup :=
  match list.code with
  | .error f => ⟨list.client, .error f, result⟩
  | .ok rc =>
    if rc ≠ .ok then ⟨list.client, .ok rc, result⟩
    else
      match findFirst test list.result.children with
      | .error f => ⟨list.client, .error f, result⟩
      | .ok (some v) => ⟨list.client, .ok .ok, v⟩
      | .ok none => ⟨list.client, .ok .notFound, result⟩

/-- `get_label` -/
def getLabel (g : GitlabAPIClient) (projectId : UInt32) (name : Bytes) (result : Value) : Lookup :=
  if name.isEmpty then ⟨g, .ok .invalidParams, result⟩
  else searched (hasText realText (ascii "name") name) (g.getLabels net json projectId .null) result

/-- `get_namespace` -/
def getNamespace (g : GitlabAPIClient) (name : Bytes) (result : Value) : Lookup :=
  if name.isEmpty then ⟨g, .ok .invalidParams, result⟩
  else searched (hasText realText (ascii "path") name) (g.getNamespaces net json name .null) result

/-- `get_group` -/
def getGroup (g : GitlabAPIClient) (name : Bytes) (result : Value) : Lookup :=
  if name.isEmpty then ⟨g, .ok .invalidParams, result⟩
  else
    searched (hasText realText (ascii "name") name)
      (g.getGroups net json (ascii "search=" ++ name) .null) result

/-- `get_project` -/
def getProject (g : GitlabAPIClient) (name : Bytes) (result : Value)
    (searchScope : GitlabProjectSearchScope) : Lookup :=
  if name.isEmpty then ⟨g, .ok .invalidParams, result⟩
  else
    searched (hasText realText (ascii "name") name)
      (g.getProjects net json name .null searchScope) result

/-- `get_project_ns` -/
def getProjectNs (g : GitlabAPIClient) (name ns : Bytes) (result : Value)
    (searchScope : GitlabProjectSearchScope) : Lookup :=
  if name.isEmpty then ⟨g, .ok .invalidParams, result⟩
  else searched (isProject realText name ns) (g.getProjects net json name .null searchScope) result

/-! ## Lookups by number -/

/-- `get_issue(project_id, issue_id, result)`, for any `result`. -/
def getIssueInto (g : GitlabAPIClient) (projectId issueId : UInt32) (result : Value) : Lookup :=
  let r := g.getIssues net json projectId (iidFilter issueId) .null
  if r.2.1 = .ok then
    match r.2.2.element 0 with
    | .error f => ⟨r.1, .error f, result⟩
    | .ok first =>
      -- `result` has its value before the test
      match first.isMember (ascii "id") with
      | .error f => ⟨r.1, .error f, first⟩
      | .ok true => ⟨r.1, .ok .ok, first⟩
      | .ok false => ⟨r.1, .ok .invalidResponse, first⟩
  else ⟨r.1, .ok .notFound, result⟩

/-- `get_merge_request(project_id, issue_id, result)`, for any `result`. -/
def getMergeRequestInto (g : GitlabAPIClient) (projectId issueId : UInt32) (result : Value) :
    Lookup :=
  let r := g.getMergeRequests net json projectId (iidFilter issueId) .null
  if r.2.1 = .ok then
    match r.2.2.element 0 with
    | .error f => ⟨r.1, .error f, result⟩
    | .ok first => ⟨r.1, .ok .ok, first⟩
  else ⟨r.1, .ok .notFound, result⟩

theorem getIssueInto_null (g : GitlabAPIClient) (projectId issueId : UInt32) :
    g.getIssueInto net json projectId issueId .null = g.getIssue net json projectId issueId := rfl

theorem getMergeRequestInto_null (g : GitlabAPIClient) (projectId issueId : UInt32) :
    g.getMergeRequestInto net json projectId issueId .null =
      g.getMergeRequest net json projectId issueId := rfl

/-! ## With the project found by name -/

/-- `p_result["id"].asUInt()` of the project that `get_project_ns` finds: the client after it, and
the number, the code or what is thrown. -/
def projectOf (g : GitlabAPIClient) (project ns : Bytes)
    (projSearchScope : GitlabProjectSearchScope) :
    GitlabAPIClient × Except Fault (Except GitlabRetCod UInt32) :=
  let p := g.getProjectNs net json realText project ns .null projSearchScope
  (p.client, do
    let rc ← p.code
    if rc ≠ .ok then return .error rc
    return .ok (UInt32.ofNat (← (← p.result.member (ascii "id")).asUInt)))

/-- What a getter does with the project it has found. -/
def onProject (p : GitlabAPIClient × Except Fault (Except GitlabRetCod UInt32)) (result : Value)
    (k : GitlabAPIClient → UInt32 → Lookup) : Lookup :=
  match p.2 with
  | .error f => ⟨p.1, .error f, result⟩
  | .ok (.error rc) => ⟨p.1, .ok rc, result⟩
  | .ok (.ok projectId) => k p.1 projectId

/-- `get_issue(ns, project, issue_id, result, proj_search_scope)` -/
def getIssueNs (g : GitlabAPIClient) (ns project : Bytes) (issueId : UInt32) (result : Value)
    (projSearchScope : GitlabProjectSearchScope) : Lookup :=
  onProject (g.projectOf net json realText project ns projSearchScope) result
    fun g projectId => g.getIssueInto net json projectId issueId result

/-- `get_label(ns, project, name, result, proj_search_scope)` -/
def getLabelNs (g : GitlabAPIClient) (ns project name : Bytes) (result : Value)
    (projSearchScope : GitlabProjectSearchScope) : Lookup :=
  onProject (g.projectOf net json realText project ns projSearchScope) result
    fun g projectId => g.getLabel net json realText projectId name result

end Getters

/-! ## The getters together -/

/-- A call of a getter, less its `result`. -/
inductive Getter where
  | getIssues (projectId : UInt32) (filter : Bytes)
  | getIssue (projectId issueId : UInt32)
  | getIssueNs (ns project : Bytes) (issueId : UInt32) (scope : GitlabProjectSearchScope)
  | getMergeRequests (projectId : UInt32) (filter : Bytes)
  | getMergeRequest (projectId issueId : UInt32)
  | getLabels (projectId : UInt32)
  | getLabel (projectId : UInt32) (name : Bytes)
  | getLabelNs (ns project name : Bytes) (scope : GitlabProjectSearchScope)
  | getNamespaces (name : Bytes)
  | getNamespace (name : Bytes)
  | getGroups (filter : Bytes)
  | getGroup (name : Bytes)
  | getProjects (name : Bytes) (scope : GitlabProjectSearchScope)
  | getProject (name : Bytes) (scope : GitlabProjectSearchScope)
  | getProjectNs (name ns : Bytes) (scope : GitlabProjectSearchScope)

section Claims

variable (net : Net) (json : JsonLib) (realText : Option Rat → Bytes) (g : GitlabAPIClient)

def Getter.perform (result : Value) : Getter → Lookup
  | getIssues projectId filter => getObjects net json (ascii "/issues") g projectId filter result
  | getIssue projectId issueId => g.getIssueInto net json projectId issueId result
  | getIssueNs ns project issueId scope =>
    g.getIssueNs net json realText ns project issueId result scope
  | getMergeRequests projectId filter =>
    getObjects net json (ascii "/merge_requests") g projectId filter result
  | getMergeRequest projectId issueId => g.getMergeRequestInto net json projectId issueId result
  | getLabels projectId => g.getLabels net json projectId result
  | getLabel projectId name => g.getLabel net json realText projectId name result
  | getLabelNs ns project name scope => g.getLabelNs net json realText ns project name result scope
  | getNamespaces name => g.getNamespaces net json name result
  | getNamespace name => g.getNamespace net json realText name result
  | getGroups filter => g.getGroups net json filter result
  | getGroup name => g.getGroup net json realText name result
  | getProjects name scope => g.getProjects net json name result scope
  | getProject name scope => g.getProject net json realText name result scope
  | getProjectNs name ns scope => g.getProjectNs net json realText name ns result scope

/-- The client and the number with which a getter goes on once it has found its project. -/
def foundProject (project ns : Bytes) (scope : GitlabProjectSearchScope) :
    Option (GitlabAPIClient × UInt32) :=
  match g.projectOf net json realText project ns scope with
  | (g, .ok (.ok projectId)) => some (g, projectId)
  | _ => none

/-- The answer in which a getter searches, or which it gives, with the client after it. -/
def Getter.reply : Getter → Option (GitlabAPIClient × Value)
  | getIssues projectId filter => some (askList net json (ascii "/issues") g projectId filter)
  | getIssue projectId issueId =>
    some (askList net json (ascii "/issues") g projectId (iidFilter issueId))
  | getIssueNs ns project issueId scope =>
    (foundProject net json realText g project ns scope).map fun p =>
      askList net json (ascii "/issues") p.1 p.2 (iidFilter issueId)
  | getMergeRequests projectId filter =>
    some (askList net json (ascii "/merge_requests") g projectId filter)
  | getMergeRequest projectId issueId =>
    some (askList net json (ascii "/merge_requests") g projectId (iidFilter issueId))
  | getLabels projectId | getLabel projectId _ => some (g.askLabels net json projectId)
  | getLabelNs ns project _ scope =>
    (foundProject net json realText g project ns scope).map fun p => p.1.askLabels net json p.2
  | getNamespaces name | getNamespace name => some (g.askNamespaces net json name)
  | getGroups filter => some (g.askGroups net json filter)
  | getGroup name => some (g.askGroups net json (ascii "search=" ++ name))
  | getProjects name scope | getProject name scope | getProjectNs name _ scope =>
    some (g.askProjects net json name scope).1

/-- `v[key]`, as text, is `s`. -/
def Named (key s : Bytes) (v : Value) : Prop :=
  ∃ w, v.member key = .ok w ∧ w.asString realText = .ok s

/-- `v["iid"]` is the number `issueId`, in any of the types that a number is read as. -/
def Numbered (issueId : UInt32) (v : Value) : Prop :=
  v.member (ascii "iid") = .ok (.int issueId.toUInt64.toInt64) ∨
    v.member (ascii "iid") = .ok (.uint issueId.toUInt64) ∨
    v.member (ascii "iid") = .ok (.real (some (issueId.toNat : Rat)))

/-- What a getter searches for in an answer: all of it, an element with the number, or an element
with the name. -/
def Getter.SearchesFor (answer v : Value) : Getter → Prop
  | getIssues _ _ | getMergeRequests _ _ => v = answer
  | getLabels _ | getNamespaces _ | getGroups _ | getProjects _ _ => v = answer
  | getIssue _ issueId | getIssueNs _ _ issueId _ | getMergeRequest _ issueId =>
    v ∈ answer.children ∧ Numbered issueId v
  | getLabel _ name | getLabelNs _ _ name _ | getGroup name | getProject name _ =>
    v ∈ answer.children ∧ Named realText (ascii "name") name v
  | getNamespace name => v ∈ answer.children ∧ Named realText (ascii "path") name v
  | getProjectNs name ns _ => v ∈ answer.children ∧ Named realText (ascii "name") name v ∧
      ∃ n, v.member (ascii "namespace") = .ok n ∧ Named realText (ascii "name") ns n

/-- A failure leaves `result` alone, and a success sets it to what was searched for. -/
structure Atomic (result : Value) (getter : Getter) : Prop where
  failed : ∀ rc, (getter.perform net json realText g result).code = .ok rc → rc ≠ .ok →
    (getter.perform net json realText g result).result = result
  found : (getter.perform net json realText g result).code = .ok .ok →
    ∃ r, getter.reply net json realText g = some r ∧
      getter.SearchesFor realText r.2 (getter.perform net json realText g result).result

/-- The test of an issue, and of a merge request, which has none. -/
def hasId (v : Value) : Except Fault Bool := v.isMember (ascii "id")

def noTest (_ : Value) : Except Fault Bool := .ok true

/-- The answer to the lookup of an issue is accepted and its first element has no id, although it
differs from `result`. -/
def LacksId (result : Value) (r : GitlabAPIClient × Value) : Prop :=
  r.1.httpCode = 200 ∧ ∃ first vs, r.2 = .array (first :: vs) ∧
    hasId first = .ok false ∧ first ≠ result

/-- The answer to a lookup by number is accepted and its first element, which passes the test, has
another number or none. -/
def OtherNumber (test : Value → Except Fault Bool) (issueId : UInt32)
    (r : GitlabAPIClient × Value) : Prop :=
  r.1.httpCode = 200 ∧ ∃ first vs, r.2 = .array (first :: vs) ∧ test first = .ok true ∧
    ¬Numbered issueId first

/-- When a getter is atomic. -/
def HoldsWhen (result : Value) (getter : Getter) : Prop :=
  match getter with
  | .getIssue _ issueId | .getIssueNs _ _ issueId _ =>
    ∀ r, getter.reply net json realText g = some r →
      ¬LacksId result r ∧ ¬OtherNumber hasId issueId r
  | .getMergeRequest _ issueId =>
    ∀ r, getter.reply net json realText g = some r → ¬OtherNumber noTest issueId r
  | _ => True

end Claims

/-! ## How the getters end -/

/-- How a getter must end: `result` is the old one if it fails, and is as `P` says otherwise. -/
def Ends (result : Value) (P : Value → Prop) (l : Lookup) : Prop :=
  (∀ rc, l.code = .ok rc → rc ≠ .ok → l.result = result) ∧ (l.code = .ok .ok → P l.result)

section Ends

variable {net : Net} {json : JsonLib} {realText : Option Rat → Bytes} {result : Value}
  {P : Value → Prop}

theorem ends_of_unchanged {g : GitlabAPIClient} {code : Except Fault GitlabRetCod}
    (h : code ≠ .ok .ok) : Ends result P ⟨g, code, result⟩ :=
  ⟨fun _ _ _ => rfl, fun hok => absurd hok h⟩

theorem ends_of_ok {g : GitlabAPIClient} {v : Value} (h : P v) : Ends result P ⟨g, .ok .ok, v⟩ :=
  ⟨fun _ hrc hne => absurd (Except.ok.inj hrc).symm hne, fun _ => h⟩

theorem ends_ok_iff {g : GitlabAPIClient} {v : Value} :
    Ends result P ⟨g, .ok .ok, v⟩ ↔ P v :=
  ⟨fun h => h.2 rfl, ends_of_ok⟩

theorem ends_failed_iff {g : GitlabAPIClient} {rc : GitlabRetCod} {v : Value} (h : rc ≠ .ok) :
    Ends result P ⟨g, .ok rc, v⟩ ↔ v = result :=
  ⟨fun hends => hends.1 rc rfl h,
    fun hv => ⟨fun _ _ _ => hv, fun hok => absurd (Except.ok.inj hok) h⟩⟩

theorem ends_of_thrown {g : GitlabAPIClient} {f : Fault} {v : Value} :
    Ends result P ⟨g, .error f, v⟩ :=
  ⟨nofun, nofun⟩

theorem Ends.imp {Q : Value → Prop} {l : Lookup} (h : Ends result P l) (himp : ∀ v, P v → Q v) :
    Ends result Q l :=
  ⟨h.1, fun hok => himp _ (h.2 hok)⟩

theorem invalidResponseCode_ne_ok (g : GitlabAPIClient) :
    (.ok g.invalidResponseCode : Except Fault GitlabRetCod) ≠ .ok .ok := by
  unfold invalidResponseCode
  split <;> nofun

/-- **A list getter** sets `result` after all its checks. -/
theorem listed_spec (accepts : Bool) {rejected : GitlabRetCod}
    (hrejected : (.ok rejected : Except Fault GitlabRetCod) ≠ .ok .ok)
    (check : Value → Except Fault Bool) (r : GitlabAPIClient × Value) :
    Ends result (· = r.2) (listed accepts rejected check r result) := by
  unfold listed
  split
  · split
    · exact ends_of_unchanged nofun
    · exact ends_of_unchanged nofun
    · exact ends_of_ok rfl
  · exact ends_of_unchanged hrejected

theorem findFirst_eq_some {test : Value → Except Fault Bool} {v : Value} : ∀ {vs : List Value},
    findFirst test vs = .ok (some v) → v ∈ vs ∧ test v = .ok true
  | [], h => nomatch h
  | w :: vs, h => by
    rw [findFirst] at h
    obtain ⟨found, htest, h⟩ := bind_eq_ok.mp h
    cases found with
    | true =>
      obtain rfl := Option.some.inj (Except.ok.inj h)
      exact ⟨List.mem_cons_self, htest⟩
    | false =>
      obtain ⟨hmem, hv⟩ := findFirst_eq_some h
      exact ⟨List.mem_cons_of_mem w hmem, hv⟩

/-- **A search** sets `result` to the element that it finds. -/
theorem searched_spec {test : Value → Except Fault Bool} {list : Lookup} {answer : Value}
    (h : Ends .null (· = answer) list) :
    Ends result (fun v => v ∈ answer.children ∧ test v = .ok true)
      (searched test list result) := by
  unfold searched
  split
  · exact ends_of_unchanged nofun
  · rename_i rc hcode
    split
    · rename_i hne
      exact ends_of_unchanged fun hok => hne (Except.ok.inj hok)
    · rename_i hok
      obtain rfl := not_not.mp hok
      rw [h.2 hcode]
      split
      · exact ends_of_unchanged nofun
      · rename_i v hfind
        exact ends_of_ok (findFirst_eq_some hfind)
      · exact ends_of_unchanged nofun

theorem named_of_hasText {key s : Bytes} {v : Value} (h : hasText realText key s v = .ok true) :
    Named realText key s v := by
  obtain ⟨w, hw, h⟩ := bind_eq_ok.mp h
  obtain ⟨text, htext, h⟩ := bind_eq_ok.mp h
  obtain rfl := eq_of_beq (Except.ok.inj h)
  exact ⟨w, hw, htext⟩

theorem named_of_isProject {name ns : Bytes} {v : Value}
    (h : isProject realText name ns v = .ok true) :
    Named realText (ascii "name") name v ∧
      ∃ n, v.member (ascii "namespace") = .ok n ∧ Named realText (ascii "name") ns n := by
  obtain ⟨same, hname, h⟩ := bind_eq_ok.mp h
  cases same with
  | false => cases h
  | true =>
    obtain ⟨n, hn, h⟩ := bind_eq_ok.mp h
    exact ⟨named_of_hasText hname, n, hn, named_of_hasText h⟩

/-- A search by name, which needs one. -/
theorem search_spec {name : Bytes} {g : GitlabAPIClient} {test : Value → Except Fault Bool}
    {list : Lookup} {answer : Value} (hlist : Ends .null (· = answer) list)
    (htest : ∀ v, test v = .ok true → P v) :
    Ends result (fun v => v ∈ answer.children ∧ P v)
      (if name.isEmpty then ⟨g, .ok .invalidParams, result⟩
        else searched test list result) := by
  split
  · exact ends_of_unchanged nofun
  · exact (searched_spec hlist).imp fun v hv => ⟨hv.1, htest v hv.2⟩

variable (g : GitlabAPIClient)

theorem getObjects_spec (endpoint : Bytes) (projectId : UInt32) (filter : Bytes) :
    Ends result (· = (askList net json endpoint g projectId filter).2)
      (getObjects net json endpoint g projectId filter result) := by
  unfold getObjects getList askList
  dsimp only
  split
  · exact ends_of_unchanged (invalidResponseCode_ne_ok _)
  · exact ends_of_ok rfl

theorem getLabels_spec (projectId : UInt32) :
    Ends result (· = (g.askLabels net json projectId).2) (g.getLabels net json projectId result) :=
  listed_spec _ (invalidResponseCode_ne_ok _) _ _

theorem getNamespaces_spec (name : Bytes) :
    Ends result (· = (g.askNamespaces net json name).2) (g.getNamespaces net json name result) :=
  listed_spec _ (invalidResponseCode_ne_ok _) _ _

theorem getGroups_spec (filter : Bytes) :
    Ends result (· = (g.askGroups net json filter).2) (g.getGroups net json filter result) :=
  listed_spec _ (invalidResponseCode_ne_ok _) _ _

theorem getProjects_spec (name : Bytes) (scope : GitlabProjectSearchScope) :
    Ends result (· = (g.askProjects net json name scope).1.2)
      (g.getProjects net json name result scope) := by
  unfold getProjects
  dsimp only
  split
  · exact ends_of_unchanged (invalidResponseCode_ne_ok _)
  · have hrejected : (.ok .invalidResponse : Except Fault GitlabRetCod) ≠ .ok .ok := nofun
    exact listed_spec _ hrejected _ _

theorem getLabel_spec (projectId : UInt32) (name : Bytes) :
    Ends result (fun v => v ∈ (g.askLabels net json projectId).2.children ∧
      Named realText (ascii "name") name v) (g.getLabel net json realText projectId name result) :=
  search_spec (getLabels_spec g projectId) fun _ => named_of_hasText

theorem getNamespace_spec (name : Bytes) :
    Ends result (fun v => v ∈ (g.askNamespaces net json name).2.children ∧
      Named realText (ascii "path") name v) (g.getNamespace net json realText name result) :=
  search_spec (getNamespaces_spec g name) fun _ => named_of_hasText

theorem getGroup_spec (name : Bytes) :
    Ends result (fun v => v ∈ (g.askGroups net json (ascii "search=" ++ name)).2.children ∧
      Named realText (ascii "name") name v) (g.getGroup net json realText name result) :=
  search_spec (getGroups_spec g (ascii "search=" ++ name)) fun _ => named_of_hasText

theorem getProject_spec (name : Bytes) (scope : GitlabProjectSearchScope) :
    Ends result (fun v => v ∈ (g.askProjects net json name scope).1.2.children ∧
      Named realText (ascii "name") name v) (g.getProject net json realText name result scope) :=
  search_spec (getProjects_spec g name scope) fun _ => named_of_hasText

theorem getProjectNs_spec (name ns : Bytes) (scope : GitlabProjectSearchScope) :
    Ends result (fun v => v ∈ (g.askProjects net json name scope).1.2.children ∧
        Named realText (ascii "name") name v ∧
        ∃ n, v.member (ascii "namespace") = .ok n ∧ Named realText (ascii "name") ns n)
      (g.getProjectNs net json realText name ns result scope) :=
  search_spec (getProjects_spec g name scope) fun _ => named_of_isProject

/-- A lookup by number: the answer is accepted and is the list, or it is not and the code says
so. -/
theorem getList_cases (endpoint : Bytes) (projectId : UInt32) (filter : Bytes) :
    let r := askList net json endpoint g projectId filter
    (r.1.httpCode = 200 ∧ r.2.empty = false ∧
        getList net json endpoint g projectId filter .null = (r.1, .ok, r.2)) ∨
      (¬(r.1.httpCode = 200 ∧ r.2.empty = false) ∧
        (getList net json endpoint g projectId filter .null).2.1 ≠ .ok) := by
  intro r
  by_cases h : r.1.httpCode ≠ 200 ∨ r.2.empty
  · refine .inr ⟨fun haccepted => ?_, ?_⟩
    · rcases h with h | h
      · exact h haccepted.1
      · exact Bool.noConfusion (haccepted.2.symm.trans h)
    · have hlist : getList net json endpoint g projectId filter .null =
          (r.1, r.1.invalidResponseCode, .null) := if_pos h
      rw [hlist]
      exact fun hok => invalidResponseCode_ne_ok r.1 (congrArg _ hok)
  · refine .inl ⟨not_not.mp fun hne => h (.inl hne), ?_, if_neg h⟩
    exact Bool.eq_false_iff.mpr fun he => h (.inr he)

/-- The first element of an answer that is not empty: the answer is an array. -/
theorem eq_array_of_element {v first : Value} (hempty : v.empty = false)
    (h : v.element 0 = .ok first) : ∃ vs, v = .array (first :: vs) := by
  cases v with
  | array vs =>
    cases vs with
    | nil => cases hempty
    | cons w vs =>
      obtain rfl : w = first := Except.ok.inj h
      exact ⟨vs, rfl⟩
  | null => cases hempty
  | _ => cases h

theorem lacksId_iff {r : GitlabAPIClient × Value} {first : Value} {vs : List Value}
    (h200 : r.1.httpCode = 200) (h : r.2 = .array (first :: vs)) :
    LacksId result r ↔ hasId first = .ok false ∧ first ≠ result := by
  constructor
  · rintro ⟨-, first', vs', h', hid⟩
    obtain ⟨rfl, -⟩ := List.cons.inj (Value.array.inj (h.symm.trans h'))
    exact hid
  · exact fun hid => ⟨h200, first, vs, h, hid⟩

theorem otherNumber_iff {test : Value → Except Fault Bool} {issueId : UInt32}
    {r : GitlabAPIClient × Value} {first : Value} {vs : List Value} (h200 : r.1.httpCode = 200)
    (h : r.2 = .array (first :: vs)) :
    OtherNumber test issueId r ↔ test first = .ok true ∧ ¬Numbered issueId first := by
  constructor
  · rintro ⟨-, first', vs', h', htest⟩
    obtain ⟨rfl, -⟩ := List.cons.inj (Value.array.inj (h.symm.trans h'))
    exact htest
  · exact fun htest => ⟨h200, first, vs, h, htest⟩

/-- An answer that is not accepted, or has no first element. -/
theorem not_lacksId {r : GitlabAPIClient × Value}
    (h : r.1.httpCode = 200 → ∀ first vs, r.2 ≠ .array (first :: vs)) : ¬LacksId result r :=
  fun ⟨h200, first, vs, harray, _⟩ => h h200 first vs harray

theorem not_otherNumber {test : Value → Except Fault Bool} {issueId : UInt32}
    {r : GitlabAPIClient × Value}
    (h : r.1.httpCode = 200 → ∀ first vs, r.2 ≠ .array (first :: vs)) :
    ¬OtherNumber test issueId r :=
  fun ⟨h200, first, vs, harray, _⟩ => h h200 first vs harray

/-- The first element is what is searched for if it has the number. -/
theorem numbered_first_iff {answer first : Value} {vs : List Value} {issueId : UInt32}
    (h : answer = .array (first :: vs)) :
    first ∈ answer.children ∧ Numbered issueId first ↔ Numbered issueId first := by
  subst h
  exact and_iff_right List.mem_cons_self

/-- **`get_merge_request`** gives the first element of the answer, whatever its number. -/
theorem getMergeRequestInto_spec (projectId issueId : UInt32) :
    let r := askList net json (ascii "/merge_requests") g projectId (iidFilter issueId)
    Ends result (fun v => v ∈ r.2.children ∧ Numbered issueId v)
        (g.getMergeRequestInto net json projectId issueId result) ↔
      ¬OtherNumber noTest issueId r := by
  intro r
  unfold getMergeRequestInto getMergeRequests
  dsimp only
  rcases getList_cases g (ascii "/merge_requests") projectId (iidFilter issueId) with
    ⟨h200, hempty, hlist⟩ | ⟨hnot, hne⟩
  · rw [hlist, if_pos rfl]
    split
    · rename_i f hf
      refine iff_of_true (ends_of_unchanged nofun) (not_otherNumber fun _ first vs harray => ?_)
      rw [harray] at hf
      cases hf
    · rename_i first hfirst
      obtain ⟨vs, harray⟩ := eq_array_of_element hempty hfirst
      rw [ends_ok_iff, numbered_first_iff harray, otherNumber_iff h200 harray, noTest,
        and_iff_right rfl, not_not]
  · rw [if_neg hne]
    refine iff_of_true (ends_of_unchanged nofun) (not_otherNumber fun h200 first vs harray => ?_)
    exact hnot ⟨h200, by rw [harray]; rfl⟩

/-- **`get_issue`** is atomic unless it has put an issue without id into `result`, or one that has
another number than it was asked for. -/
theorem getIssueInto_spec (projectId issueId : UInt32) :
    let r := askList net json (ascii "/issues") g projectId (iidFilter issueId)
    Ends result (fun v => v ∈ r.2.children ∧ Numbered issueId v)
        (g.getIssueInto net json projectId issueId result) ↔
      ¬LacksId result r ∧ ¬OtherNumber hasId issueId r := by
  intro r
  unfold getIssueInto getIssues
  dsimp only
  rcases getList_cases g (ascii "/issues") projectId (iidFilter issueId) with
    ⟨h200, hempty, hlist⟩ | ⟨hnot, hne⟩
  · rw [hlist, if_pos rfl]
    split
    · rename_i f hf
      have hfirst : r.1.httpCode = 200 → ∀ first vs, r.2 ≠ .array (first :: vs) := by
        intro _ first vs harray
        rw [harray] at hf
        cases hf
      exact iff_of_true (ends_of_unchanged nofun) ⟨not_lacksId hfirst, not_otherNumber hfirst⟩
    · rename_i first hfirst
      obtain ⟨vs, harray⟩ := eq_array_of_element hempty hfirst
      rw [lacksId_iff h200 harray, otherNumber_iff h200 harray]
      split
      · rename_i f hf
        have hthrown : hasId first = .error f := hf
        rw [hthrown]
        exact iff_of_true ends_of_thrown ⟨nofun, nofun⟩
      · rename_i hid
        have hthere : hasId first = .ok true := hid
        rw [ends_ok_iff, numbered_first_iff harray, hthere, and_iff_right rfl, not_not]
        exact (and_iff_right nofun).symm
      · rename_i hid
        -- `result` is the issue by now
        have hmissing : hasId first = .ok false := hid
        have hrc : GitlabRetCod.invalidResponse ≠ .ok := nofun
        rw [ends_failed_iff hrc, hmissing, and_iff_right rfl, not_not]
        exact (and_iff_left nofun).symm
  · rw [if_neg hne]
    have hfirst : r.1.httpCode = 200 → ∀ first vs, r.2 ≠ .array (first :: vs) :=
      fun h200 first vs harray => hnot ⟨h200, by rw [harray]; rfl⟩
    exact iff_of_true (ends_of_unchanged nofun) ⟨not_lacksId hfirst, not_otherNumber hfirst⟩

/-- The project is found, or the code says it is not. -/
theorem projectOf_ne (project ns : Bytes) (scope : GitlabProjectSearchScope) :
    (g.projectOf net json realText project ns scope).2 ≠ .ok (.error .ok) := by
  intro h
  obtain ⟨rc, -, h⟩ := bind_eq_ok.mp h
  split at h
  · rename_i hne
    exact hne (Except.error.inj (Except.ok.inj h))
  · obtain ⟨w, -, h⟩ := bind_eq_ok.mp h
    obtain ⟨id, -, h⟩ := bind_eq_ok.mp h
    cases h

theorem foundProject_eq {project ns : Bytes} {scope : GitlabProjectSearchScope}
    {projectId : UInt32}
    (h : (g.projectOf net json realText project ns scope).2 = .ok (.ok projectId)) :
    foundProject net json realText g project ns scope =
      some ((g.projectOf net json realText project ns scope).1, projectId) := by
  unfold foundProject
  generalize g.projectOf net json realText project ns scope = p at h ⊢
  obtain ⟨g', out⟩ := p
  obtain rfl : out = _ := h
  rfl

/-- Without a project, `result` stays as it is. -/
theorem onProject_of_not_found {project ns : Bytes} {scope : GitlabProjectSearchScope}
    {k : GitlabAPIClient → UInt32 → Lookup}
    (h : foundProject net json realText g project ns scope = none) :
    Ends result P (onProject (g.projectOf net json realText project ns scope) result k) := by
  unfold onProject
  split
  · exact ends_of_unchanged nofun
  · rename_i rc hrc
    exact ends_of_unchanged fun hok =>
      projectOf_ne g project ns scope (by rw [hrc, Except.ok.inj hok])
  · rename_i projectId hid
    rw [foundProject_eq g hid] at h
    cases h

theorem projectOf_of_foundProject {project ns : Bytes} {scope : GitlabProjectSearchScope}
    {p : GitlabAPIClient × UInt32}
    (h : foundProject net json realText g project ns scope = some p) :
    g.projectOf net json realText project ns scope = (p.1, .ok (.ok p.2)) := by
  unfold foundProject at h
  split at h
  · rename_i hp
    rw [hp, ← Option.some.inj h]
  · cases h

end Ends

/-! ## When a getter is atomic -/

section Atomic

variable {net : Net} {json : JsonLib} {realText : Option Rat → Bytes} {g : GitlabAPIClient}
  {result : Value} {getter : Getter} {r : GitlabAPIClient × Value}

theorem atomic_iff_ends (hreply : getter.reply net json realText g = some r) :
    Atomic net json realText g result getter ↔
      Ends result (fun v => getter.SearchesFor realText r.2 v)
        (getter.perform net json realText g result) := by
  constructor
  · intro h
    refine ⟨h.failed, fun hok => ?_⟩
    obtain ⟨r', hr', hv⟩ := h.found hok
    obtain rfl := Option.some.inj (hreply.symm.trans hr')
    exact hv
  · intro h
    exact ⟨h.1, fun hok => ⟨r, hreply, h.2 hok⟩⟩

/-- A getter that does not succeed. -/
theorem atomic_of_failure
    (h : Ends result (fun _ => False) (getter.perform net json realText g result)) :
    Atomic net json realText g result getter :=
  ⟨h.1, fun hok => (h.2 hok).elim⟩

/-- `get_issue`, once its project is known. -/
theorem atomic_getIssue_iff (g' : GitlabAPIClient) (projectId issueId : UInt32)
    (hr : askList net json (ascii "/issues") g' projectId (iidFilter issueId) = r)
    (hreply : getter.reply net json realText g = some r)
    (hperform : getter.perform net json realText g result =
      g'.getIssueInto net json projectId issueId result)
    (hsearch : (fun v => getter.SearchesFor realText r.2 v) =
      fun v => v ∈ r.2.children ∧ Numbered issueId v) :
    Atomic net json realText g result getter ↔
      ∀ r, getter.reply net json realText g = some r →
        ¬LacksId result r ∧ ¬OtherNumber hasId issueId r := by
  subst hr
  rw [atomic_iff_ends hreply, hperform, hsearch, hreply]
  refine (getIssueInto_spec g' projectId issueId).trans ?_
  exact ⟨fun h r hr => Option.some.inj hr ▸ h, fun h => h _ rfl⟩

end Atomic

/-- **When a getter is atomic**: always, but for `get_issue`, which gives `result` the first element
of the answer before it asks whether that has an id, and for both lookups by number, which do not
look at the number of that element. -/
theorem gitlabGetter_atomic_iff (net : Net) (json : JsonLib) (realText : Option Rat → Bytes)
    (g : GitlabAPIClient) (result : Value) (getter : Getter) :
    Atomic net json realText g result getter ↔ HoldsWhen net json realText g result getter := by
  cases getter with
  | getIssues projectId filter =>
    exact iff_of_true ((atomic_iff_ends rfl).mpr (getObjects_spec g _ projectId filter)) trivial
  | getMergeRequests projectId filter =>
    exact iff_of_true ((atomic_iff_ends rfl).mpr (getObjects_spec g _ projectId filter)) trivial
  | getLabels projectId =>
    exact iff_of_true ((atomic_iff_ends rfl).mpr (getLabels_spec g projectId)) trivial
  | getNamespaces name =>
    exact iff_of_true ((atomic_iff_ends rfl).mpr (getNamespaces_spec g name)) trivial
  | getGroups filter =>
    exact iff_of_true ((atomic_iff_ends rfl).mpr (getGroups_spec g filter)) trivial
  | getProjects name scope =>
    exact iff_of_true ((atomic_iff_ends rfl).mpr (getProjects_spec g name scope)) trivial
  | getLabel projectId name =>
    exact iff_of_true ((atomic_iff_ends rfl).mpr (getLabel_spec g projectId name)) trivial
  | getNamespace name =>
    exact iff_of_true ((atomic_iff_ends rfl).mpr (getNamespace_spec g name)) trivial
  | getGroup name =>
    exact iff_of_true ((atomic_iff_ends rfl).mpr (getGroup_spec g name)) trivial
  | getProject name scope =>
    exact iff_of_true ((atomic_iff_ends rfl).mpr (getProject_spec g name scope)) trivial
  | getProjectNs name ns scope =>
    exact iff_of_true ((atomic_iff_ends rfl).mpr (getProjectNs_spec g name ns scope)) trivial
  | getMergeRequest projectId issueId =>
    refine (atomic_iff_ends rfl).trans ((getMergeRequestInto_spec g projectId issueId).trans ?_)
    exact ⟨fun h r hr => Option.some.inj hr ▸ h, fun h => h _ rfl⟩
  | getIssue projectId issueId => exact atomic_getIssue_iff g projectId issueId rfl rfl rfl rfl
  | getLabelNs ns project name scope =>
    refine iff_of_true ?_ trivial
    cases hfound : foundProject net json realText g project ns scope with
    | none =>
      refine atomic_of_failure ?_
      simp only [Getter.perform, getLabelNs]
      exact onProject_of_not_found g hfound
    | some p =>
      have hreply : (Getter.getLabelNs ns project name scope).reply net json realText g =
          some (p.1.askLabels net json p.2) := by
        simp only [Getter.reply, hfound, Option.map_some]
      rw [atomic_iff_ends hreply]
      simp only [Getter.perform, getLabelNs, projectOf_of_foundProject g hfound, onProject]
      exact getLabel_spec p.1 p.2 name
  | getIssueNs ns project issueId scope =>
    cases hfound : foundProject net json realText g project ns scope with
    | none =>
      refine iff_of_true (atomic_of_failure ?_) fun r hr => ?_
      · simp only [Getter.perform, getIssueNs]
        exact onProject_of_not_found g hfound
      · simp only [Getter.reply, hfound, Option.map_none, reduceCtorEq] at hr
    | some p =>
      refine atomic_getIssue_iff p.1 p.2 issueId rfl ?_ ?_ rfl
      · simp only [Getter.reply, hfound, Option.map_some]
      · simp only [Getter.perform, getIssueNs, projectOf_of_foundProject g hfound, onProject]

/-- An answer with an issue that has no id. -/
def unnumberedText : Bytes := ascii "[\x7b\"title\":\"a\"\x7d]"

/-- What the reader makes of `unnumberedText`. -/
def unnumberedJson : JsonLib where
  write _ := []
  parse text root :=
    if text = unnumberedText then
      (true, .array [.object [(ascii "title", .string (ascii "a"))]])
    else (false, root)

/-- `get_issue` calls the issue without id invalid, and leaves it in `result`. -/
theorem not_atomic_getIssue :
    ∃ orders, ¬Atomic ⟨orders, fun _ => ⟨200, unnumberedText⟩⟩ unnumberedJson (fun _ => [])
      gitlabCom .null (.getIssue 7 12) := by
  refine ⟨fun _ cli => (Orders.nonempty cli).some, fun h => ?_⟩
  have hnull := h.failed .invalidResponse rfl nofun
  cases hnull

end GitlabAPIClient

end WinterWind.Extras
