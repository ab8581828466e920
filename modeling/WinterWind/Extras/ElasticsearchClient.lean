import WinterWind.Http.Transfers

/-!
# The Elasticsearch client (`src/extras/elasticsearchclient.cpp`)

The client with its list of nodes and its queue of bulk actions, and the operations that send their
request to the node `get_fresh_node` returns.

* `discover_cluster` asks for the cluster state twice, takes the name from the first answer and the
  nodes from the second, and asks the nodes API for a node whose address it does not find there.
* A reading of `system_clock` is its count of ticks; `Clock` has the two readings of an operation.
* A call that throws keeps what it has changed. An action does not change once it is queued.
* The client stages no form parameter; `ElasticsearchClient` carries that. `Index` and `Analyzer`
  are left out.

Results:
* `extends_discoverNodes`: what the loop of a discovery does to a client, whether it throws or not.
* **`discoverCluster_cases`**: a discovery that returns has appended one node for each member of the
  answer.
-/

namespace WinterWind.Extras

open Http

/-- What an operation can throw. -/
inductive Thrown where
  /-- `ElasticsearchException(what)` -/
  | elasticsearchException (what : Bytes)
  | fault (f : Fault)
  deriving Repr, DecidableEq

/-- `ElasticsearchNode`. -/
structure ElasticsearchNode where
  httpAddr : Bytes := []
  techId : Bytes
  version : Bytes := []
  isMaster : Bool := false
  deriving Repr, DecidableEq

/-- `ElasticsearchBulkActionType`, less the bound `ESBULK_AT_MAX`. -/
inductive ElasticsearchBulkActionType where
  | create
  | delete
  | index
  | update
  deriving Repr, DecidableEq

/-- `ElasticsearchBulkAction`. -/
structure ElasticsearchBulkAction where
  action : ElasticsearchBulkActionType
  index : Bytes := []
  type : Bytes := []
  docId : Bytes := []
  doc : Value := .null

/-- `ElasticsearchClient`. -/
structure ElasticsearchClient where
  initUrl : Bytes
  transfers : Transfers
  lastDiscoveryTime : Int := 0
  nodes : List ElasticsearchNode := []
  bulkQueue : List ElasticsearchBulkAction := []
  clusterName : Bytes := []
  formParams_eq : transfers.client.formParams = ∅

/-- The readings of `system_clock` by `get_fresh_node` and at the end of `discover_cluster`. -/
structure Clock where
  now : Int
  discovered : Int

def esUrlClusterState : Bytes := ascii "/_cluster/state"
def esUrlNodes : Bytes := ascii "/_nodes"
def esBulk : Bytes := ascii "/_bulk"
def esAnalyze : Bytes := ascii "/_analyze"

/-! ## What the answers say -/

/-- The name in the first answer of `discover_cluster`, if it has one. -/
def clusterNameIn (answer : Bool × Value) : Except Fault (Option Bytes) :=
  if answer.1 then answer.2.stringMember (ascii "cluster_name") else .ok none

/-- The nodes in the second answer, if it has them. -/
def nodesIn (answer : Bool × Value) : Except Fault (Option (List (Bytes × Value))) :=
  if answer.1 then answer.2.objectMember (ascii "nodes") else .ok none

/-- The string `v["http"]["publish_address"]`, if `v` has it. -/
def publishAddress (v : Value) : Except Fault (Option Bytes) := do
  match ← v.objectMember (ascii "http") with
  | some http => (Value.object http).stringMember (ascii "publish_address")
  | none => return none

/-- The address of a node in the cluster state, without its scheme. -/
def stateAddress (memberObj : Value) : Except Fault (Option Bytes) := do
  match ← memberObj.stringMember (ascii "http_address") with
  | some address => return some address
  | none => publishAddress memberObj

/-- The address of `member` in an answer of the nodes API, which must be of the same cluster. -/
def nodesAddress (clusterName member : Bytes) (answer : Bool × Value) :
    Except Fault (Option Bytes) := do
  if answer.1 then
    if (← answer.2.stringMember (ascii "cluster_name")) = some clusterName then
      match ← answer.2.objectMember (ascii "nodes") with
      | some nodes =>
        match ← (Value.object nodes).objectMember member with
        | some httpMemberObj => publishAddress (.object httpMemberObj)
        | none => return none
      | none => return none
    else return none
  else return none

/-- `"http://" + address`, or the empty address of a new node. -/
def httpAddress : Option Bytes → Bytes
  | some address => ascii "http://" ++ address
  | none => []

/-- The string `attributes.master` of a node, if it has one. -/
def masterAttribute (memberObj : Value) : Except Fault (Option Bytes) := do
  match ← memberObj.objectMember (ascii "attributes") with
  | some memberAttrs => (Value.object memberAttrs).stringMember (ascii "master")
  | none => return none

/-- The node with the version and the role the cluster state gives it. -/
def describeNode (memberObj : Value) (node : ElasticsearchNode) :
    Except Fault ElasticsearchNode := do
  let version ← memberObj.stringMember (ascii "version")
  let master ← masterAttribute memberObj
  return { node with
    version := version.getD node.version
    isMaster := (master.map (· == ascii "true")).getD node.isMaster }

namespace ElasticsearchClient

variable (net : Net) (json : JsonLib)

/-! ## Discovery -/

/-- `request(query, res)`, with the value of `res` after it. -/
def request (c : ElasticsearchClient) (query : Query) (res : Bytes) : ElasticsearchClient × Bytes :=
  let r := c.transfers.request net query res
  ({ c with transfers := r.1, formParams_eq := rfl }, r.2)

/-- `_get_json(query, res, reqdata)`, with the value of `res` after it. -/
def getJson (c : ElasticsearchClient) (query : Query) (res : Value) (reqdata : Bytes := []) :
    ElasticsearchClient × Bool × Value :=
  let r := c.transfers.getJson net json query res reqdata
  ({ c with transfers := r.1, formParams_eq := rfl }, r.2)

/-- `discover_cluster` up to the loop: the members of `res["nodes"]`. -/
def readClusterState (c : ElasticsearchClient) :
    ElasticsearchClient × Except Thrown (List (Bytes × Value)) :=
  let query : Query := { url := c.initUrl ++ esUrlClusterState }
  let first := c.getJson net json query .null
  match clusterNameIn first.2 with
  | .error f => (first.1, .error (.fault f))
  | .ok none =>
    (first.1, .error (.elasticsearchException
      (ascii "Unable to parse Elasticsearch cluster state")))
  | .ok (some name) =>
    let second := getJson net json { first.1 with clusterName := name } query first.2.2
    match nodesIn second.2 with
    | .error f => (second.1, .error (.fault f))
    | .ok none =>
      (second.1, .error (.elasticsearchException (ascii "Unable to parse Elasticsearch nodes")))
    | .ok (some members) => (second.1, .ok members)

/-- The address of a node: the one in the cluster state, else the one the nodes API gives. -/
def findAddress (c : ElasticsearchClient) (member : Bytes) (memberObj : Value) :
    ElasticsearchClient × Except Fault Bytes :=
  match stateAddress memberObj with
  | .error f => (c, .error f)
  | .ok (some address) => (c, .ok (httpAddress (some address)))
  | .ok none =>
    let queryHttp : Query :=
      { url := c.initUrl ++ esUrlNodes ++ ascii "/" ++ member ++ ascii "/http" }
    let r := c.getJson net json queryHttp .null
    (r.1, (nodesAddress c.clusterName member r.2).map httpAddress)

/-- One turn of the loop of `discover_cluster`. -/
def discoverNode (members : List (Bytes × Value)) (c : ElasticsearchClient) (member : Bytes) :
    ElasticsearchClient × Except Thrown Unit :=
  let memberObj := (findMember member members).getD .null
  match c.findAddress net json member memberObj with
  | (c, .error f) => (c, .error (.fault f))
  | (c, .ok httpAddr) =>
    match describeNode memberObj { techId := member, httpAddr := httpAddr } with
    | .error f => (c, .error (.fault f))
    | .ok node => ({ c with nodes := c.nodes ++ [node] }, .ok ())

/-- The loop over the member names. -/
def discoverNodes (members : List (Bytes × Value)) :
    ElasticsearchClient → List Bytes → ElasticsearchClient × Except Thrown Unit
  | c, [] => (c, .ok ())
  | c, member :: rest =>
    match c.discoverNode net json members member with
    | (c, .error e) => (c, .error e)
    | (c, .ok ()) => discoverNodes members c rest

/-- `ElasticsearchClient::discover_cluster`. -/
def discoverCluster (c : ElasticsearchClient) (discovered : Int) :
    ElasticsearchClient × Except Thrown Unit :=
  match c.readClusterState net json with
  | (c, .error e) => (c, .error e)
  | (c, .ok members) =>
    match c.discoverNodes net json members (members.map Prod.fst) with
    | (c, .error e) => (c, .error e)
    | (c, .ok ()) => ({ c with lastDiscoveryTime := discovered }, .ok ())

/-- The members before the constructor's `discover_cluster`. -/
def undiscovered (url : Bytes) : ElasticsearchClient where
  initUrl := url
  transfers := { client := { maxFileSize := 100 * 1024 } }
  formParams_eq := rfl

/-- The constructor; there is no client if `discover_cluster` throws. -/
def construct (url : Bytes) (discovered : Int) : Option ElasticsearchClient :=
  match (undiscovered url).discoverCluster net json discovered with
  | (c, .ok ()) => some c
  | (_, .error _) => none

/-- `freshness.count() > 60000`: ticks, whatever a tick is. -/
def Stale (c : ElasticsearchClient) (now : Int) : Prop := 60000 < now - c.lastDiscoveryTime

instance (c : ElasticsearchClient) (now : Int) : Decidable (c.Stale now) :=
  inferInstanceAs (Decidable (60000 < now - c.lastDiscoveryTime))

/-- `return m_nodes[0]` -/
def firstNode (c : ElasticsearchClient) : Except Thrown ElasticsearchNode :=
  match c.nodes with
  | [] => .error (.fault .undefinedBehaviour)
  | node :: _ => .ok node

/-- `ElasticsearchClient::get_fresh_node`. -/
def getFreshNode (c : ElasticsearchClient) (clock : Clock) :
    ElasticsearchClient × Except Thrown ElasticsearchNode :=
  if c.Stale clock.now then
    match c.discoverCluster net json clock.discovered with
    | (c, .error e) => (c, .error e)
    | (c, .ok ()) => (c, c.firstNode)
  else (c, c.firstNode)

/-! ## Operations -/

/-- An operation on the node `get_fresh_node` returns; what it throws ends the operation. -/
def onFreshNode {α : Type} (c : ElasticsearchClient) (clock : Clock)
    (k : ElasticsearchClient → ElasticsearchNode → ElasticsearchClient × α) :
    ElasticsearchClient × Except Thrown α :=
  match c.getFreshNode net json clock with
  | (c, .error e) => (c, .error e)
  | (c, .ok node) => ((k c node).1, .ok (k c node).2)

/-- `ElasticsearchClient::create_doc` -/
def createDoc (c : ElasticsearchClient) (clock : Clock) (index type : Bytes) (doc : Value) :
    ElasticsearchClient × Except Thrown Unit :=
  c.onFreshNode net json clock fun c node =>
    let query : Query :=
      { url := node.httpAddr ++ ascii "/" ++ index ++ ascii "/" ++ type ++ ascii "/"
        postData := json.write doc }
    ((c.request net query []).1, ())

/-- `ElasticsearchClient::insert_doc` -/
def insertDoc (c : ElasticsearchClient) (clock : Clock) (index type docId : Bytes) (doc : Value) :
    ElasticsearchClient × Except Thrown Unit :=
  c.onFreshNode net json clock fun c node =>
    let query : Query :=
      { url := node.httpAddr ++ ascii "/" ++ index ++ ascii "/" ++ type ++ ascii "/" ++ docId
        postData := json.write doc
        method := .put }
    ((c.request net query []).1, ())

/-- `ElasticsearchClient::delete_doc` -/
def deleteDoc (c : ElasticsearchClient) (clock : Clock) (index type docId : Bytes) :
    ElasticsearchClient × Except Thrown Unit :=
  c.onFreshNode net json clock fun c node =>
    let query : Query :=
      { url := node.httpAddr ++ ascii "/" ++ index ++ ascii "/" ++ type ++ ascii "/" ++ docId
        method := .delete }
    ((c.request net query []).1, ())

/-- `ElasticsearchClient::analyze`: what it returns, and `res` after it. -/
def analyze (c : ElasticsearchClient) (clock : Clock) (index analyzer str : Bytes) (res : Value) :
    ElasticsearchClient × Except Thrown (Bool × Value) :=
  c.onFreshNode net json clock fun c node =>
    let request : Value :=
      .object [(ascii "analyzer", .string analyzer), (ascii "text", .string str)]
    c.getJson net json { url := node.httpAddr ++ ascii "/" ++ index ++ esAnalyze } res
      (json.write request)

/-- `ElasticsearchClient::add_bulkaction_to_queue` -/
def addBulkactionToQueue (c : ElasticsearchClient) (action : ElasticsearchBulkAction) :
    ElasticsearchClient :=
  { c with bulkQueue := c.bulkQueue ++ [action] }

end ElasticsearchClient

/-- `bulkaction_str_mapping` -/
def ElasticsearchBulkActionType.str : ElasticsearchBulkActionType → Bytes
  | create => ascii "create"
  | delete => ascii "delete"
  | index => ascii "index"
  | update => ascii "update"

namespace ElasticsearchBulkAction

/-- `action_res[action_type][key] = s`, unless `s` is empty; the members before and after it. -/
def setField (key s : Bytes) (members : List (Bytes × Value)) : List (Bytes × Value) :=
  if s.isEmpty then members else insertMember key (.string s) members

/-- `action_res`; its one member is null as long as nothing is assigned in it. -/
def metadata (a : ElasticsearchBulkAction) : Value :=
  let fields := setField (ascii "_id") a.docId
    (setField (ascii "_type") a.type (setField (ascii "_index") a.index []))
  .object [(a.action.str, if fields.isEmpty then .null else .object fields)]

/-- What `ElasticsearchBulkAction::toJson` appends. -/
def text (json : JsonLib) (a : ElasticsearchBulkAction) : Bytes :=
  json.write a.metadata ++
    match a.action with
    | .create => json.write a.doc
    | .index => json.write a.doc
    | .update => json.write (.object [(ascii "doc", a.doc)])
    | .delete => []

/-- `ElasticsearchBulkAction::toJson`, with the value of `res` after it. -/
def toJson (json : JsonLib) (a : ElasticsearchBulkAction) (res : Bytes) : Bytes :=
  res ++ a.text json

end ElasticsearchBulkAction

/-- The loop of `process_bulkaction_queue`: the queue and `post_data` after it. -/
def bulkLoop (json : JsonLib) (actionsLimit : UInt32) :
    UInt32 → List ElasticsearchBulkAction → Bytes → List ElasticsearchBulkAction × Bytes
  | _, [], postData => ([], postData)
  | processedActions, action :: queue, postData =>
    if actionsLimit = 0 ∨ processedActions < actionsLimit then
      bulkLoop json actionsLimit (processedActions + 1) queue (action.toJson json postData)
    else (action :: queue, postData)

namespace ElasticsearchClient

variable (net : Net) (json : JsonLib)

/-- `ElasticsearchClient::process_bulkaction_queue`, with the value of `res` after it. -/
def processBulkactionQueue (c : ElasticsearchClient) (clock : Clock) (res : Bytes)
    (actionsLimit : UInt32) : ElasticsearchClient × Except Thrown Bytes :=
  c.onFreshNode net json clock fun c node =>
    let r := bulkLoop json actionsLimit 0 c.bulkQueue []
    let query : Query := { url := node.httpAddr ++ esBulk, postData := r.2, method := .post }
    request net { c with bulkQueue := r.1 } query res

variable {net json}

/-! ## What a discovery changes -/

/-- What part of a discovery does: it sends requests without a body and appends the nodes
`found`. -/
structure Extends (c : ElasticsearchClient) (found : List ElasticsearchNode)
    (c' : ElasticsearchClient) : Prop where
  nodes : c'.nodes = c.nodes ++ found
  queue : c'.bulkQueue = c.bulkQueue
  time : c'.lastDiscoveryTime = c.lastDiscoveryTime
  sent : ∃ gets, c'.transfers.sent = c.transfers.sent ++ gets ∧ ∀ r ∈ gets, r.postFields = none

theorem Extends.refl (c : ElasticsearchClient) : Extends c [] c :=
  ⟨(List.append_nil _).symm, rfl, rfl, [], (List.append_nil _).symm, nofun⟩

theorem Extends.trans {c c' c'' : ElasticsearchClient} {found found' : List ElasticsearchNode}
    (h : Extends c found c') (h' : Extends c' found' c'') : Extends c (found ++ found') c'' where
  nodes := by rw [h'.nodes, h.nodes, List.append_assoc]
  queue := h'.queue.trans h.queue
  time := h'.time.trans h.time
  sent := by
    obtain ⟨gets, hsent, hgets⟩ := h.sent
    obtain ⟨gets', hsent', hgets'⟩ := h'.sent
    refine ⟨gets ++ gets', by rw [hsent', hsent, List.append_assoc], fun r hr => ?_⟩
    rcases List.mem_append.mp hr with hr | hr
    · exact hgets r hr
    · exact hgets' r hr

variable {c : ElasticsearchClient}

/-- `_get_json` without a body. -/
theorem extends_getJson {query : Query} {res : Value} (hquery : query.postData = []) :
    Extends c [] (c.getJson net json query res).1 where
  nodes := (List.append_nil _).symm
  queue := rfl
  time := rfl
  sent := by
    refine ⟨[c.transfers.prepareJsonQuery.next net query], rfl, fun r hr => ?_⟩
    obtain rfl := List.mem_singleton.mp hr
    rw [Transfers.postFields_next (t := c.transfers.prepareJsonQuery) c.formParams_eq]
    simp only [List.isEmpty_nil, if_true, hquery]

variable (net json c) in
theorem extends_readClusterState : Extends c [] (c.readClusterState net json).1 := by
  have hfirst : Extends c []
      (c.getJson net json { url := c.initUrl ++ esUrlClusterState } .null).1 := extends_getJson rfl
  unfold readClusterState
  dsimp only
  split
  · exact hfirst
  · exact hfirst
  · rename_i name _
    have hname : Extends c [] { (c.getJson net json
        { url := c.initUrl ++ esUrlClusterState } .null).1 with clusterName := name } :=
      ⟨hfirst.nodes, hfirst.queue, hfirst.time, hfirst.sent⟩
    split
    · exact hname.trans (extends_getJson rfl)
    · exact hname.trans (extends_getJson rfl)
    · exact hname.trans (extends_getJson rfl)

variable (net json c) in
theorem extends_findAddress (member : Bytes) (memberObj : Value) :
    Extends c [] (c.findAddress net json member memberObj).1 := by
  unfold findAddress
  split
  · exact Extends.refl c
  · exact Extends.refl c
  · exact extends_getJson rfl

theorem techId_describeNode {memberObj : Value} {node node' : ElasticsearchNode}
    (h : describeNode memberObj node = .ok node') : node'.techId = node.techId := by
  obtain ⟨version, -, h⟩ := bind_eq_ok.mp h
  obtain ⟨master, -, h⟩ := bind_eq_ok.mp h
  obtain rfl := Except.ok.inj h
  rfl

/-- A turn of the loop appends the node it is about, unless it throws. -/
theorem extends_discoverNode (members : List (Bytes × Value)) (member : Bytes) :
    ∃ found, Extends c found (c.discoverNode net json members member).1 ∧
      ((c.discoverNode net json members member).2 = .ok () →
        found.map ElasticsearchNode.techId = [member]) := by
  have haddress := extends_findAddress net json c member
    ((findMember member members).getD .null)
  unfold discoverNode
  dsimp only
  generalize c.findAddress net json member ((findMember member members).getD .null) = r
    at haddress ⊢
  obtain ⟨c', outcome⟩ := r
  cases outcome with
  | error f => exact ⟨[], haddress, nofun⟩
  | ok httpAddr =>
    dsimp only
    split
    · exact ⟨[], haddress, nofun⟩
    · rename_i node hnode
      refine ⟨[node], haddress.trans ⟨rfl, rfl, rfl, [], (List.append_nil _).symm, nofun⟩, ?_⟩
      intro _
      rw [List.map_singleton, techId_describeNode hnode]

/-- The loop appends a node for each name, unless it throws. -/
theorem extends_discoverNodes (members : List (Bytes × Value)) (names : List Bytes) :
    ∃ found, Extends c found (discoverNodes net json members c names).1 ∧
      ((discoverNodes net json members c names).2 = .ok () →
        found.map ElasticsearchNode.techId = names) := by
  induction names generalizing c with
  | nil => exact ⟨[], Extends.refl c, fun _ => rfl⟩
  | cons member rest ih =>
    obtain ⟨found, hone, hnames⟩ := @extends_discoverNode net json c members member
    rw [discoverNodes]
    generalize c.discoverNode net json members member = r at hone hnames ⊢
    obtain ⟨c', outcome⟩ := r
    cases outcome with
    | error e => exact ⟨found, hone, nofun⟩
    | ok _ =>
      obtain ⟨found', hrest, hnames'⟩ := @ih c'
      refine ⟨found ++ found', hone.trans hrest, fun hok => ?_⟩
      rw [List.map_append, hnames rfl, hnames' hok]
      rfl

variable (net json c) in
/-- How a discovery ends: it throws, and keeps the nodes found so far; or it has appended one node
for each member of the answer, in order. -/
theorem discoverCluster_cases (discovered : Int) : ∃ found c', Extends c found c' ∧
    ((∃ e, c.discoverCluster net json discovered = (c', .error e) ∧
        (c.readClusterState net json).2 ≠ .ok []) ∨
      ∃ members, (c.readClusterState net json).2 = .ok members ∧
        found.map ElasticsearchNode.techId = members.map Prod.fst ∧
        c.discoverCluster net json discovered =
          ({ c' with lastDiscoveryTime := discovered }, .ok ())) := by
  have hread := extends_readClusterState net json c
  unfold discoverCluster
  generalize c.readClusterState net json = r at hread ⊢
  obtain ⟨c₁, outcome⟩ := r
  cases outcome with
  | error e => exact ⟨[], c₁, hread, .inl ⟨e, rfl, nofun⟩⟩
  | ok members =>
    obtain ⟨found, hloop, hnames⟩ :=
      @extends_discoverNodes net json c₁ members (members.map Prod.fst)
    have hnil : members = [] →
        (discoverNodes net json members c₁ (members.map Prod.fst)).2 = .ok () := by
      rintro rfl
      rfl
    dsimp only
    generalize discoverNodes net json members c₁ (members.map Prod.fst) = r' at hloop hnames hnil ⊢
    obtain ⟨c₂, outcome⟩ := r'
    cases outcome with
    | error e =>
      refine ⟨_, c₂, hread.trans hloop, .inl ⟨e, rfl, fun h => ?_⟩⟩
      exact absurd (hnil (Except.ok.inj h)) nofun
    | ok _ => exact ⟨_, c₂, hread.trans hloop, .inr ⟨members, rfl, hnames rfl, rfl⟩⟩

/-- `m_nodes[0]` of a list that has a node. -/
theorem firstNode_of_ne_nil (h : c.nodes ≠ []) : ∃ node ∈ c.nodes, c.firstNode = .ok node := by
  unfold firstNode
  cases hnodes : c.nodes with
  | nil => exact absurd hnodes h
  | cons node rest => exact ⟨node, List.mem_cons_self, rfl⟩

theorem firstNode_of_nil (h : c.nodes = []) :
    c.firstNode = .error (.fault .undefinedBehaviour) := by
  unfold firstNode
  rw [h]

theorem firstNode_congr {c' : ElasticsearchClient} (h : c.nodes = c'.nodes) :
    c.firstNode = c'.firstNode := by
  unfold firstNode
  rw [h]

variable (net json c) in
/-- **What `get_fresh_node` does**: nothing but return the first node; or a discovery that throws;
or a discovery that appends one node for each member of the answer it reads. -/
theorem getFreshNode_cases (clock : Clock) :
    (¬ c.Stale clock.now ∧ c.getFreshNode net json clock = (c, c.firstNode)) ∨
      c.Stale clock.now ∧ ∃ found c', Extends c found c' ∧
        ((∃ e, c.getFreshNode net json clock = (c', .error e) ∧
            c.discoverCluster net json clock.discovered = (c', .error e) ∧
            (c.readClusterState net json).2 ≠ .ok []) ∨
          ∃ members, c.getFreshNode net json clock =
              ({ c' with lastDiscoveryTime := clock.discovered }, c'.firstNode) ∧
            c.discoverCluster net json clock.discovered =
              ({ c' with lastDiscoveryTime := clock.discovered }, .ok ()) ∧
            (c.readClusterState net json).2 = .ok members ∧
            found.map ElasticsearchNode.techId = members.map Prod.fst) := by
  unfold getFreshNode
  by_cases hstale : c.Stale clock.now
  · rw [if_pos hstale]
    obtain ⟨found, c', hext, ⟨e, heq, hread⟩ | ⟨members, hread, hnames, heq⟩⟩ :=
      discoverCluster_cases net json c clock.discovered
    · exact .inr ⟨hstale, found, c', hext, .inl ⟨e, by rw [heq], heq, hread⟩⟩
    · exact .inr ⟨hstale, found, c', hext, .inr ⟨members, by rw [heq]; rfl, heq, hread, hnames⟩⟩
  · rw [if_neg hstale]
    exact .inl ⟨hstale, rfl⟩

/-- An operation that leaves the list alone leaves it as `get_fresh_node` does. -/
theorem nodes_onFreshNode {α : Type} {clock : Clock}
    {k : ElasticsearchClient → ElasticsearchNode → ElasticsearchClient × α}
    (hk : ∀ c node, (k c node).1.nodes = c.nodes ∧
      (k c node).1.lastDiscoveryTime = c.lastDiscoveryTime) :
    (c.onFreshNode net json clock k).1.nodes = (c.getFreshNode net json clock).1.nodes ∧
      (c.onFreshNode net json clock k).1.lastDiscoveryTime =
        (c.getFreshNode net json clock).1.lastDiscoveryTime := by
  unfold onFreshNode
  generalize c.getFreshNode net json clock = r
  obtain ⟨c', outcome⟩ := r
  cases outcome with
  | error e => exact ⟨rfl, rfl⟩
  | ok node => exact hk c' node

variable (net json c) in
/-- A node that is known stays known. -/
theorem exists_nodes_getFreshNode (clock : Clock) :
    ∃ found, (c.getFreshNode net json clock).1.nodes = c.nodes ++ found := by
  rcases getFreshNode_cases net json c clock with
    ⟨-, heq⟩ | ⟨-, found, c', hext, ⟨e, heq, -⟩ | ⟨members, heq, -⟩⟩
  · exact ⟨[], by rw [heq, List.append_nil]⟩
  · exact ⟨found, by rw [heq, hext.nodes]⟩
  · exact ⟨found, by rw [heq, hext.nodes]⟩

/-- The constructor has an empty queue and has sent no body. -/
theorem construct_eq {url : Bytes} {discovered : Int}
    (h : construct net json url discovered = some c) :
    c.bulkQueue = [] ∧ ∀ r ∈ c.transfers.sent, r.postFields = none := by
  unfold construct at h
  obtain ⟨found, c', hext, ⟨e, heq, -⟩ | ⟨members, -, -, heq⟩⟩ :=
    discoverCluster_cases net json (undiscovered url) discovered
  · rw [heq] at h
    cases h
  · rw [heq] at h
    obtain rfl := Option.some.inj h
    obtain ⟨gets, hsent, hgets⟩ := hext.sent
    refine ⟨hext.queue, fun r hr => hgets r ?_⟩
    rw [hsent] at hr
    exact (List.mem_append.mp hr).resolve_left List.not_mem_nil

end ElasticsearchClient

/-- The state of a cluster with one node. -/
def oneNodeText : Bytes :=
  ascii ("\x7b\"cluster_name\":\"es\"," ++
    "\"nodes\":\x7b\"a\":\x7b\"http_address\":\"es:9200\"\x7d\x7d\x7d")

/-- Every transfer is answered with `oneNodeText`. -/
def oneNodeNet (orders : Nat → (cli : HTTPClient) → Orders cli) : Net where
  orders := orders
  answer _ := ⟨200, oneNodeText⟩

/-- What the reader makes of `oneNodeText`, and what the writer makes of null and of the metadata of
an action that deletes from the index `i`. -/
def oneNodeJson : JsonLib where
  write
    | .null => ascii "null\n"
    | _ => ascii "\x7b\"delete\":\x7b\"_index\":\"i\"\x7d\x7d\n"
  parse text root :=
    if text = oneNodeText then
      (true, .object
        [(ascii "cluster_name", .string (ascii "es")),
          (ascii "nodes", .object [(ascii "a", .object
            [(ascii "http_address", .string (ascii "es:9200"))])])])
    else (false, root)

end WinterWind.Extras
