import WinterWind.Extras.BulkBody
import WinterWind.Library.Simulation

/-!
# The documents of a cluster (`src/extras/elasticsearchclient.cpp`)

A client from its construction on, with any calls of its operations on documents, and the documents
of the cluster it talks to.

* `Cluster` is Elasticsearch as documented, with this client alone writing: what its documents are
  after any requests. A request stands for one action, or for those of its bulk body, which is read
  line by line. The cluster may get a request or not, and of a bulk body it may carry out some
  actions and refuse others (`carries`); the client does not look at that. An action works on the
  documents as `apply` says.
* The URL of a document has the address of a node and its index, type and id as segments.
* Two requests have no id: `create_doc` and a bulk action without one. The cluster then chooses it.
* The node is always the first one that was ever discovered, as the list only grows.
* A call that throws has ended in its discovery.
* The actions of a batch leave the queue whether or not they are carried out.

Results:
* `asks_discoverCluster`: a discovery sends nothing but `GET` without a body.
* `getFreshNode_first`: the node of a call.
* **`documents_refine`**: any calls of the client are calls on the documents of the cluster and the
  queue. A call that returns has the effect of those of its actions that the cluster carries out,
  each once and in order; one that throws has none.
-/

namespace WinterWind.Extras

open Http Library ElasticsearchBulkAction

/-! ## The cluster -/

/-- The URL of a document at a node. -/
def docUrl (httpAddr index type docId : Bytes) : Bytes :=
  httpAddr ++ ascii "/" ++ index ++ ascii "/" ++ type ++ ascii "/" ++ docId

/-- A name that stands in a URL as it is: it is none of the API's own, and no dot segment. -/
def IsSegment (s : Bytes) : Prop :=
  s ≠ [] ∧ s.head? ≠ some 95 ∧ s ≠ ascii "." ∧ s ≠ ascii ".." ∧ ∀ b ∈ s, isUnreserved b = true

theorem IsSegment.unreserved {s : Bytes} (h : IsSegment s) : ∀ b ∈ s, isUnreserved b = true :=
  h.2.2.2.2

/-- Those of some actions that are carried out. -/
def carriedOut {α : Type} (carried : Nat → Bool) (actions : List α) : List α :=
  (actions.zipIdx.filter fun p => carried p.2).map Prod.fst

/-- The documents of a cluster after any requests, where an action turns documents `s` into
`apply s a`. `Serves` are the addresses of its nodes, and `carries` says which of the actions of the
last request it has carried out, counted from 0. -/
structure Cluster (json : JsonLib) (σ : Type) (apply : σ → ElasticsearchBulkAction → σ) where
  Serves : Bytes → Prop
  carries : List SentRequest → Nat → Bool
  docs : List SentRequest → σ
  address : ∀ httpAddr, Serves httpAddr → httpAddr ≠ [] ∧ 0 ∉ httpAddr
  get : ∀ sents sent, sent.customRequest = none → sent.postFields = none →
    docs (sents ++ [sent]) = docs sents
  analyze : ∀ sents sent httpAddr index, sent.customRequest = none → Serves httpAddr →
    IsSegment index → sent.url = httpAddr ++ ascii "/" ++ index ++ esAnalyze →
    docs (sents ++ [sent]) = docs sents
  create : ∀ sents sent httpAddr index type body doc, sent.customRequest = none →
    sent.postFields = some body → Serves httpAddr → IsSegment index → IsSegment type →
    sent.url = docUrl httpAddr index type [] → json.parse body .null = (true, doc) →
    docs (sents ++ [sent]) =
      (carriedOut (carries (sents ++ [sent])) [{ action := .index, index, type, doc }]).foldl
        apply (docs sents)
  insert : ∀ sents sent httpAddr index type docId body doc,
    sent.customRequest = some (ascii "PUT") → sent.postFields = some body → Serves httpAddr →
    IsSegment index → IsSegment type → IsSegment docId →
    sent.url = docUrl httpAddr index type docId → json.parse body .null = (true, doc) →
    docs (sents ++ [sent]) =
      (carriedOut (carries (sents ++ [sent]))
        [{ action := .index, index, type, docId, doc }]).foldl apply (docs sents)
  delete : ∀ sents sent httpAddr index type docId, sent.customRequest = some (ascii "DELETE") →
    Serves httpAddr → IsSegment index → IsSegment type → IsSegment docId →
    sent.url = docUrl httpAddr index type docId →
    docs (sents ++ [sent]) =
      (carriedOut (carries (sents ++ [sent])) [{ action := .delete, index, type, docId }]).foldl
        apply (docs sents)
  bulk : ∀ sents sent httpAddr body actions, sent.customRequest = none →
    sent.postFields = some body → Serves httpAddr → sent.url = httpAddr ++ esBulk →
    decodeBody json body = some actions →
    docs (sents ++ [sent]) = (carriedOut (carries (sents ++ [sent])) actions).foldl apply
      (docs sents)

/-! ## Calls -/

/-- A call of an operation on documents. -/
inductive StoreCall where
  | createDoc (clock : Clock) (index type : Bytes) (doc : Value)
  | insertDoc (clock : Clock) (index type docId : Bytes) (doc : Value)
  | deleteDoc (clock : Clock) (index type docId : Bytes)
  | analyze (clock : Clock) (index analyzer str : Bytes) (res : Value)
  | addBulkactionToQueue (action : ElasticsearchBulkAction)
  | processBulkactionQueue (clock : Clock) (res : Bytes) (actionsLimit : UInt32)

namespace StoreCall

/-- The client after a call, and whether it returned. -/
def perform (net : Net) (json : JsonLib) (c : ElasticsearchClient) :
    StoreCall → ElasticsearchClient × Bool
  | createDoc clock index type doc =>
    let r := c.createDoc net json clock index type doc
    (r.1, r.2.isOk)
  | insertDoc clock index type docId doc =>
    let r := c.insertDoc net json clock index type docId doc
    (r.1, r.2.isOk)
  | deleteDoc clock index type docId =>
    let r := c.deleteDoc net json clock index type docId
    (r.1, r.2.isOk)
  | analyze clock index analyzer str res =>
    let r := c.analyze net json clock index analyzer str res
    (r.1, r.2.isOk)
  | addBulkactionToQueue action => (c.addBulkactionToQueue action, true)
  | processBulkactionQueue clock res actionsLimit =>
    let r := c.processBulkactionQueue net json clock res actionsLimit
    (r.1, r.2.isOk)

/-- What a call does to the documents and the queue, if these of its actions are carried out. -/
def effect {σ : Type} (apply : σ → ElasticsearchBulkAction → σ) (readBack : Value → Value)
    (carried : Nat → Bool) (s : σ × List ElasticsearchBulkAction) :
    StoreCall → σ × List ElasticsearchBulkAction
  | createDoc _ index type doc =>
    ((carriedOut carried [{ action := .index, index, type, doc := readBack doc }]).foldl apply s.1,
      s.2)
  | insertDoc _ index type docId doc =>
    ((carriedOut carried [{ action := .index, index, type, docId, doc := readBack doc }]).foldl
      apply s.1, s.2)
  | deleteDoc _ index type docId =>
    ((carriedOut carried [{ action := .delete, index, type, docId }]).foldl apply s.1, s.2)
  | analyze .. => s
  | addBulkactionToQueue action => (s.1, s.2 ++ [action])
  | processBulkactionQueue _ _ actionsLimit =>
    let n := batchSize actionsLimit s.2.length
    ((carriedOut carried ((s.2.take n).map (recovered readBack))).foldl apply s.1, s.2.drop n)

/-- What is relied on for an action: it names something, and what is written of it is read back. -/
structure Queueable (json : JsonLib) (readBack : Value → Value) (a : ElasticsearchBulkAction) :
    Prop where
  named : a.Named
  lines : ∀ v ∈ a.metadata :: a.sources id, WritesLine json readBack v

/-- What is relied on for a call: names are segments, and what is written is read back. -/
def Admissible (json : JsonLib) (readBack : Value → Value) : StoreCall → Prop
  | createDoc _ index type doc => IsSegment index ∧ IsSegment type ∧ WritesLine json readBack doc
  | insertDoc _ index type docId doc =>
    IsSegment index ∧ IsSegment type ∧ IsSegment docId ∧ WritesLine json readBack doc
  | deleteDoc _ index type docId => IsSegment index ∧ IsSegment type ∧ IsSegment docId
  | analyze _ index _ _ _ => IsSegment index
  | addBulkactionToQueue action => Queueable json readBack action
  | processBulkactionQueue .. => True

end StoreCall

/-- A call, whether it returned, and which actions of its request were carried out. -/
structure StoreEvent where
  call : StoreCall
  returned : Bool
  carried : Nat → Bool

/-- A call on the client. -/
def ClientStep {σ : Type} {apply : σ → ElasticsearchBulkAction → σ} (net : Net) (json : JsonLib)
    (cluster : Cluster json σ apply) (readBack : Value → Value) (c : ElasticsearchClient)
    (e : StoreEvent) (c' : ElasticsearchClient) : Prop :=
  e.call.Admissible json readBack ∧ e.call.perform net json c = (c', e.returned) ∧
    e.carried = cluster.carries c'.transfers.sent

/-- A call on the documents and the queue: it has its effect if it returned. -/
def StoreStep {σ : Type} (apply : σ → ElasticsearchBulkAction → σ) (readBack : Value → Value)
    (s : σ × List ElasticsearchBulkAction) (e : StoreEvent)
    (s' : σ × List ElasticsearchBulkAction) : Prop :=
  s' = if e.returned then e.call.effect apply readBack e.carried s else s

/-! ## What a discovery sends -/

namespace ElasticsearchClient

variable {net : Net} {json : JsonLib} {c c' c'' : ElasticsearchClient}

/-- From `c` to `c'` the client sends requests without a method of their own and without a body, and
leaves no parameter staged. -/
structure Asks (c c' : ElasticsearchClient) : Prop where
  sent : ∃ gets, c'.transfers.sent = c.transfers.sent ++ gets ∧
    ∀ r ∈ gets, r.customRequest = none ∧ r.postFields = none
  uriParams : c.transfers.client.uriParams = ∅ → c'.transfers.client.uriParams = ∅

theorem Asks.refl (c : ElasticsearchClient) : Asks c c :=
  ⟨⟨[], (List.append_nil _).symm, fun _ h => absurd h List.not_mem_nil⟩, id⟩

theorem Asks.trans (h : Asks c c') (h' : Asks c' c'') : Asks c c'' := by
  obtain ⟨gets, hsent, hgets⟩ := h.sent
  obtain ⟨gets', hsent', hgets'⟩ := h'.sent
  refine ⟨⟨gets ++ gets', by rw [hsent', hsent, List.append_assoc], ?_⟩, h'.uriParams ∘ h.uriParams⟩
  exact List.forall_mem_append.mpr ⟨hgets, hgets'⟩

theorem asks_getJson {query : Query} {res : Value} (hmethod : query.method = .get)
    (hdata : query.postData = []) : Asks c (c.getJson net json query res).1 := by
  refine ⟨⟨[c.transfers.prepareJsonQuery.next net query], rfl, ?_⟩, fun _ => rfl⟩
  refine List.forall_mem_singleton.mpr ⟨?_, ?_⟩
  · change HTTPClient.customRequest query.method = none
    rw [hmethod]
    rfl
  · rw [Transfers.postFields_next (t := c.transfers.prepareJsonQuery) c.formParams_eq, hdata]
    rfl

theorem asks_readClusterState : Asks c (c.readClusterState net json).1 := by
  have hfirst : Asks c (c.getJson net json { url := c.initUrl ++ esUrlClusterState } .null).1 :=
    asks_getJson rfl rfl
  unfold readClusterState
  dsimp only
  split
  · exact hfirst
  · exact hfirst
  · have hname (name : Bytes) : Asks c { (c.getJson net json
        { url := c.initUrl ++ esUrlClusterState } .null).1 with clusterName := name } :=
      ⟨hfirst.sent, hfirst.uriParams⟩
    split
    · exact (hname _).trans (asks_getJson rfl rfl)
    · exact (hname _).trans (asks_getJson rfl rfl)
    · exact (hname _).trans (asks_getJson rfl rfl)

theorem asks_discoverNode (members : List (Bytes × Value)) (member : Bytes) :
    Asks c (c.discoverNode net json members member).1 := by
  have haddress : Asks c
      (c.findAddress net json member ((findMember member members).getD .null)).1 := by
    unfold findAddress
    split
    · exact Asks.refl c
    · exact Asks.refl c
    · exact asks_getJson rfl rfl
  unfold discoverNode
  dsimp only
  split
  · rename_i heq
    rw [heq] at haddress
    exact haddress
  · rename_i heq
    rw [heq] at haddress
    split
    · exact haddress
    · exact ⟨haddress.sent, haddress.uriParams⟩

theorem asks_discoverNodes (members : List (Bytes × Value)) :
    ∀ (names : List Bytes) (c : ElasticsearchClient),
      Asks c (discoverNodes net json members c names).1
  | [], c => Asks.refl c
  | member :: rest, c => by
    have hone := @asks_discoverNode net json c members member
    rw [discoverNodes]
    split
    · rename_i heq
      rw [heq] at hone
      exact hone
    · rename_i heq
      rw [heq] at hone
      exact hone.trans (asks_discoverNodes members rest _)

/-- **A discovery** asks, and does nothing else. -/
theorem asks_discoverCluster (discovered : Int) :
    Asks c (c.discoverCluster net json discovered).1 := by
  have hread := @asks_readClusterState net json c
  unfold discoverCluster
  split
  · rename_i heq
    rw [heq] at hread
    exact hread
  · rename_i c' members heq
    rw [heq] at hread
    have hloop := hread.trans (@asks_discoverNodes net json members (members.map Prod.fst) c')
    split
    · rename_i heq'
      rw [heq'] at hloop
      exact hloop
    · rename_i heq'
      rw [heq'] at hloop
      exact ⟨hloop.sent, hloop.uriParams⟩

/-! ## The node of a call -/

/-- The client knows `node` before all others, and has no parameter staged. -/
structure Knows (node : ElasticsearchNode) (c : ElasticsearchClient) : Prop where
  nodes : ∃ rest, c.nodes = node :: rest
  uriParams : c.transfers.client.uriParams = ∅

variable {node : ElasticsearchNode}

theorem Knows.firstNode (h : Knows node c) : c.firstNode = .ok node := by
  obtain ⟨rest, hnodes⟩ := h.nodes
  rw [ElasticsearchClient.firstNode, hnodes]

theorem Knows.extends {found : List ElasticsearchNode} (h : Knows node c)
    (hext : c.Extends found c') (hasks : Asks c c') : Knows node c' := by
  obtain ⟨rest, hnodes⟩ := h.nodes
  exact ⟨⟨rest ++ found, by rw [hext.nodes, hnodes]; rfl⟩, hasks.uriParams h.uriParams⟩

/-- **The node of a call** is the first one, whatever is discovered; a call that throws has only
asked. -/
theorem getFreshNode_first (h : Knows node c) (clock : Clock) :
    ∃ c' outcome, c.getFreshNode net json clock = (c', outcome) ∧ Asks c c' ∧ Knows node c' ∧
      c'.bulkQueue = c.bulkQueue ∧ (outcome = .ok node ∨ ∃ e, outcome = .error e) := by
  rcases c.getFreshNode_cases net json clock with
    ⟨-, heq⟩ | ⟨-, found, c', hext, ⟨e, heq, hdiscover, -⟩ | ⟨members, heq, hdiscover, -, -⟩⟩
  · exact ⟨c, _, heq, Asks.refl c, h, rfl, .inl h.firstNode⟩
  · have hasks := @asks_discoverCluster net json c clock.discovered
    rw [hdiscover] at hasks
    exact ⟨c', _, heq, hasks, h.extends hext hasks, hext.queue, .inr ⟨e, rfl⟩⟩
  · have hasks := @asks_discoverCluster net json c clock.discovered
    rw [hdiscover] at hasks
    have hasks' : Asks c c' := ⟨hasks.sent, hasks.uriParams⟩
    have hknows := h.extends hext hasks'
    exact ⟨_, _, heq, hasks, ⟨hknows.nodes, hknows.uriParams⟩, hext.queue, .inl hknows.firstNode⟩

/-- An operation throws after it has asked, or works on the first node. -/
theorem onFreshNode_first {α : Type} (h : Knows node c) (clock : Clock)
    (k : ElasticsearchClient → ElasticsearchNode → ElasticsearchClient × α) :
    ∃ c', Asks c c' ∧ Knows node c' ∧ c'.bulkQueue = c.bulkQueue ∧
      ((∃ e, c.onFreshNode net json clock k = (c', .error e)) ∨
        c.onFreshNode net json clock k = ((k c' node).1, .ok (k c' node).2)) := by
  obtain ⟨c', outcome, heq, hasks, hknows, hqueue, rfl | ⟨e, rfl⟩⟩ :=
    @getFreshNode_first net json c node h clock
  · exact ⟨c', hasks, hknows, hqueue, .inr (by rw [onFreshNode, heq])⟩
  · exact ⟨c', hasks, hknows, hqueue, .inl ⟨e, by rw [onFreshNode, heq]⟩⟩

end ElasticsearchClient

/-! ## The documents after a call -/

namespace Cluster

open ElasticsearchClient StoreCall

variable {net : Net} {json : JsonLib} {σ : Type} {apply : σ → ElasticsearchBulkAction → σ}
  {readBack : Value → Value} {node : ElasticsearchNode} {c c' : ElasticsearchClient}

/-- The documents, and the queue. -/
def view (cluster : Cluster json σ apply) (c : ElasticsearchClient) :
    σ × List ElasticsearchBulkAction :=
  (cluster.docs c.transfers.sent, c.bulkQueue)

variable (cluster : Cluster json σ apply)

theorem docs_of_gets (sents : List SentRequest) {gets : List SentRequest}
    (h : ∀ r ∈ gets, r.customRequest = none ∧ r.postFields = none) :
    cluster.docs (sents ++ gets) = cluster.docs sents := by
  induction gets using List.reverseRecOn with
  | nil => rw [List.append_nil]
  | append_singleton gets sent ih =>
    obtain ⟨hgets, hsent⟩ := List.forall_mem_append.mp h
    obtain ⟨hmethod, hbody⟩ := List.forall_mem_singleton.mp hsent
    rw [← List.append_assoc, cluster.get _ _ hmethod hbody, ih hgets]

theorem view_of_asks (h : c.Asks c') (hqueue : c'.bulkQueue = c.bulkQueue) :
    cluster.view c' = cluster.view c := by
  obtain ⟨gets, hsent, hgets⟩ := h.sent
  rw [view, view, hsent, hqueue, cluster.docs_of_gets _ hgets]

/-- An operation on a node has its effect, or throws and has none. -/
theorem view_onFreshNode {α : Type} (h : Knows node c) (clock : Clock)
    {k : ElasticsearchClient → ElasticsearchNode → ElasticsearchClient × α}
    {f : (Nat → Bool) → σ × List ElasticsearchBulkAction → σ × List ElasticsearchBulkAction}
    (hk : ∀ c', Knows node c' → c'.bulkQueue = c.bulkQueue → Knows node (k c' node).1 ∧
      cluster.view (k c' node).1 =
        f (cluster.carries (k c' node).1.transfers.sent) (cluster.view c')) :
    let r := c.onFreshNode net json clock k
    Knows node r.1 ∧ cluster.view r.1 =
      if r.2.isOk then f (cluster.carries r.1.transfers.sent) (cluster.view c)
      else cluster.view c := by
  obtain ⟨c', hasks, hknows, hqueue, ⟨e, heq⟩ | heq⟩ :=
    @onFreshNode_first net json c node α h clock k
  · rw [heq]
    exact ⟨hknows, cluster.view_of_asks hasks hqueue⟩
  · rw [heq]
    obtain ⟨hknows', hview⟩ := hk c' hknows hqueue
    exact ⟨hknows', hview.trans (congrArg (f _) (cluster.view_of_asks hasks hqueue))⟩

/-! ### One request -/

theorem nul_not_mem_segment {s : Bytes} (h : IsSegment s) : 0 ∉ s :=
  fun hmem => absurd (h.unreserved 0 hmem) (by decide)

theorem nul_not_mem_docUrl {index type docId : Bytes} (hnode : 0 ∉ node.httpAddr)
    (hindex : IsSegment index) (htype : IsSegment type) (hid : 0 ∉ docId) :
    0 ∉ docUrl node.httpAddr index type docId := by
  have hslash : 0 ∉ ascii "/" := by decide
  simp only [docUrl, List.mem_append, not_or]
  exact ⟨⟨⟨⟨⟨⟨hnode, hslash⟩, nul_not_mem_segment hindex⟩, hslash⟩, nul_not_mem_segment htype⟩,
    hslash⟩, hid⟩

theorem url_request (h : Knows node c) {query : Query} (hurl : 0 ∉ query.url) :
    (c.transfers.next net query).url = query.url :=
  (Transfers.url_next h.uriParams query).trans (cStr_of_not_mem hurl)

theorem postFields_write {v : Value} {query : Query} (hjson : ∀ v, 0 ∉ json.write v)
    (hline : WritesLine json readBack v) (hdata : query.postData = json.write v) :
    (c.transfers.next net query).postFields = some (json.write v) := by
  obtain ⟨line, -, hwrite⟩ := hline.line
  have hne : (json.write v).isEmpty = false := by
    rw [hwrite]
    exact List.isEmpty_eq_false_iff.mpr (List.append_ne_nil_of_right_ne_nil line (by decide))
  rw [Transfers.postFields_next c.formParams_eq, hdata, hne, cStr_of_not_mem (hjson v)]
  rfl

/-! ### The operations -/

theorem view_createDoc (hnode : cluster.Serves node.httpAddr) (hjson : ∀ v, 0 ∉ json.write v)
    (h : Knows node c) (clock : Clock) {index type : Bytes} {doc : Value}
    (hadm : (createDoc clock index type doc).Admissible json readBack) :
    let r := c.createDoc net json clock index type doc
    Knows node r.1 ∧ cluster.view r.1 =
      if r.2.isOk then (createDoc clock index type doc).effect apply readBack
        (cluster.carries r.1.transfers.sent) (cluster.view c)
      else cluster.view c := by
  obtain ⟨hindex, htype, hdoc⟩ := hadm
  refine cluster.view_onFreshNode
    (f := fun carried s => (createDoc clock index type doc).effect apply readBack carried s)
    h clock fun c' hknows _ => ⟨⟨hknows.nodes, rfl⟩, ?_⟩
  have hurl : 0 ∉ docUrl node.httpAddr index type [] :=
    nul_not_mem_docUrl (cluster.address _ hnode).2 hindex htype List.not_mem_nil
  refine Prod.ext (cluster.create _ _ node.httpAddr index type (json.write doc) _ rfl
    (postFields_write hjson hdoc rfl) hnode hindex htype ?_ hdoc.read) rfl
  rw [docUrl, List.append_nil] at hurl ⊢
  exact url_request hknows hurl

theorem view_insertDoc (hnode : cluster.Serves node.httpAddr) (hjson : ∀ v, 0 ∉ json.write v)
    (h : Knows node c) (clock : Clock) {index type docId : Bytes} {doc : Value}
    (hadm : (insertDoc clock index type docId doc).Admissible json readBack) :
    let r := c.insertDoc net json clock index type docId doc
    Knows node r.1 ∧ cluster.view r.1 =
      if r.2.isOk then (insertDoc clock index type docId doc).effect apply readBack
        (cluster.carries r.1.transfers.sent) (cluster.view c)
      else cluster.view c := by
  obtain ⟨hindex, htype, hid, hdoc⟩ := hadm
  refine cluster.view_onFreshNode
    (f := fun carried s => (insertDoc clock index type docId doc).effect apply readBack carried s)
    h clock fun c' hknows _ => ⟨⟨hknows.nodes, rfl⟩, ?_⟩
  have hurl : 0 ∉ docUrl node.httpAddr index type docId :=
    nul_not_mem_docUrl (cluster.address _ hnode).2 hindex htype (nul_not_mem_segment hid)
  exact Prod.ext (cluster.insert _ _ node.httpAddr index type docId (json.write doc) _ rfl
    (postFields_write hjson hdoc rfl) hnode hindex htype hid (url_request hknows hurl) hdoc.read)
    rfl

theorem view_deleteDoc (hnode : cluster.Serves node.httpAddr) (h : Knows node c) (clock : Clock)
    {index type docId : Bytes}
    (hadm : (deleteDoc clock index type docId).Admissible json readBack) :
    let r := c.deleteDoc net json clock index type docId
    Knows node r.1 ∧ cluster.view r.1 =
      if r.2.isOk then (deleteDoc clock index type docId).effect apply readBack
        (cluster.carries r.1.transfers.sent) (cluster.view c)
      else cluster.view c := by
  obtain ⟨hindex, htype, hid⟩ := hadm
  refine cluster.view_onFreshNode
    (f := fun carried s => (deleteDoc clock index type docId).effect apply readBack carried s)
    h clock fun c' hknows _ => ⟨⟨hknows.nodes, rfl⟩, ?_⟩
  have hurl : 0 ∉ docUrl node.httpAddr index type docId :=
    nul_not_mem_docUrl (cluster.address _ hnode).2 hindex htype (nul_not_mem_segment hid)
  exact Prod.ext (cluster.delete _ _ node.httpAddr index type docId rfl hnode hindex htype hid
    (url_request hknows hurl)) rfl

theorem view_analyze (hnode : cluster.Serves node.httpAddr) (h : Knows node c) (clock : Clock)
    {index : Bytes} (analyzer str : Bytes) (res : Value) (hindex : IsSegment index) :
    let r := c.analyze net json clock index analyzer str res
    Knows node r.1 ∧ cluster.view r.1 = if r.2.isOk then cluster.view c else cluster.view c := by
  refine cluster.view_onFreshNode (f := fun _ s => s) h clock
    fun c' hknows _ => ⟨⟨hknows.nodes, rfl⟩, ?_⟩
  have hurl : 0 ∉ node.httpAddr ++ ascii "/" ++ index ++ esAnalyze := by
    simp only [List.mem_append, not_or]
    exact ⟨⟨⟨(cluster.address _ hnode).2, by decide⟩, nul_not_mem_segment hindex⟩, by decide⟩
  refine Prod.ext ?_ rfl
  refine cluster.analyze _ _ node.httpAddr index ?_ hnode hindex
    ((Transfers.url_next (t := c'.transfers.prepareJsonQuery) hknows.uriParams _).trans ?_)
  · dsimp only
    split <;> rfl
  · dsimp only
    split <;> exact cStr_of_not_mem hurl

/-- What is written for actions is read as what can be recovered of them. -/
theorem decodeBody_texts (hback : ReadsBack readBack) {actions : List ElasticsearchBulkAction}
    (h : ∀ a ∈ actions, Queueable json readBack a) :
    decodeBody json (texts json actions) = some (actions.map (recovered readBack)) := by
  have hwritten : ∀ v ∈ written actions, WritesLine json readBack v := fun v hv => by
    obtain ⟨a, ha, hv⟩ := List.mem_flatMap.mp hv
    exact (h a ha).lines v hv
  have hnamed : ∀ a ∈ actions, a.Named := fun a ha => (h a ha).named
  have hformat : HasFormat readBack actions _ := hasFormat_written_iff.mpr hnamed
  rw [decodeBody, readLines_texts hwritten, map_written hback]
  exact decodeActions_of_hasFormat hformat _ (length_le_of_hasFormat hformat)

/-- The text of an action is not empty. -/
theorem text_ne_nil {a : ElasticsearchBulkAction} (h : Queueable json readBack a) :
    a.text json ≠ [] := by
  obtain ⟨line, -, hwrite⟩ := (h.lines a.metadata List.mem_cons_self).line
  rw [ElasticsearchBulkAction.text, hwrite]
  exact List.append_ne_nil_of_left_ne_nil (List.append_ne_nil_of_right_ne_nil line (by decide)) _

theorem view_processBulkactionQueue (hnode : cluster.Serves node.httpAddr)
    (hjson : ∀ v, 0 ∉ json.write v) (hback : ReadsBack readBack) (h : Knows node c)
    (hqueue : ∀ a ∈ c.bulkQueue, Queueable json readBack a) (clock : Clock) (res : Bytes)
    (actionsLimit : UInt32) :
    let r := c.processBulkactionQueue net json clock res actionsLimit
    Knows node r.1 ∧ cluster.view r.1 =
      if r.2.isOk then (processBulkactionQueue clock res actionsLimit).effect apply readBack
        (cluster.carries r.1.transfers.sent) (cluster.view c)
      else cluster.view c := by
  refine cluster.view_onFreshNode (f := fun carried s =>
      (processBulkactionQueue clock res actionsLimit).effect apply readBack carried s)
    h clock fun c' hknows hsame => ⟨⟨hknows.nodes, rfl⟩, ?_⟩
  rw [bulkLoop_eq]
  refine Prod.ext ?_ rfl
  have hbatch : ∀ a ∈ c'.bulkQueue.take (batchSize actionsLimit c'.bulkQueue.length),
      Queueable json readBack a := fun a ha => hqueue a (hsame ▸ List.mem_of_mem_take ha)
  have hurl : 0 ∉ node.httpAddr ++ esBulk :=
    List.not_mem_append (cluster.address _ hnode).2 (by decide)
  dsimp only [view, effect]
  generalize c'.bulkQueue.take (batchSize actionsLimit c'.bulkQueue.length) = batch at hbatch ⊢
  cases batch with
  | nil => exact cluster.get _ _ rfl (Transfers.postFields_next c'.formParams_eq)
  | cons a rest =>
    have hne : (texts json (a :: rest)).isEmpty = false :=
      List.isEmpty_eq_false_iff.mpr (List.append_ne_nil_of_left_ne_nil
        (text_ne_nil (List.forall_mem_cons.mp hbatch).1) _)
    refine cluster.bulk _ _ node.httpAddr (texts json (a :: rest)) _ rfl ?_ hnode
      (url_request hknows hurl) (decodeBody_texts hback hbatch)
    refine (Transfers.postFields_next c'.formParams_eq).trans ?_
    rw [hne, cStr_of_not_mem (not_mem_texts hjson _)]
    rfl

/-! ### Any calls -/

/-- A call has its effect, or throws and has none. -/
theorem view_perform (hnode : cluster.Serves node.httpAddr) (hjson : ∀ v, 0 ∉ json.write v)
    (hback : ReadsBack readBack) (h : Knows node c)
    (hqueue : ∀ a ∈ c.bulkQueue, Queueable json readBack a) (call : StoreCall)
    (hadm : call.Admissible json readBack) :
    let r := call.perform net json c
    Knows node r.1 ∧ cluster.view r.1 =
      if r.2 then call.effect apply readBack (cluster.carries r.1.transfers.sent) (cluster.view c)
      else cluster.view c := by
  cases call with
  | createDoc clock index type doc => exact cluster.view_createDoc hnode hjson h clock hadm
  | insertDoc clock index type docId doc => exact cluster.view_insertDoc hnode hjson h clock hadm
  | deleteDoc clock index type docId => exact cluster.view_deleteDoc hnode h clock hadm
  | analyze clock index analyzer str res =>
    exact cluster.view_analyze hnode h clock analyzer str res hadm
  | addBulkactionToQueue action => exact ⟨⟨h.nodes, h.uriParams⟩, rfl⟩
  | processBulkactionQueue clock res actionsLimit =>
    exact cluster.view_processBulkactionQueue hnode hjson hback h hqueue clock res actionsLimit

/-- The queue holds what was added. -/
theorem queueable_effect {s : σ × List ElasticsearchBulkAction}
    (h : ∀ a ∈ s.2, Queueable json readBack a) {call : StoreCall}
    (hadm : call.Admissible json readBack) (carried : Nat → Bool) :
    ∀ a ∈ (call.effect apply readBack carried s).2, Queueable json readBack a := by
  cases call with
  | addBulkactionToQueue action =>
    exact List.forall_mem_append.mpr ⟨h, List.forall_mem_singleton.mpr hadm⟩
  | processBulkactionQueue => exact fun a ha => h a (List.mem_of_mem_drop ha)
  | createDoc => exact h
  | insertDoc => exact h
  | deleteDoc => exact h
  | analyze => exact h

/-- What is kept between the calls. -/
structure Represents (readBack : Value → Value) (node : ElasticsearchNode)
    (c : ElasticsearchClient) (s : σ × List ElasticsearchBulkAction) : Prop where
  view : cluster.view c = s
  knows : Knows node c
  queue : ∀ a ∈ c.bulkQueue, Queueable json readBack a

theorem simulates (net : Net) (hnode : cluster.Serves node.httpAddr)
    (hjson : ∀ v, 0 ∉ json.write v) (hback : ReadsBack readBack) :
    Simulates (cluster.Represents readBack node) (ClientStep net json cluster readBack)
      (StoreStep apply readBack) := by
  rintro c s ⟨call, returned, carried⟩ c' hrep ⟨hadm, hperform, hcarried⟩
  obtain ⟨hknows, hview⟩ :=
    @view_perform net json σ apply readBack node c cluster hnode hjson hback hrep.knows hrep.queue
      call hadm
  obtain rfl : carried = _ := hcarried
  rw [hperform, hrep.view] at hview
  rw [hperform] at hknows
  have hqueue : ∀ a ∈ s.2, Queueable json readBack a := hrep.view ▸ hrep.queue
  refine ⟨cluster.view c', hview, rfl, hknows, ?_⟩
  change ∀ a ∈ (cluster.view c').2, Queueable json readBack a
  rw [hview]
  cases returned with
  | false => exact hqueue
  | true => exact queueable_effect hqueue hadm _

/-- **The client refines the store.** Any calls of a client that knew a node of the cluster after
its construction are calls on the documents of the cluster and the queue. A call that returns has
the effect of those of its actions that are carried out, each once and in order, and takes a batch
from the queue in any case; a call that throws has no effect. -/
theorem documents_refine (net : Net) (hjson : ∀ v, 0 ∉ json.write v) (hback : ReadsBack readBack)
    (url : Bytes) (discovered : Int) (rest : List ElasticsearchNode) (es : List StoreEvent)
    (hc : construct net json url discovered = some c) (hnodes : c.nodes = node :: rest)
    (hnode : cluster.Serves node.httpAddr)
    (hrun : Trace (ClientStep net json cluster readBack) c es c') :
    Trace (StoreStep apply readBack) (cluster.docs [], []) es
      (cluster.docs c'.transfers.sent, c'.bulkQueue) := by
  have hasks := @asks_discoverCluster net json (undiscovered url) discovered
  have hqueue := (construct_eq hc).1
  unfold construct at hc
  split at hc
  · rename_i c₀ heq
    obtain rfl := Option.some.inj hc
    rw [heq] at hasks
    have hstart : cluster.Represents readBack node c₀ (cluster.docs [], []) := by
      refine ⟨cluster.view_of_asks hasks hqueue, ⟨⟨rest, hnodes⟩, hasks.uriParams rfl⟩, ?_⟩
      rw [hqueue]
      exact fun a ha => absurd ha List.not_mem_nil
    obtain ⟨s', htrace, hend⟩ :=
      (cluster.simulates net hnode hjson hback).trace hstart hrun
    obtain rfl := hend.view
    exact htrace
  · cases hc

end Cluster

/-! ## A cluster that lists its actions -/

/-- The segment after the last slash of a URL, and what stands before that slash. -/
def popSegment (url : Bytes) : Bytes × Bytes :=
  ((url.reverse.takeWhile (· != 47)).reverse, ((url.reverse.dropWhile (· != 47)).drop 1).reverse)

theorem popSegment_append {s : Bytes} (h : 47 ∉ s) (pre : Bytes) :
    popSegment (pre ++ ascii "/" ++ s) = (s, pre) := by
  have hs : ∀ b ∈ s.reverse, (b != 47) = true := fun b hb =>
    bne_iff_ne.mpr fun heq => h (heq ▸ List.mem_reverse.mp hb)
  have hslash : ascii "/" = [47] := rfl
  unfold popSegment
  rw [hslash, List.reverse_append, List.reverse_append, List.takeWhile_append_of_pos hs,
    List.dropWhile_append_of_pos hs]
  simp

theorem slash_not_mem {s : Bytes} (h : IsSegment s) : 47 ∉ s :=
  fun hmem => absurd (h.unreserved 47 hmem) (by decide)

/-- The index and the type in a URL, and what follows them. -/
def readUrl (url : Bytes) : Bytes × Bytes × Bytes :=
  let docId := popSegment url
  let type := popSegment docId.2
  ((popSegment type.2).1, type.1, docId.1)

theorem readUrl_docUrl {index type docId : Bytes} (hindex : IsSegment index)
    (htype : IsSegment type) (hid : 47 ∉ docId) (httpAddr : Bytes) :
    readUrl (docUrl httpAddr index type docId) = (index, type, docId) := by
  rw [readUrl, docUrl, popSegment_append hid, popSegment_append (slash_not_mem htype),
    popSegment_append (slash_not_mem hindex)]

theorem readUrl_endpoint {s : Bytes} (h : 47 ∉ s) (pre : Bytes) :
    (readUrl (pre ++ (ascii "/" ++ s))).2.2 = s := by
  rw [← List.append_assoc]
  exact congrArg Prod.fst (popSegment_append h pre)

/-- The actions a request stands for. -/
def readRequest (json : JsonLib) (sent : SentRequest) : List ElasticsearchBulkAction :=
  let path := readUrl sent.url
  let doc := (json.parse (sent.postFields.getD []) .null).2
  if sent.customRequest = some (ascii "PUT") then
    [{ action := .index, index := path.1, type := path.2.1, docId := path.2.2, doc }]
  else if sent.customRequest = some (ascii "DELETE") then
    [{ action := .delete, index := path.1, type := path.2.1, docId := path.2.2 }]
  else if sent.postFields = none then []
  else if path.2.2 = ascii "_bulk" then (decodeBody json (sent.postFields.getD [])).getD []
  else if path.2.2 = [] then [{ action := .index, index := path.1, type := path.2.1, doc }]
  else []

/-- The actions of all requests, without the one at place `lost.2` of request `lost.1`. -/
def readRequests (json : JsonLib) (lost : Nat × Nat) (sents : List SentRequest) :
    List ElasticsearchBulkAction :=
  (sents.zipIdx 1).flatMap fun p =>
    carriedOut (fun n => (p.2, n) != lost) (readRequest json p.1)

theorem foldl_append_action (s actions : List ElasticsearchBulkAction) :
    actions.foldl (fun s a => s ++ [a]) s = s ++ actions := by
  rw [List.foldl_append_eq_append, ← List.flatMap_def, List.flatMap_singleton']

theorem readRequests_concat {json : JsonLib} {lost : Nat × Nat} {sents : List SentRequest}
    {sent : SentRequest} {actions : List ElasticsearchBulkAction}
    (h : readRequest json sent = actions) : readRequests json lost (sents ++ [sent]) =
      (carriedOut (fun n => ((sents ++ [sent]).length, n) != lost) actions).foldl
        (fun s a => s ++ [a]) (readRequests json lost sents) := by
  rw [foldl_append_action, List.length_append, Nat.add_comm, ← h, readRequests, List.zipIdx_append,
    List.flatMap_append]
  exact congrArg _ (List.flatMap_singleton _ _)

/-- The cluster whose documents are the actions it was sent, and which refuses one of them. -/
def actionLog (json : JsonLib) (lost : Nat × Nat) :
    Cluster json (List ElasticsearchBulkAction) (fun s a => s ++ [a]) where
  Serves httpAddr := httpAddr ≠ [] ∧ 0 ∉ httpAddr
  carries sents n := (sents.length, n) != lost
  docs := readRequests json lost
  address _ h := h
  get sents sent hmethod hbody := by
    have hread : readRequest json sent = [] := by
      simp [readRequest, hmethod, hbody]
    exact readRequests_concat hread
  analyze sents sent httpAddr index hmethod _ _ hurl := by
    have hsegment : (readUrl sent.url).2.2 = ascii "_analyze" :=
      hurl ▸ @readUrl_endpoint (ascii "_analyze") (by decide) (httpAddr ++ ascii "/" ++ index)
    have hread : readRequest json sent = [] := by
      rw [readRequest, hsegment, hmethod, if_neg nofun, if_neg nofun]
      split <;> rfl
    exact readRequests_concat hread
  create sents sent httpAddr index type body doc hmethod hbody _ hindex htype hurl hdoc := by
    have hpath := readUrl_docUrl hindex htype List.not_mem_nil httpAddr
    rw [← hurl] at hpath
    have hread : readRequest json sent = [{ action := .index, index, type, doc }] := by
      simp only [readRequest, hmethod, hbody, hpath, Option.getD_some, hdoc]
      rfl
    exact readRequests_concat hread
  insert sents sent httpAddr index type docId body doc hmethod hbody _ hindex htype hid hurl
      hdoc := by
    have hpath := readUrl_docUrl hindex htype (slash_not_mem hid) httpAddr
    rw [← hurl] at hpath
    have hread : readRequest json sent = [{ action := .index, index, type, docId, doc }] := by
      simp only [readRequest, hmethod, hbody, hpath, Option.getD_some, hdoc, if_true]
    exact readRequests_concat hread
  delete sents sent httpAddr index type docId hmethod _ hindex htype hid hurl := by
    have hpath := readUrl_docUrl hindex htype (slash_not_mem hid) httpAddr
    rw [← hurl] at hpath
    have hread : readRequest json sent = [{ action := .delete, index, type, docId }] := by
      simp only [readRequest, hmethod, hpath]
      rfl
    exact readRequests_concat hread
  bulk sents sent httpAddr body actions hmethod hbody _ hurl hdecode := by
    have hsegment : (readUrl sent.url).2.2 = ascii "_bulk" :=
      hurl ▸ @readUrl_endpoint (ascii "_bulk") (by decide) httpAddr
    have hread : readRequest json sent = actions := by
      simp only [readRequest, hmethod, hbody, hsegment, Option.getD_some, hdecode]
      rfl
    exact readRequests_concat hread

/-- The deletion of the document `2`, and its metadata as a line. -/
def deleteTwo : ElasticsearchBulkAction :=
  { action := .delete, index := ascii "i", type := ascii "t", docId := ascii "2" }

def deleteTwoLine : Bytes :=
  ascii "\x7b\"delete\":\x7b\"_id\":\"2\",\"_index\":\"i\",\"_type\":\"t\"\x7d\x7d"

def emptyLine : Bytes := ascii "\x7b\x7d"

/-- What the reader and the writer make of the values of the run below. -/
def storeJson : JsonLib where
  write
    | .object [] => emptyLine ++ [10]
    | _ => deleteTwoLine ++ [10]
  parse text root :=
    if text = emptyLine ++ [10] then (true, .object [])
    else if text = deleteTwoLine ++ [10] then
      (true, .object [(ascii "delete", .object
        [(ascii "_id", .string (ascii "2")), (ascii "_index", .string (ascii "i")),
          (ascii "_type", .string (ascii "t"))])])
    else oneNodeJson.parse text root

/-- A call that returns, after as many requests in all; the third request is refused. -/
def returnedAfter (requests : Nat) (call : StoreCall) : StoreEvent :=
  ⟨call, true, fun n => (requests, n) != (3, 0)⟩

/-- The insertion of an empty document. -/
def insertOne : StoreCall :=
  .insertDoc ⟨0, 0⟩ (ascii "i") (ascii "t") (ascii "1") (.object [])

/-- A deletion is queued, a document is inserted, once more as the request was refused, and the
queue is processed. -/
def insertThenProcess : List StoreEvent :=
  [returnedAfter 2 (.addBulkactionToQueue deleteTwo), returnedAfter 3 insertOne,
    returnedAfter 4 insertOne, returnedAfter 5 (.processBulkactionQueue ⟨0, 0⟩ [] 0)]

theorem not_mem_storeJson (v : Value) : 0 ∉ storeJson.write v := by
  have hempty : 0 ∉ storeJson.write (.object []) := by decide
  have hdelete : 0 ∉ storeJson.write .null := by decide
  cases v with
  | object ms =>
    cases ms with
    | nil => exact hempty
    | cons => exact hdelete
  | _ => exact hdelete

theorem readsBack_id : ReadsBack id := by
  refine ⟨rfl, fun _ => rfl, fun ms => ?_⟩
  rw [Prod.map_id, List.map_id]
  rfl

theorem documents_refine_insertThenProcess : ∃ orders c c',
    ElasticsearchClient.construct (oneNodeNet orders) storeJson (ascii "http://es") 0 = some c ∧
      Trace (ClientStep (oneNodeNet orders) storeJson (actionLog storeJson (3, 0)) id) c
        insertThenProcess c' ∧
      Trace (StoreStep (fun s a => s ++ [a]) id) ([], []) insertThenProcess
        ((actionLog storeJson (3, 0)).docs c'.transfers.sent, c'.bulkQueue) := by
  have hsegment (s : Bytes) (h : s ∈ [ascii "i", ascii "t", ascii "1"]) : IsSegment s := by
    simp only [List.mem_cons, List.not_mem_nil, or_false] at h
    rcases h with rfl | rfl | rfl <;>
      exact ⟨by decide, by decide, by decide, by decide, List.all_eq_true.mp rfl⟩
  have hempty : WritesLine storeJson id (.object []) := ⟨⟨emptyLine, by decide, rfl⟩, rfl⟩
  have hdelete : StoreCall.Queueable storeJson id deleteTwo :=
    ⟨.inl (by decide), List.forall_mem_singleton.mpr ⟨⟨deleteTwoLine, by decide, rfl⟩, rfl⟩⟩
  have hinsert : insertOne.Admissible storeJson id :=
    ⟨hsegment _ (by simp), hsegment _ (by simp), hsegment _ (by simp), hempty⟩
  have hrun (orders) (c) (hc : ElasticsearchClient.construct (oneNodeNet orders) storeJson
      (ascii "http://es") 0 = some c) : ∃ c', Trace (ClientStep (oneNodeNet orders) storeJson
        (actionLog storeJson (3, 0)) id) c insertThenProcess c' := by
    obtain rfl := Option.some.inj hc
    exact ⟨_, .cons ⟨hdelete, rfl, rfl⟩ (.cons ⟨hinsert, rfl, rfl⟩ (.cons ⟨hinsert, rfl, rfl⟩
      (.cons ⟨trivial, rfl, rfl⟩ (.nil _))))⟩
  obtain ⟨c', hc'⟩ := hrun (fun _ cli => (Orders.nonempty cli).some) _ rfl
  refine ⟨_, _, c', rfl, hc', ?_⟩
  exact Cluster.documents_refine (actionLog storeJson (3, 0)) _ not_mem_storeJson readsBack_id _ 0
    [] _ rfl rfl ⟨by decide, by decide⟩ hc'

end WinterWind.Extras
