import WinterWind.Extras.ElasticsearchClient
import WinterWind.Library.Runs

/-!
# The node list over time (`src/extras/elasticsearchclient.cpp`)

A client from its construction on, with the operations that call `get_fresh_node` at times that do
not decrease. `tick` is the length in seconds of a tick of `system_clock`, one nanosecond on
libstdc++.

* `WatchedClient` records what the list is compared with: the `nodes` object the last discovery
  read, unless it threw; how long after the previous discovery the last operation started one; and
  what `get_fresh_node` last returned.
* `m_nodes` is never cleared, so a rediscovery appends to it. `freshness.count() > 60000` is a
  minute only for a clock that ticks in milliseconds. `m_nodes[0]` is read whether the list has a
  node or not.

Results:
* `effect_of_step`: what an operation does to what is observed.
* **`upToDate_iff`**: the list is the last discovered one, and is discovered again only after a
  minute, exactly when it is discovered again only while it is empty, by an answer with a node, and
  after a minute.
-/

namespace WinterWind.Extras

open Http Library

/-- The operations that call `get_fresh_node`. -/
inductive NodeOperation where
  | createDoc (index type : Bytes) (doc : Value)
  | insertDoc (index type docId : Bytes) (doc : Value)
  | deleteDoc (index type docId : Bytes)
  | analyze (index analyzer str : Bytes) (res : Value)
  | processBulkactionQueue (res : Bytes) (actionsLimit : UInt32)

/-- What a client is used for. -/
inductive NodeEvent where
  | operation (op : NodeOperation) (clock : Clock)
  | addBulkactionToQueue (action : ElasticsearchBulkAction)

/-- A client, the last reading of the clock, and what was observed. -/
structure WatchedClient where
  client : ElasticsearchClient
  time : Int
  /-- The `nodes` object the last `discover_cluster` read, if that returned. -/
  answer : Option (List (Bytes × Value))
  /-- The ticks between the previous discovery and the one the last operation started, if any. -/
  elapsed : Option Int := none
  /-- What the last `get_fresh_node` returned or threw. -/
  returned : Option (Except Thrown ElasticsearchNode) := none

section Discovery

variable (net : Net) (json : JsonLib)

/-- The client after an operation, whether it returns or throws. -/
def NodeOperation.perform (c : ElasticsearchClient) (clock : Clock) :
    NodeOperation → ElasticsearchClient
  | createDoc index type doc => (c.createDoc net json clock index type doc).1
  | insertDoc index type docId doc => (c.insertDoc net json clock index type docId doc).1
  | deleteDoc index type docId => (c.deleteDoc net json clock index type docId).1
  | analyze index analyzer str res => (c.analyze net json clock index analyzer str res).1
  | processBulkactionQueue res actionsLimit =>
    (c.processBulkactionQueue net json clock res actionsLimit).1

/-- The `nodes` object a discovery reads, if the discovery returns. -/
def ElasticsearchClient.answerRead (c : ElasticsearchClient) (discovered : Int) :
    Option (List (Bytes × Value)) :=
  match (c.discoverCluster net json discovered).2 with
  | .ok () => (c.readClusterState net json).2.toOption
  | .error _ => none

namespace WatchedClient

/-- The constructor, at the time `discovered`. -/
def construct (url : Bytes) (discovered : Int) : Option WatchedClient :=
  (ElasticsearchClient.construct net json url discovered).map fun client =>
    { client := client
      time := discovered
      answer := (ElasticsearchClient.undiscovered url).answerRead net json discovered }

/-- One step; the clock does not go back. -/
def step (s : WatchedClient) : NodeEvent → Option WatchedClient
  | .operation op clock =>
    if s.time ≤ clock.now ∧ clock.now ≤ clock.discovered then
      some
        { client := op.perform net json s.client clock
          time := clock.discovered
          answer :=
            if s.client.Stale clock.now then s.client.answerRead net json clock.discovered
            else s.answer
          elapsed :=
            if s.client.Stale clock.now then some (clock.now - s.client.lastDiscoveryTime) else none
          returned := some (s.client.getFreshNode net json clock).2 }
    else none
  | .addBulkactionToQueue action =>
    some { s with client := s.client.addBulkactionToQueue action }

/-- More than a minute, in ticks. -/
def OverAMinute (tick : Rat) (ticks : Int) : Prop := 60 < ticks * tick

/-- The list has one node for each member of the last answer, in order, and no other; the node
returned is one of them; a discovery comes more than a minute after the previous one. -/
structure UpToDate (tick : Rat) (s : WatchedClient) : Prop where
  listed : ∀ members, s.answer = some members →
    s.client.nodes.map ElasticsearchNode.techId = members.map Prod.fst
  belongs : ∀ members returned, s.answer = some members → s.returned = some returned →
    ∃ node, returned = .ok node ∧ node.techId ∈ members.map Prod.fst
  late : ∀ ticks, s.elapsed = some ticks → OverAMinute tick ticks

/-- The condition on a step: the nodes are discovered again only after more than a minute, by an
answer with a node, and, unless the discovery throws, while the list is empty; and they are used
only when there is one. -/
def Refreshable (tick : Rat) (s : WatchedClient) : NodeEvent → Prop
  | .operation _ clock =>
    if s.client.Stale clock.now then
      OverAMinute tick (clock.now - s.client.lastDiscoveryTime) ∧
        (s.client.readClusterState net json).2 ≠ .ok [] ∧
        (s.client.answerRead net json clock.discovered ≠ none → s.client.nodes = [])
    else s.client.nodes ≠ []
  | .addBulkactionToQueue _ => True

end WatchedClient

variable {net json} {c : ElasticsearchClient}

/-! ## One call -/

/-- An operation leaves the list as `get_fresh_node` does. -/
theorem NodeOperation.nodes_perform (op : NodeOperation) (clock : Clock) :
    (op.perform net json c clock).nodes = (c.getFreshNode net json clock).1.nodes ∧
      (op.perform net json c clock).lastDiscoveryTime =
        (c.getFreshNode net json clock).1.lastDiscoveryTime := by
  cases op with
  | createDoc => exact ElasticsearchClient.nodes_onFreshNode fun _ _ => ⟨rfl, rfl⟩
  | insertDoc => exact ElasticsearchClient.nodes_onFreshNode fun _ _ => ⟨rfl, rfl⟩
  | deleteDoc => exact ElasticsearchClient.nodes_onFreshNode fun _ _ => ⟨rfl, rfl⟩
  | analyze => exact ElasticsearchClient.nodes_onFreshNode fun _ _ => ⟨rfl, rfl⟩
  | processBulkactionQueue => exact ElasticsearchClient.nodes_onFreshNode fun _ _ => ⟨rfl, rfl⟩

theorem ElasticsearchClient.answerRead_of_error {discovered : Int} {e : Thrown}
    {c' : ElasticsearchClient} (h : c.discoverCluster net json discovered = (c', .error e)) :
    c.answerRead net json discovered = none := by
  rw [answerRead, h]

theorem ElasticsearchClient.answerRead_of_ok {discovered : Int} {members : List (Bytes × Value)}
    {c' : ElasticsearchClient} (h : c.discoverCluster net json discovered = (c', .ok ()))
    (hread : (c.readClusterState net json).2 = .ok members) :
    c.answerRead net json discovered = some members := by
  rw [answerRead, h, hread]
  rfl

/-! ## The runs -/

namespace WatchedClient

open ElasticsearchClient

variable {tick : Rat} {s s' : WatchedClient}

/-- What an operation does to what is observed. -/
inductive Effect (net : Net) (json : JsonLib) (s : WatchedClient) (clock : Clock)
    (s' : WatchedClient) : Prop where
  /-- The nodes are not discovered again. -/
  | kept (hstale : ¬ s.client.Stale clock.now) (nodes : s'.client.nodes = s.client.nodes)
      (answer : s'.answer = s.answer) (elapsed : s'.elapsed = none)
      (returned : s'.returned = some s'.client.firstNode)
  /-- The discovery throws. -/
  | threw (hstale : s.client.Stale clock.now)
      (hread : (s.client.readClusterState net json).2 ≠ .ok [])
      (hanswer : s.client.answerRead net json clock.discovered = none)
      (time : s'.client.lastDiscoveryTime = s.client.lastDiscoveryTime)
      (answer : s'.answer = none)
      (elapsed : s'.elapsed = some (clock.now - s.client.lastDiscoveryTime))
  /-- The discovery returns. -/
  | discovered (hstale : s.client.Stale clock.now) (members : List (Bytes × Value))
      (hread : (s.client.readClusterState net json).2 = .ok members)
      (hanswer : s.client.answerRead net json clock.discovered = some members)
      (nodes : s'.client.nodes.map ElasticsearchNode.techId =
        s.client.nodes.map ElasticsearchNode.techId ++ members.map Prod.fst)
      (answer : s'.answer = some members)
      (elapsed : s'.elapsed = some (clock.now - s.client.lastDiscoveryTime))
      (returned : s'.returned = some s'.client.firstNode)

/-- Every operation has one of these effects, and its clock does not go back. -/
theorem effect_of_step {op : NodeOperation} {clock : Clock}
    (hs : step net json s (.operation op clock) = some s') :
    (s.time ≤ clock.now ∧ clock.now ≤ s'.time) ∧ Effect net json s clock s' := by
  simp only [step] at hs
  split at hs
  · rename_i htime
    obtain rfl := Option.some.inj hs
    obtain ⟨hnodes, hlast⟩ := @NodeOperation.nodes_perform net json s.client op clock
    refine ⟨htime, ?_⟩
    rcases getFreshNode_cases net json s.client clock with
      ⟨hstale, heq⟩ | ⟨hstale, found, c', hext, ⟨e, heq, hdiscover, hread⟩ |
        ⟨members, heq, hdiscover, hread, hnames⟩⟩
    · rw [heq] at hnodes
      exact .kept hstale hnodes (if_neg hstale) (if_neg hstale)
        (by rw [heq]; exact congrArg some (firstNode_congr hnodes.symm))
    · rw [heq] at hlast
      have hanswer := answerRead_of_error hdiscover
      exact .threw hstale hread hanswer (hlast.trans hext.time)
        ((if_pos hstale).trans hanswer) (if_pos hstale)
    · rw [heq] at hnodes
      have hanswer := answerRead_of_ok hdiscover hread
      refine .discovered hstale members hread hanswer ?_ ((if_pos hstale).trans hanswer)
        (if_pos hstale) (by rw [heq]; exact congrArg some (firstNode_congr hnodes.symm))
      rw [hnodes]
      dsimp only
      rw [hext.nodes, List.map_append, hnames]
  · cases hs

/-- The list is up to date; after a discovery that threw, the next operation starts another. -/
structure Inv (tick : Rat) (s : WatchedClient) : Prop extends UpToDate tick s where
  pending : s.answer = none → s.client.Stale s.time

/-- When the nodes are not discovered again, the last discovery returned. -/
theorem Inv.exists_answer {now : Int} (h : Inv tick s) (htime : s.time ≤ now)
    (hstale : ¬ s.client.Stale now) : ∃ members, s.answer = some members := by
  refine Option.ne_none_iff_exists'.mp fun hnone => hstale ?_
  have hpending := h.pending hnone
  unfold Stale at hpending ⊢
  omega

/-- A list that has a node, one for each member of the answer, is up to date. -/
theorem upToDate_of_listed {members : List (Bytes × Value)} (hanswer : s.answer = some members)
    (hlisted : s.client.nodes.map ElasticsearchNode.techId = members.map Prod.fst)
    (hne : s.client.nodes ≠ []) (hreturned : s.returned = some s.client.firstNode)
    (hlate : ∀ ticks, s.elapsed = some ticks → OverAMinute tick ticks) : Inv tick s where
  listed := fun members' hm => by
    obtain rfl := Option.some.inj (hanswer.symm.trans hm)
    exact hlisted
  belongs := fun members' returned hm hr => by
    obtain rfl := Option.some.inj (hanswer.symm.trans hm)
    obtain rfl := Option.some.inj (hreturned.symm.trans hr)
    obtain ⟨node, hmem, hfirst⟩ := firstNode_of_ne_nil hne
    exact ⟨node, hfirst, hlisted ▸ List.mem_map_of_mem hmem⟩
  late := hlate
  pending := fun hnone => absurd (hanswer.symm.trans hnone) nofun

/-- A step that meets the condition keeps the list up to date. -/
theorem inv_step {e : NodeEvent} (h : Inv tick s) (hs : step net json s e = some s')
    (hok : Refreshable net json tick s e) : Inv tick s' := by
  cases e with
  | addBulkactionToQueue action =>
    obtain rfl := Option.some.inj hs
    exact ⟨⟨h.listed, h.belongs, h.late⟩, h.pending⟩
  | operation op clock =>
    obtain ⟨⟨hbefore, hafter⟩, heffect⟩ := effect_of_step hs
    simp only [Refreshable] at hok
    cases heffect with
    | kept hstale nodes answer elapsed returned =>
      rw [if_neg hstale] at hok
      obtain ⟨members, hanswer⟩ := h.exists_answer hbefore hstale
      refine upToDate_of_listed (answer.trans hanswer) ?_ (nodes ▸ hok) returned
        fun ticks ht => ?_
      · rw [nodes]
        exact h.listed members hanswer
      · exact absurd (elapsed.symm.trans ht) nofun
    | threw hstale hread hanswer time answer elapsed =>
      rw [if_pos hstale] at hok
      refine ⟨⟨fun members hm => ?_, fun members returned hm _ => ?_, fun ticks ht => ?_⟩,
        fun _ => ?_⟩
      · exact absurd (answer.symm.trans hm) nofun
      · exact absurd (answer.symm.trans hm) nofun
      · obtain rfl := Option.some.inj (elapsed.symm.trans ht)
        exact hok.1
      · unfold Stale at hstale ⊢
        omega
    | discovered hstale members hread hanswer nodes answer elapsed returned =>
      rw [if_pos hstale] at hok
      obtain ⟨hlate, hne, hempty⟩ := hok
      rw [hempty (by rw [hanswer]; nofun), List.map_nil, List.nil_append] at nodes
      refine upToDate_of_listed answer nodes (fun hnil => hne ?_) returned fun ticks ht => ?_
      · rw [hnil] at nodes
        rw [hread, List.map_eq_nil_iff.mp nodes.symm]
      · obtain rfl := Option.some.inj (elapsed.symm.trans ht)
        exact hlate

/-- A step that does not meet the condition leaves the list out of date. -/
theorem not_upToDate_of_step {e : NodeEvent} (h : Inv tick s)
    (hs : step net json s e = some s') (hnot : ¬ Refreshable net json tick s e) :
    ¬ UpToDate tick s' := by
  cases e with
  | addBulkactionToQueue action => exact absurd trivial hnot
  | operation op clock =>
    obtain ⟨⟨hbefore, hafter⟩, heffect⟩ := effect_of_step hs
    intro hup
    apply hnot
    simp only [Refreshable]
    cases heffect with
    | kept hstale nodes answer elapsed returned =>
      rw [if_neg hstale]
      intro hnil
      obtain ⟨members, hanswer⟩ := h.exists_answer hbefore hstale
      obtain ⟨node, hnode, -⟩ := hup.belongs members _ (answer.trans hanswer) returned
      rw [firstNode_of_nil (nodes.trans hnil)] at hnode
      cases hnode
    | threw hstale hread hanswer time answer elapsed =>
      rw [if_pos hstale]
      exact ⟨hup.late _ elapsed, hread, fun hsome => absurd hanswer hsome⟩
    | discovered hstale members hread hanswer nodes answer elapsed returned =>
      rw [if_pos hstale]
      refine ⟨hup.late _ elapsed, fun hnil => ?_, fun _ => ?_⟩
      · obtain ⟨node, -, hmem⟩ := hup.belongs members _ answer returned
        rw [Except.ok.inj (hread.symm.trans hnil)] at hmem
        exact absurd hmem List.not_mem_nil
      · have hmap := nodes.symm.trans (hup.listed members answer)
        exact List.map_eq_nil_iff.mp (List.append_left_eq_self.mp hmap)

/-- The constructor leaves an up-to-date list. -/
theorem inv_construct {url : Bytes} {discovered : Int}
    (hs : construct net json url discovered = some s) : Inv tick s := by
  unfold construct at hs
  obtain ⟨client, hclient, rfl⟩ := Option.map_eq_some_iff.mp hs
  unfold ElasticsearchClient.construct at hclient
  unfold answerRead
  obtain ⟨found, c', hext, ⟨e, heq, -⟩ | ⟨members, hread, hnames, heq⟩⟩ :=
    discoverCluster_cases net json (undiscovered url) discovered
  · rw [heq] at hclient
    cases hclient
  · rw [heq] at hclient ⊢
    obtain rfl := Option.some.inj hclient
    rw [hread]
    refine ⟨⟨fun members' hm => ?_, fun _ _ _ hr => ?_, nofun⟩, nofun⟩
    · obtain rfl := Option.some.inj hm
      dsimp only
      rw [hext.nodes, List.map_append, hnames]
      rfl
    · cases hr

end WatchedClient

end Discovery

open WatchedClient

/-- **When the node list is the latest discovered one.** In a run from the constructor on, the list
has one node for each member of the last answer and no other, the node returned belongs to that
answer, and a discovery starts only more than a minute after the previous one, exactly when every
rediscovery starts after more than a minute, reads an answer with a node and, unless it throws,
finds the list empty, and the list is not used empty. -/
theorem upToDate_iff (net : Net) (json : JsonLib) (tick : Rat) (url : Bytes) (discovered : Int)
    (s : WatchedClient) (es : List NodeEvent)
    (hs : WatchedClient.construct net json url discovered = some s) :
    Everywhere (step net json) (UpToDate tick) s es ↔
      Always (step net json) (Refreshable net json tick) s es :=
  everywhere_iff_always (fun _ (h : Inv tick _) => h.toUpToDate)
    (fun _ _ _ h hstep hok => inv_step h hstep hok)
    (fun _ _ _ h hstep hnot => not_upToDate_of_step h hstep hnot) (inv_construct hs)

/-- A document is created 61 s after the construction. -/
def afterAMinute : List NodeEvent :=
  [.operation (.createDoc (ascii "index") (ascii "type") .null) ⟨61000000000, 61000000000⟩]

theorem upToDate_iff_oneNode : ∃ orders s,
    WatchedClient.construct (oneNodeNet orders) oneNodeJson (ascii "http://es") 0 = some s ∧
      (Everywhere (step (oneNodeNet orders) oneNodeJson) (UpToDate (1 / 1000000000)) s
          afterAMinute ↔
        Always (step (oneNodeNet orders) oneNodeJson)
          (Refreshable (oneNodeNet orders) oneNodeJson (1 / 1000000000)) s afterAMinute) :=
  ⟨fun _ cli => (Orders.nonempty cli).some, _, rfl, upToDate_iff _ _ _ _ 0 _ _ rfl⟩

/-- The cluster has one node, and the list has it twice once it is discovered again. -/
theorem not_upToDate_oneNode : ∃ orders s,
    WatchedClient.construct (oneNodeNet orders) oneNodeJson (ascii "http://es") 0 = some s ∧
      ¬ Everywhere (step (oneNodeNet orders) oneNodeJson) (UpToDate (1 / 1000000000)) s
        afterAMinute := by
  refine ⟨fun _ cli => (Orders.nonempty cli).some, _, rfl, fun h => ?_⟩
  have hlisted := (everywhere_last h rfl).listed _ rfl
  exact absurd (congrArg List.length hlisted) (by decide)

end WinterWind.Extras
