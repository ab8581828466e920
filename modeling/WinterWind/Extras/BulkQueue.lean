import WinterWind.Extras.ElasticsearchClient
import WinterWind.Library.Fifo

/-!
# The bulk action queue over time (`src/extras/elasticsearchclient.cpp`)

A client from its construction on, with any calls of `add_bulkaction_to_queue` and
`process_bulkaction_queue`. A call whose discovery throws ends there, and the next ones follow.

* What is posted is what libcurl is given as the body of a request; an empty one is not given.
* libcurl reads the body up to a NUL. `FastWriter` escapes control characters, so it writes none.

Results:
* `bulkLoop_eq`: the loop takes as many actions from the front of the queue as its limit allows.
* `processes`: one call of `process_bulkaction_queue`.
* **`bulkActions_sent`**: actions are posted once and in order.
-/

namespace WinterWind.Extras

open Http Library

/-- The number of actions a call may take from a queue of `n`; 0 stands for no limit. -/
def batchSize (actionsLimit : UInt32) (n : Nat) : Nat :=
  if actionsLimit = 0 then n else min actionsLimit.toNat n

/-- The texts `toJson` appends for each action, in order. -/
def texts (json : JsonLib) (actions : List ElasticsearchBulkAction) : Bytes :=
  actions.flatMap fun a => a.text json

/-- The bodies of the requests sent, in order. -/
def bodies (sent : List SentRequest) : Bytes := sent.flatMap fun r => r.postFields.getD []

theorem bodies_append (sent sent' : List SentRequest) :
    bodies (sent ++ sent') = bodies sent ++ bodies sent' := List.flatMap_append

theorem bodies_of_none {gets : List SentRequest} (h : ∀ r ∈ gets, r.postFields = none) :
    bodies gets = [] := by
  unfold bodies
  refine List.flatMap_eq_nil_iff.mpr fun r hr => ?_
  rw [h r hr]
  rfl

/-! ## The loop -/

section Loop

variable {json : JsonLib} {actionsLimit : UInt32}

theorem bulkLoop_unlimited (queue : List ElasticsearchBulkAction) (processedActions : UInt32)
    (postData : Bytes) :
    bulkLoop json 0 processedActions queue postData = ([], postData ++ texts json queue) := by
  induction queue generalizing processedActions postData with
  | nil => simp [bulkLoop, texts]
  | cons action queue ih =>
    rw [bulkLoop, if_pos (.inl rfl), ih]
    simp [texts, ElasticsearchBulkAction.toJson]

theorem bulkLoop_limited (queue : List ElasticsearchBulkAction) (processedActions : UInt32)
    (postData : Bytes) (hlimit : actionsLimit ≠ 0) (hle : processedActions ≤ actionsLimit) :
    bulkLoop json actionsLimit processedActions queue postData =
      (queue.drop (actionsLimit.toNat - processedActions.toNat),
        postData ++ texts json (queue.take (actionsLimit.toNat - processedActions.toNat))) := by
  induction queue generalizing processedActions postData with
  | nil => simp [bulkLoop, texts]
  | cons action queue ih =>
    rw [bulkLoop]
    by_cases hlt : processedActions < actionsLimit
    · have hnat : processedActions.toNat < actionsLimit.toNat := UInt32.lt_iff_toNat_lt.mp hlt
      have hsucc : (processedActions + 1).toNat = processedActions.toNat + 1 := by
        have := actionsLimit.toNat_lt
        rw [UInt32.toNat_add]
        simp only [UInt32.toNat_one]
        omega
      have hle' : processedActions + 1 ≤ actionsLimit := by
        rw [UInt32.le_iff_toNat_le, hsucc]
        exact hnat
      obtain ⟨k, hk⟩ : ∃ k, actionsLimit.toNat - processedActions.toNat = k + 1 :=
        ⟨actionsLimit.toNat - processedActions.toNat - 1, by omega⟩
      have hk' : actionsLimit.toNat - (processedActions + 1).toNat = k := by omega
      rw [if_pos (.inr hlt), ih _ _ hle', hk, hk']
      simp [texts, ElasticsearchBulkAction.toJson]
    · have hnat : actionsLimit.toNat - processedActions.toNat = 0 := by
        have := mt UInt32.lt_iff_toNat_lt.mpr hlt
        omega
      rw [if_neg (by rintro (h | h); exacts [hlimit h, hlt h]), hnat]
      simp [texts]

/-- **The batch.** The loop takes it from the front and appends its texts. -/
theorem bulkLoop_eq (queue : List ElasticsearchBulkAction) :
    bulkLoop json actionsLimit 0 queue [] =
      (queue.drop (batchSize actionsLimit queue.length),
        texts json (queue.take (batchSize actionsLimit queue.length))) := by
  unfold batchSize
  split
  · rename_i hzero
    subst hzero
    rw [bulkLoop_unlimited, List.drop_length, List.take_length, List.nil_append]
  · rename_i hlimit
    have hle : (0 : UInt32) ≤ actionsLimit := UInt32.le_iff_toNat_le.mpr (Nat.zero_le _)
    rw [bulkLoop_limited queue 0 [] hlimit hle]
    rw [← List.take_eq_take_min, ← List.drop_eq_drop_min, List.nil_append, UInt32.toNat_zero,
      Nat.sub_zero]

end Loop

/-! ## One call -/

section Call

variable {net : Net} {json : JsonLib}

/-- What a call of `process_bulkaction_queue` on `c` must do. If its discovery throws, so does the
call, and it leaves the queue and posts nothing. Otherwise it posts the texts of as many actions as
its limit allows, in one request, and leaves the others. -/
structure Processes (net : Net) (json : JsonLib) (c : ElasticsearchClient) (clock : Clock)
    (actionsLimit : UInt32) (r : ElasticsearchClient × Except Thrown Bytes) : Prop where
  thrown : ∀ e, c.Stale clock.now →
    (c.discoverCluster net json clock.discovered).2 = .error e →
      r.2 = .error e ∧ r.1.bulkQueue = c.bulkQueue ∧
        bodies r.1.transfers.sent = bodies c.transfers.sent
  returned : (c.Stale clock.now → (c.discoverCluster net json clock.discovered).2 = .ok ()) →
    (∃ res, r.2 = .ok res) ∧
      r.1.bulkQueue = c.bulkQueue.drop (batchSize actionsLimit c.bulkQueue.length) ∧
      ∃ gets post, r.1.transfers.sent = c.transfers.sent ++ gets ++ [post] ∧
        (∀ g ∈ gets, g.postFields = none) ∧
        post.postFields.getD [] =
          texts json (c.bulkQueue.take (batchSize actionsLimit c.bulkQueue.length))

/-- No NUL is written for any action. -/
theorem not_mem_texts (hjson : ∀ v, 0 ∉ json.write v) (actions : List ElasticsearchBulkAction) :
    0 ∉ texts json actions := by
  intro h
  obtain ⟨a, -, ha⟩ := List.mem_flatMap.mp h
  rcases List.mem_append.mp ha with h | h
  · exact hjson _ h
  · split at h
    · exact hjson _ h
    · exact hjson _ h
    · exact hjson _ h
    · exact List.not_mem_nil h

/-- A body without NUL is posted as it is. -/
theorem postFields_request {c : ElasticsearchClient} {query : Query} (h : 0 ∉ query.postData) :
    (c.transfers.next net query).postFields.getD [] = query.postData := by
  rw [Transfers.postFields_next c.formParams_eq, cStr_of_not_mem h]
  split
  · rename_i hempty
    rw [List.isEmpty_iff.mp hempty]
    rfl
  · rfl

variable {c c' : ElasticsearchClient} {clock : Clock} {res : Bytes} {actionsLimit : UInt32}

/-- A call that has a node. -/
theorem processes_of_ok {node : ElasticsearchNode} {found : List ElasticsearchNode}
    (hjson : ∀ v, 0 ∉ json.write v) (hext : c.Extends found c')
    {discovered : Int} (hfresh : c.getFreshNode net json clock =
      ({ c' with lastDiscoveryTime := discovered }, .ok node))
    (hdiscover : c.Stale clock.now → (c.discoverCluster net json clock.discovered).2 = .ok ()) :
    Processes net json c clock actionsLimit
      (c.processBulkactionQueue net json clock res actionsLimit) where
  thrown := fun e hstale he => absurd ((hdiscover hstale).symm.trans he) nofun
  returned := fun _ => by
    obtain ⟨gets, hsent, hgets⟩ := hext.sent
    unfold ElasticsearchClient.processBulkactionQueue ElasticsearchClient.onFreshNode
    rw [hfresh]
    dsimp only
    rw [bulkLoop_eq, hext.queue]
    refine ⟨⟨_, rfl⟩, rfl, gets, _, by rw [← hsent]; rfl, hgets, ?_⟩
    exact postFields_request (c := { c' with lastDiscoveryTime := discovered })
      (not_mem_texts hjson _)

/-- **One call of `process_bulkaction_queue`**, on a client that knows a node. -/
theorem processes (hjson : ∀ v, 0 ∉ json.write v) (hnodes : c.nodes ≠ []) :
    Processes net json c clock actionsLimit
      (c.processBulkactionQueue net json clock res actionsLimit) := by
  rcases c.getFreshNode_cases net json clock with
    ⟨hstale, heq⟩ | ⟨hstale, found, c', hext, ⟨e, heq, hdiscover, -⟩ |
      ⟨members, heq, hdiscover, -, -⟩⟩
  · obtain ⟨node, -, hfirst⟩ := ElasticsearchClient.firstNode_of_ne_nil hnodes
    rw [hfirst] at heq
    exact processes_of_ok hjson (ElasticsearchClient.Extends.refl c) heq
      fun h => absurd h hstale
  · refine ⟨fun e' _ he => ?_, fun h => ?_⟩
    · obtain ⟨gets, hsent, hgets⟩ := hext.sent
      rw [hdiscover] at he
      obtain rfl := Except.error.inj he
      unfold ElasticsearchClient.processBulkactionQueue ElasticsearchClient.onFreshNode
      rw [heq]
      refine ⟨rfl, hext.queue, ?_⟩
      rw [hsent, bodies_append, bodies_of_none hgets, List.append_nil]
    · have := h hstale
      rw [hdiscover] at this
      cases this
  · have hne : c'.nodes ≠ [] := by
      rw [hext.nodes]
      exact List.append_ne_nil_of_left_ne_nil hnodes found
    obtain ⟨node, -, hfirst⟩ := ElasticsearchClient.firstNode_of_ne_nil hne
    rw [hfirst] at heq
    refine processes_of_ok hjson hext heq fun _ => ?_
    rw [hdiscover]

end Call

/-! ## Any calls -/

/-- The calls that work on the queue. -/
inductive BulkCall where
  | addBulkactionToQueue (action : ElasticsearchBulkAction)
  | processBulkactionQueue (clock : Clock) (res : Bytes) (actionsLimit : UInt32)

section Calls

variable (net : Net) (json : JsonLib)

/-- The client after a call, whether it returns or throws. -/
def BulkCall.perform (c : ElasticsearchClient) : BulkCall → ElasticsearchClient
  | addBulkactionToQueue action => c.addBulkactionToQueue action
  | processBulkactionQueue clock res actionsLimit =>
    (c.processBulkactionQueue net json clock res actionsLimit).1

def performAll (c : ElasticsearchClient) (calls : List BulkCall) : ElasticsearchClient :=
  calls.foldl (BulkCall.perform net json) c

/-- The actions added, in order. -/
def actionsAdded (calls : List BulkCall) : List ElasticsearchBulkAction :=
  calls.filterMap fun
    | .addBulkactionToQueue action => some action
    | .processBulkactionQueue _ _ _ => none

variable {net json} {c : ElasticsearchClient}

theorem performAll_append (calls : List BulkCall) (call : BulkCall) :
    performAll net json c (calls ++ [call]) =
      call.perform net json (performAll net json c calls) := by
  unfold performAll
  rw [List.foldl_append, List.foldl_cons, List.foldl_nil]

theorem nodes_processBulkactionQueue {clock : Clock} {res : Bytes} {actionsLimit : UInt32}
    (h : c.nodes ≠ []) :
    (c.processBulkactionQueue net json clock res actionsLimit).1.nodes ≠ [] := by
  obtain ⟨found, hfound⟩ := c.exists_nodes_getFreshNode net json clock
  unfold ElasticsearchClient.processBulkactionQueue
  rw [(ElasticsearchClient.nodes_onFreshNode fun _ _ => ⟨rfl, rfl⟩).1, hfound]
  exact List.append_ne_nil_of_left_ne_nil h found

/-- After the calls, the client knows a node; what was added is what was posted, then the queue. -/
structure Conserved (json : JsonLib) (calls : List BulkCall) (c : ElasticsearchClient) : Prop where
  nodes : c.nodes ≠ []
  posted : ∃ actions, Fifo (actionsAdded calls) actions c.bulkQueue ∧
    bodies c.transfers.sent = texts json actions

/-- A call posts what it takes off the queue. -/
theorem conserved_perform {calls : List BulkCall} (hjson : ∀ v, 0 ∉ json.write v)
    (h : Conserved json calls c) (call : BulkCall) :
    Conserved json (calls ++ [call]) (call.perform net json c) := by
  obtain ⟨actions, hfifo, hbodies⟩ := h.posted
  cases call with
  | addBulkactionToQueue action =>
    refine ⟨h.nodes, actions, ?_, hbodies⟩
    unfold actionsAdded at hfifo ⊢
    rw [List.filterMap_append]
    exact hfifo.push action
  | processBulkactionQueue clock res actionsLimit =>
    have hadded : actionsAdded (calls ++ [.processBulkactionQueue clock res actionsLimit]) =
        actionsAdded calls := by
      unfold actionsAdded
      rw [List.filterMap_append]
      exact List.append_nil _
    have hcall := @processes net json c clock res actionsLimit hjson h.nodes
    refine ⟨nodes_processBulkactionQueue h.nodes, ?_⟩
    rw [hadded]
    unfold BulkCall.perform
    by_cases hthrow : c.Stale clock.now ∧
      ∃ e, (c.discoverCluster net json clock.discovered).2 = .error e
    · obtain ⟨hstale, e, he⟩ := hthrow
      obtain ⟨-, hqueue, hsame⟩ := hcall.thrown e hstale he
      exact ⟨actions, by rw [hqueue]; exact hfifo, hsame.trans hbodies⟩
    · have hok : c.Stale clock.now →
          (c.discoverCluster net json clock.discovered).2 = .ok () := fun hstale => by
        cases he : (c.discoverCluster net json clock.discovered).2 with
        | error e => exact absurd ⟨hstale, e, he⟩ hthrow
        | ok _ => rfl
      obtain ⟨-, hqueue, gets, post, hsent, hgets, hpost⟩ := hcall.returned hok
      refine ⟨actions ++ c.bulkQueue.take (batchSize actionsLimit c.bulkQueue.length), ?_, ?_⟩
      · rw [hqueue]
        refine Fifo.popBatch ?_
        rw [List.take_append_drop]
        exact hfifo
      · rw [hsent, bodies_append, bodies_append, bodies_of_none hgets, hbodies, List.append_nil]
        unfold bodies
        rw [List.flatMap_singleton, hpost]
        exact List.flatMap_append.symm

/-- What any calls conserve. -/
theorem conserved_performAll (hjson : ∀ v, 0 ∉ json.write v) (h : Conserved json [] c)
    (calls : List BulkCall) : Conserved json calls (performAll net json c calls) := by
  induction calls using List.reverseRecOn with
  | nil => exact h
  | append_singleton calls call ih =>
    rw [performAll_append]
    exact conserved_perform hjson ih call

end Calls

/-- **Sent once and in order.** After any calls that add actions and process the queue, of a client
that knew a node after its construction, what was posted is the texts of the actions added, in
order, up to those still in the queue; and each call that processes the queue posts as many as its
limit allows, or nothing if its discovery throws. -/
theorem bulkActions_sent (net : Net) (json : JsonLib) (url : Bytes) (discovered : Int)
    (c : ElasticsearchClient) (calls : List BulkCall)
    (hc : ElasticsearchClient.construct net json url discovered = some c) (hnodes : c.nodes ≠ [])
    (hjson : ∀ v, 0 ∉ json.write v) :
    (∃ posted, Fifo (actionsAdded calls) posted (performAll net json c calls).bulkQueue ∧
        bodies (performAll net json c calls).transfers.sent = texts json posted) ∧
      ∀ before clock res actionsLimit after,
        calls = before ++ .processBulkactionQueue clock res actionsLimit :: after →
        Processes net json (performAll net json c before) clock actionsLimit
          ((performAll net json c before).processBulkactionQueue net json clock res
            actionsLimit) := by
  obtain ⟨hqueue, hsent⟩ := ElasticsearchClient.construct_eq hc
  have hstart : Conserved json [] c := ⟨hnodes, [], by rw [hqueue]; exact Fifo.fresh,
    bodies_of_none hsent⟩
  refine ⟨(conserved_performAll hjson hstart calls).posted, ?_⟩
  intro before clock res actionsLimit after _
  exact processes hjson (conserved_performAll hjson hstart before).nodes

/-- Two deletions are added, and one is posted. -/
def twoDeletions : List BulkCall :=
  [.addBulkactionToQueue { action := .delete, index := ascii "i" },
    .addBulkactionToQueue { action := .delete, index := ascii "i" },
    .processBulkactionQueue ⟨1000, 1000⟩ [] 1]

theorem not_mem_oneNodeJson (v : Value) : 0 ∉ oneNodeJson.write v := by
  have hmetadata : 0 ∉ oneNodeJson.write (.object []) := by decide
  cases v with
  | null => decide
  | _ => exact hmetadata

theorem bulkActions_sent_twoDeletions : ∃ orders c,
    ElasticsearchClient.construct (oneNodeNet orders) oneNodeJson
        (ascii "http://es") 0 = some c ∧
      ∃ posted,
        Fifo (actionsAdded twoDeletions) posted
          (performAll (oneNodeNet orders) oneNodeJson c twoDeletions).bulkQueue ∧
        bodies (performAll (oneNodeNet orders) oneNodeJson c
            twoDeletions).transfers.sent =
          texts oneNodeJson posted := by
  refine ⟨fun _ cli => (Orders.nonempty cli).some, _, rfl, ?_⟩
  exact (bulkActions_sent _ _ _ 0 _ _ rfl (List.cons_ne_nil _ _) not_mem_oneNodeJson).1

end WinterWind.Extras
