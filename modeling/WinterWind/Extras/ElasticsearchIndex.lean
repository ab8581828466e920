import WinterWind.Extras.ElasticsearchClient

/-!
# Indices (`elasticsearch::Index` in `src/extras/elasticsearchclient.cpp`)

An `Index` over the client it sends its requests with: `exists`, `create`, `remove` and
`set_shard_count`.

* `exists` is `indexExists` here. It looks at one answer; `create` and `remove` then make a second
  request or return.
* An answer is what `_get_json`, `_put_json` or `_delete` returns true with, so there is none if
  what came could not be parsed.
* Every analyzer is a `CUSTOM` one, the only type there is. What is printed is left out.

Results:
* `existsIn_eq_true`, `existsIn_eq_false`: what the one boolean of `exists` folds together.
* **`honest_iff`**: when an operation claims no more than the server said.
-/

namespace WinterWind.Extras

open Http

/-- `elasticsearch::Analyzer`. -/
structure Analyzer where
  name : Bytes
  tokenizer : Bytes
  filters : List Bytes

/-- `Analyzer::to_json`. -/
def Analyzer.toJson (a : Analyzer) : Value :=
  .object [(ascii "filter", .array (a.filters.map Value.string)),
    (ascii "tokenizer", .string a.tokenizer), (ascii "type", .string (ascii "custom"))]

/-- `elasticsearch::Index`, less the pointer to its client. -/
structure Index where
  name : Bytes
  shardCount : UInt16 := 0
  analyzers : UnorderedMap Bytes Analyzer := ∅

namespace ElasticsearchClient

variable (net : Net) (json : JsonLib)

/-- `get_node_addr` -/
def getNodeAddr (c : ElasticsearchClient) : Bytes :=
  match c.nodes with
  | [] => []
  | node :: _ => node.httpAddr

/-- `_put_json(query, data, res)`, with the value of `res` after it. -/
def putJson (c : ElasticsearchClient) (query : Query) (data res : Value) :
    ElasticsearchClient × Bool × Value :=
  let r := c.transfers.putJson net json query data res
  ({ c with transfers := r.1, formParams_eq := rfl }, r.2)

/-- `_delete(query, res)`, with the value of `res` after it. -/
def deleteJson (c : ElasticsearchClient) (query : Query) (res : Value) :
    ElasticsearchClient × Bool × Value :=
  let r := c.transfers.deleteJson net json query res
  ({ c with transfers := r.1, formParams_eq := rfl }, r.2)

end ElasticsearchClient

namespace Index

/-! ## What the answers say -/

/-- What `exists` makes of the answer: `!error && name || !(status is 404)`. -/
def existsIn (name : Bytes) (res : Value) : Except Fault Bool := do
  let present ← if ← res.isMember (ascii "error") then .ok false else res.isMember name
  if present then return true
  if ← res.isMember (ascii "status") then
    return (← res.member (ascii "status")).int? != some 404
  return true

/-- What `create` makes of the answer to its request. -/
def createdIn (res : Value) : Except Fault Bool := do
  if ← res.isMember (ascii "error") then return false
  if ← res.isMember (ascii "acknowledged") then
    match ← res.member (ascii "acknowledged") with
    | .boolean b => return b
    | _ => return false
  return false

/-- What `remove` makes of the answer to its request. -/
def removedIn (res : Value) : Except Fault Bool := do
  if ← res.isMember (ascii "error") then return false
  if ← res.isMember (ascii "acknowledged") then
    (← res.member (ascii "acknowledged")).asBool
  else return false

/-! ## The operations -/

section Operations

variable (net : Net) (json : JsonLib)

/-- The URL of the index. -/
def url (i : Index) (c : ElasticsearchClient) : Bytes := c.getNodeAddr ++ ascii "/" ++ i.name

/-- The request of `exists`, and what comes of it. -/
def getIndex (i : Index) (c : ElasticsearchClient) : ElasticsearchClient × Bool × Value :=
  c.getJson net json { url := i.url c } .null

/-- `Index::exists`. -/
def indexExists (i : Index) (c : ElasticsearchClient) : ElasticsearchClient × Except Fault Bool :=
  let r := i.getIndex net json c
  (r.1, if r.2.1 then existsIn i.name r.2.2 else .ok false)

/-- The settings that `create` sends. -/
def settings (i : Index) (order : Iteration i.analyzers) : Value :=
  let shards : List (Bytes × Value) :=
    if 0 < i.shardCount then
      [(ascii "number_of_shards", .int (Int64.ofNat i.shardCount.toNat))]
    else []
  let analyzers := order.pairs.foldl (fun ms p => insertMember p.1 p.2.toJson ms) []
  let analysis : Value := .object [(ascii "analyzer", .object analyzers)]
  let members :=
    if order.pairs.isEmpty then shards else insertMember (ascii "analysis") analysis shards
  .object [(ascii "settings", .object members)]

/-- The request of `create`, and what comes of it. -/
def putIndex (i : Index) (c : ElasticsearchClient) (order : Iteration i.analyzers) :
    ElasticsearchClient × Bool × Value :=
  c.putJson net json { url := i.url c, method := .put } (i.settings order) .null

/-- `Index::create`. -/
def create (i : Index) (c : ElasticsearchClient) (order : Iteration i.analyzers) :
    ElasticsearchClient × Except Fault Bool :=
  match i.indexExists net json c with
  | (c, .ok false) =>
    let r := i.putIndex net json c order
    (r.1, if r.2.1 then createdIn r.2.2 else .ok false)
  | (c, .ok true) => (c, .ok true)
  | (c, .error f) => (c, .error f)

/-- The request of `remove`, and what comes of it. -/
def deleteIndex (i : Index) (c : ElasticsearchClient) : ElasticsearchClient × Bool × Value :=
  c.deleteJson net json { url := i.url c, method := .delete } .null

/-- `Index::remove`. -/
def remove (i : Index) (c : ElasticsearchClient) : ElasticsearchClient × Except Fault Bool :=
  match i.indexExists net json c with
  | (c, .ok true) =>
    let r := i.deleteIndex net json c
    (r.1, if r.2.1 then removedIn r.2.2 else .ok false)
  | (c, .ok false) => (c, .ok true)
  | (c, .error f) => (c, .error f)

/-- `Index::set_shard_count`: the client, the index and what is returned. -/
def setShardCount (i : Index) (c : ElasticsearchClient) (count : UInt16) :
    ElasticsearchClient × Index × Except Fault Bool :=
  match i.indexExists net json c with
  | (c, .ok true) => (c, i, .ok false)
  | (c, .ok false) => (c, { i with shardCount := count }, .ok true)
  | (c, .error f) => (c, i, .error f)

end Operations

/-! ## What may be claimed -/

/-- The answer shows the index: an object with a member of its name, and without an error. -/
def ShowsPresent (name : Bytes) (answer : Value) : Prop :=
  ∃ ms, answer = .object ms ∧ findMember (ascii "error") ms = none ∧
    (findMember name ms).isSome = true

/-- The answer says that the index is missing: its status is 404. -/
def SaysMissing (answer : Value) : Prop :=
  ∃ ms v, answer = .object ms ∧ findMember (ascii "status") ms = some v ∧ v.int? = some 404

/-- The answer acknowledges the request. -/
def Acknowledges (answer : Value) : Prop :=
  ∃ ms, answer = .object ms ∧ findMember (ascii "acknowledged") ms = some (.boolean true)

/-- The answer acknowledges by something else than `true`, and has no error. -/
def AcknowledgesOtherwise (answer : Value) : Prop :=
  ∃ ms v, answer = .object ms ∧ findMember (ascii "error") ms = none ∧
    findMember (ascii "acknowledged") ms = some v ∧ v.asBool = .ok true ∧ v ≠ .boolean true

/-- The answer to a request, if it could be parsed. -/
def parsed (r : Bool × Value) : Option Value := if r.1 then some r.2 else none

/-- The operations that may claim something. -/
inductive Operation where
  | create
  | remove
  | setShardCount (count : UInt16)

section Claims

variable (net : Net) (json : JsonLib) (i : Index) (c : ElasticsearchClient)
  (order : Iteration i.analyzers)

/-- The answer that `exists` reads. -/
def first : Option Value := parsed (i.getIndex net json c).2

/-- The answer to the second request of an operation, if it makes one. -/
def second : Operation → Option Value
  | .create =>
    match i.indexExists net json c with
    | (c, .ok false) => parsed (i.putIndex net json c order).2
    | _ => none
  | .remove =>
    match i.indexExists net json c with
    | (c, .ok true) => parsed (i.deleteIndex net json c).2
    | _ => none
  | .setShardCount _ => none

/-- The operation claims no more than the answers say. -/
def Honest : Operation → Prop
  | .create => (i.create net json c order).2 = .ok true →
      (∃ v ∈ first net json i c, ShowsPresent i.name v) ∨
        ∃ v ∈ second net json i c order .create, Acknowledges v
  | .remove => (i.remove net json c).2 = .ok true →
      (∃ v ∈ first net json i c, SaysMissing v) ∨
        ∃ v ∈ second net json i c order .remove, Acknowledges v
  | .setShardCount count =>
      (i.setShardCount net json c count).2.1.shardCount ≠ i.shardCount →
        ∃ v ∈ first net json i c, SaysMissing v

/-- A member access throws: the answer is neither an object nor null. -/
def Throws (answer : Value) : Prop := ∃ f, answer.members = .error f

/-- When it does. -/
def HoldsWhen : Operation → Prop
  | .create => ∀ v ∈ first net json i c, Throws v ∨ ShowsPresent i.name v ∨ SaysMissing v
  | .remove => ∃ v ∈ first net json i c, Throws v ∨ SaysMissing v ∨
      ∀ w ∈ second net json i c order .remove, ¬AcknowledgesOtherwise w
  | .setShardCount count => count = i.shardCount ∨ ∃ v, v ∈ first net json i c

end Claims

/-! ## The answers read -/

section Answers

variable {name : Bytes} {v : Value}

theorem existsIn_object (ms : List (Bytes × Value)) : existsIn name (.object ms) =
    .ok ((findMember (ascii "error") ms).isNone && (findMember name ms).isSome ||
      ((findMember (ascii "status") ms).bind Value.int?) != some 404) := by
  simp only [existsIn, Value.isMember_object, Value.member_object, bind, Except.bind, pure,
    Except.pure]
  cases findMember (ascii "error") ms <;> cases findMember name ms <;>
    cases findMember (ascii "status") ms <;> rfl

theorem throws_iff : Throws v ↔ v ≠ .null ∧ ∀ ms, v ≠ .object ms := by
  cases v <;> simp [Throws, Value.members]

theorem saysMissing_object {ms : List (Bytes × Value)} : SaysMissing (.object ms) ↔
    (findMember (ascii "status") ms).bind Value.int? = some 404 := by
  simp [SaysMissing, Option.bind_eq_some_iff]

theorem showsPresent_object {ms : List (Bytes × Value)} : ShowsPresent name (.object ms) ↔
    ((findMember (ascii "error") ms).isNone && (findMember name ms).isSome) = true := by
  simp [ShowsPresent]

/-- **`exists` says no** only of an index that the answer says is missing. -/
theorem existsIn_eq_false :
    existsIn name v = .ok false ↔ SaysMissing v ∧ ¬ShowsPresent name v := by
  cases v with
  | object ms =>
    rw [existsIn_object, saysMissing_object, showsPresent_object]
    simp only [Except.ok.injEq, Bool.or_eq_false_iff, bne_eq_false_iff_eq, Bool.not_eq_true]
    exact and_comm
  | null => exact iff_of_false nofun fun h => by simp [SaysMissing] at h
  | _ =>
    refine iff_of_false ?_ fun h => by simp [SaysMissing] at h
    intro h
    cases h

/-- **`exists` says yes** of whatever else can be read. -/
theorem existsIn_eq_true :
    existsIn name v = .ok true ↔ ¬Throws v ∧ (ShowsPresent name v ∨ ¬SaysMissing v) := by
  cases v with
  | object ms =>
    have hread : ¬Throws (.object ms) := fun h => by simp [throws_iff] at h
    rw [existsIn_object, saysMissing_object, showsPresent_object, and_iff_right hread]
    simp only [Except.ok.injEq, Bool.or_eq_true, bne_iff_ne, ne_eq]
  | null =>
    have hread : ¬Throws .null := fun h => by simp [throws_iff] at h
    exact iff_of_true rfl ⟨hread, .inr fun h => by simp [SaysMissing] at h⟩
  | _ =>
    refine iff_of_false ?_ fun h => h.1 (throws_iff.mpr ⟨nofun, nofun⟩)
    intro h
    cases h

theorem acknowledges_of_createdIn (h : createdIn v = .ok true) : Acknowledges v := by
  cases v with
  | object ms =>
    simp only [createdIn, Value.isMember_object, Value.member_object, bind, Except.bind, pure,
      Except.pure] at h
    refine ⟨ms, rfl, ?_⟩
    cases hfind : findMember (ascii "acknowledged") ms with
    | none =>
      rw [hfind] at h
      split at h <;> cases h
    | some w =>
      rw [hfind] at h
      split at h
      · cases h
      · cases w with
        | boolean b => exact congrArg (some ∘ Value.boolean) (Except.ok.inj h)
        | _ => cases h
  | _ => cases h

theorem removedIn_eq_true : removedIn v = .ok true ↔
    ∃ ms w, v = .object ms ∧ findMember (ascii "error") ms = none ∧
      findMember (ascii "acknowledged") ms = some w ∧ w.asBool = .ok true := by
  cases v with
  | object ms =>
    simp only [removedIn, Value.isMember_object, Value.member_object, bind, Except.bind, pure,
      Except.pure]
    cases herror : findMember (ascii "error") ms with
    | none =>
      cases hfind : findMember (ascii "acknowledged") ms with
      | none => simp [hfind]
      | some w => simp [herror, hfind]
    | some e => simp [herror]
  | _ =>
    refine iff_of_false (fun h => ?_) fun ⟨_, _, h, _⟩ => nomatch h
    cases h

/-- What `remove` takes for an acknowledgement is one, or is something else that is true. -/
theorem acknowledges_or_otherwise (h : removedIn v = .ok true) :
    Acknowledges v ∨ AcknowledgesOtherwise v := by
  obtain ⟨ms, w, rfl, herror, hfind, hw⟩ := removedIn_eq_true.mp h
  by_cases htrue : w = .boolean true
  · subst htrue
    exact .inl ⟨ms, rfl, hfind⟩
  · exact .inr ⟨ms, w, rfl, herror, hfind, hw, htrue⟩

theorem removedIn_of_otherwise (h : AcknowledgesOtherwise v) : removedIn v = .ok true := by
  obtain ⟨ms, w, rfl, herror, hfind, hw, -⟩ := h
  exact removedIn_eq_true.mpr ⟨ms, w, rfl, herror, hfind, hw⟩

theorem not_acknowledges_of_otherwise (h : AcknowledgesOtherwise v) : ¬Acknowledges v := by
  rintro ⟨ms, rfl, hfind⟩
  obtain ⟨ms', w, hms, -, hfind', -, hne⟩ := h
  obtain rfl := Value.object.inj hms
  exact hne (Option.some.inj (hfind'.symm.trans hfind))

end Answers

/-! ## The operations -/

section Runs

variable {net : Net} {json : JsonLib} {i : Index} {c : ElasticsearchClient}
  {order : Iteration i.analyzers}

theorem mem_parsed {r : Bool × Value} {v : Value} : v ∈ parsed r ↔ r.1 = true ∧ r.2 = v := by
  unfold parsed
  rw [Option.mem_def, Option.ite_none_right_eq_some, Option.some.injEq]

theorem indexExists_eq_true : (i.indexExists net json c).2 = .ok true ↔
    ∃ v ∈ first net json i c, existsIn i.name v = .ok true := by
  unfold indexExists first
  dsimp only
  constructor
  · intro h
    split at h
    · rename_i hparsed
      exact ⟨_, mem_parsed.mpr ⟨hparsed, rfl⟩, h⟩
    · cases h
  · rintro ⟨v, hv, h⟩
    obtain ⟨hparsed, rfl⟩ := mem_parsed.mp hv
    rw [if_pos hparsed, h]

theorem indexExists_eq_false : (i.indexExists net json c).2 = .ok false ↔
    ∀ v ∈ first net json i c, existsIn i.name v = .ok false := by
  unfold indexExists first
  dsimp only
  constructor
  · intro h v hv
    obtain ⟨hparsed, rfl⟩ := mem_parsed.mp hv
    rwa [if_pos hparsed] at h
  · intro h
    split
    · rename_i hparsed
      exact h _ (mem_parsed.mpr ⟨hparsed, rfl⟩)
    · rfl

/-- How `create` comes to return true. -/
theorem create_eq_true : (i.create net json c order).2 = .ok true ↔
    (i.indexExists net json c).2 = .ok true ∨
      ∃ v ∈ second net json i c order .create, createdIn v = .ok true := by
  unfold create second
  generalize i.indexExists net json c = r
  obtain ⟨c', _ | _ | _⟩ := r
  · simp
  · dsimp only
    constructor
    · intro h
      split at h
      · rename_i hparsed
        exact .inr ⟨_, mem_parsed.mpr ⟨hparsed, rfl⟩, h⟩
      · cases h
    · rintro (h | ⟨v, hv, h⟩)
      · cases h
      · obtain ⟨hparsed, rfl⟩ := mem_parsed.mp hv
        rw [if_pos hparsed, h]
  · simp

/-- How `remove` comes to return true. -/
theorem remove_eq_true : (i.remove net json c).2 = .ok true ↔
    (i.indexExists net json c).2 = .ok false ∨
      ∃ v ∈ second net json i c order .remove, removedIn v = .ok true := by
  unfold remove second
  generalize i.indexExists net json c = r
  obtain ⟨c', _ | _ | _⟩ := r
  · simp
  · simp
  · dsimp only
    constructor
    · intro h
      split at h
      · rename_i hparsed
        exact .inr ⟨_, mem_parsed.mpr ⟨hparsed, rfl⟩, h⟩
      · cases h
    · rintro (h | ⟨v, hv, h⟩)
      · cases h
      · obtain ⟨hparsed, rfl⟩ := mem_parsed.mp hv
        rw [if_pos hparsed, h]

theorem setShardCount_ne (count : UInt16) :
    (i.setShardCount net json c count).2.1.shardCount ≠ i.shardCount ↔
      (i.indexExists net json c).2 = .ok false ∧ count ≠ i.shardCount := by
  unfold setShardCount
  generalize i.indexExists net json c = r
  obtain ⟨c', _ | _ | _⟩ := r <;> simp

/-- There is no second answer of `create` where `exists` says yes. -/
theorem second_create_of_exists (h : (i.indexExists net json c).2 = .ok true) :
    second net json i c order .create = none := by
  unfold second
  generalize i.indexExists net json c = r at h
  obtain ⟨c', outcome⟩ := r
  obtain rfl : outcome = .ok true := h
  rfl

/-- There is none of `remove` where `exists` does not. -/
theorem second_remove_of_not_exists (h : (i.indexExists net json c).2 ≠ .ok true) :
    second net json i c order .remove = none := by
  unfold second
  generalize i.indexExists net json c = r at h
  obtain ⟨c', _ | _ | _⟩ := r
  · rfl
  · rfl
  · exact absurd rfl h

theorem honest_create_iff :
    Honest net json i c order .create ↔ HoldsWhen net json i c order .create := by
  unfold Honest HoldsWhen
  rw [create_eq_true]
  constructor
  · intro h v hv
    by_contra hn
    rw [not_or, not_or] at hn
    obtain ⟨hread, hpresent, hmissing⟩ := hn
    have hexists : (i.indexExists net json c).2 = .ok true :=
      indexExists_eq_true.mpr ⟨v, hv, existsIn_eq_true.mpr ⟨hread, .inr hmissing⟩⟩
    rcases h (.inl hexists) with ⟨w, hw, h⟩ | ⟨w, hw, -⟩
    · obtain rfl := Option.some.inj (hv.symm.trans hw)
      exact hpresent h
    · rw [second_create_of_exists hexists] at hw
      cases hw
  · rintro h (hexists | ⟨w, hw, hcreated⟩)
    · obtain ⟨v, hv, htrue⟩ := indexExists_eq_true.mp hexists
      obtain ⟨hread, hshows⟩ := existsIn_eq_true.mp htrue
      rcases h v hv with hthrows | hpresent | hmissing
      · exact absurd hthrows hread
      · exact .inl ⟨v, hv, hpresent⟩
      · exact .inl ⟨v, hv, hshows.resolve_right (not_not.mpr hmissing)⟩
    · exact .inr ⟨w, hw, acknowledges_of_createdIn hcreated⟩

theorem honest_remove_iff :
    Honest net json i c order .remove ↔ HoldsWhen net json i c order .remove := by
  have hremove : (i.remove net json c).2 = .ok true ↔ (i.indexExists net json c).2 = .ok false ∨
      ∃ v ∈ second net json i c order .remove, removedIn v = .ok true := remove_eq_true
  unfold Honest HoldsWhen
  rw [hremove]
  cases hfirst : first net json i c with
  | none =>
    -- what cannot be parsed is taken for an index that is missing
    have hmissing : (i.indexExists net json c).2 = .ok false :=
      indexExists_eq_false.mpr fun v hv => by
        rw [hfirst] at hv
        cases hv
    refine iff_of_false (fun h => ?_) fun ⟨v, hv, _⟩ => nomatch hv
    rcases h (.inl hmissing) with ⟨v, hv, -⟩ | ⟨w, hw, -⟩
    · cases hv
    · rw [second_remove_of_not_exists (by rw [hmissing]; nofun)] at hw
      cases hw
  | some v =>
    simp only [Option.mem_some_iff, exists_eq_left']
    constructor
    · intro h
      by_contra hn
      simp only [not_or, not_forall, not_not] at hn
      obtain ⟨hread, hmissing, w, hw, hother⟩ := hn
      rcases h (.inr ⟨w, hw, removedIn_of_otherwise hother⟩) with h | ⟨w', hw', hack⟩
      · exact hmissing h
      · obtain rfl := Option.some.inj (hw.symm.trans hw')
        exact not_acknowledges_of_otherwise hother hack
    · rintro h (hnot | ⟨w, hw, hremoved⟩)
      · exact .inl (existsIn_eq_false.mp (indexExists_eq_false.mp hnot v hfirst)).1
      · rcases acknowledges_or_otherwise hremoved with hack | hother
        · exact .inr ⟨w, hw, hack⟩
        · rcases h with hthrows | hmissing | hall
          · have hnot : (i.indexExists net json c).2 ≠ .ok true := fun hexists => by
              obtain ⟨u, hu, htrue⟩ := indexExists_eq_true.mp hexists
              obtain rfl := Option.some.inj (hfirst.symm.trans hu)
              exact (existsIn_eq_true.mp htrue).1 hthrows
            rw [second_remove_of_not_exists hnot] at hw
            cases hw
          · exact .inl hmissing
          · exact absurd hother (hall w hw)

theorem honest_setShardCount_iff (count : UInt16) :
    Honest net json i c order (.setShardCount count) ↔
      HoldsWhen net json i c order (.setShardCount count) := by
  simp only [Honest, HoldsWhen, setShardCount_ne]
  cases hfirst : first net json i c with
  | none =>
    have hmissing : (i.indexExists net json c).2 = .ok false :=
      indexExists_eq_false.mpr fun v hv => by
        rw [hfirst] at hv
        cases hv
    constructor
    · intro h
      by_contra hn
      obtain ⟨v, hv, -⟩ := h ⟨hmissing, fun heq => hn (.inl heq)⟩
      cases hv
    · rintro (heq | ⟨v, hv⟩) ⟨-, hne⟩
      · exact absurd heq hne
      · cases hv
  | some v =>
    refine iff_of_true (fun h => ?_) (.inr ⟨v, rfl⟩)
    exact ⟨v, rfl, (existsIn_eq_false.mp (indexExists_eq_false.mp h.1 v hfirst)).1⟩

end Runs

/-- **When an operation claims no more than the server said.** `create`: unless the answer can be
read and shows neither the index nor the status 404. `remove`: if the answer could be parsed, and
unless the deletion is then acknowledged by something else than `true`. `set_shard_count`: if the
answer could be parsed, or nothing changes. -/
theorem honest_iff (net : Net) (json : JsonLib) (i : Index) (c : ElasticsearchClient)
    (order : Iteration i.analyzers) (op : Operation) :
    Honest net json i c order op ↔ HoldsWhen net json i c order op := by
  cases op with
  | create => exact honest_create_iff
  | remove => exact honest_remove_iff
  | setShardCount count => exact honest_setShardCount_iff count

/-- The index `logs`. -/
def logs : Index := { name := ascii "logs" }

/-- What a server answers that is overloaded. -/
def unavailableText : Bytes := ascii "\x7b\"error\":\"unavailable\",\"status\":503\x7d"

/-- A cluster with one node that is overloaded once it is discovered, and says so. -/
def unavailableNet (orders : Nat → (cli : HTTPClient) → Orders cli) : Net where
  orders := orders
  answer sents := if sents.length ≤ 2 then ⟨200, oneNodeText⟩ else ⟨503, unavailableText⟩

/-- The reader of its answers. -/
def unavailableJson : JsonLib where
  write _ := []
  parse text root :=
    if text = unavailableText then
      (true, .object [(ascii "error", .string (ascii "unavailable")), (ascii "status", .int 503)])
    else oneNodeJson.parse text root

/-- `create` returns true although the server could not answer. -/
theorem not_honest_create : ∃ orders c,
    ElasticsearchClient.construct (unavailableNet orders) unavailableJson (ascii "http://es") 0 =
        some c ∧
      ¬Honest (unavailableNet orders) unavailableJson logs c ⟨[], rfl⟩ .create := by
  refine ⟨fun _ cli => (Orders.nonempty cli).some, _, rfl, fun h => ?_⟩
  rcases honest_create_iff.mp h _ rfl with hthrows | hpresent | hmissing
  · exact (throws_iff.mp hthrows).2 _ rfl
  · exact absurd (showsPresent_object.mp hpresent) (by decide)
  · exact absurd (saysMissing_object.mp hmissing) (by decide)

end Index

end WinterWind.Extras
