import WinterWind.Utils.Json

/-!
# The Slack client (`src/extras/slackclient.cpp`)

The groups that `SlackClient::run` collects and `get_channel_id_by_name`.

* A turn of the loop is one answer to `rtm.start`, what `_get_json` leaves in `res`, which is
  `null` if nothing could be parsed. An answer that is not successful is followed by the next turn.
* Nothing in `run` catches `Json::LogicError`, so an answer that throws ends the program.
* The web socket, whose URL the answer holds, does not touch the groups.

Results:
* `run_eq`: after a run the maps hold the groups of all successful answers, in order.
* **`findsByName_iff`**: when the getter finds the group of a name.
-/

namespace WinterWind.Extras

/-- `SlackClient`, its two maps of groups. -/
structure SlackClient where
  groups : UnorderedMap Bytes Bytes := ∅
  groupsReverse : UnorderedMap Bytes Bytes := ∅

namespace SlackClient

/-- `get_channel_id_by_name`. The key it looks up is the text `name`. -/
def getChannelIdByName (c : SlackClient) (_name : Bytes) : Bytes :=
  (c.groupsReverse.lookup (ascii "name")).getD []

/-- The result of `rtm_start`: `res.isMember("ok") && res["ok"].asBool()`. -/
def rtmStart (res : Value) : Except Fault Bool := do
  if ← res.isMember (ascii "ok") then
    (← res.member (ascii "ok")).asBool
  else return false

section Run

variable (realText : Option Rat → Bytes)

/-- The body of the loop over the groups. -/
def addGroup (c : SlackClient) (group : Value) : Except Fault SlackClient := do
  if ← group.isMember (ascii "id") then
    if ← group.isMember (ascii "name") then
      let id ← (← group.member (ascii "id")).asString realText
      let name ← (← group.member (ascii "name")).asString realText
      return {
        groups := c.groups.insert id name
        groupsReverse := c.groupsReverse.insert name id }
    else return c
  else return c

/-- A turn of the loop of `run`, up to the connection. -/
def turn (c : SlackClient) (res : Value) : Except Fault SlackClient := do
  if ← rtmStart res then
    if ← res.isMember (ascii "url") then
      if ← res.isMember (ascii "groups") then
        (← res.member (ascii "groups")).children.foldlM (addGroup realText) c
      else return c
    else return c
  else return c

/-- `SlackClient::run`, for the answers it gets. -/
def run (c : SlackClient) (answers : List Value) : Except Fault SlackClient :=
  answers.foldlM (turn realText) c

end Run

/-! ## The groups of an answer -/

/-- A group. -/
structure Group where
  id : Bytes
  name : Bytes
  deriving Repr, DecidableEq

/-- `res` is an answer that `run` takes the groups of. -/
def isSuccessful : Value → Bool
  | .object ms =>
    ((findMember (ascii "ok") ms).bind (·.asBool.toOption)) == some true &&
      (findMember (ascii "url") ms).isSome
  | _ => false

section Groups

variable (realText : Option Rat → Bytes)

/-- The group that an element of `groups` describes, if it has an id and a name. -/
def groupOf : Value → Option Group
  | .object ms =>
    match findMember (ascii "id") ms, findMember (ascii "name") ms with
    | some i, some n =>
      match i.asString realText, n.asString realText with
      | .ok id, .ok name => some ⟨id, name⟩
      | _, _ => none
    | _, _ => none
  | _ => none

/-- The groups that an answer lists. -/
def groupsOf : Value → List Group
  | .object ms =>
    ((findMember (ascii "groups") ms).getD .null).children.filterMap (groupOf realText)
  | _ => []

/-- The groups of the successful answers, one after the other. -/
def allGroups (answers : List Value) : List Group :=
  (answers.filter isSuccessful).flatMap (groupsOf realText)

/-- The groups of the latest successful answer. -/
def latest (answers : List Value) : List Group :=
  ((answers.filter isSuccessful).getLast?.map (groupsOf realText)).getD []

/-- The id of the last group that was called so in a successful answer. -/
def lastCalled (name : Bytes) (answers : List Value) : Option Bytes :=
  (((allGroups realText answers).filter (·.name = name)).map Group.id).getLast?

/-- The id is the one that the groups give to the name: the empty one if there is no such group. -/
def Finds (groups : List Group) (name id : Bytes) : Prop :=
  (∃ g ∈ groups, g.name = name ∧ g.id = id) ∨ ((∀ g ∈ groups, g.name ≠ name) ∧ id = [])

/-- When the getter gives the id of a name. -/
def HoldsWhen (answers : List Value) (name : Bytes) : Prop :=
  if ∃ g ∈ latest realText answers, g.name = name then
    name = ascii "name" ∨ ∃ g ∈ latest realText answers, g.name = name ∧
      g.id = (lastCalled realText (ascii "name") answers).getD []
  else ∀ id, lastCalled realText (ascii "name") answers = some id → id = []

end Groups

/-! ## The maps after a run -/

/-- Both maps get the group. -/
def add (c : SlackClient) (g : Group) : SlackClient where
  groups := c.groups.insert g.id g.name
  groupsReverse := c.groupsReverse.insert g.name g.id

section Runs

variable {realText : Option Rat → Bytes} {c c' : SlackClient} {v : Value}

theorem addGroup_object (ms : List (Bytes × Value)) : addGroup realText c (.object ms) =
    match findMember (ascii "id") ms, findMember (ascii "name") ms with
    | some i, some n => do
      let id ← i.asString realText
      let name ← n.asString realText
      return c.add ⟨id, name⟩
    | _, _ => .ok c := by
  unfold addGroup
  simp only [Value.isMember_object, Value.member_object]
  cases findMember (ascii "id") ms <;> cases findMember (ascii "name") ms <;> rfl

theorem addGroup_eq (h : addGroup realText c v = .ok c') :
    c' = (groupOf realText v).elim c c.add := by
  cases v with
  | object ms =>
    rw [addGroup_object] at h
    unfold groupOf
    dsimp only
    split at h
    · obtain ⟨id, hi, h⟩ := bind_eq_ok.mp h
      obtain ⟨name, hn, h⟩ := bind_eq_ok.mp h
      rw [hi, hn]
      exact (Except.ok.inj h).symm
    · exact (Except.ok.inj h).symm
  | null => exact (Except.ok.inj h).symm
  | _ => cases h

/-- The loop over the groups adds those that are described. -/
theorem addGroups_eq {vs : List Value} (h : vs.foldlM (addGroup realText) c = .ok c') :
    c' = (vs.filterMap (groupOf realText)).foldl add c := by
  induction vs generalizing c with
  | nil => exact (Except.ok.inj h).symm
  | cons v vs ih =>
    rw [List.foldlM_cons] at h
    obtain ⟨c₁, hv, h⟩ := bind_eq_ok.mp h
    rw [ih h, addGroup_eq hv, List.filterMap_cons]
    cases groupOf realText v <;> rfl

theorem turn_object (ms : List (Bytes × Value)) : turn realText c (.object ms) =
    match findMember (ascii "ok") ms with
    | none => .ok c
    | some ok => do
      if (← ok.asBool) && (findMember (ascii "url") ms).isSome then
        ((findMember (ascii "groups") ms).getD .null).children.foldlM (addGroup realText) c
      else return c := by
  unfold turn rtmStart
  simp only [Value.isMember_object, Value.member_object]
  cases findMember (ascii "ok") ms with
  | none => rfl
  | some ok =>
    change (ok.asBool >>= _) = _
    dsimp only
    cases ok.asBool with
    | error fault => rfl
    | ok started =>
      cases started <;> cases findMember (ascii "url") ms <;>
        cases findMember (ascii "groups") ms <;> rfl

/-- **A turn** adds the groups of a successful answer. -/
theorem turn_eq (h : turn realText c v = .ok c') :
    c' = (if isSuccessful v then groupsOf realText v else []).foldl add c := by
  cases v with
  | object ms =>
    rw [turn_object] at h
    split at h
    · rename_i hok
      obtain rfl := Except.ok.inj h
      rw [isSuccessful, hok]
      rfl
    · rename_i ok hok
      obtain ⟨started, hstarted, h⟩ := bind_eq_ok.mp h
      rw [isSuccessful, hok, Option.bind_some, hstarted]
      split at h
      · rename_i hgo
        obtain ⟨rfl, hurl⟩ := Bool.and_eq_true_iff.mp hgo
        rw [hurl]
        exact addGroups_eq h
      · rename_i hgo
        obtain rfl := Except.ok.inj h
        rw [if_neg]
        · rfl
        · intro hgo'
          obtain ⟨heq, hurl⟩ := Bool.and_eq_true_iff.mp hgo'
          obtain rfl := Option.some.inj (eq_of_beq heq)
          exact hgo (Bool.and_eq_true_iff.mpr ⟨rfl, hurl⟩)
  | null => exact (Except.ok.inj h).symm
  | _ => cases h

/-- **A run** adds the groups of all the successful answers, in their order. -/
theorem run_eq {answers : List Value} (h : run realText c answers = .ok c') :
    c' = (allGroups realText answers).foldl add c := by
  induction answers generalizing c with
  | nil => exact (Except.ok.inj h).symm
  | cons v answers ih =>
    unfold run at h ih
    rw [List.foldlM_cons] at h
    obtain ⟨c₁, hv, h⟩ := bind_eq_ok.mp h
    rw [ih h, turn_eq hv, ← List.foldl_append]
    congr 1
    unfold allGroups
    rw [List.filter_cons]
    split
    · rw [List.flatMap_cons]
    · rfl

theorem groupsReverse_foldl (gs : List Group) (c : SlackClient) : (gs.foldl add c).groupsReverse =
    (gs.map fun g => (g.name, g.id)).foldl (fun m a => m.insert a.1 a.2) c.groupsReverse := by
  induction gs generalizing c with
  | nil => rfl
  | cons g gs ih => exact ih (c.add g)

/-- **What the getter finds**, whatever it is asked for. -/
theorem getChannelIdByName_run {answers : List Value} (h : run realText {} answers = .ok c)
    (name : Bytes) :
    c.getChannelIdByName name = (lastCalled realText (ascii "name") answers).getD [] := by
  rw [getChannelIdByName, run_eq h, groupsReverse_foldl, lookup_foldl_last, Finmap.lookup_empty,
    Option.or_none, List.filter_map, List.map_map]
  rfl

/-- A group of the latest answer is called so: the last one that was is such a group. -/
theorem lastCalled_of_latest {answers : List Value} {name : Bytes}
    (h : ∃ g ∈ latest realText answers, g.name = name) :
    ∃ g ∈ latest realText answers, g.name = name ∧
      lastCalled realText name answers = some g.id := by
  unfold latest at h ⊢
  unfold lastCalled allGroups
  cases hlast : (answers.filter isSuccessful).getLast? with
  | none =>
    rw [hlast] at h
    obtain ⟨g, hg, -⟩ := h
    cases hg
  | some v =>
    obtain ⟨earlier, hearlier⟩ := List.getLast?_eq_some_iff.mp hlast
    rw [hlast, Option.map_some, Option.getD_some] at h
    rw [Option.map_some, Option.getD_some]
    obtain ⟨g, hg, hname⟩ := h
    have hne : (groupsOf realText v).filter (·.name = name) ≠ [] :=
      List.ne_nil_of_mem (List.mem_filter.mpr ⟨hg, decide_eq_true hname⟩)
    have hg' := List.getLast?_eq_some_getLast hne
    obtain ⟨hmem, hname'⟩ := List.mem_filter.mp (List.getLast_mem hne)
    refine ⟨_, hmem, of_decide_eq_true hname', ?_⟩
    rw [hearlier, List.flatMap_append, List.flatMap_singleton, List.filter_append, List.map_append,
      List.getLast?_append, List.getLast?_map, hg']
    rfl

end Runs

/-- **When the getter finds the group of a name** after a run: when the name is the text it looks
up, or the id it finds there happens to be the right one. -/
theorem findsByName_iff (realText : Option Rat → Bytes) (answers : List Value) (name : Bytes)
    (c : SlackClient) (h : run realText {} answers = .ok c) :
    Finds (latest realText answers) name (c.getChannelIdByName name) ↔
      HoldsWhen realText answers name := by
  rw [getChannelIdByName_run h]
  unfold Finds HoldsWhen
  split
  · rename_i hthere
    have hnot : ¬∀ g ∈ latest realText answers, g.name ≠ name := by
      obtain ⟨g, hg, hname⟩ := hthere
      exact fun hall => hall g hg hname
    rw [or_iff_left fun hnone => hnot hnone.1]
    constructor
    · exact .inr
    · rintro (rfl | hid)
      · obtain ⟨g, hg, hname, hlast⟩ := lastCalled_of_latest hthere
        exact ⟨g, hg, hname, by rw [hlast]; rfl⟩
      · exact hid
  · rename_i hnone
    rw [or_iff_right fun ⟨g, hg, hname, _⟩ => hnone ⟨g, hg, hname⟩,
      and_iff_right fun g hg hname => hnone ⟨g, hg, hname⟩]
    cases lastCalled realText (ascii "name") answers with
    | none => exact iff_of_true rfl nofun
    | some id => exact ⟨fun h _ hid => Option.some.inj hid ▸ h, fun h => h id rfl⟩

/-- A successful answer with one group. -/
def oneGroup (id name : Bytes) : Value :=
  .object [(ascii "groups", .array [.object [(ascii "id", .string id),
    (ascii "name", .string name)]]), (ascii "ok", .boolean true), (ascii "url", .string [])]

theorem findsByName_iff_name :
    Finds (latest (fun _ => []) [oneGroup (ascii "G1") (ascii "name")]) (ascii "name")
      (getChannelIdByName (add {} ⟨ascii "G1", ascii "name"⟩) (ascii "name")) :=
  (findsByName_iff (fun _ => []) [oneGroup (ascii "G1") (ascii "name")] (ascii "name") _ rfl).mpr
    (by unfold HoldsWhen; decide)

/-- The group `general` is not found. -/
theorem not_findsByName_general :
    ∃ c, run (fun _ => []) {} [oneGroup (ascii "G1") (ascii "general")] = .ok c ∧
      ¬Finds (latest (fun _ => []) [oneGroup (ascii "G1") (ascii "general")]) (ascii "general")
        (c.getChannelIdByName (ascii "general")) := by
  refine ⟨_, rfl, ?_⟩
  rintro (⟨g, hg, -, hid⟩ | ⟨hnone, -⟩)
  · obtain rfl := List.mem_singleton.mp hg
    cases hid
  · exact hnone _ List.mem_cons_self rfl

end SlackClient

end WinterWind.Extras
