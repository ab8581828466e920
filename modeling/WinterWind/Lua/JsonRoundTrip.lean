import WinterWind.Lua.LuaImage
import WinterWind.Lua.TableLoop
import Mathlib.Algebra.Order.Ring.Rat
import Mathlib.Data.Nat.Cast.Order.Ring

/-!
# Json to Lua and back (`src/core/lua/luahelper.cpp`)

What `push_json_value` pushes, and what `read_json_value` reads from it.

* `luaOf` is a value in Lua. Pushing gives `luaOf (cut v)`: `lua_pushstring` cuts every string, and
  every name, at its first NUL. `lua_tolstring` would read them with their lengths.
* `asInt` and `asUInt` throw outside 32 bits, where the numbers of Lua have room.
* Reading goes through the entries in the order of `lua_next`. The element keys and the names are
  unique, so the order does not matter.
* A scalar is one level deep, and `read_json_value` takes 16 levels.

Results:
* `push_spec`: pushing needs no more slots than were reserved, and throws exactly when a number
  does not fit.
* `read_spec`: reading back gives the value with its numbers as `double`s, or refuses it if it is
  too deep.
* `cut_asNumbers_iff`: cutting changes every value that has a NUL.
* **`roundTrips_iff`**: the round trip is the identity exactly when the stack can be extended, the
  value is not too deep, its numbers fit in 32 bits, and its strings and names have no NUL.
-/

namespace WinterWind.Lua

open Library

/-! ## The values -/

/-- What is written to Lua: no null, no real, no number past `2^53`, and nothing empty. An array has
fewer than `2^32` elements and an object lists its members by key, as every `Json::Value` does. -/
def InDomain : Value → Prop
  | .null => False
  | .real _ => False
  | .int i => -2 ^ 53 ≤ i.toInt ∧ i.toInt ≤ 2 ^ 53
  | .uint u => u.toNat ≤ 2 ^ 53
  | .string _ => True
  | .boolean _ => True
  | .array vs => vs ≠ [] ∧ vs.length < 2 ^ 32
  | .object ms => ms ≠ [] ∧ Sorted ms

/-- A string, or member names, without NUL. -/
def NulFree : Value → Prop
  | .string s => 0 ∉ s
  | .object ms => ∀ m ∈ ms, 0 ∉ m.1
  | _ => True

mutual

/-- The value with its strings and names cut at their first NUL. Of the members whose names become
equal, the last one stays. -/
def cut : Value → Value
  | .string s => .string (cStr s)
  | .array vs => .array (cutElements vs)
  | .object ms => .object (cutMembers ms [])
  | .null => .null
  | .int i => .int i
  | .uint u => .uint u
  | .real r => .real r
  | .boolean b => .boolean b

def cutElements : List Value → List Value
  | [] => []
  | v :: vs => cut v :: cutElements vs

def cutMembers : List (Bytes × Value) → List (Bytes × Value) → List (Bytes × Value)
  | [], acc => acc
  | (k, v) :: ms, acc => cutMembers ms (insertEntry (cStr k) (cut v) acc)

end

mutual

/-- The value in Lua. -/
def luaOf : Value → LuaValue
  | .null => .nil
  | .int i => .number (some i.toInt)
  | .uint u => .number (some u.toNat)
  | .real r => .number r
  | .string s => .string s
  | .boolean b => .boolean b
  | .array vs => .table (elementEntries 0 vs)
  | .object ms => .table (memberEntries ms)

def elementEntries (index : Nat) : List Value → List Entry
  | [] => []
  | v :: vs => (.number ((index + 1 : Nat) : Rat), luaOf v) :: elementEntries (index + 1) vs

def memberEntries : List (Bytes × Value) → List Entry
  | [] => []
  | (k, v) :: ms => (.string k, luaOf v) :: memberEntries ms

end

theorem cutElements_eq : ∀ vs : List Value, cutElements vs = vs.map cut
  | [] => rfl
  | v :: vs => by rw [cutElements, cutElements_eq vs, List.map_cons]

theorem cutMembers_eq : ∀ ms acc : List (Bytes × Value), cutMembers ms acc =
    (ms.map (Prod.map cStr cut)).foldl (fun acc m => insertEntry m.1 m.2 acc) acc
  | [], _ => rfl
  | (k, v) :: ms, acc => by rw [cutMembers, cutMembers_eq ms]; rfl

/-- The entry of an array element, or of a member. -/
def elementEntry (p : Nat × Value) : Entry := (.number ((p.1 + 1 : Nat) : Rat), luaOf p.2)

def memberEntry (m : Bytes × Value) : Entry := (.string m.1, luaOf m.2)

theorem elementEntries_eq : ∀ (index : Nat) (vs : List Value),
    elementEntries index vs = ((vs.zipIdx index).map Prod.swap).map elementEntry
  | _, [] => rfl
  | index, v :: vs => by
    rw [elementEntries, elementEntries_eq (index + 1) vs, List.zipIdx_cons]
    rfl

theorem memberEntries_eq : ∀ ms : List (Bytes × Value), memberEntries ms = ms.map memberEntry
  | [] => rfl
  | (k, v) :: ms => by rw [memberEntries, memberEntries_eq ms]; rfl

/-! ## Pushing -/

theorem setEntry_of_ne_nil {key : LuaKey} {x : LuaValue} (hx : x ≠ .nil) (entries : List Entry) :
    setEntry key x entries = insertEntry key x entries := by
  unfold setEntry
  split
  · exact absurd rfl hx
  · rfl

theorem luaOf_cut_ne_nil {v : Value} (hv : v.All InDomain) : luaOf (cut v) ≠ .nil := by
  cases v with
  | null => exact hv.elim
  | _ => simp [cut, luaOf]

theorem insertEntry_element {vs : List Value} (v : Value) :
    insertEntry (.number ((vs.length + 1 : Nat) : Rat)) (luaOf v) (elementEntries 0 vs) =
      elementEntries 0 (vs ++ [v]) := by
  rw [elementEntries_eq, elementEntries_eq, List.zipIdx_append, List.map_append, List.map_append]
  rw [insertEntry_last]
  · simp [elementEntry]
  · intro e he
    obtain ⟨p, hp, rfl⟩ := List.mem_map.mp he
    obtain ⟨q, hq, rfl⟩ := List.mem_map.mp hp
    obtain ⟨w, i⟩ := q
    have hi : i < vs.length := by
      have hbound := List.mem_zipIdx hq
      omega
    have hlt : ((i + 1 : Nat) : Rat) < ((vs.length + 1 : Nat) : Rat) :=
      Nat.cast_lt.mpr (Nat.succ_lt_succ hi)
    refine ⟨fun heq => ?_, fun hgt => ?_⟩
    · exact absurd (LuaKey.number.inj heq) (ne_of_gt hlt)
    · exact absurd (LuaKey.number_lt.mp hgt) (not_lt_of_gt hlt)

theorem insertEntry_member (k : Bytes) (v : Value) (ms : List (Bytes × Value)) :
    insertEntry (.string k) (luaOf v) (memberEntries ms) = memberEntries (insertEntry k v ms) := by
  rw [memberEntries_eq, memberEntries_eq]
  exact insertEntry_map LuaKey.string luaOf (fun a b => by simp) (fun _ _ => LuaKey.string_lt) k v
    ms

/-! ### The stack -/

/-- What pushing a value does: it pushes what is left of the value, or a number does not fit. -/
structure Pushes (nullindex : Nat) (v : Value) (L : LuaState) : Prop where
  fits : v.All Fits → pushJsonValueHelper nullindex v L =
    .ok { L with stack := luaOf (cut v) :: L.stack }
  throws : ¬ v.All Fits → pushJsonValueHelper nullindex v L = .error .logicError

/-- The elements of the image, after some. -/
theorem imageElements_eq {null : LuaValue} {vs : List Value} (hdomain : ∀ v ∈ vs, v.All InDomain)
    (himage : ∀ v ∈ vs, image null v = luaOf (cut v)) :
    ∀ done : List Value, done.length + vs.length < 2 ^ 32 →
      imageElements null done.length vs (elementEntries 0 done) =
        elementEntries 0 (done ++ cutElements vs) := by
  induction vs with
  | nil =>
    intro done _
    rw [cutElements, List.append_nil, imageElements]
  | cons v vs ih =>
    intro done hlength
    rw [List.length_cons] at hlength
    have hset : setEntry (.number ((done.length + 1) % 2 ^ 32 : Nat)) (image null v)
        (elementEntries 0 done) = elementEntries 0 (done ++ [cut v]) := by
      rw [Nat.mod_eq_of_lt (by omega), himage v List.mem_cons_self,
        setEntry_of_ne_nil (luaOf_cut_ne_nil (hdomain v List.mem_cons_self)), insertEntry_element]
    have hrest := ih (fun w hw => hdomain w (List.mem_cons_of_mem v hw))
      (fun w hw => himage w (List.mem_cons_of_mem v hw)) (done ++ [cut v])
      (by rw [List.length_append, List.length_singleton]; omega)
    rw [List.length_append, List.length_singleton] at hrest
    rw [imageElements, hset, hrest, cutElements, List.append_assoc, List.singleton_append]

/-- The members of the image, after some. -/
theorem imageMembers_eq {null : LuaValue} {ms : List (Bytes × Value)}
    (hdomain : ∀ m ∈ ms, m.2.All InDomain)
    (himage : ∀ m ∈ ms, image null m.2 = luaOf (cut m.2)) : ∀ acc : List (Bytes × Value),
    imageMembers null ms (memberEntries acc) = memberEntries (cutMembers ms acc) := by
  induction ms with
  | nil => exact fun _ => rfl
  | cons m ms ih =>
    obtain ⟨name, v⟩ := m
    intro acc
    have hv : image null v = luaOf (cut v) := himage (name, v) List.mem_cons_self
    rw [imageMembers, hv,
      setEntry_of_ne_nil (luaOf_cut_ne_nil (hdomain (name, v) List.mem_cons_self)),
      insertEntry_member, cutMembers]
    exact ih (fun w hw => hdomain w (List.mem_cons_of_mem _ hw))
      (fun w hw => himage w (List.mem_cons_of_mem _ hw)) _

/-- The image of a value in the domain is what is left of it. -/
theorem image_eq (null : LuaValue) {v : Value} (hv : v.All InDomain) :
    image null v = luaOf (cut v) := by
  induction v using Value.induction_on with
  | scalar v hscalar =>
    cases v with
    | null => exact hv.elim
    | array | object => cases hscalar
    | _ => rfl
  | array vs ih =>
    obtain ⟨⟨-, hlength⟩, hdomain⟩ := Value.all_array.mp hv
    have helements := imageElements_eq hdomain (fun w hw => ih w hw (hdomain w hw)) []
      (by simpa using hlength)
    exact congrArg LuaValue.table helements
  | object ms ih =>
    obtain ⟨-, hdomain⟩ := Value.all_object.mp hv
    have hmembers := imageMembers_eq hdomain (fun m hm => ih m hm (hdomain m hm)) []
    exact congrArg LuaValue.table hmembers

theorem all_isNotNull {v : Value} (hv : v.All InDomain) : v.All IsNotNull := by
  induction v using Value.induction_on with
  | scalar v hscalar =>
    rw [Value.all_scalar hscalar] at hv ⊢
    rintro rfl
    exact hv
  | array vs ih =>
    obtain ⟨-, hdomain⟩ := Value.all_array.mp hv
    exact Value.all_array.mpr ⟨nofun, fun w hw => ih w hw (hdomain w hw)⟩
  | object ms ih =>
    obtain ⟨-, hdomain⟩ := Value.all_object.mp hv
    exact Value.all_object.mpr ⟨nofun, fun m hm => ih m hm (hdomain m hm)⟩

/-- **Pushing a value** pushes what is left of it, unless a number does not fit. -/
theorem push_spec (nullindex : Nat) (v : Value) (hv : v.All InDomain) (L : LuaState)
    (hroom : Room L v) : Pushes nullindex v L := by
  obtain ⟨hok, herror⟩ := @push_image .nil nullindex v L (.inl (all_isNotNull hv)) hroom
  rw [image_eq .nil hv] at hok
  exact ⟨hok, herror⟩

/-! ## What cutting leaves -/

theorem cutMembers_spec {Q : Bytes × Value → Prop} {ms acc : List (Bytes × Value)}
    (hms : ∀ m ∈ ms, Q (cStr m.1, cut m.2)) (hacc : Sorted acc) (hQ : ∀ e ∈ acc, Q e) :
    Sorted (cutMembers ms acc) ∧ ∀ e ∈ cutMembers ms acc, Q e := by
  induction ms generalizing acc with
  | nil => exact ⟨hacc, hQ⟩
  | cons m ms ih =>
    obtain ⟨k, v⟩ := m
    have hQ' : ∀ e ∈ insertEntry (cStr k) (cut v) acc, Q e := fun e he => by
      rcases mem_insertEntry he with rfl | he
      · exact hms (k, v) List.mem_cons_self
      · exact hQ e he
    exact ih (fun m hm => hms m (List.mem_cons_of_mem _ hm))
      (sorted_insertEntry (cStr k) (cut v) hacc) hQ'

theorem cutMembers_ne_nil {ms acc : List (Bytes × Value)} (h : acc ≠ []) :
    cutMembers ms acc ≠ [] := by
  induction ms generalizing acc with
  | nil => exact h
  | cons m ms ih => exact ih (insertEntry_ne_nil (cStr m.1) (cut m.2) acc)

/-- What is left is in the domain, without NUL, and no deeper. -/
structure Left (v : Value) : Prop where
  domain : (cut v).All InDomain
  nulFree : (cut v).All NulFree
  depth : pushJsonValueGetdepth (cut v) ≤ pushJsonValueGetdepth v

theorem left_cut {v : Value} (hv : v.All InDomain) : Left v := by
  induction v using Value.induction_on with
  | scalar v hscalar =>
    cases v with
    | string s => exact ⟨trivial, not_mem_cStr s, le_rfl⟩
    | null | real => exact hv.elim
    | array | object => cases hscalar
    | int | uint | boolean => exact ⟨hv, trivial, le_rfl⟩
  | array vs ih =>
    obtain ⟨⟨hne, hlength⟩, hdomain⟩ := Value.all_array.mp hv
    have hleft : ∀ w ∈ cutElements vs, ∃ u ∈ vs, cut u = w ∧ Left u := by
      intro w hw
      rw [cutElements_eq] at hw
      obtain ⟨u, hu, rfl⟩ := List.mem_map.mp hw
      exact ⟨u, hu, rfl, ih u hu (hdomain u hu)⟩
    refine ⟨Value.all_array.mpr ⟨⟨?_, ?_⟩, fun w hw => ?_⟩,
      Value.all_array.mpr ⟨trivial, fun w hw => ?_⟩, ?_⟩
    · rw [cutElements_eq]
      exact mt List.map_eq_nil_iff.mp hne
    · rwa [cutElements_eq, List.length_map]
    · obtain ⟨u, -, rfl, hu⟩ := hleft w hw
      exact hu.domain
    · obtain ⟨u, -, rfl, hu⟩ := hleft w hw
      exact hu.nulFree
    · refine Nat.succ_le_succ (maxdepthElements_le.mpr fun w hw => ?_)
      obtain ⟨u, hmem, rfl, hu⟩ := hleft w hw
      exact hu.depth.trans (maxdepthElements_le.mp le_rfl u hmem)
  | object ms ih =>
    obtain ⟨⟨hne, -⟩, hdomain⟩ := Value.all_object.mp hv
    have hcut : ∀ m ∈ ms, 0 ∉ cStr m.1 ∧ (cut m.2).All InDomain ∧ (cut m.2).All NulFree ∧
        pushJsonValueGetdepth (cut m.2) ≤ maxdepthMembers ms := by
      intro m hm
      have hleft := ih m hm (hdomain m hm)
      exact ⟨not_mem_cStr m.1, hleft.domain, hleft.nulFree,
        hleft.depth.trans (maxdepthMembers_le.mp le_rfl m hm)⟩
    have hspec : Sorted (cutMembers ms []) ∧ ∀ e ∈ cutMembers ms [], 0 ∉ e.1 ∧
        e.2.All InDomain ∧ e.2.All NulFree ∧ pushJsonValueGetdepth e.2 ≤ maxdepthMembers ms :=
      cutMembers_spec hcut List.Pairwise.nil fun _ h => nomatch h
    obtain ⟨hsorted, hall⟩ := hspec
    refine ⟨Value.all_object.mpr ⟨⟨?_, hsorted⟩, fun e he => (hall e he).2.1⟩,
      Value.all_object.mpr ⟨fun e he => (hall e he).1, fun e he => (hall e he).2.2.1⟩,
      Nat.succ_le_succ (maxdepthMembers_le.mpr fun e he => (hall e he).2.2.2)⟩
    cases ms with
    | nil => exact absurd rfl hne
    | cons m ms =>
      rw [cutMembers]
      exact cutMembers_ne_nil (insertEntry_ne_nil (cStr m.1) (cut m.2) [])

/-- Without NUL, everything is left. -/
theorem cut_eq_self {v : Value} (hv : v.All InDomain) (hnul : v.All NulFree) : cut v = v := by
  induction v using Value.induction_on with
  | scalar v hscalar =>
    cases v with
    | string s => exact congrArg Value.string (cStr_of_not_mem hnul)
    | array | object => cases hscalar
    | _ => rfl
  | array vs ih =>
    have hmap : vs.map cut = vs.map id := List.map_congr_left fun w hw =>
      ih w hw ((Value.all_array.mp hv).2 w hw) ((Value.all_array.mp hnul).2 w hw)
    rw [cut, cutElements_eq, hmap, List.map_id]
  | object ms ih =>
    obtain ⟨⟨-, hsorted⟩, hdomain⟩ := Value.all_object.mp hv
    obtain ⟨hnames, hmembers⟩ := Value.all_object.mp hnul
    have hmap : ms.map (Prod.map cStr cut) = ms.map id := List.map_congr_left fun m hm =>
      Prod.ext (cStr_of_not_mem (hnames m hm)) (ih m hm (hdomain m hm) (hmembers m hm))
    rw [cut, cutMembers_eq, hmap, List.map_id, foldl_insertEntry hsorted (.refl _)]

/-- Comparing numbers as numbers keeps the strings and the names. -/
theorem nulFree_asNumbers {v : Value} : v.asNumbers.All NulFree ↔ v.All NulFree := by
  induction v using Value.induction_on with
  | scalar v hscalar =>
    cases v with
    | array | object => cases hscalar
    | _ => exact Iff.rfl
  | array vs ih =>
    rw [Value.asNumbers_array, Value.all_array, Value.all_array, List.forall_mem_map]
    exact and_congr Iff.rfl (forall₂_congr ih)
  | object ms ih =>
    rw [Value.asNumbers_object, Value.all_object, Value.all_object, List.forall_mem_map]
    exact and_congr List.forall_mem_map (forall₂_congr ih)

/-- **What is left is the value** exactly when the value has no NUL. -/
theorem cut_asNumbers_iff {v : Value} (hv : v.All InDomain) :
    (cut v).asNumbers = v.asNumbers ↔ v.All NulFree := by
  constructor
  · intro h
    rw [← nulFree_asNumbers, ← h, nulFree_asNumbers]
    exact (left_cut hv).nulFree
  · intro hnul
    rw [cut_eq_self hv hnul]

/-! ## Reading -/

section Loop

variable {β α : Type} (key : β → LuaKey) (wrap : α → Value) (assign : α → β → Value → α)
  (empty : α)

/-- `root`, once some values were assigned: null before the first one. -/
def rootOf (acc : Option α) : Value := acc.elim .null wrap

/-- What is assigned by the rest of the loop. -/
def assignAll (acc : Option α) (ps : List (β × Value)) : Option α :=
  ps.foldl (fun acc p => some (assign (acc.getD empty) p.1 p.2.asNumbers)) acc

variable {key wrap assign empty}

theorem putEntry_of_assignKey {root value root' : Value} {k : LuaKey}
    (h : assignKey root value (some k.value) = .ok (true, root')) :
    putEntry root (k, value) = some root' := by
  rw [assignKey_eq] at h
  cases hput : putEntry root (k, value) with
  | none =>
    rw [hput] at h
    cases h
  | some root =>
    rw [hput] at h
    obtain ⟨-, rfl⟩ := Prod.mk.inj (Except.ok.inj h)
    rfl

/-- The slots are filled by the assignments, when every key is accepted. -/
theorem fill_assignAll {ps : List (β × Value)}
    (hassign : ∀ p ∈ ps, ∀ acc, assignKey (rootOf wrap acc) p.2.asNumbers (some (key p.1).value) =
      .ok (true, wrap (assign (acc.getD empty) p.1 p.2.asNumbers))) (acc : Option α) :
    fill (rootOf wrap acc) (ps.map fun p => (key p.1, p.2.asNumbers)) =
      some (rootOf wrap (assignAll assign empty acc ps)) := by
  induction ps generalizing acc with
  | nil => rfl
  | cons p ps ih =>
    rw [List.map_cons, fill_cons, putEntry_of_assignKey (hassign p List.mem_cons_self acc)]
    exact ih (fun q hq => hassign q (List.mem_cons_of_mem p hq))
      (some (assign (acc.getD empty) p.1 p.2.asNumbers))

/-- Something is assigned. -/
theorem assignAll_none {ps : List (β × Value)} (hne : ps ≠ []) :
    assignAll assign empty none ps =
      some (ps.foldl (fun acc p => assign acc p.1 p.2.asNumbers) empty) := by
  have hsome : ∀ (ps : List (β × Value)) (acc : α), assignAll assign empty (some acc) ps =
      some (ps.foldl (fun acc p => assign acc p.1 p.2.asNumbers) acc) := by
    intro ps
    induction ps with
    | nil => exact fun _ => rfl
    | cons p ps ih => exact fun acc => ih _
  cases ps with
  | nil => exact absurd rfl hne
  | cons p ps => exact hsome ps _

end Loop

/-- The key of an array element. -/
def elementKey (index : Nat) : LuaKey := .number ((index + 1 : Nat) : Rat)

theorem assign_element {index : Nat} (hindex : index + 1 < 2 ^ 32) (v : Value)
    (acc : Option (List Value)) :
    assignKey (rootOf Value.array acc) v (some (elementKey index).value) =
      .ok (true, .array (Value.setElement (acc.getD []) index v)) := by
  have hge : ¬ ((index + 1 : Nat) : Rat) < 1 := by
    rw [not_lt, ← Nat.cast_one, Nat.cast_le]
    omega
  have hfloor : ((index + 1 : Nat) : Rat).floor = ((index + 1 : Nat) : Int) := by
    rw [← Int.cast_natCast, Rat.floor_intCast]
  have harray : arrayIndex (index + 1) = index := by
    rw [arrayIndex]
    omega
  have hset : (rootOf Value.array acc).setIndex index v =
      .ok (.array (Value.setElement (acc.getD []) index v)) := by
    cases acc <;> rfl
  have hkey : (((index + 1 : Nat) : Int) : Rat) = ((index + 1 : Nat) : Rat) := Int.cast_natCast _
  have hroot : rootOf Value.array acc = .null ∨ ∃ vs, rootOf Value.array acc = .array vs := by
    cases acc with
    | none => exact Or.inl rfl
    | some vs => exact Or.inr ⟨vs, rfl⟩
  rcases hroot with hroot | ⟨vs, hroot⟩ <;> rw [hroot] at hset ⊢
  all_goals
    simp only [assignKey, elementKey, LuaKey.value, orFault, bind, Except.bind, pure, Except.pure]
    rw [if_neg hge, hfloor, if_neg (not_not.mpr hkey), Int.toNat_natCast, harray, hset]

theorem assign_member {name : Bytes} (hname : 0 ∉ name) (v : Value)
    (acc : Option (List (Bytes × Value))) :
    assignKey (rootOf Value.object acc) v (some (LuaKey.string name).value) =
      .ok (true, .object (insertEntry name v (acc.getD []))) := by
  cases acc <;>
    simp [assignKey, rootOf, LuaKey.value, cStr_of_not_mem hname, insertMember_eq, bind,
      Except.bind, pure, Except.pure, insertEntry]

/-- What reading a value from the top of the stack does: it pops it, or it is too deep. -/
structure Reads (t : Traversal) (levels : Nat) (v : Value) (below : List LuaValue)
    (size limit : Nat) : Prop where
  reads : pushJsonValueGetdepth v ≤ levels →
    readJsonValue t levels .null (below.length + 1) ⟨luaOf v :: below, size, limit⟩ =
      .ok (true, v.asNumbers, ⟨below, size, limit⟩)
  refuses : ¬ pushJsonValueGetdepth v ≤ levels →
    Refuses (readJsonValue t levels .null (below.length + 1) ⟨luaOf v :: below, size, limit⟩)

theorem read_scalar (t : Traversal) (levels : Nat) {v : Value} (hscalar : v.isScalar = true)
    (below : List LuaValue) (size limit : Nat) :
    readJsonValue t (levels + 1) .null (below.length + 1) ⟨luaOf v :: below, size, limit⟩ =
      .ok (true, v.asNumbers, ⟨below, size, limit⟩) := by
  cases v with
  | array | object => cases hscalar
  | _ =>
    simp only [readJsonValue, luaOf, LuaState.slot_top]
    rfl

/-- A table whose entries are read and assigned. -/
theorem read_table {β α : Type} {key : β → LuaKey} {wrap : α → Value} {assign : α → β → Value → α}
    {empty : α} {t : Traversal} {levels size limit : Nat} {below : List LuaValue}
    {entries : List Entry} {ps : List (β × Value)} (hroom : below.length + 2 < size)
    (horder : t.order (.table entries :: below) entries = ps.map fun p => (key p.1, luaOf p.2))
    (hkeys : (ps.map fun p => key p.1).Nodup) (hne : ps ≠ [])
    (hreads : ∀ p ∈ ps, Reads t levels p.2 ((key p.1).value :: .table entries :: below) size limit)
    (hassign : ∀ p ∈ ps, ∀ acc, assignKey (rootOf wrap acc) p.2.asNumbers (some (key p.1).value) =
      .ok (true, wrap (assign (acc.getD empty) p.1 p.2.asNumbers))) :
    ((∀ p ∈ ps, pushJsonValueGetdepth p.2 ≤ levels) →
      readJsonValue t (levels + 1) .null (below.length + 1) ⟨.table entries :: below, size, limit⟩ =
        .ok (true, wrap (ps.foldl (fun acc p => assign acc p.1 p.2.asNumbers) empty),
          ⟨below, size, limit⟩)) ∧
    (¬ (∀ p ∈ ps, pushJsonValueGetdepth p.2 ≤ levels) →
      Refuses (readJsonValue t (levels + 1) .null (below.length + 1)
        ⟨.table entries :: below, size, limit⟩)) := by
  have hfill : fill .null (ps.map fun p => (key p.1, p.2.asNumbers)) =
      some (wrap (ps.foldl (fun acc p => assign acc p.1 p.2.asNumbers) empty)) := by
    have hall := fill_assignAll hassign none
    rwa [assignAll_none hne] at hall
  obtain ⟨hok, hrefuse⟩ := @readJsonValue_table t size limit below entries (β × Value)
    (fun p => (key p.1, luaOf p.2)) (fun p => pushJsonValueGetdepth p.2 ≤ levels)
    (fun p => p.2.asNumbers) ps levels (by omega) horder hkeys (fun _ => hroom)
    fun p hp => ⟨(hreads p hp).reads, (hreads p hp).refuses⟩
  exact ⟨fun hdepth => hok hdepth _ hfill, fun hn => hrefuse fun h => hn h.1⟩

/-- The entries in the order of a traversal. -/
theorem exists_order {β : Type} (t : Traversal) (stack : List LuaValue) {entries : List Entry}
    {f : β → Entry} {ps : List β} (h : entries = ps.map f) :
    ∃ ps' : List β, ps'.Perm ps ∧ t.order stack entries = ps'.map f := by
  have hperm : (t.order stack entries).Perm (ps.map f) := h ▸ t.perm stack entries
  obtain ⟨ps', horder, hps⟩ :=
    (congrFun (congrFun (List.eq_map_comp_perm f) (t.order stack entries)) ps).mpr hperm
  exact ⟨ps', hps, horder⟩

theorem nodup_elementKeys {vs : List Value} {ps : List (Nat × Value)}
    (hps : ps.Perm (vs.zipIdx.map Prod.swap)) : (ps.map fun p => elementKey p.1).Nodup := by
  have hindices : (ps.map Prod.fst).Perm (List.range' 0 vs.length) := by
    refine (hps.map Prod.fst).trans ?_
    rw [List.map_map, ← List.zipIdx_map_snd]
    exact .refl _
  have hnodup : (ps.map Prod.fst).Nodup := hindices.nodup_iff.mpr List.nodup_range'
  rw [show (fun p : Nat × Value => elementKey p.1) = elementKey ∘ Prod.fst from rfl,
    ← List.map_map]
  refine hnodup.map fun a b hab => ?_
  have hcast := LuaKey.number.inj hab
  exact Nat.succ_injective (Nat.cast_injective hcast)

section Containers

variable {t : Traversal} {levels size limit : Nat} {below : List LuaValue}

/-- Assigning the elements that were read, in any order, gives the array. -/
theorem foldl_elements {vs : List Value} {ps : List (Nat × Value)}
    (helement : ∀ p, p ∈ ps ↔ vs[p.1]? = some p.2) :
    ps.foldl (fun acc p => Value.setElement acc p.1 p.2.asNumbers) [] =
      vs.map Value.asNumbers := by
  have hsound : ∀ q ∈ ps.map (Prod.map id Value.asNumbers),
      (vs.map Value.asNumbers)[q.1]? = some q.2 := by
    intro q hq
    obtain ⟨p, hp, rfl⟩ := List.mem_map.mp hq
    rw [List.getElem?_map, Prod.map_fst, id, (helement p).mp hp]
    rfl
  have hall : ∀ i w, (vs.map Value.asNumbers)[i]? = some w →
      (i, w) ∈ ps.map (Prod.map id Value.asNumbers) := by
    intro i w hw
    rw [List.getElem?_map] at hw
    obtain ⟨v, hv, rfl⟩ := Option.map_eq_some_iff.mp hw
    exact List.mem_map.mpr ⟨(i, v), (helement (i, v)).mpr hv, rfl⟩
  have hfold := Value.foldl_setElement hsound hall
  rwa [List.foldl_map] at hfold

theorem mem_elements {vs : List Value} {ps : List (Nat × Value)}
    (hps : ps.Perm (vs.zipIdx.map Prod.swap)) (p : Nat × Value) :
    p ∈ ps ↔ vs[p.1]? = some p.2 := by
  rw [hps.mem_iff, List.mem_map]
  constructor
  · rintro ⟨q, hq, rfl⟩
    exact List.mem_zipIdx_iff_getElem?.mp hq
  · exact fun h => ⟨p.swap, List.mem_zipIdx_iff_getElem?.mpr h, Prod.swap_swap p⟩

theorem read_array {vs : List Value} (hne : vs ≠ []) (hlength : vs.length < 2 ^ 32)
    (hroom : below.length + 2 < size)
    (hreads : ∀ v ∈ vs, ∀ k x, Reads t levels v (k :: x :: below) size limit) :
    Reads t (levels + 1) (.array vs) below size limit := by
  obtain ⟨ps, hps, horder⟩ := exists_order t (.table (elementEntries 0 vs) :: below)
    (elementEntries_eq 0 vs)
  have helement := mem_elements hps
  have hmem : ∀ p ∈ ps, p.2 ∈ vs := fun p hp => List.mem_of_getElem? ((helement p).mp hp)
  have hdepth : pushJsonValueGetdepth (.array vs) ≤ levels + 1 ↔
      ∀ p ∈ ps, pushJsonValueGetdepth p.2 ≤ levels := by
    rw [pushJsonValueGetdepth, Nat.add_le_add_iff_right, maxdepthElements_le]
    refine ⟨fun h p hp => h p.2 (hmem p hp), fun h v hv => ?_⟩
    obtain ⟨i, hi⟩ := List.getElem?_of_mem hv
    exact h (i, v) ((helement (i, v)).mpr hi)
  have hne' : ps ≠ [] := by
    rintro rfl
    exact hne (List.zipIdx_eq_nil_iff.mp (List.map_eq_nil_iff.mp hps.symm.eq_nil))
  have hassign : ∀ p ∈ ps, ∀ acc : Option (List Value),
      assignKey (rootOf Value.array acc) p.2.asNumbers (some (elementKey p.1).value) =
        .ok (true, .array (Value.setElement (acc.getD []) p.1 p.2.asNumbers)) := by
    intro p hp acc
    have hlt := (List.getElem?_eq_some_iff.mp ((helement p).mp hp)).1
    exact assign_element (by omega) p.2.asNumbers acc
  obtain ⟨hok, hrefuse⟩ := read_table hroom horder (nodup_elementKeys hps) hne'
    (fun p hp => hreads p.2 (hmem p hp) _ _) hassign
  rw [foldl_elements helement] at hok
  refine ⟨fun h => ?_, fun hn => hrefuse (mt hdepth.mpr hn)⟩
  rw [Value.asNumbers_array]
  exact hok (hdepth.mp h)

/-- Assigning the members that were read, in any order, gives the object. -/
theorem foldl_members {ms ps : List (Bytes × Value)} (hsorted : Sorted ms) (hps : ps.Perm ms) :
    ps.foldl (fun acc p => insertEntry p.1 p.2.asNumbers acc) [] =
      ms.map (Prod.map id Value.asNumbers) := by
  have hsorted' : Sorted (ms.map (Prod.map id Value.asNumbers)) := List.pairwise_map.mpr hsorted
  have hfold := foldl_insertEntry hsorted' (hps.map (Prod.map id Value.asNumbers))
  rwa [List.foldl_map] at hfold

theorem read_object {ms : List (Bytes × Value)} (hne : ms ≠ []) (hsorted : Sorted ms)
    (hnames : ∀ m ∈ ms, 0 ∉ m.1) (hroom : below.length + 2 < size)
    (hreads : ∀ m ∈ ms, ∀ k x, Reads t levels m.2 (k :: x :: below) size limit) :
    Reads t (levels + 1) (.object ms) below size limit := by
  obtain ⟨ps, hps, horder⟩ := exists_order t (.table (memberEntries ms) :: below)
    (memberEntries_eq ms)
  have hmem : ∀ p ∈ ps, p ∈ ms := fun p hp => hps.mem_iff.mp hp
  have hdepth : pushJsonValueGetdepth (.object ms) ≤ levels + 1 ↔
      ∀ p ∈ ps, pushJsonValueGetdepth p.2 ≤ levels := by
    rw [pushJsonValueGetdepth, Nat.add_le_add_iff_right, maxdepthMembers_le]
    exact ⟨fun h p hp => h p (hmem p hp), fun h m hm => h m (hps.mem_iff.mpr hm)⟩
  have hne' : ps ≠ [] := by
    rintro rfl
    exact hne hps.symm.eq_nil
  have hkeys : (ps.map fun p => LuaKey.string p.1).Nodup := by
    rw [show (fun p : Bytes × Value => LuaKey.string p.1) = LuaKey.string ∘ Prod.fst from rfl,
      ← List.map_map]
    exact ((hps.map Prod.fst).nodup_iff.mpr hsorted.nodup).map fun _ _ => LuaKey.string.inj
  have hassign : ∀ p ∈ ps, ∀ acc : Option (List (Bytes × Value)),
      assignKey (rootOf Value.object acc) p.2.asNumbers (some (LuaKey.string p.1).value) =
        .ok (true, .object (insertEntry p.1 p.2.asNumbers (acc.getD []))) :=
    fun p hp acc => assign_member (hnames p (hmem p hp)) _ acc
  obtain ⟨hok, hrefuse⟩ := @read_table Bytes (List (Bytes × Value)) LuaKey.string Value.object
    (fun acc name v => insertEntry name v acc) [] t levels size limit below _ ps hroom horder hkeys
    hne' (fun p hp => hreads p (hmem p hp) _ _) hassign
  rw [foldl_members hsorted hps] at hok
  refine ⟨fun h => ?_, fun hn => hrefuse (mt hdepth.mpr hn)⟩
  rw [Value.asNumbers_object]
  exact hok (hdepth.mp h)

end Containers

/-- **Reading what was pushed**, without NUL, gives the value with its numbers as `double`s. -/
theorem read_spec (t : Traversal) (size limit : Nat) : ∀ (levels : Nat) (v : Value),
    v.All InDomain → v.All NulFree → ∀ below : List LuaValue,
      below.length + 2 * pushJsonValueGetdepth v ≤ size + 1 →
        Reads t levels v below size limit := by
  intro levels
  induction levels with
  | zero =>
    intro v _ _ below _
    exact ⟨fun h => absurd (getdepth_pos v) (Nat.not_lt.mpr h), fun _ => ⟨_, _, rfl⟩⟩
  | succ levels ih =>
    intro v hv hnul below hroom
    by_cases hscalar : v.isScalar = true
    · refine ⟨fun _ => read_scalar t levels hscalar below size limit, fun hn => absurd ?_ hn⟩
      cases v with
      | array | object => cases hscalar
      | _ => exact Nat.succ_le_succ (Nat.zero_le levels)
    · cases v with
      | array vs =>
        obtain ⟨⟨hne, hlength⟩, hdomain⟩ := Value.all_array.mp hv
        obtain ⟨w, hw⟩ := List.exists_mem_of_ne_nil vs hne
        have hpos := getdepth_pos w
        have hlt := getdepth_element hw
        refine read_array hne hlength (by omega) fun u hu k x =>
          ih u (hdomain u hu) ((Value.all_array.mp hnul).2 u hu) _ ?_
        have hlt' := getdepth_element hu
        simp only [List.length_cons]
        omega
      | object ms =>
        obtain ⟨⟨hne, hsorted⟩, hdomain⟩ := Value.all_object.mp hv
        obtain ⟨hnames, hmembers⟩ := Value.all_object.mp hnul
        obtain ⟨m, hm⟩ := List.exists_mem_of_ne_nil ms hne
        have hpos := getdepth_pos m.2
        have hlt := getdepth_member hm
        refine read_object hne hsorted hnames (by omega) fun u hu k x =>
          ih u.2 (hdomain u hu) (hmembers u hu) _ ?_
        have hlt' := getdepth_member hu
        simp only [List.length_cons]
        omega
      | _ => exact absurd rfl hscalar

/-! ## The round trip -/

/-- `push_json_value` succeeds, and `read_json_value` on what it pushed returns true with an equal
value, numbers being compared as numbers. -/
def RoundTrips (t : Traversal) (L : LuaState) (v : Value) (nullindex : Int) : Prop :=
  ∃ L' w L'', pushJsonValue L v nullindex = .ok (true, L') ∧
    readJsonValue t 16 .null L'.getTop L' = .ok (true, w, L'') ∧ w.asNumbers = v.asNumbers

/-- What `push_json_value` does when the stack can be extended. -/
theorem pushJsonValue_spec {L : LuaState} {v : Value} (hv : v.All InDomain) (nullindex : Int)
    (hlimit : L.getTop + 2 * pushJsonValueGetdepth v ≤ L.limit) :
    ∃ size, L.stack.length + 2 * pushJsonValueGetdepth v ≤ size ∧
      (v.All Fits → pushJsonValue L v nullindex =
        .ok (true, ⟨luaOf (cut v) :: L.stack, size, L.limit⟩)) ∧
      (¬ v.All Fits → pushJsonValue L v nullindex = .error .logicError) := by
  have hcheck : L.checkStack (pushJsonValueGetdepth v * 2) =
      (true, { L with size := max L.size (L.getTop + pushJsonValueGetdepth v * 2) }) :=
    if_pos (by omega)
  have hle : L.stack.length + 2 * pushJsonValueGetdepth v ≤
      max L.size (L.getTop + pushJsonValueGetdepth v * 2) := by
    rw [LuaState.getTop]
    omega
  have hroom : Room { L with size := max L.size (L.getTop + pushJsonValueGetdepth v * 2) } v :=
    Nat.le_succ_of_le hle
  refine ⟨_, hle, fun hfits => ?_, fun hn => ?_⟩
  · simp only [pushJsonValue, hcheck, bind, Except.bind, (push_spec _ v hv _ hroom).fits hfits]
    rfl
  · simp only [pushJsonValue, hcheck, bind, Except.bind, (push_spec _ v hv _ hroom).throws hn]
    rfl

theorem pushJsonValue_full {L : LuaState} {v : Value} (nullindex : Int)
    (hlimit : ¬ L.getTop + 2 * pushJsonValueGetdepth v ≤ L.limit) :
    pushJsonValue L v nullindex = .ok (false, L) := by
  have hcheck : L.checkStack (pushJsonValueGetdepth v * 2) = (false, L) := if_neg (by omega)
  simp only [pushJsonValue, hcheck]
  rfl

/-- **The round trip is the identity** exactly when the stack can be extended, the value is not too
deep, every number fits in 32 bits, and no string or name has a NUL. -/
theorem roundTrips_iff (t : Traversal) (L : LuaState) {v : Value} (hv : v.All InDomain)
    (nullindex : Int) :
    RoundTrips t L v nullindex ↔ L.getTop + 2 * pushJsonValueGetdepth v ≤ L.limit ∧
      pushJsonValueGetdepth v ≤ 16 ∧ v.All Fits ∧ v.All NulFree := by
  by_cases hlimit : L.getTop + 2 * pushJsonValueGetdepth v ≤ L.limit
  · obtain ⟨size, hle, hok, herror⟩ := pushJsonValue_spec hv nullindex hlimit
    have hleft := left_cut hv
    have hdepth := hleft.depth
    have hread := read_spec t size L.limit 16 (cut v) hleft.domain hleft.nulFree L.stack (by omega)
    constructor
    · rintro ⟨L', w, L'', hpush, hresult, heq⟩
      by_cases hfits : v.All Fits
      · obtain ⟨-, rfl⟩ := Prod.mk.inj (Except.ok.inj ((hok hfits).symm.trans hpush))
        have hshallow : pushJsonValueGetdepth (cut v) ≤ 16 := by
          by_contra hn
          obtain ⟨root, L1, hrefuse⟩ := hread.refuses hn
          cases hrefuse.symm.trans hresult
        have hread' := Except.ok.inj ((hread.reads hshallow).symm.trans hresult)
        rw [← (Prod.mk.inj (Prod.mk.inj hread').2).1, Value.asNumbers_asNumbers,
          cut_asNumbers_iff hv] at heq
        exact ⟨hlimit, cut_eq_self hv heq ▸ hshallow, hfits, heq⟩
      · cases (herror hfits).symm.trans hpush
    · rintro ⟨-, hshallow, hfits, hnul⟩
      refine ⟨_, _, _, hok hfits, hread.reads (hdepth.trans hshallow), ?_⟩
      rw [Value.asNumbers_asNumbers, (cut_asNumbers_iff hv).mpr hnul]
  · refine ⟨fun ⟨L', w, L'', hpush, _⟩ => ?_, fun h => absurd h.1 hlimit⟩
    cases (pushJsonValue_full nullindex hlimit).symm.trans hpush

/-- `lua_next` in the order of the entries. -/
def Traversal.listed : Traversal := ⟨fun _ entries => entries, fun _ _ => .refl _⟩

/-- `{"a": [-5, "hi"], "b": true}`. -/
theorem roundTrips_object : RoundTrips .listed ⟨[], 20, 1000000⟩
    (.object [([97], .array [.int (-5), .string [104, 105]]), ([98], .boolean true)]) 0 := by
  refine (roundTrips_iff .listed ⟨[], 20, 1000000⟩ ?_ 0).mpr ⟨by decide, by decide, ?_, ?_⟩
  · simp [Value.All, Value.AllMembers, Value.AllElements, InDomain, Sorted]
    decide
  · simp [Value.All, Value.AllMembers, Value.AllElements, Fits]
  · simp [Value.All, Value.AllMembers, Value.AllElements, NulFree]

/-- `asInt` throws at `2^31`, and the string `"a\0b"` comes back as `"a"`. -/
theorem not_roundTrips_int :
    ((Value.int 2147483648).All InDomain ∧
      ¬ RoundTrips .listed ⟨[], 20, 1000000⟩ (.int 2147483648) 0) ∧
    (Value.string [97, 0, 98]).All InDomain ∧
      ¬ RoundTrips .listed ⟨[], 20, 1000000⟩ (.string [97, 0, 98]) 0 := by
  refine ⟨⟨?_, ?_⟩, trivial, ?_⟩
  · exact ⟨by decide, by decide⟩
  · rintro ⟨L', w, L'', hpush, -⟩
    nomatch hpush
  · rintro ⟨L', w, L'', hpush, hread, heq⟩
    cases hpush
    cases hread
    cases heq

end WinterWind.Lua
