import WinterWind.Lua.LuaHelper

/-!
# The loop over a table (`src/core/lua/luahelper.cpp`)

What `read_json_value` makes of a table, for one order of `lua_next`.

* A key goes to a `Slot`: a name, cut at its first NUL, or an index, taken modulo `2^32`. `fill`
  puts entries into their slots one after the other, and fails when names and indices meet.
* The entries may be given through a list of anything, `entry` being what each stands for.

Results:
* `assignKey_eq`: the assignment under a key puts the value into its slot.
* `readTable_loop`: the rest of the loop, from any entry on.
* **`readJsonValue_table`**: a table is read as its slots are filled, or refused because a value is
  refused or the slots cannot be filled.
-/

namespace WinterWind.Lua

/-! ## Slots -/

/-- Where an entry goes. -/
inductive Slot where
  | name (s : Bytes)
  | index (i : Nat)
  deriving DecidableEq

/-- The slot of a key, if it has one. -/
def keySlot : LuaKey → Option Slot
  | .number n =>
    if n < 1 then none
    else if (n.floor : Rat) ≠ n then none
    else some (.index (arrayIndex n.floor.toNat))
  | .infinite positive => if positive then some (.index (arrayIndex 0)) else none
  | .string s => some (.name (cStr s))
  | _ => none

/-- An assignment to a slot: none if names and indices meet. -/
def put (root value : Value) : Slot → Option Value
  | .name s =>
    match root with
    | .null => some (.object (insertMember s value []))
    | .object ms => some (.object (insertMember s value ms))
    | _ => none
  | .index i =>
    match root with
    | .null => some (.array (Value.setElement [] i value))
    | .array vs => some (.array (Value.setElement vs i value))
    | _ => none

/-- An entry goes to its slot. -/
def putEntry (root : Value) (p : LuaKey × Value) : Option Value :=
  (keySlot p.1).bind (put root p.2)

/-- The entries go to their slots. -/
def fill (root : Value) (ps : List (LuaKey × Value)) : Option Value :=
  ps.foldl (fun root p => root.bind (putEntry · p)) (some root)

/-- **The assignment of `read_json_value`** puts the entry into its slot. -/
theorem assignKey_eq (root value : Value) (k : LuaKey) :
    assignKey root value (some k.value) =
      .ok ((putEntry root (k, value)).elim (false, root) fun root => (true, root)) := by
  cases k with
  | number n =>
    simp only [assignKey, LuaKey.value, orFault, putEntry, keySlot]
    by_cases hlt : n < 1
    · cases root <;> simp [hlt, bind, Except.bind, pure, Except.pure]
    · by_cases hfloor : (n.floor : Rat) = n
      · cases root <;>
          simp [hlt, hfloor, put, Value.setIndex, bind, Except.bind, pure, Except.pure]
      · cases root <;> simp [hlt, hfloor, bind, Except.bind, pure, Except.pure]
  | infinite positive =>
    cases positive <;> cases root <;>
      simp [assignKey, LuaKey.value, putEntry, keySlot, put, Value.setIndex, bind, Except.bind,
        pure, Except.pure]
  | string s =>
    cases root <;>
      simp [assignKey, LuaKey.value, putEntry, keySlot, put, insertMember, bind, Except.bind, pure,
        Except.pure]
  | boolean b => cases root <;> rfl
  | other ref => cases root <;> rfl

theorem foldl_none (ps : List (LuaKey × Value)) :
    ps.foldl (fun root p => root.bind (putEntry · p)) none = none := by
  induction ps with
  | nil => rfl
  | cons p ps ih => exact ih

theorem fill_cons (root : Value) (p : LuaKey × Value) (ps : List (LuaKey × Value)) :
    fill root (p :: ps) = (putEntry root p).bind (fill · ps) := by
  rw [fill, List.foldl_cons, Option.bind_some]
  cases putEntry root p with
  | none => exact foldl_none ps
  | some root => rfl

/-! ## The loop -/

/-- Reading returns false. -/
def Refuses (result : Except Fault (Bool × Value × LuaState)) : Prop :=
  ∃ root L, result = .ok (false, root, L)

/-- The key on the stack after some entries were read. -/
def lastKey (done : List Entry) : LuaValue := (done.getLast?.map fun e => e.1.value).getD .nil

theorem following_done {done : List Entry} (todo : List Entry)
    (hkeys : ((done ++ todo).map Prod.fst).Nodup) :
    LuaState.following (lastKey done) (done ++ todo) = some todo.head? := by
  rcases List.eq_nil_or_concat done with rfl | ⟨read, e, rfl⟩
  · rfl
  · have hlast : lastKey (read ++ [e]) = e.1.value := by simp [lastKey]
    rw [List.concat_eq_append] at hkeys ⊢
    rw [hlast, LuaState.following_value, List.append_assoc, List.singleton_append,
      LuaState.entryAfter_append]
    rw [List.append_assoc, List.map_append, List.singleton_append, List.map_cons] at hkeys
    exact fun hmem => (List.nodup_append.mp hkeys).2.2 _ hmem _ List.mem_cons_self rfl

section Loop

variable {t : Traversal} {size limit : Nat} {below : List LuaValue} {entries : List Entry}

/-- `lua_next` after some entries were read. -/
theorem next_done (limit : Nat) {done todo : List Entry}
    (horder : t.order (.table entries :: below) entries = done ++ todo)
    (hkeys : ((done ++ todo).map Prod.fst).Nodup) (hroom : todo ≠ [] → below.length + 2 < size) :
    (LuaState.mk (lastKey done :: .table entries :: below) size limit).next t (below.length + 1) =
      .ok (todo.head?.elim (false, ⟨.table entries :: below, size, limit⟩) fun e =>
        (true, ⟨e.2 :: e.1.value :: .table entries :: below, size, limit⟩)) := by
  refine LuaState.next_eq (fun hsome => hroom ?_) ?_
  · rintro rfl
    cases hsome
  · rw [horder]
    exact following_done todo hkeys

variable {ι : Type} {entry : ι → Entry} {Reads : ι → Prop} {val : ι → Value} {ps : List ι}

/-- **The loop over a table** reads the rest of the entries and fills their slots, or refuses the
table because a value is refused or a slot cannot be filled. -/
theorem readTable_loop {read : LuaState → Except Fault (Bool × Value × LuaState)}
    (horder : t.order (.table entries :: below) entries = ps.map entry)
    (hkeys : (ps.map fun p => (entry p).1).Nodup) (hroom : ps ≠ [] → below.length + 2 < size)
    (hread : ∀ p ∈ ps,
      (Reads p → read ⟨(entry p).2 :: (entry p).1.value :: .table entries :: below, size, limit⟩ =
        .ok (true, val p, ⟨(entry p).1.value :: .table entries :: below, size, limit⟩)) ∧
      (¬Reads p → Refuses
        (read ⟨(entry p).2 :: (entry p).1.value :: .table entries :: below, size, limit⟩))) :
    ∀ (todo done : List ι), ps = done ++ todo → ∀ (root : Value) (fuel : Nat),
      todo.length < fuel →
        ((∀ p ∈ todo, Reads p) → ∀ w, fill root (todo.map fun p => ((entry p).1, val p)) = some w →
          readTable t read (below.length + 1) fuel root
              ⟨lastKey (done.map entry) :: .table entries :: below, size, limit⟩ =
            .ok (true, w, ⟨.table entries :: below, size, limit⟩)) ∧
        (¬ ((∀ p ∈ todo, Reads p) ∧
            (fill root (todo.map fun p => ((entry p).1, val p))).isSome) →
          Refuses (readTable t read (below.length + 1) fuel root
            ⟨lastKey (done.map entry) :: .table entries :: below, size, limit⟩)) := by
  have hsplit : ∀ done todo, ps = done ++ todo →
      t.order (.table entries :: below) entries = done.map entry ++ todo.map entry ∧
        ((done.map entry ++ todo.map entry).map Prod.fst).Nodup := by
    intro done todo hps
    rw [← List.map_append, ← hps, List.map_map]
    exact ⟨horder, hkeys⟩
  intro todo
  induction todo with
  | nil =>
    intro done hps root fuel hfuel
    obtain ⟨fuel, rfl⟩ := Nat.exists_eq_succ_of_ne_zero (Nat.ne_of_gt hfuel)
    obtain ⟨horder', hkeys'⟩ := hsplit done [] hps
    constructor
    · intro _ w hw
      obtain rfl := Option.some.inj hw
      rw [readTable, next_done limit horder' hkeys' fun h => absurd rfl h]
      rfl
    · exact fun hn => absurd ⟨fun _ h => absurd h List.not_mem_nil, rfl⟩ hn
  | cons p todo ih =>
    intro done hps root fuel hfuel
    obtain ⟨fuel, rfl⟩ := Nat.exists_eq_succ_of_ne_zero (Nat.ne_of_gt (Nat.zero_lt_of_lt hfuel))
    have hmem : p ∈ ps := hps ▸ List.mem_append_right done List.mem_cons_self
    obtain ⟨horder', hkeys'⟩ := hsplit done (p :: todo) hps
    have hnext := next_done limit horder' hkeys' fun _ => hroom (List.ne_nil_of_mem hmem)
    simp only [List.map_cons, List.head?_cons, Option.elim_some] at hnext
    rw [readTable, hnext, List.map_cons, fill_cons]
    by_cases hreads : Reads p
    · simp only [bind, Except.bind, (hread p hmem).1 hreads, List.head?_cons, assignKey_eq]
      cases hput : putEntry root ((entry p).1, val p) with
      | none =>
        -- the key is refused
        exact ⟨fun _ w hw => (by cases hw), fun _ => ⟨root, _, rfl⟩⟩
      | some root' =>
        have hlast : lastKey ((done ++ [p]).map entry) = (entry p).1.value := by simp [lastKey]
        obtain ⟨hok, hrefuse⟩ := ih (done ++ [p]) (by rw [hps, List.append_assoc]; rfl) root' fuel
          (Nat.lt_of_succ_lt_succ hfuel)
        rw [hlast] at hok hrefuse
        refine ⟨fun h w hw => hok (fun q hq => h q (List.mem_cons_of_mem p hq)) w hw, fun hn => ?_⟩
        exact hrefuse fun h => hn ⟨List.forall_mem_cons.mpr ⟨hreads, h.1⟩, h.2⟩
    · obtain ⟨root', L, hrefuse⟩ := (hread p hmem).2 hreads
      refine ⟨fun h => absurd (h p List.mem_cons_self) hreads, fun _ => ⟨root, L, ?_⟩⟩
      simp only [bind, Except.bind, hrefuse]
      rfl

/-- **Reading a table** from the top of the stack. -/
theorem readJsonValue_table {levels : Nat} (hheight : below.length + 1 < size)
    (horder : t.order (.table entries :: below) entries = ps.map entry)
    (hkeys : (ps.map fun p => (entry p).1).Nodup) (hroom : ps ≠ [] → below.length + 2 < size)
    (hread : ∀ p ∈ ps,
      (Reads p → readJsonValue t levels .null (below.length + 3)
          ⟨(entry p).2 :: (entry p).1.value :: .table entries :: below, size, limit⟩ =
        .ok (true, val p, ⟨(entry p).1.value :: .table entries :: below, size, limit⟩)) ∧
      (¬Reads p → Refuses (readJsonValue t levels .null (below.length + 3)
        ⟨(entry p).2 :: (entry p).1.value :: .table entries :: below, size, limit⟩))) :
    ((∀ p ∈ ps, Reads p) → ∀ w, fill .null (ps.map fun p => ((entry p).1, val p)) = some w →
      readJsonValue t (levels + 1) .null (below.length + 1)
          ⟨.table entries :: below, size, limit⟩ =
        .ok (true, w, ⟨below, size, limit⟩)) ∧
    (¬ ((∀ p ∈ ps, Reads p) ∧ (fill .null (ps.map fun p => ((entry p).1, val p))).isSome) →
      Refuses (readJsonValue t (levels + 1) .null (below.length + 1)
        ⟨.table entries :: below, size, limit⟩)) := by
  have hpush : (LuaState.mk (.table entries :: below) size limit).push .nil =
      .ok ⟨.nil :: .table entries :: below, size, limit⟩ := if_pos hheight
  have hlength : ps.length < entries.length + 1 := by
    have hperm := (t.perm (.table entries :: below) entries).length_eq
    rw [horder, List.length_map] at hperm
    omega
  obtain ⟨hok, hrefuse⟩ := @readTable_loop t size limit below entries ι entry Reads val ps
    (fun L => readJsonValue t levels .null L.getTop L) horder hkeys hroom hread ps [] rfl .null
    (entries.length + 1) hlength
  have hstart : lastKey [] = .nil := rfl
  simp only [List.map_nil, hstart] at hok hrefuse
  simp only [readJsonValue, LuaState.slot_top, bind, Except.bind, hpush]
  constructor
  · intro hall w hw
    rw [hok hall w hw]
    rfl
  · intro hn
    obtain ⟨root, L, hloop⟩ := hrefuse hn
    refine ⟨root, L, ?_⟩
    rw [hloop]
    rfl

end Loop

end WinterWind.Lua
