import WinterWind.Lua.JsonRoundTrip

/-!
# Tables read in any order (`src/core/lua/luahelper.cpp`)

What `read_json_value` makes of a table, whatever order `lua_next` has.

* `read_json_value` uses two slots of the stack for every level and reserves none; `HasRoom` says
  that they are there.

Results:
* `fill_perm`: entries with different slots can be put in any order.
* `read_levels`: every order reads a value that is `Readable`, and refuses the others, if there is
  room. `read_full`: without room, some order uses a slot that is not there.
* `plainKeys_of_atOwnKeys`, `atOwnKeys_jsonOf`: the entries are at their own keys exactly if the
  keys are plain.
* **`orderFree_iff`**: the order does not matter exactly if there is room, and the value is refused
  or its keys are plain.
-/

namespace WinterWind.Lua

open Library

/-! ## Any order -/

/-- Assignments to different slots commute. -/
theorem put_comm {a b : Slot} (hab : a ≠ b) (v w root : Value) :
    (put root v a).bind (put · w b) = (put root w b).bind (put · v a) := by
  cases a with
  | name s =>
    cases b with
    | name s' =>
      have hne : s' ≠ s := fun e => hab (congrArg Slot.name e.symm)
      cases root <;> simp [put, insertMember_eq, insertEntry_comm hne]
    | index i => cases root <;> rfl
  | index i =>
    cases b with
    | name s => cases root <;> rfl
    | index j =>
      have hne : i ≠ j := fun e => hab (congrArg Slot.index e)
      cases root <;> simp [put, Value.setElement_comm hne]

/-- Different entries have different slots. -/
def SlotsDiffer (ps : List (LuaKey × Value)) : Prop :=
  ∀ p ∈ ps, ∀ q ∈ ps, p ≠ q → ∀ slot, keySlot p.1 = some slot → keySlot q.1 ≠ some slot

/-- **Entries with different slots can be put in any order.** -/
theorem fill_perm {ps qs : List (LuaKey × Value)} (hslots : SlotsDiffer ps) (hperm : ps.Perm qs)
    (root : Value) : fill root ps = fill root qs := by
  refine hperm.foldl_eq' (fun p hp q hq root => ?_) (some root)
  by_cases hpq : p = q
  · rw [hpq]
  cases root with
  | none => rfl
  | some root =>
    simp only [Option.bind_some, putEntry]
    cases ha : keySlot p.1 with
    | none => cases keySlot q.1 <;> simp
    | some a =>
      cases hb : keySlot q.1 with
      | none => simp
      | some b =>
        have hab : a ≠ b := fun e => hslots p hp q hq hpq a ha (e ▸ hb)
        exact put_comm hab p.2 q.2 root

/-! ## When the slots can be filled -/

/-- All keys are names, or all are indices. -/
def KeysAlike (entries : List Entry) : Prop :=
  (∀ e ∈ entries, ∃ s, keySlot e.1 = some (.name s)) ∨
    ∀ e ∈ entries, ∃ i, keySlot e.1 = some (.index i)

/-- The entries with the values that were read. -/
def withValues (val : Entry → Value) (entries : List Entry) : List (LuaKey × Value) :=
  entries.map fun e => (e.1, val e)

theorem isSome_fill_object (val : Entry → Value) (entries : List Entry) :
    ∀ ms : List (Bytes × Value), (fill (.object ms) (withValues val entries)).isSome ↔
      ∀ e ∈ entries, ∃ s, keySlot e.1 = some (.name s) := by
  induction entries with
  | nil => simp [withValues, fill]
  | cons e entries ih =>
    intro ms
    rw [withValues, List.map_cons, fill_cons, putEntry, List.forall_mem_cons]
    cases hslot : keySlot e.1 with
    | none => simp
    | some slot =>
      cases slot with
      | name s => exact (ih _).trans (by simp)
      | index i => simp [put]

theorem isSome_fill_array (val : Entry → Value) (entries : List Entry) :
    ∀ vs : List Value, (fill (.array vs) (withValues val entries)).isSome ↔
      ∀ e ∈ entries, ∃ i, keySlot e.1 = some (.index i) := by
  induction entries with
  | nil => simp [withValues, fill]
  | cons e entries ih =>
    intro vs
    rw [withValues, List.map_cons, fill_cons, putEntry, List.forall_mem_cons]
    cases hslot : keySlot e.1 with
    | none => simp
    | some slot =>
      cases slot with
      | name s => simp [put]
      | index i => exact (ih _).trans (by simp)

/-- **The slots can be filled** exactly if the keys are alike. -/
theorem isSome_fill_null (val : Entry → Value) (entries : List Entry) :
    (fill .null (withValues val entries)).isSome ↔ KeysAlike entries := by
  cases entries with
  | nil => simp [withValues, fill, KeysAlike]
  | cons e entries =>
    rw [withValues, List.map_cons, fill_cons, putEntry, KeysAlike, List.forall_mem_cons,
      List.forall_mem_cons]
    cases hslot : keySlot e.1 with
    | none => simp
    | some slot =>
      cases slot with
      | name s => exact (isSome_fill_object val entries _).trans (by simp)
      | index i => exact (isSome_fill_array val entries _).trans (by simp)

/-! ## What can be read -/

/-- What is read in every order: no more levels than are left, and keys that are alike. -/
def Readable : Nat → LuaValue → Prop
  | 0, _ => False
  | levels + 1, .table entries =>
    KeysAlike entries ∧ ∀ e ∈ entries, Readable levels e.2
  | _ + 1, .other _ => False
  | _ + 1, _ => True

/-- The slots of the stack that reading takes are there: a table at a height needs one, and two if
it has entries. -/
def HasRoom (size : Nat) : Nat → Nat → LuaValue → Prop
  | 0, _, _ => True
  | levels + 1, height, v =>
    match v with
    | .table entries =>
      height < size ∧ ∀ e ∈ entries, height + 1 < size ∧ HasRoom size levels (height + 2) e.2
    | _ => True

instance HasRoom.decidable (size : Nat) : ∀ (levels height : Nat) (v : LuaValue),
    Decidable (HasRoom size levels height v)
  | 0, _, _ => isTrue trivial
  | levels + 1, height, .table entries =>
    have (e : Entry) : Decidable (HasRoom size levels (height + 2) e.2) :=
      HasRoom.decidable size levels (height + 2) e.2
    inferInstanceAs (Decidable (height < size ∧
      ∀ e ∈ entries, height + 1 < size ∧ HasRoom size levels (height + 2) e.2))
  | _ + 1, _, .nil => isTrue trivial
  | _ + 1, _, .boolean _ => isTrue trivial
  | _ + 1, _, .number _ => isTrue trivial
  | _ + 1, _, .infinite _ => isTrue trivial
  | _ + 1, _, .string _ => isTrue trivial
  | _ + 1, _, .other _ => isTrue trivial

/-! ## What is read -/

section All

variable (p : List Entry → Prop)

mutual

/-- `p` holds of the entries of every table inside. -/
def LuaValue.All : LuaValue → Prop
  | .table entries => p entries ∧ LuaValue.AllEntries entries
  | .nil => True
  | .boolean _ => True
  | .number _ => True
  | .infinite _ => True
  | .string _ => True
  | .other _ => True

def LuaValue.AllEntries : List Entry → Prop
  | [] => True
  | (_, x) :: rest => x.All ∧ LuaValue.AllEntries rest

end

variable {p}

theorem LuaValue.all_table {entries : List Entry} :
    (LuaValue.table entries).All p ↔ p entries ∧ ∀ e ∈ entries, e.2.All p := by
  rw [LuaValue.All]
  refine and_congr Iff.rfl ?_
  induction entries with
  | nil => simp [LuaValue.AllEntries]
  | cons e entries ih => simp [LuaValue.AllEntries, ih]

end All

/-- No two entries have the same key. -/
def DistinctKeys (entries : List Entry) : Prop := (entries.map Prod.fst).Nodup

/-- A key that has its own slot: a number that is not past `2^32`, or a string without NUL. -/
def PlainKey : LuaKey → Prop
  | .number n => n ≤ 2 ^ 32
  | .infinite _ => False
  | .string s => 0 ∉ s
  | _ => True

def PlainKeys (entries : List Entry) : Prop := ∀ e ∈ entries, PlainKey e.1

mutual

/-- The value in Json, when the entries are put in the order in which the table lists them. -/
def jsonOf : LuaValue → Value
  | .table entries => (fill .null (jsonEntries entries)).getD .null
  | .boolean b => .boolean b
  | .number n => .real n
  | .infinite _ => .real none
  | .string s => .string s
  | .nil => .null
  | .other _ => .null

def jsonEntries : List Entry → List (LuaKey × Value)
  | [] => []
  | (k, x) :: rest => (k, jsonOf x) :: jsonEntries rest

end

theorem jsonEntries_eq : ∀ entries : List Entry,
    jsonEntries entries = withValues (fun e => jsonOf e.2) entries
  | [] => rfl
  | (k, x) :: rest => by rw [jsonEntries, jsonEntries_eq rest]; rfl

/-- The key of a slot. -/
def Slot.key : Slot → LuaKey
  | name s => .string s
  | index i => .number ((i + 1 : Nat) : Rat)

/-- A plain key is the key of its slot. -/
theorem eq_key_of_keySlot {k : LuaKey} {slot : Slot} (hplain : PlainKey k)
    (h : keySlot k = some slot) : k = slot.key := by
  cases k with
  | number n =>
    rw [keySlot] at h
    split at h
    · cases h
    · rename_i hlt
      split at h
      · cases h
      · rename_i hfloor
        obtain rfl := Option.some.inj h
        rw [not_not] at hfloor
        rw [not_lt] at hlt
        have hpos : 1 ≤ n.floor := by
          rw [← hfloor] at hlt
          exact_mod_cast hlt
        have hle : n.floor ≤ 2 ^ 32 := by
          have hplain : n ≤ 2 ^ 32 := hplain
          rw [← hfloor] at hplain
          exact_mod_cast hplain
        have hindex : arrayIndex n.floor.toNat + 1 = n.floor.toNat := by
          rw [arrayIndex]
          omega
        have hcast : ((n.floor.toNat : Int) : Rat) = n := by
          rw [Int.toNat_of_nonneg (by omega), hfloor]
        rw [Slot.key, hindex, ← hcast]
        rfl
  | infinite positive => exact hplain.elim
  | string s =>
    obtain rfl := Option.some.inj h
    rw [Slot.key, cStr_of_not_mem hplain]
  | boolean b => cases h
  | other ref => cases h

/-- Entries with distinct plain keys have different slots. -/
theorem slotsDiffer {entries : List Entry} (hkeys : DistinctKeys entries)
    (hplain : PlainKeys entries) (val : Entry → Value) :
    SlotsDiffer (withValues val entries) := by
  intro p hp q hq hpq slot hslot hslot'
  obtain ⟨e, he, rfl⟩ := List.mem_map.mp hp
  obtain ⟨e', he', rfl⟩ := List.mem_map.mp hq
  have hkey : e.1 = e'.1 := (eq_key_of_keySlot (hplain e he) hslot).trans
    (eq_key_of_keySlot (hplain e' he') hslot').symm
  exact hpq (by rw [List.inj_on_of_nodup_map hkeys he he' hkey])

/-! ### Bounds -/

/-- What an index or a name can be. -/
def Bounded : Value → Prop
  | .array vs => vs.length ≤ 2 ^ 32
  | .object ms => ∀ m ∈ ms, 0 ∉ m.1
  | _ => True

theorem arrayIndex_lt (key : Nat) : arrayIndex key < 2 ^ 32 := Nat.mod_lt _ (by decide)

/-- The slot of a key is in bounds. -/
theorem keySlot_bounded {k : LuaKey} {slot : Slot} (h : keySlot k = some slot) :
    (∀ i, slot = .index i → i < 2 ^ 32) ∧ ∀ s, slot = .name s → 0 ∉ s := by
  cases k with
  | number n =>
    rw [keySlot] at h
    split at h
    · cases h
    · split at h
      · cases h
      · obtain rfl := Option.some.inj h
        exact ⟨fun i hi => Slot.index.inj hi ▸ arrayIndex_lt _, fun s hs => by cases hs⟩
  | infinite positive =>
    rw [keySlot] at h
    split at h
    · obtain rfl := Option.some.inj h
      exact ⟨fun i hi => Slot.index.inj hi ▸ arrayIndex_lt _, fun s hs => by cases hs⟩
    · cases h
  | string s =>
    obtain rfl := Option.some.inj h
    refine ⟨fun i hi => ?_, fun s' hs => Slot.name.inj hs ▸ not_mem_cStr s⟩
    cases hi
  | boolean b => cases h
  | other ref => cases h

theorem bounded_setElement {vs : List Value} {i : Nat} {value : Value}
    (hlength : vs.length ≤ 2 ^ 32) (hvs : ∀ v ∈ vs, v.All Bounded) (hi : i < 2 ^ 32)
    (hvalue : value.All Bounded) : (Value.array (Value.setElement vs i value)).All Bounded := by
  refine Value.all_array.mpr ⟨?_, fun v hv => ?_⟩
  · rw [Bounded, Value.length_setElement]
    omega
  · rcases List.mem_or_eq_of_mem_set hv with hv | rfl
    · rcases List.mem_append.mp hv with hv | hv
      · exact hvs v hv
      · rw [(List.mem_replicate.mp hv).2]
        trivial
    · exact hvalue

theorem bounded_insertMember {ms : List (Bytes × Value)} {s : Bytes} {value : Value}
    (hms : ∀ m ∈ ms, 0 ∉ m.1 ∧ m.2.All Bounded) (hs : 0 ∉ s) (hvalue : value.All Bounded) :
    (Value.object (insertMember s value ms)).All Bounded := by
  have hall : ∀ m ∈ insertMember s value ms, 0 ∉ m.1 ∧ m.2.All Bounded := by
    intro m hm
    rw [insertMember_eq] at hm
    rcases mem_insertEntry hm with rfl | hm
    · exact ⟨hs, hvalue⟩
    · exact hms m hm
  exact Value.all_object.mpr ⟨fun m hm => (hall m hm).1, fun m hm => (hall m hm).2⟩

theorem bounded_putEntry {root w : Value} {p : LuaKey × Value} (hroot : root.All Bounded)
    (hvalue : p.2.All Bounded) (h : putEntry root p = some w) : w.All Bounded := by
  obtain ⟨slot, hslot, hput⟩ := Option.bind_eq_some_iff.mp h
  obtain ⟨hindex, hname⟩ := keySlot_bounded hslot
  cases slot with
  | name s =>
    cases root with
    | null =>
      obtain rfl := Option.some.inj hput
      exact bounded_insertMember (fun _ hm => (nomatch hm)) (hname s rfl) hvalue
    | object ms =>
      obtain rfl := Option.some.inj hput
      obtain ⟨hnames, hmembers⟩ := Value.all_object.mp hroot
      exact bounded_insertMember (fun m hm => ⟨hnames m hm, hmembers m hm⟩) (hname s rfl) hvalue
    | _ => cases hput
  | index i =>
    cases root with
    | null =>
      obtain rfl := Option.some.inj hput
      exact bounded_setElement (Nat.zero_le _) (fun _ hv => (nomatch hv)) (hindex i rfl) hvalue
    | array vs =>
      obtain rfl := Option.some.inj hput
      obtain ⟨hlength, hvs⟩ := Value.all_array.mp hroot
      exact bounded_setElement hlength hvs (hindex i rfl) hvalue
    | _ => cases hput

theorem bounded_fill {ps : List (LuaKey × Value)} (hps : ∀ p ∈ ps, p.2.All Bounded) :
    ∀ {root w : Value}, root.All Bounded → fill root ps = some w → w.All Bounded := by
  induction ps with
  | nil =>
    intro root w hroot h
    exact Option.some.inj h ▸ hroot
  | cons p ps ih =>
    intro root w hroot h
    rw [fill_cons] at h
    obtain ⟨root', hput, h⟩ := Option.bind_eq_some_iff.mp h
    exact ih (fun q hq => hps q (List.mem_cons_of_mem p hq))
      (bounded_putEntry hroot (hps p List.mem_cons_self) hput) h

/-! ### Every level -/

/-- What reading a value from the top of the stack does: it pops it, or refuses it. -/
structure ReadsLevels (t : Traversal) (levels : Nat) (v : LuaValue) (below : List LuaValue)
    (size limit : Nat) : Prop where
  reads : Readable levels v → ∃ w,
    readJsonValue t levels .null (below.length + 1) ⟨v :: below, size, limit⟩ =
        .ok (true, w, ⟨below, size, limit⟩) ∧
      w.All Bounded ∧ (v.All PlainKeys → w = jsonOf v)
  refuses : ¬ Readable levels v →
    Refuses (readJsonValue t levels .null (below.length + 1) ⟨v :: below, size, limit⟩)

theorem readsLevels_scalar (t : Traversal) (levels : Nat) {v : LuaValue}
    (hv : ∀ entries, v ≠ .table entries) (below : List LuaValue) (size limit : Nat) :
    ReadsLevels t (levels + 1) v below size limit := by
  have hbounded : (jsonOf v).All Bounded := by
    cases v with
    | table entries => exact absurd rfl (hv entries)
    | _ => trivial
  cases v with
  | table entries => exact absurd rfl (hv entries)
  | other ref =>
    refine ⟨fun h => h.elim, fun _ => ⟨.null, ⟨.other ref :: below, size, limit⟩, ?_⟩⟩
    simp only [readJsonValue, LuaState.slot_top, bind, Except.bind]
    rfl
  | _ =>
    refine ⟨fun _ => ⟨_, ?_, hbounded, fun _ => rfl⟩, fun hn => absurd trivial hn⟩
    simp only [readJsonValue, LuaState.slot_top, bind, Except.bind]
    rfl

theorem readsLevels_table {t : Traversal} {levels : Nat} {entries : List Entry}
    {below : List LuaValue} {size limit : Nat} (hkeys : DistinctKeys entries)
    (hroom : HasRoom size (levels + 1) (below.length + 1) (.table entries))
    (hreads : ∀ e ∈ entries,
      ReadsLevels t levels e.2 (e.1.value :: .table entries :: below) size limit) :
    ReadsLevels t (levels + 1) (.table entries) below size limit := by
  obtain ⟨hheight, hentries⟩ := hroom
  have hperm := t.perm (.table entries :: below) entries
  have hmem : ∀ e, e ∈ t.order (.table entries :: below) entries ↔ e ∈ entries := fun e =>
    hperm.mem_iff
  have hval : ∀ e : Entry, ∃ w, e ∈ entries → Readable levels e.2 →
      readJsonValue t levels .null (below.length + 3)
          ⟨e.2 :: e.1.value :: .table entries :: below, size, limit⟩ =
          .ok (true, w, ⟨e.1.value :: .table entries :: below, size, limit⟩) ∧
        w.All Bounded ∧ (e.2.All PlainKeys → w = jsonOf e.2) := by
    intro e
    by_cases h : e ∈ entries ∧ Readable levels e.2
    · obtain ⟨w, hw⟩ := (hreads e h.1).reads h.2
      exact ⟨w, fun _ _ => hw⟩
    · exact ⟨.null, fun he hr => absurd ⟨he, hr⟩ h⟩
  choose val hval using hval
  obtain ⟨hok, hrefuse⟩ := readJsonValue_table hheight (List.map_id _).symm
    ((hperm.map Prod.fst).nodup_iff.mpr hkeys)
    (fun hne => by
      obtain ⟨e, he⟩ := List.exists_mem_of_ne_nil _ hne
      exact (hentries e ((hmem e).mp he)).1)
    (fun e he => ⟨fun hr => (hval e ((hmem e).mp he) hr).1, (hreads e ((hmem e).mp he)).refuses⟩)
  have halike : ∀ es : List Entry, es.Perm entries → (KeysAlike es ↔ KeysAlike entries) :=
    fun es h => or_congr (forall_congr' fun e => by rw [h.mem_iff])
      (forall_congr' fun e => by rw [h.mem_iff])
  have hall : (∀ e ∈ t.order (.table entries :: below) entries, Readable levels e.2) ↔
      ∀ e ∈ entries, Readable levels e.2 := forall_congr' fun e => by rw [hmem]
  constructor
  · rintro ⟨hkeysAlike, hreadable⟩
    have hsome := (isSome_fill_null val _).mpr ((halike _ hperm).mpr hkeysAlike)
    obtain ⟨w, hw⟩ := Option.isSome_iff_exists.mp hsome
    refine ⟨w, hok (hall.mpr hreadable) w hw, ?_, ?_⟩
    · refine bounded_fill (fun p hp => ?_) (show Value.null.All Bounded from trivial) hw
      obtain ⟨e, he, rfl⟩ := List.mem_map.mp hp
      exact (hval e ((hmem e).mp he) (hreadable e ((hmem e).mp he))).2.1
    · intro hplain
      obtain ⟨hplainKeys, hplainValues⟩ := LuaValue.all_table.mp hplain
      have hvalues : withValues val entries = withValues (fun e => jsonOf e.2) entries :=
        List.map_congr_left fun e he =>
          Prod.ext rfl ((hval e he (hreadable e he)).2.2 (hplainValues e he))
      have hfill := fill_perm (slotsDiffer hkeys hplainKeys val) (hperm.symm.map _) .null
      rw [jsonOf, jsonEntries_eq, ← hvalues, hfill]
      exact (congrArg (Option.getD · .null) hw).symm
  · intro hn
    have hnot : ¬ ((∀ e ∈ t.order (.table entries :: below) entries, Readable levels e.2) ∧
        (fill .null (withValues val (t.order (.table entries :: below) entries))).isSome) := by
      rw [hall, isSome_fill_null, halike _ hperm]
      exact fun h => hn ⟨h.2, h.1⟩
    exact hrefuse hnot

/-- **Every order** reads a value that is `Readable` and refuses the others, if there is room. -/
theorem read_levels (t : Traversal) (size limit : Nat) : ∀ (levels : Nat) (v : LuaValue),
    v.All DistinctKeys → ∀ below : List LuaValue, HasRoom size levels (below.length + 1) v →
      ReadsLevels t levels v below size limit := by
  intro levels
  induction levels with
  | zero => exact fun v _ below _ => ⟨fun h => h.elim, fun _ => ⟨_, _, rfl⟩⟩
  | succ levels ih =>
    intro v hv below hroom
    by_cases htable : ∃ entries, v = .table entries
    · obtain ⟨entries, rfl⟩ := htable
      obtain ⟨hkeys, hvalues⟩ := LuaValue.all_table.mp hv
      exact readsLevels_table hkeys hroom fun e he => ih e.2 (hvalues e he) _ (hroom.2 e he).2
    · exact readsLevels_scalar t levels (fun entries h => htable ⟨entries, h⟩) below size limit

/-! ## Without room -/

/-- The order that starts with the entries for which there is no room, `levels` of them being left
at the stack height `base`. -/
def Traversal.fullFirst (size base levels : Nat) : Traversal where
  order stack entries :=
    (entries.filter fun e =>
        ¬HasRoom size (levels - (stack.length - base) / 2) (stack.length + 2) e.2) ++
      entries.filter fun e =>
        ¬¬HasRoom size (levels - (stack.length - base) / 2) (stack.length + 2) e.2
  perm stack entries := by
    have hperm := List.filter_append_perm (fun e : Entry => decide
      (¬HasRoom size (levels - (stack.length - base) / 2) (stack.length + 2) e.2)) entries
    simpa using hperm

/-- It starts with such an entry, if there is one. -/
theorem Traversal.head_fullFirst {size base levels : Nat} {stack : List LuaValue}
    {entries : List Entry}
    (h : ∃ e ∈ entries,
      ¬HasRoom size (levels - (stack.length - base) / 2) (stack.length + 2) e.2) :
    ∃ e, ((fullFirst size base levels).order stack entries).head? = some e ∧
      ¬HasRoom size (levels - (stack.length - base) / 2) (stack.length + 2) e.2 := by
  obtain ⟨e, he, hbad⟩ := h
  simp only [fullFirst]
  generalize hfilter : entries.filter _ = full
  cases full with
  | nil =>
    have hmem : e ∈ ([] : List Entry) :=
      hfilter ▸ List.mem_filter.mpr ⟨he, decide_eq_true hbad⟩
    cases hmem
  | cons e' rest =>
    have hmem : e' ∈ entries.filter _ := hfilter ▸ List.mem_cons_self
    exact ⟨e', rfl, of_decide_eq_true (List.mem_filter.mp hmem).2⟩

/-- **Without room**, that order uses slots of the stack that are not there. -/
theorem read_full {size limit base total : Nat} : ∀ (levels depth : Nat),
    levels + depth = total + 1 → ∀ (v : LuaValue) (below : List LuaValue),
      below.length + 1 = base + 2 * depth → ¬HasRoom size levels (below.length + 1) v →
        readJsonValue (.fullFirst size base total) levels .null (below.length + 1)
          ⟨v :: below, size, limit⟩ = .error .undefinedBehaviour := by
  intro levels
  induction levels with
  | zero => exact fun depth _ v below _ hroom => absurd trivial hroom
  | succ levels ih =>
    intro depth hlevels v below hbase hroom
    cases v with
    | table entries =>
      simp only [readJsonValue, LuaState.slot_top, bind, Except.bind]
      by_cases hheight : below.length + 1 < size
      · have hpush : (LuaState.mk (.table entries :: below) size limit).push .nil =
            .ok ⟨.nil :: .table entries :: below, size, limit⟩ := if_pos hheight
        have hfull : ¬ ∀ e ∈ entries, below.length + 2 < size ∧
            HasRoom size levels (below.length + 3) e.2 := fun h => hroom ⟨hheight, h⟩
        rw [hpush]
        simp only [readTable, bind, Except.bind]
        by_cases htwo : below.length + 2 < size
        · -- the first entry has no room
          have hlevel : total - ((LuaValue.table entries :: below).length - base) / 2 = levels := by
            rw [List.length_cons, hbase]
            omega
          have hhead := @Traversal.head_fullFirst size base total (.table entries :: below) entries
          rw [hlevel] at hhead
          obtain ⟨e, hhead, hbad⟩ := hhead (by
            by_contra hnone
            refine hfull fun e he => ⟨htwo, ?_⟩
            by_contra hbad
            exact hnone ⟨e, he, hbad⟩)
          have hfollowing : LuaState.following .nil
              ((Traversal.fullFirst size base total).order (.table entries :: below) entries) =
                some (some e) := congrArg some hhead
          rw [LuaState.next_eq (fun _ => htwo) hfollowing]
          have hread : readJsonValue (.fullFirst size base total) levels .null
              (LuaState.mk (e.2 :: e.1.value :: .table entries :: below) size limit).getTop
              ⟨e.2 :: e.1.value :: .table entries :: below, size, limit⟩ =
                .error .undefinedBehaviour :=
            ih (depth + 1) (by omega) e.2 (e.1.value :: .table entries :: below)
              (by simp only [List.length_cons]; omega) hbad
          simp only [Option.elim_some]
          rw [hread]
          rfl
        · have hne : entries ≠ [] := by
            rintro rfl
            exact hfull fun _ h => absurd h List.not_mem_nil
          have hlength := (Traversal.perm (.fullFirst size base total) (.table entries :: below)
            entries).length_eq
          cases horder : (Traversal.fullFirst size base total).order (.table entries :: below)
              entries with
          | nil =>
            rw [horder] at hlength
            exact absurd (List.length_eq_zero_iff.mp hlength.symm) hne
          | cons e rest =>
            rw [LuaState.next_full htwo (by rw [horder]; rfl)]
      · rw [show (LuaState.mk (.table entries :: below) size limit).push .nil =
          .error .undefinedBehaviour from if_neg hheight]
    | _ => exact absurd trivial hroom

/-! ## Own keys -/

mutual

/-- How deep tables are nested. -/
def LuaValue.nesting : LuaValue → Nat
  | .table entries => LuaValue.nestingEntries entries + 1
  | .nil => 0
  | .boolean _ => 0
  | .number _ => 0
  | .infinite _ => 0
  | .string _ => 0
  | .other _ => 0

def LuaValue.nestingEntries : List Entry → Nat
  | [] => 0
  | (_, x) :: rest => max x.nesting (LuaValue.nestingEntries rest)

end

theorem nestingEntries_le {n : Nat} {entries : List Entry} :
    LuaValue.nestingEntries entries ≤ n ↔ ∀ e ∈ entries, e.2.nesting ≤ n := by
  induction entries with
  | nil => simp [LuaValue.nestingEntries]
  | cons e entries ih => simp [LuaValue.nestingEntries, ih]

theorem nesting_le_of_readable : ∀ {levels : Nat} {v : LuaValue}, Readable levels v →
    v.nesting ≤ levels := by
  intro levels
  induction levels with
  | zero => exact fun h => h.elim
  | succ levels ih =>
    intro v h
    cases v with
    | table entries => exact Nat.succ_le_succ (nestingEntries_le.mpr fun e he => ih (h.2 e he))
    | _ => exact Nat.zero_le _

/-- A Json value in which every entry of every table is at its own key: a string is the name of a
member, and a positive whole number `i + 1` is the element `i`. -/
inductive AtOwnKeys : LuaValue → Value → Prop
  | nil : AtOwnKeys .nil .null
  | boolean (b : Bool) : AtOwnKeys (.boolean b) (.boolean b)
  | number (n : Option Rat) : AtOwnKeys (.number n) (.real n)
  | infinite (positive : Bool) : AtOwnKeys (.infinite positive) (.real none)
  | string (s : Bytes) : AtOwnKeys (.string s) (.string s)
  | empty : AtOwnKeys (.table []) .null
  | object {entries : List Entry} {ms : List (Bytes × Value)} (val : Entry → Value)
      (hmember : ∀ e ∈ entries, ∃ s, e.1 = .string s ∧ findMember s ms = some (val e))
      (hvalue : ∀ e ∈ entries, AtOwnKeys e.2 (val e)) : AtOwnKeys (.table entries) (.object ms)
  | array {entries : List Entry} {vs : List Value} (val : Entry → Value)
      (helement : ∀ e ∈ entries, ∃ i : Nat, e.1 = .number ((i + 1 : Nat) : Rat) ∧
        vs[i]? = some (val e))
      (hvalue : ∀ e ∈ entries, AtOwnKeys e.2 (val e)) : AtOwnKeys (.table entries) (.array vs)

theorem findMember_eq_find (key : Bytes) : ∀ ms : List (Bytes × Value),
    findMember key ms = find key ms
  | [] => rfl
  | (k, v) :: ms => by rw [findMember, find, findMember_eq_find key ms]

/-- In bounds, only plain keys are their own. -/
theorem plainKeys_of_atOwnKeys {v : LuaValue} {w : Value} (h : AtOwnKeys v w) :
    w.All Bounded → v.All PlainKeys := by
  induction h with
  | object val hmember hvalue ih =>
    intro hbounded
    obtain ⟨hnames, hmembers⟩ := Value.all_object.mp hbounded
    refine LuaValue.all_table.mpr ⟨fun e he => ?_, fun e he => ?_⟩
    · obtain ⟨s, hs, hfind⟩ := hmember e he
      rw [hs]
      exact hnames _ (mem_of_find (findMember_eq_find s _ ▸ hfind))
    · obtain ⟨s, -, hfind⟩ := hmember e he
      exact ih e he (hmembers _ (mem_of_find (findMember_eq_find s _ ▸ hfind)))
  | array val helement hvalue ih =>
    intro hbounded
    obtain ⟨hlength, helements⟩ := Value.all_array.mp hbounded
    refine LuaValue.all_table.mpr ⟨fun e he => ?_, fun e he => ?_⟩
    · obtain ⟨i, hi, hget⟩ := helement e he
      have hlt := (List.getElem?_eq_some_iff.mp hget).1
      have hle : i + 1 ≤ 2 ^ 32 := lt_of_lt_of_le hlt hlength
      rw [hi]
      change ((i + 1 : Nat) : Rat) ≤ 2 ^ 32
      exact_mod_cast hle
    · obtain ⟨i, -, hget⟩ := helement e he
      exact ih e he (helements _ (List.mem_of_getElem? hget))
  | empty => exact fun _ => LuaValue.all_table.mpr ⟨fun _ h => (nomatch h), fun _ h => (nomatch h)⟩
  | _ => exact fun _ => trivial

/-- What is in a slot. -/
def atSlot (w : Value) : Slot → Option Value
  | .name s =>
    match w with
    | .object ms => findMember s ms
    | _ => none
  | .index i =>
    match w with
    | .array vs => vs[i]?
    | _ => none

/-- An assignment sets its slot and keeps the others. -/
theorem atSlot_put {root value w : Value} {a : Slot} (h : put root value a = some w) :
    atSlot w a = some value ∧
      ∀ b, b ≠ a → ∀ y, atSlot root b = some y → atSlot w b = some y := by
  cases a with
  | name s =>
    have hother : ∀ ms, w = .object (insertMember s value ms) → ∀ b, b ≠ .name s →
        ∀ y, atSlot (.object ms) b = some y → atSlot w b = some y := by
      rintro ms rfl b hb y hy
      cases b with
      | name s' =>
        have hne : s' ≠ s := fun e => hb (congrArg Slot.name e)
        rw [atSlot, find_insertMember, if_neg hne]
        exact hy
      | index i => cases hy
    cases root with
    | null =>
      obtain rfl := Option.some.inj h
      refine ⟨by simp [atSlot, find_insertMember], fun b _ y hy => ?_⟩
      cases b <;> cases hy
    | object ms =>
      obtain rfl := Option.some.inj h
      exact ⟨by simp [atSlot, find_insertMember], hother ms rfl⟩
    | _ => cases h
  | index i =>
    have hother : ∀ vs, w = .array (Value.setElement vs i value) → ∀ b, b ≠ .index i →
        ∀ y, atSlot (.array vs) b = some y → atSlot w b = some y := by
      rintro vs rfl b hb y hy
      cases b with
      | name s => cases hy
      | index j =>
        have hne : i ≠ j := fun e => hb (congrArg Slot.index e.symm)
        exact Value.getElem?_setElement_of_ne hne hy
    cases root with
    | null =>
      obtain rfl := Option.some.inj h
      refine ⟨Value.getElem?_setElement_self [] i value, fun b _ y hy => ?_⟩
      cases b <;> cases hy
    | array vs =>
      obtain rfl := Option.some.inj h
      exact ⟨Value.getElem?_setElement_self vs i value, hother vs rfl⟩
    | _ => cases h

/-- **Entries with different slots** are all in their slots in the end. -/
theorem atSlot_fill {ps : List (LuaKey × Value)} : ∀ {root w : Value}, ps.Nodup → SlotsDiffer ps →
    fill root ps = some w →
      (∀ p ∈ ps, ∃ slot, keySlot p.1 = some slot ∧ atSlot w slot = some p.2) ∧
        ∀ slot y, atSlot root slot = some y → (∀ p ∈ ps, keySlot p.1 ≠ some slot) →
          atSlot w slot = some y := by
  induction ps with
  | nil =>
    intro root w _ _ h
    obtain rfl := Option.some.inj h
    exact ⟨fun _ hp => (nomatch hp), fun _ _ hy _ => hy⟩
  | cons p ps ih =>
    intro root w hnodup hslots h
    rw [fill_cons] at h
    obtain ⟨root', hput, h⟩ := Option.bind_eq_some_iff.mp h
    obtain ⟨a, ha, hput⟩ := Option.bind_eq_some_iff.mp hput
    obtain ⟨hself, hother⟩ := atSlot_put hput
    obtain ⟨hp, hnodup⟩ := List.nodup_cons.mp hnodup
    obtain ⟨hall, hkept⟩ := ih hnodup (fun q hq q' hq' => hslots q (List.mem_cons_of_mem p hq) q'
      (List.mem_cons_of_mem p hq')) h
    refine ⟨List.forall_mem_cons.mpr ⟨⟨a, ha, hkept a p.2 hself fun q hq => ?_⟩, hall⟩, ?_⟩
    · exact hslots p List.mem_cons_self q (List.mem_cons_of_mem p hq) (fun e => hp (e ▸ hq)) a ha
    · intro slot y hy hfree
      obtain ⟨hne, hrest⟩ := List.forall_mem_cons.mp hfree
      exact hkept slot y (hother slot (fun e => hne (e ▸ ha)) y hy) hrest

/-- **With plain keys**, every entry is at its own key. -/
theorem atOwnKeys_jsonOf : ∀ (levels : Nat) {v : LuaValue}, Readable levels v →
    v.All DistinctKeys → v.All PlainKeys → AtOwnKeys v (jsonOf v) := by
  intro levels
  induction levels with
  | zero => exact fun h => h.elim
  | succ levels ih =>
    intro v hreadable hdistinct hplain
    cases v with
    | table entries =>
      obtain ⟨halike, hreadable⟩ := hreadable
      obtain ⟨hkeys, hdistinct⟩ := LuaValue.all_table.mp hdistinct
      obtain ⟨hplainKeys, hplain⟩ := LuaValue.all_table.mp hplain
      have hvalue : ∀ e ∈ entries, AtOwnKeys e.2 (jsonOf e.2) := fun e he =>
        ih (hreadable e he) (hdistinct e he) (hplain e he)
      obtain ⟨w, hw⟩ := Option.isSome_iff_exists.mp
        ((isSome_fill_null (fun e => jsonOf e.2) entries).mpr halike)
      have hjson : jsonOf (.table entries) = w := by
        rw [jsonOf, jsonEntries_eq, hw]
        rfl
      have hnodup : (withValues (fun e => jsonOf e.2) entries).Nodup := by
        refine List.Nodup.of_map Prod.fst ?_
        rw [withValues, List.map_map]
        exact hkeys
      obtain ⟨hall, -⟩ := atSlot_fill hnodup (slotsDiffer hkeys hplainKeys _) hw
      have hslot : ∀ e ∈ entries, ∃ slot : Slot, e.1 = slot.key ∧
          atSlot w slot = some (jsonOf e.2) := by
        intro e he
        obtain ⟨slot, hslot, hat⟩ := hall _ (List.mem_map_of_mem he)
        exact ⟨slot, eq_key_of_keySlot (hplainKeys e he) hslot, hat⟩
      rw [hjson]
      cases entries with
      | nil =>
        obtain rfl := Option.some.inj hw
        exact .empty
      | cons e entries =>
        -- the first entry tells an object from an array
        cases w with
        | object ms =>
          refine .object (fun e => jsonOf e.2) (fun e he => ?_) hvalue
          obtain ⟨slot, hkey, hat⟩ := hslot e he
          cases slot with
          | name s => exact ⟨s, hkey, hat⟩
          | index i => cases hat
        | array vs =>
          refine .array (fun e => jsonOf e.2) (fun e he => ?_) hvalue
          obtain ⟨slot, hkey, hat⟩ := hslot e he
          cases slot with
          | name s => cases hat
          | index i => exact ⟨i, hkey, hat⟩
        | _ =>
          obtain ⟨slot, -, hat⟩ := hslot e List.mem_cons_self
          cases slot <;> cases hat
    | nil => exact .nil
    | boolean b => exact .boolean b
    | number n => exact .number n
    | infinite positive => exact .infinite positive
    | string s => exact .string s
    | other ref => exact hreadable.elim

/-! ## Any two orders -/

/-- What `read_json_value` says of the value on top of the stack: the value in Json, none if it
returns false, and nothing if it does not return. -/
def verdict (t : Traversal) (v : LuaValue) (below : List LuaValue) (size limit : Nat) :
    Option (Option Value) :=
  match read t (below.length + 1) .null ⟨v :: below, size, limit⟩ with
  | .ok (true, w, _) => some (some w)
  | .ok (false, _, _) => some none
  | .error _ => none

/-- The order does not matter, and a success puts every entry of at most 16 levels at its key. -/
structure OrderFree (v : LuaValue) (below : List LuaValue) (size limit : Nat) : Prop where
  same : ∀ t₁ t₂, ∃ o, verdict t₁ v below size limit = some o ∧
    verdict t₂ v below size limit = some o
  own : ∀ t w, verdict t v below size limit = some (some w) → v.nesting ≤ 16 ∧ AtOwnKeys v w

section Verdict

variable {v : LuaValue} {below : List LuaValue} {size : Nat} (t : Traversal) (limit : Nat)

theorem verdict_of_readable (hv : v.All DistinctKeys)
    (hroom : HasRoom size 16 (below.length + 1) v) (h : Readable 16 v) :
    ∃ w, verdict t v below size limit = some (some w) ∧ w.All Bounded ∧
      (v.All PlainKeys → w = jsonOf v) := by
  obtain ⟨w, hread, hw⟩ := (read_levels t size limit 16 v hv below hroom).reads h
  refine ⟨w, ?_, hw⟩
  rw [verdict, read, hread]

theorem verdict_of_not_readable (hv : v.All DistinctKeys)
    (hroom : HasRoom size 16 (below.length + 1) v) (h : ¬Readable 16 v) :
    verdict t v below size limit = some none := by
  obtain ⟨root, L, hread⟩ := (read_levels t size limit 16 v hv below hroom).refuses h
  rw [verdict, read, hread]

end Verdict

/-- **When the order does not matter**: reading never needs a slot that the stack does not have, and
the value is refused, or has no number key past `2^32`, no infinite key and no string key with a
NUL. -/
theorem orderFree_iff {v : LuaValue} (hv : v.All DistinctKeys) (below : List LuaValue)
    (size limit : Nat) :
    OrderFree v below size limit ↔
      HasRoom size 16 (below.length + 1) v ∧ (Readable 16 v → v.All PlainKeys) := by
  constructor
  · intro h
    have hroom : HasRoom size 16 (below.length + 1) v := by
      by_contra hn
      have hread := @read_full size limit (below.length + 1) 15 16 0 rfl v below rfl hn
      obtain ⟨o, ho, -⟩ := h.same (.fullFirst size (below.length + 1) 15) .listed
      rw [verdict, read, hread] at ho
      cases ho
    refine ⟨hroom, fun hreadable => ?_⟩
    obtain ⟨w, hw, hbounded, -⟩ := verdict_of_readable .listed limit hv hroom hreadable
    exact plainKeys_of_atOwnKeys (h.own .listed w hw).2 hbounded
  · rintro ⟨hroom, hplain⟩
    by_cases hreadable : Readable 16 v
    · have hverdict : ∀ t, verdict t v below size limit = some (some (jsonOf v)) := by
        intro t
        obtain ⟨w, hw, -, heq⟩ := verdict_of_readable t limit hv hroom hreadable
        rw [hw, heq (hplain hreadable)]
      refine ⟨fun t₁ t₂ => ⟨_, hverdict t₁, hverdict t₂⟩, fun t w hw => ?_⟩
      obtain rfl := Option.some.inj (Option.some.inj ((hverdict t).symm.trans hw))
      exact ⟨nesting_le_of_readable hreadable, atOwnKeys_jsonOf 16 hreadable hv (hplain hreadable)⟩
    · have hverdict : ∀ t, verdict t v below size limit = some none := fun t =>
        verdict_of_not_readable t limit hv hroom hreadable
      refine ⟨fun t₁ t₂ => ⟨_, hverdict t₁, hverdict t₂⟩, fun t w hw => ?_⟩
      cases (hverdict t).symm.trans hw

/-- `{[1] = true, [2] = {a = "x"}}`. -/
theorem orderFree_list : OrderFree
    (.table [(.number 1, .boolean true), (.number 2, .table [(.string [97], .string [120])])]) []
      20 1000000 := by
  refine (orderFree_iff ?_ [] 20 1000000).mpr ⟨by decide, fun _ => ?_⟩
  · simp only [LuaValue.All, LuaValue.AllEntries, DistinctKeys]
    decide
  · simp [LuaValue.All, LuaValue.AllEntries, PlainKeys, PlainKey]
    decide

/-- `lua_next` in the opposite order. -/
def Traversal.reversed : Traversal := ⟨fun _ entries => entries.reverse, fun _ => List.reverse_perm⟩

/-- `{[1] = true, [4294967297] = false}`: both entries go to the first element. -/
theorem not_orderFree_wrap : ¬ OrderFree
    (.table [(.number 1, .boolean true), (.number 4294967297, .boolean false)]) [] 20 1000000 := by
  intro h
  obtain ⟨o, hlisted, hreversed⟩ := h.same .listed .reversed
  obtain rfl : some (.array [.boolean false]) = o := Option.some.inj hlisted
  cases hreversed

end WinterWind.Lua
