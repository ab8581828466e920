import WinterWind.Basic
import WinterWind.Library.SortedEntries
import Mathlib.Data.Rat.Defs
import Mathlib.Algebra.Order.Ring.Unbundled.Rat

/-!
# The Lua stack

The part of the C API of Lua that the helpers call. `LuaState` is the stack of the running function,
top first, with the number of slots it may use and the limit up to which `lua_checkstack` extends
them.

* A number is what `lua_tonumber` returns of it, and `none` if that is not finite. Nothing here asks
  whether it is stored as an integer. An infinity that can be a key is `infinite`.
* A table holds its entries in key order, and is a value: the helpers never reach one table in two
  ways. What is kept by reference otherwise is `other`.
* `lua_next` visits the entries of a table in any order. A `Traversal` chooses it, from the entries
  and from the place of the table on the stack; it is the same for one traversal, since the stack up
  to the table does not change meanwhile.
* Using a slot that was not reserved, and any other misuse of the API, is undefined.
-/

namespace WinterWind.Lua

open Library

/-- A key of a table. -/
inductive LuaKey where
  | number (n : Rat)
  | infinite (positive : Bool)
  | string (s : Bytes)
  | boolean (b : Bool)
  | other (ref : Nat)
  deriving DecidableEq

namespace LuaKey

def rank : LuaKey → Nat
  | number _ => 0
  | string _ => 1
  | boolean _ => 2
  | other _ => 3
  | infinite _ => 4

/-- The order in which entries are listed. -/
def before : LuaKey → LuaKey → Bool
  | number a, number b => decide (a < b)
  | string a, string b => decide (a < b)
  | boolean a, boolean b => !a && b
  | infinite a, infinite b => !a && b
  | other a, other b => decide (a < b)
  | a, b => decide (a.rank < b.rank)

instance : LT LuaKey := ⟨fun a b => before a b = true⟩

instance : DecidableLT LuaKey := fun a b => inferInstanceAs (Decidable (before a b = true))

theorem number_lt {a b : Rat} : number a < number b ↔ a < b := decide_eq_true_iff

theorem string_lt {a b : Bytes} : string a < string b ↔ a < b := decide_eq_true_iff

theorem lt_iff (a b : LuaKey) : a < b ↔ before a b = true := Iff.rfl

/-- Keys of different kinds are ordered by their ranks, and keys of one kind as their values are. -/
instance : IsStrictTotalOrder LuaKey (· < ·) where
  irrefl a := by
    cases a with
    | string s => exact fun h => irrefl_of (· < ·) s (string_lt.mp h)
    | _ => simp [lt_iff, before]
  trans a b c := by
    cases a with
    | number x =>
      cases b <;> cases c <;> simp [lt_iff, before, rank]
      exact lt_trans
    | string x =>
      cases b <;> cases c <;> simp only [lt_iff, before, rank]
      all_goals try simp
      exact trans_of (· < ·)
    | boolean x | infinite x =>
      cases b <;> cases c <;> simp [lt_iff, before, rank]
      rename_i y z
      cases x <;> cases y <;> simp
    | other x =>
      cases b <;> cases c <;> simp [lt_iff, before, rank]
      exact lt_trans
  trichotomous a b := by
    cases a with
    | number x =>
      cases b <;> simp [lt_iff, before, rank]
      exact fun h h' => le_antisymm h' h
    | string x =>
      cases b <;> simp only [lt_iff, before, rank]
      all_goals try simp
      exact fun h h' => Std.Trichotomous.trichotomous _ _ (List.not_lt.mpr h) (List.not_lt.mpr h')
    | boolean x | infinite x =>
      cases b <;> simp [lt_iff, before, rank]
      rename_i y
      cases x <;> cases y <;> simp
    | other x =>
      cases b <;> simp [lt_iff, before, rank]
      exact fun h h' => le_antisymm h' h

end LuaKey

/-- A value on the stack. -/
inductive LuaValue where
  | nil
  | boolean (b : Bool)
  | number (n : Option Rat)
  | infinite (positive : Bool)
  | string (s : Bytes)
  | table (entries : List (LuaKey × LuaValue))
  | other (ref : Nat)

/-- An entry of a table. -/
abbrev Entry := LuaKey × LuaValue

/-- A key, pushed. -/
def LuaKey.value : LuaKey → LuaValue
  | number n => .number (some n)
  | infinite positive => .infinite positive
  | string s => .string s
  | boolean b => .boolean b
  | other ref => .other ref

/-- A value, used as a key. -/
def LuaValue.key? : LuaValue → Option LuaKey
  | number (some n) => some (.number n)
  | infinite positive => some (.infinite positive)
  | string s => some (.string s)
  | boolean b => some (.boolean b)
  | other ref => some (.other ref)
  | _ => none

theorem key?_value (k : LuaKey) : k.value.key? = some k := by
  cases k <;> rfl

/-- `t[key] = value`. -/
def setEntry (key : LuaKey) (value : LuaValue) (entries : List Entry) : List Entry :=
  match value with
  | .nil => entries.filter fun e => e.1 ≠ key
  | value => insertEntry key value entries

/-- An order for `lua_next`. Its first argument is the stack from the table down. -/
structure Traversal where
  order : List LuaValue → List Entry → List Entry
  perm : ∀ stack entries, (order stack entries).Perm entries

/-- `lua_State`, as far as the running function sees it. -/
structure LuaState where
  stack : List LuaValue
  size : Nat
  limit : Nat

namespace LuaState

/-- `lua_gettop`. -/
def getTop (L : LuaState) : Nat := L.stack.length

/-- The value at an index that counts from the bottom. -/
def slot (L : LuaState) (index : Nat) : Option LuaValue :=
  if index = 0 then none else L.stack.reverse[index - 1]?

/-- `lua_checkstack`. -/
def checkStack (L : LuaState) (n : Nat) : Bool × LuaState :=
  if L.getTop + n ≤ L.limit then (true, { L with size := max L.size (L.getTop + n) })
  else (false, L)

/-- `lua_pushnil`, `lua_pushboolean`, `lua_pushinteger`, `lua_pushnumber` and `lua_newtable`. -/
def push (L : LuaState) (x : LuaValue) : Except Fault LuaState :=
  if L.getTop < L.size then .ok { L with stack := x :: L.stack } else .error .undefinedBehaviour

/-- `lua_pushstring`: a C string. -/
def pushString (L : LuaState) (s : Bytes) : Except Fault LuaState := L.push (.string (cStr s))

/-- `lua_pushvalue`. -/
def pushValue (L : LuaState) (index : Nat) : Except Fault LuaState := do
  L.push (← orFault .undefinedBehaviour (L.slot index))

/-- `lua_pop(L, 1)`. -/
def pop (L : LuaState) : Except Fault LuaState :=
  match L.stack with
  | _ :: below => .ok { L with stack := below }
  | [] => .error .undefinedBehaviour

/-- `lua_rawseti(L, -2, n)`. -/
def rawSetI (L : LuaState) (n : Nat) : Except Fault LuaState :=
  match L.stack with
  | value :: .table entries :: below =>
    .ok { L with stack := .table (setEntry (.number n) value entries) :: below }
  | _ => .error .undefinedBehaviour

/-- `lua_rawset(L, -3)`. -/
def rawSet (L : LuaState) : Except Fault LuaState :=
  match L.stack with
  | value :: key :: .table entries :: below => do
    let key ← orFault .undefinedBehaviour key.key?
    return { L with stack := .table (setEntry key value entries) :: below }
  | _ => .error .undefinedBehaviour

/-- The entry after a key: `some none` at the end. -/
def entryAfter (key : LuaKey) : List Entry → Option (Option Entry)
  | [] => none
  | (k, _) :: rest => if k = key then some rest.head? else entryAfter key rest

/-- The entry after what is pushed, nil standing for the start. -/
def following (key : LuaValue) (order : List Entry) : Option (Option Entry) :=
  match key with
  | .nil => some order.head?
  | key => key.key?.bind (entryAfter · order)

/-- `lua_next`. -/
def next (t : Traversal) (L : LuaState) (index : Nat) : Except Fault (Bool × LuaState) :=
  match L.stack, L.slot index with
  | key :: below, some (.table entries) => do
    let order := t.order (below.drop (below.length - index)) entries
    let entry ← orFault .undefinedBehaviour (following key order)
    match entry with
    | none => return (false, { L with stack := below })
    | some (k, value) =>
      let L ← { L with stack := below }.push k.value
      return (true, ← L.push value)
  | _, _ => .error .undefinedBehaviour

/-! ## What the calls do -/

variable {L : LuaState}

theorem slot_top (x : LuaValue) (below : List LuaValue) (size limit : Nat) :
    (LuaState.mk (x :: below) size limit).slot (below.length + 1) = some x := by
  simp [slot]

/-- Slots are not moved by what is pushed above. -/
theorem slot_append (above below : List LuaValue) {index size limit : Nat}
    (h : index ≤ below.length) :
    (LuaState.mk (above ++ below) size limit).slot index =
      (LuaState.mk below size limit).slot index := by
  unfold slot
  by_cases hzero : index = 0
  · rw [if_pos hzero, if_pos hzero]
  · rw [if_neg hzero, if_neg hzero, List.reverse_append, List.getElem?_append_left]
    rw [List.length_reverse]
    omega

theorem push_ok (h : L.getTop < L.size) (x : LuaValue) :
    L.push x = .ok { L with stack := x :: L.stack } := if_pos h

theorem rawSetI_eq (value : LuaValue) (entries : List Entry) (below : List LuaValue)
    (size limit n : Nat) :
    (LuaState.mk (value :: .table entries :: below) size limit).rawSetI n =
      .ok ⟨.table (setEntry (.number n) value entries) :: below, size, limit⟩ := rfl

theorem rawSet_eq (value : LuaValue) (key : LuaKey) (entries : List Entry)
    (below : List LuaValue) (size limit : Nat) :
    (LuaState.mk (value :: key.value :: .table entries :: below) size limit).rawSet =
      .ok ⟨.table (setEntry key value entries) :: below, size, limit⟩ := by
  simp only [rawSet, key?_value]
  rfl

theorem entryAfter_append {key : LuaKey} {x : LuaValue} : ∀ {before rest : List Entry},
    key ∉ before.map Prod.fst → entryAfter key (before ++ (key, x) :: rest) = some rest.head?
  | [], rest, _ => if_pos rfl
  | (k, y) :: before, rest, h => by
    rw [List.map_cons, List.mem_cons, not_or] at h
    rw [List.cons_append, entryAfter, if_neg (Ne.symm h.1), entryAfter_append h.2]

theorem following_value (k : LuaKey) (order : List Entry) :
    following k.value order = entryAfter k order := by
  cases k <;> rfl

/-- `lua_next` on the table below the key takes the key away and pushes the entry after it. -/
theorem next_following {t : Traversal} {key : LuaValue} {entries : List Entry}
    {below : List LuaValue} {size limit : Nat} {entry : Option Entry}
    (h : following key (t.order (.table entries :: below) entries) = some entry) :
    (LuaState.mk (key :: .table entries :: below) size limit).next t (below.length + 1) =
      entry.elim (.ok (false, ⟨.table entries :: below, size, limit⟩)) fun e => do
        let L ← (LuaState.mk (.table entries :: below) size limit).push e.1.value
        return (true, ← L.push e.2) := by
  have hslot : (LuaState.mk (key :: .table entries :: below) size limit).slot (below.length + 1) =
      some (.table entries) :=
    (slot_append [key] (.table entries :: below) (by simp)).trans (slot_top _ below size limit)
  have hdrop : (LuaValue.table entries :: below).drop
      ((LuaValue.table entries :: below).length - (below.length + 1)) =
        .table entries :: below := by
    rw [List.length_cons, Nat.sub_self, List.drop_zero]
  unfold next
  rw [hslot]
  dsimp only
  rw [hdrop, h]
  cases entry with
  | none => rfl
  | some e => rfl

/-- The same, when there is room. -/
theorem next_eq {t : Traversal} {key : LuaValue} {entries : List Entry} {below : List LuaValue}
    {size limit : Nat} {entry : Option Entry} (hroom : entry.isSome → below.length + 2 < size)
    (h : following key (t.order (.table entries :: below) entries) = some entry) :
    (LuaState.mk (key :: .table entries :: below) size limit).next t (below.length + 1) =
      .ok (entry.elim (false, ⟨.table entries :: below, size, limit⟩) fun e =>
        (true, ⟨e.2 :: e.1.value :: .table entries :: below, size, limit⟩)) := by
  rw [next_following h]
  cases entry with
  | none => rfl
  | some e =>
    have hroom := hroom rfl
    have hkey : (LuaState.mk (.table entries :: below) size limit).push e.1.value =
        .ok ⟨e.1.value :: .table entries :: below, size, limit⟩ :=
      if_pos (show below.length + 1 < size by omega)
    have hvalue : (LuaState.mk (e.1.value :: .table entries :: below) size limit).push e.2 =
        .ok ⟨e.2 :: e.1.value :: .table entries :: below, size, limit⟩ := if_pos hroom
    simp only [Option.elim_some, bind, Except.bind, hkey, hvalue]
    rfl

/-- The same, when there is none. -/
theorem next_full {t : Traversal} {key : LuaValue} {entries : List Entry} {below : List LuaValue}
    {size limit : Nat} {e : Entry} (hfull : ¬ below.length + 2 < size)
    (h : following key (t.order (.table entries :: below) entries) = some (some e)) :
    (LuaState.mk (key :: .table entries :: below) size limit).next t (below.length + 1) =
      .error .undefinedBehaviour := by
  rw [next_following h, Option.elim_some]
  by_cases hkey : below.length + 1 < size
  · rw [show (LuaState.mk (.table entries :: below) size limit).push e.1.value =
      .ok ⟨e.1.value :: .table entries :: below, size, limit⟩ from if_pos hkey]
    simp only [bind, Except.bind]
    rw [show (LuaState.mk (e.1.value :: .table entries :: below) size limit).push e.2 =
      .error .undefinedBehaviour from if_neg hfull]
  · rw [show (LuaState.mk (.table entries :: below) size limit).push e.1.value =
      .error .undefinedBehaviour from if_neg hkey]
    rfl

end LuaState

end WinterWind.Lua
