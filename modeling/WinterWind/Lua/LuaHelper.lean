import WinterWind.Lua.LuaState
import WinterWind.Utils.JsonTree

/-!
# Json and Lua (`src/core/lua/luahelper.cpp`)

`push_json_value` pushes a `Json::Value` as a Lua value; `read_json_value` reads one back and pops
it. Both are over the stack: what is pushed and popped, and whether the slots were reserved, is part
of them.

* `asInt` and `asUInt` of jsoncpp throw outside their 32 bits.
* `it.index() + 1` and `(Json::ArrayIndex) key - 1` are computed in the 32 bits of `ArrayIndex`. A
  key is converted modulo `2^32`, and an infinite one to 0, as processors do.
* `read_json_value` counts `recursion` up from 1 and refuses 17. Here `levels` counts down from 16,
  and 0 is refused. Its loop over `lua_next` has one turn more than the table has entries; if it
  needed more, that would be `Fault.endlessLoop`.
-/

namespace WinterWind.Lua

/-! ## Json to Lua -/

mutual

/-- `push_json_value_getdepth`. -/
def pushJsonValueGetdepth : Value → Nat
  | .array vs => maxdepthElements vs + 1
  | .object ms => maxdepthMembers ms + 1
  | _ => 1

def maxdepthElements : List Value → Nat
  | [] => 0
  | v :: vs => max (pushJsonValueGetdepth v) (maxdepthElements vs)

def maxdepthMembers : List (Bytes × Value) → Nat
  | [] => 0
  | (_, v) :: ms => max (pushJsonValueGetdepth v) (maxdepthMembers ms)

end

/-- `asInt` of an `intValue`. -/
def asInt (i : Int64) : Except Fault Int :=
  if -2 ^ 31 ≤ i.toInt ∧ i.toInt < 2 ^ 31 then .ok i.toInt else .error .logicError

/-- `asUInt` of a `uintValue`. -/
def asUInt (u : UInt64) : Except Fault Nat :=
  if u.toNat < 2 ^ 32 then .ok u.toNat else .error .logicError

mutual

/-- `push_json_value_helper`, which returns true. -/
def pushJsonValueHelper (nullindex : Nat) : Value → LuaState → Except Fault LuaState
  | .int i, L => do L.push (.number (some (← asInt i)))
  | .uint u, L => do L.push (.number (some (← asUInt u)))
  | .real r, L => L.push (.number r)
  | .string s, L => L.pushString s
  | .boolean b, L => L.push (.boolean b)
  | .array vs, L => do pushElements nullindex 0 vs (← L.push (.table []))
  | .object ms, L => do pushMembers nullindex ms (← L.push (.table []))
  | .null, L => L.pushValue nullindex

/-- The elements of an array from an index on. -/
def pushElements (nullindex index : Nat) : List Value → LuaState → Except Fault LuaState
  | [], L => .ok L
  | v :: vs, L => do
    let L ← pushJsonValueHelper nullindex v L
    let L ← L.rawSetI ((index + 1) % 2 ^ 32)
    pushElements nullindex (index + 1) vs L

/-- The members of an object. -/
def pushMembers (nullindex : Nat) : List (Bytes × Value) → LuaState → Except Fault LuaState
  | [], L => .ok L
  | (name, v) :: ms, L => do
    let L ← L.pushString name
    let L ← pushJsonValueHelper nullindex v L
    let L ← L.rawSet
    pushMembers nullindex ms L

end

/-- `push_json_value`. -/
def pushJsonValue (L : LuaState) (value : Value) (nullindex : Int) :
    Except Fault (Bool × LuaState) := do
  let nullindex := if nullindex < 0 then L.getTop + 1 + nullindex else nullindex
  let (granted, L) := L.checkStack (pushJsonValueGetdepth value * 2)
  if !granted then return (false, L)
  return (true, ← pushJsonValueHelper nullindex.toNat value L)

/-! ## Lua to Json -/

/-- `(Json::ArrayIndex) key - 1` -/
def arrayIndex (key : Nat) : Nat := (key % 2 ^ 32 + (2 ^ 32 - 1)) % 2 ^ 32

/-- Assign what was read under its key to `root`: whether the key is accepted, and `root`. -/
def assignKey (root value : Value) : Option LuaValue → Except Fault (Bool × Value)
  | some (.number n) => do
    let key ← orFault .undefinedBehaviour n
    match root with
    | .null | .array _ =>
      if key < 1 then return (false, root)
      if (key.floor : Rat) ≠ key then return (false, root)
      return (true, ← root.setIndex (arrayIndex key.floor.toNat) value)
    | _ => return (false, root)
  | some (.infinite positive) =>
    match root with
    | .null | .array _ => do
      if !positive then return (false, root)
      return (true, ← root.setIndex (arrayIndex 0) value)
    | _ => return (false, root)
  | some (.string s) =>
    match root with
    | .null | .object _ => do return (true, ← root.setMember (cStr s) value)
    | _ => return (false, root)
  | _ => return (false, root)

/-- The loop over a table: each value is read by `read`, which pops it. -/
def readTable (t : Traversal) (read : LuaState → Except Fault (Bool × Value × LuaState))
    (index : Nat) : Nat → Value → LuaState → Except Fault (Bool × Value × LuaState)
  | 0, _, _ => .error .endlessLoop
  | fuel + 1, root, L => do
    let (more, L) ← L.next t index
    if !more then return (true, root, L)
    let (ok, value, L) ← read L
    if !ok then return (false, root, L)
    let (accepted, root) ← assignKey root value L.stack.head?
    if !accepted then return (false, root, L)
    readTable t read index fuel root L

/-- `read_json_value`, with what it leaves in `root`. -/
def readJsonValue (t : Traversal) :
    Nat → Value → Nat → LuaState → Except Fault (Bool × Value × LuaState)
  | 0, root, _, L => .ok (false, root, L)
  | levels + 1, root, index, L => do
    let (ok, root, L) ← match L.slot index with
      | some (.boolean b) => .ok (true, .boolean b, L)
      | some (.number n) => .ok (true, .real n, L)
      | some (.infinite _) => .ok (true, .real none, L)
      | some (.string s) => .ok (true, .string s, L)
      | some (.table entries) => do
        let L ← L.push .nil
        readTable t (fun L => readJsonValue t levels .null L.getTop L) index (entries.length + 1)
          root L
      | some .nil => .ok (true, .null, L)
      | _ => .ok (false, root, L)
    if !ok then return (false, root, L)
    return (true, root, ← L.pop)

/-- `LuaHelper::read` of a `Json::Value`. -/
def read (t : Traversal) (index : Nat) (res : Value) (L : LuaState) :
    Except Fault (Bool × Value × LuaState) :=
  readJsonValue t 16 res index L

/-- `LuaHelper::write` of a `Json::Value`. -/
def write (L : LuaState) (what : Value) : Except Fault (Bool × LuaState) :=
  pushJsonValue L what L.getTop

end WinterWind.Lua
