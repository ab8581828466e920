import WinterWind.Basic
import Mathlib.Data.Rat.Defs
import Mathlib.Algebra.Order.Ring.Unbundled.Rat

/-!
# Json values (`Json::Value` of jsoncpp)

The part of jsoncpp the repository's code calls. `Value` is the tree without comments and source
offsets, which nothing here reads; an object lists its members as `std::map` does, by key.

* A member access on anything but an object or `null` throws `Json::LogicError`.
* `string?`, `uint64?` and `int?` are the pairs `isString`/`asString`, `isUInt64`/`asUInt64` and
  `isInt`/`asInt`, which the source always calls in this order.
* The reader and the writer are not part of the repository. `JsonLib` is the pair of them, a
  parameter of whatever uses it; `JsonLib.Faithful` is what is relied on for one written value.

Results:
* `find_insertMember`: an assignment changes the member it names and no other.
-/

namespace WinterWind

/-- `Json::Value`. A `real` holds `none` when the `double` is not finite. -/
inductive Value where
  | null
  | int (i : Int64)
  | uint (u : UInt64)
  | real (r : Option Rat)
  | string (s : Bytes)
  | boolean (b : Bool)
  | array (vs : List Value)
  | object (members : List (Bytes × Value))
  deriving Inhabited

/-- The value of the first member named `key`. -/
def findMember (key : Bytes) : List (Bytes × Value) → Option Value
  | [] => none
  | (k, v) :: rest => if key = k then some v else findMember key rest

/-- Assign the member `key`, in key order. -/
def insertMember (key : Bytes) (v : Value) : List (Bytes × Value) → List (Bytes × Value)
  | [] => [(key, v)]
  | (k, w) :: rest =>
    if key = k then (key, v) :: rest
    else if key < k then (key, v) :: (k, w) :: rest
    else (k, w) :: insertMember key v rest

/-- **An assignment sets its member and keeps the others.** -/
theorem find_insertMember (key k : Bytes) (v : Value) : ∀ ms : List (Bytes × Value),
    findMember k (insertMember key v ms) = if k = key then some v else findMember k ms
  | [] => by simp only [insertMember, findMember]
  | (k', w) :: rest => by
    rw [insertMember]
    split
    · rename_i h
      subst h
      simp only [findMember]
      split <;> rfl
    · rename_i h
      split
      · rfl
      · rw [findMember, find_insertMember key k v rest, findMember]
        by_cases hk : k = k'
        · rw [if_pos hk, if_pos hk, if_neg fun e => h (e.symm.trans hk)]
        · rw [if_neg hk, if_neg hk]

namespace Value

/-- What a member access looks into. -/
def members : Value → Except Fault (List (Bytes × Value))
  | null => .ok []
  | object ms => .ok ms
  | _ => .error .logicError

/-- `v.isMember(key)`. -/
def isMember (v : Value) (key : Bytes) : Except Fault Bool := do
  return (findMember key (← v.members)).isSome

/-- `v[key]`, read. -/
def member (v : Value) (key : Bytes) : Except Fault Value := do
  return (findMember key (← v.members)).getD null

/-- `v[key] = w`. -/
def setMember (v : Value) (key : Bytes) (w : Value) : Except Fault Value := do
  return object (insertMember key w (← v.members))

/-- `v.asString()` if `v.isString()`. -/
def string? : Value → Option Bytes
  | string s => some s
  | _ => none

/-- `v.asUInt64()` if `v.isUInt64()`. -/
def uint64? : Value → Option UInt64
  | int i => if 0 ≤ i then some i.toUInt64 else none
  | uint u => some u
  | real (some r) =>
    if 0 ≤ r ∧ r < 2 ^ 64 ∧ r.den = 1 then some (UInt64.ofNat r.num.toNat) else none
  | _ => none

/-- `v.empty()`. -/
def empty : Value → Bool
  | null => true
  | array vs => vs.isEmpty
  | object ms => ms.isEmpty
  | _ => false

/-- `v[i]` for an index, read. -/
def element (v : Value) (i : Nat) : Except Fault Value :=
  match v with
  | null => .ok null
  | array vs => .ok (vs[i]?.getD null)
  | _ => .error .logicError

/-- `v.asString()`. How jsoncpp prints a `double` is the parameter `realText`. -/
def asString (realText : Option Rat → Bytes) : Value → Except Fault Bytes
  | null => .ok []
  | int i => .ok (ascii (toString i.toInt))
  | uint u => .ok (ascii (toString u.toNat))
  | real r => .ok (realText r)
  | string s => .ok s
  | boolean b => .ok (if b then ascii "true" else ascii "false")
  | array _ => .error .logicError
  | object _ => .error .logicError

/-- `v.asInt()` if `v.isInt()`. -/
def int? : Value → Option Int
  | int i => if -2 ^ 31 ≤ i.toInt ∧ i.toInt < 2 ^ 31 then some i.toInt else none
  | uint u => if u.toNat < 2 ^ 31 then some u.toNat else none
  | real (some r) => if -2 ^ 31 ≤ r ∧ r < 2 ^ 31 ∧ r.den = 1 then some r.num else none
  | _ => none

/-- `v.isUInt()`, and the number that it then is. -/
def uint? : Value → Option Nat
  | int i => if 0 ≤ i.toInt ∧ i.toInt < 2 ^ 32 then some i.toInt.toNat else none
  | uint u => if u.toNat < 2 ^ 32 then some u.toNat else none
  | real (some r) => if 0 ≤ r ∧ r < 2 ^ 32 ∧ r.den = 1 then some r.num.toNat else none
  | _ => none

/-- `v.asBool()`. A `double` that is not finite counts as true. -/
def asBool : Value → Except Fault Bool
  | null => .ok false
  | int i => .ok (i != 0)
  | uint u => .ok (u != 0)
  | real r => .ok (r != some 0)
  | boolean b => .ok b
  | string _ => .error .logicError
  | array _ => .error .logicError
  | object _ => .error .logicError

/-- `v.asUInt()`. -/
def asUInt : Value → Except Fault Nat
  | null => .ok 0
  | int i => if 0 ≤ i.toInt ∧ i.toInt < 2 ^ 32 then .ok i.toInt.toNat else .error .logicError
  | uint u => if u.toNat < 2 ^ 32 then .ok u.toNat else .error .logicError
  | real (some r) =>
    if 0 ≤ r ∧ r ≤ 2 ^ 32 - 1 then .ok (r.num / r.den).toNat else .error .logicError
  | boolean b => .ok (if b then 1 else 0)
  | _ => .error .logicError

/-- `v.asInt()`. -/
def asInt : Value → Except Fault Int
  | null => .ok 0
  | int i => if -2 ^ 31 ≤ i.toInt ∧ i.toInt < 2 ^ 31 then .ok i.toInt else .error .logicError
  | uint u => if u.toNat < 2 ^ 31 then .ok u.toNat else .error .logicError
  | real (some r) =>
    if -2 ^ 31 ≤ r ∧ r ≤ 2 ^ 31 - 1 then .ok (r.num.tdiv r.den) else .error .logicError
  | boolean b => .ok (if b then 1 else 0)
  | _ => .error .logicError

/-- `v.asDouble()`, before it is rounded. -/
def asDouble : Value → Except Fault (Option Rat)
  | null => .ok (some 0)
  | int i => .ok (some i.toInt)
  | uint u => .ok (some u.toNat)
  | real r => .ok r
  | boolean b => .ok (some (if b then 1 else 0))
  | _ => .error .logicError

/-- The values that a range-based `for` over `v` visits. -/
def children : Value → List Value
  | array vs => vs
  | object ms => ms.map Prod.snd
  | _ => []

@[simp] theorem members_object (ms : List (Bytes × Value)) : (object ms).members = .ok ms := rfl

@[simp] theorem isMember_object (ms : List (Bytes × Value)) (key : Bytes) :
    (object ms).isMember key = .ok (findMember key ms).isSome := rfl

@[simp] theorem isMember_null (key : Bytes) : null.isMember key = .ok false := rfl

@[simp] theorem member_object (ms : List (Bytes × Value)) (key : Bytes) :
    (object ms).member key = .ok ((findMember key ms).getD null) := rfl

@[simp] theorem setMember_object (ms : List (Bytes × Value)) (key : Bytes) (w : Value) :
    (object ms).setMember key w = .ok (object (insertMember key w ms)) := rfl

@[simp] theorem setMember_null (key : Bytes) (w : Value) :
    null.setMember key w = .ok (object [(key, w)]) := rfl

theorem members_of_isMember {v : Value} {key : Bytes} {b : Bool} (h : v.isMember key = .ok b) :
    ∃ o, v.members = .ok o := by
  obtain ⟨o, ho, -⟩ := bind_eq_ok.mp h
  exact ⟨o, ho⟩

theorem isMember_of_members {v : Value} {o : List (Bytes × Value)} (h : v.members = .ok o)
    (key : Bytes) : v.isMember key = .ok (findMember key o).isSome := by
  rw [isMember, h]
  rfl

theorem member_of_members {v : Value} {o : List (Bytes × Value)} (h : v.members = .ok o)
    (key : Bytes) : v.member key = .ok ((findMember key o).getD .null) := by
  rw [member, h]
  rfl

/-- `isUInt` of a number that `isUInt64` holds of. -/
theorem uint?_of_uint64? {v : Value} {n : UInt64} (h : v.uint64? = some n) :
    v.uint? = if n.toNat < 2 ^ 32 then some n.toNat else none := by
  cases v with
  | int i =>
    simp only [uint64?, Option.ite_none_right_eq_some, Option.some.injEq] at h
    obtain ⟨hpos, rfl⟩ := h
    rw [Int64.toNat_toUInt64_of_le hpos, Int64.toNatClampNeg, uint?]
    have hpos : 0 ≤ i.toInt := Int64.le_iff_toInt_le.mp hpos
    exact if_congr (by omega) rfl rfl
  | uint u =>
    obtain rfl := Option.some.inj h
    rfl
  | real r =>
    cases r with
    | none => cases h
    | some r =>
      simp only [uint64?, Option.ite_none_right_eq_some, Option.some.injEq] at h
      obtain ⟨⟨hpos, hmax, hden⟩, rfl⟩ := h
      obtain ⟨m, rfl⟩ : ∃ m : Int, r = m := ⟨r.num, (Rat.coe_int_num_of_den_eq_one hden).symm⟩
      norm_cast at hpos hmax
      have hnat : (UInt64.ofNat m.toNat).toNat = m.toNat := by
        rw [UInt64.toNat_ofNat']
        omega
      rw [uint?, Rat.num_intCast, hnat]
      norm_cast
      exact if_congr (by omega) rfl rfl
  | _ => cases h

/-- `v.isMember(key) && v[key].isString()`, and then `v[key].asString()`. -/
def stringMember (v : Value) (key : Bytes) : Except Fault (Option Bytes) := do
  if ← v.isMember key then
    return (← v.member key).string?
  else
    return none

/-- `v.isMember(key) && v[key].isObject()`, and then the members of `v[key]`. -/
def objectMember (v : Value) (key : Bytes) : Except Fault (Option (List (Bytes × Value))) := do
  match ← v.member key with
  | object ms => return some ms
  | _ => return none

theorem stringMember_eq_some_iff {v : Value} {key s : Bytes} :
    v.stringMember key = .ok (some s) ↔
      ∃ ms, v = object ms ∧ findMember key ms = some (string s) := by
  cases v with
  | object ms =>
    have hms : ∀ w, w.string? = some s ↔ w = string s := by
      intro w
      cases w <;> simp [string?]
    cases hf : findMember key ms with
    | none => simp [stringMember, hf, bind, Except.bind, pure, Except.pure]
    | some w => simp [stringMember, hf, bind, Except.bind, pure, Except.pure, hms]
  | null => simp [stringMember, bind, Except.bind, pure, Except.pure]
  | _ => simp [stringMember, isMember, members, bind, Except.bind]

end Value

/-- `Json::FastWriter` and `Json::Reader`. `parse text root` is the result of
`reader.parse(text, root)` and what it leaves in `root`. -/
structure JsonLib where
  write : Value → Bytes
  parse : Bytes → Value → Bool × Value

/-- What a round trip of `v` relies on: the written text ends with the newline of `FastWriter`, it
is read back as `v`, and nothing is read from it once the newline and more are cut off. -/
structure JsonLib.Faithful (json : JsonLib) (v : Value) : Prop where
  newline : (json.write v).getLast? = some 10
  inverse : ∀ root, json.parse (json.write v) root = (true, v)
  cut : ∀ k root, k + 2 ≤ (json.write v).length →
    (json.parse ((json.write v).take k) root).1 = false

end WinterWind
