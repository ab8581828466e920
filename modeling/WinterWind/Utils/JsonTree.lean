import WinterWind.Library.SortedEntries
import WinterWind.Utils.Json

/-!
# Json values as trees (`Json::Value` of jsoncpp)

What recursive code over a `Value` needs: a property of every value inside, assignments to array
elements, and the comparison of numbers as numbers.

* `insertMember` is `insertEntry` on the order of `std::string`.
* `v[index] = w` on an array makes it long enough first. jsoncpp leaves the elements in between
  out of its map and reads them as null, which is what they are here.
* `asNumbers` turns every number into the same kind, so that trees which differ only in the kind of
  their numbers become equal.

Results:
* `induction_on`: induction over the elements and the members.
* **`foldl_setElement`**: assigning the elements of an array, in any order, gives the array.
-/

namespace WinterWind

open Library

theorem insertMember_eq (key : Bytes) (v : Value) : ∀ ms : List (Bytes × Value),
    insertMember key v ms = insertEntry key v ms
  | [] => rfl
  | (k, w) :: rest => by rw [insertMember, insertEntry, insertMember_eq key v rest]

namespace Value

/-- Neither an array nor an object. -/
def isScalar : Value → Bool
  | array _ => false
  | object _ => false
  | _ => true

/-- **Induction over the elements and the members.** -/
theorem induction_on {P : Value → Prop} (scalar : ∀ v, v.isScalar = true → P v)
    (array : ∀ vs, (∀ v ∈ vs, P v) → P (array vs))
    (object : ∀ ms, (∀ m ∈ ms, P m.2) → P (object ms)) : ∀ v, P v
  | .array vs => array vs fun v _ => induction_on scalar array object v
  | .object ms => object ms fun m _ => induction_on scalar array object m.2
  | .null => scalar _ rfl
  | .int _ => scalar _ rfl
  | .uint _ => scalar _ rfl
  | .real _ => scalar _ rfl
  | .string _ => scalar _ rfl
  | .boolean _ => scalar _ rfl
termination_by v => sizeOf v
decreasing_by
  · rename_i hv
    have hlt := List.sizeOf_lt_of_mem hv
    simp only [Value.array.sizeOf_spec]
    omega
  · rename_i hm
    have hlt := List.sizeOf_lt_of_mem hm
    obtain ⟨k, v⟩ := m
    simp only [Prod.mk.sizeOf_spec, Value.object.sizeOf_spec] at hlt ⊢
    omega

/-! ## Every value inside -/

mutual

/-- `p` holds of the value and of every value inside. -/
def All (p : Value → Prop) : Value → Prop
  | array vs => p (array vs) ∧ AllElements p vs
  | object ms => p (object ms) ∧ AllMembers p ms
  | null => p null
  | int i => p (int i)
  | uint u => p (uint u)
  | real r => p (real r)
  | string s => p (string s)
  | boolean b => p (boolean b)

def AllElements (p : Value → Prop) : List Value → Prop
  | [] => True
  | v :: vs => All p v ∧ AllElements p vs

def AllMembers (p : Value → Prop) : List (Bytes × Value) → Prop
  | [] => True
  | (_, v) :: ms => All p v ∧ AllMembers p ms

end

variable {p : Value → Prop}

theorem allElements_iff {vs : List Value} : AllElements p vs ↔ ∀ v ∈ vs, All p v := by
  induction vs with
  | nil => simp [AllElements]
  | cons v vs ih => simp [AllElements, ih]

theorem allMembers_iff {ms : List (Bytes × Value)} : AllMembers p ms ↔ ∀ m ∈ ms, All p m.2 := by
  induction ms with
  | nil => simp [AllMembers]
  | cons m ms ih => simp [AllMembers, ih]

theorem all_array {vs : List Value} : All p (array vs) ↔ p (array vs) ∧ ∀ v ∈ vs, All p v := by
  rw [All, allElements_iff]

theorem all_object {ms : List (Bytes × Value)} :
    All p (object ms) ↔ p (object ms) ∧ ∀ m ∈ ms, All p m.2 := by
  rw [All, allMembers_iff]

theorem all_scalar {v : Value} (h : v.isScalar = true) : All p v ↔ p v := by
  cases v with
  | array vs => cases h
  | object ms => cases h
  | _ => rfl

/-! ## Numbers as numbers -/

mutual

/-- Every number as a `real`. -/
def asNumbers : Value → Value
  | int i => real (some i.toInt)
  | uint u => real (some u.toNat)
  | array vs => array (asNumbersElements vs)
  | object ms => object (asNumbersMembers ms)
  | null => null
  | real r => real r
  | string s => string s
  | boolean b => boolean b

def asNumbersElements : List Value → List Value
  | [] => []
  | v :: vs => asNumbers v :: asNumbersElements vs

def asNumbersMembers : List (Bytes × Value) → List (Bytes × Value)
  | [] => []
  | (k, v) :: ms => (k, asNumbers v) :: asNumbersMembers ms

end

theorem asNumbersElements_eq : ∀ vs : List Value, asNumbersElements vs = vs.map asNumbers
  | [] => rfl
  | v :: vs => by rw [asNumbersElements, asNumbersElements_eq vs, List.map_cons]

theorem asNumbersMembers_eq : ∀ ms : List (Bytes × Value),
    asNumbersMembers ms = ms.map (Prod.map id asNumbers)
  | [] => rfl
  | (k, v) :: ms => by rw [asNumbersMembers, asNumbersMembers_eq ms, List.map_cons]; rfl

theorem asNumbers_array (vs : List Value) : (array vs).asNumbers = array (vs.map asNumbers) := by
  rw [asNumbers, asNumbersElements_eq]

theorem asNumbers_object (ms : List (Bytes × Value)) :
    (object ms).asNumbers = object (ms.map (Prod.map id asNumbers)) := by
  rw [asNumbers, asNumbersMembers_eq]

theorem asNumbers_asNumbers (v : Value) : v.asNumbers.asNumbers = v.asNumbers := by
  induction v using induction_on with
  | scalar v hscalar =>
    cases v with
    | array | object => cases hscalar
    | _ => rfl
  | array vs ih =>
    rw [asNumbers_array, asNumbers_array, List.map_map]
    exact congrArg array (List.map_congr_left ih)
  | object ms ih =>
    rw [asNumbers_object, asNumbers_object, List.map_map]
    exact congrArg object (List.map_congr_left fun m hm => Prod.ext rfl (ih m hm))

/-! ## Array elements -/

/-- Assign an element, after making the array long enough. -/
def setElement (vs : List Value) (i : Nat) (w : Value) : List Value :=
  (vs ++ List.replicate (i + 1 - vs.length) null).set i w

/-- `v[index] = w`. -/
def setIndex (v : Value) (i : Nat) (w : Value) : Except Fault Value :=
  match v with
  | null => .ok (array (setElement [] i w))
  | array vs => .ok (array (setElement vs i w))
  | _ => .error .logicError

theorem length_setElement (vs : List Value) (i : Nat) (w : Value) :
    (setElement vs i w).length = max vs.length (i + 1) := by
  rw [setElement, List.length_set, List.length_append, List.length_replicate]
  omega

theorem getElem?_setElement_self (vs : List Value) (i : Nat) (w : Value) :
    (setElement vs i w)[i]? = some w := by
  refine List.getElem?_set_self ?_
  rw [List.length_append, List.length_replicate]
  omega

theorem getElem?_setElement_of_ne {vs : List Value} {i j : Nat} {w x : Value} (hne : i ≠ j)
    (h : vs[j]? = some x) : (setElement vs i w)[j]? = some x := by
  rw [setElement, List.getElem?_set_ne hne,
    List.getElem?_append_left (List.getElem?_eq_some_iff.mp h).1]
  exact h

theorem getElem?_setElement (vs : List Value) (i j : Nat) (w : Value) :
    (setElement vs i w)[j]? =
      if j = i then some w
      else if j < vs.length then vs[j]?
      else if j < i then some null
      else none := by
  by_cases hij : j = i
  · subst hij
    rw [if_pos rfl, getElem?_setElement_self]
  · rw [if_neg hij, setElement, List.getElem?_set_ne (Ne.symm hij), List.getElem?_append]
    split
    · rfl
    · rw [List.getElem?_replicate]
      grind

/-- Assignments to different elements commute. -/
theorem setElement_comm {i j : Nat} (hij : i ≠ j) (v w : Value) (vs : List Value) :
    setElement (setElement vs i v) j w = setElement (setElement vs j w) i v := by
  refine List.ext_getElem? fun k => ?_
  simp only [getElem?_setElement, length_setElement]
  grind

/-- What is there, or is assigned, is there afterwards. -/
theorem foldl_setElement_spec {vs : List Value} (todo : List (Nat × Value)) (acc : List Value)
    (htodo : ∀ p ∈ todo, vs[p.1]? = some p.2) (hlength : acc.length ≤ vs.length) :
    (todo.foldl (fun acc p => setElement acc p.1 p.2) acc).length ≤ vs.length ∧
      ∀ i v, vs[i]? = some v → acc[i]? = some v ∨ (i, v) ∈ todo →
        (todo.foldl (fun acc p => setElement acc p.1 p.2) acc)[i]? = some v := by
  induction todo generalizing acc with
  | nil => exact ⟨hlength, fun _ _ _ h => h.resolve_right List.not_mem_nil⟩
  | cons q todo ih =>
    obtain ⟨j, w⟩ := q
    have hj : vs[j]? = some w := htodo (j, w) List.mem_cons_self
    have hlt : j < vs.length := (List.getElem?_eq_some_iff.mp hj).1
    have hlength' : (setElement acc j w).length ≤ vs.length := by
      rw [length_setElement]
      omega
    obtain ⟨hle, hget⟩ := ih _ (fun p hp => htodo p (List.mem_cons_of_mem _ hp)) hlength'
    refine ⟨hle, fun i v hv h => hget i v hv ?_⟩
    by_cases hij : j = i
    · subst hij
      obtain rfl := Option.some.inj (hj.symm.trans hv)
      exact Or.inl (getElem?_setElement_self acc j w)
    · rcases h with h | h
      · exact Or.inl (getElem?_setElement_of_ne hij h)
      · rcases List.mem_cons.mp h with h | h
        · exact absurd (Prod.mk.inj h).1.symm hij
        · exact Or.inr h

/-- **Assigning the elements of an array, in any order, gives the array.** -/
theorem foldl_setElement {vs : List Value} {ps : List (Nat × Value)}
    (hsound : ∀ p ∈ ps, vs[p.1]? = some p.2) (hall : ∀ i v, vs[i]? = some v → (i, v) ∈ ps) :
    ps.foldl (fun acc p => setElement acc p.1 p.2) [] = vs := by
  obtain ⟨hle, hget⟩ := foldl_setElement_spec ps [] hsound (Nat.zero_le _)
  refine List.ext_getElem? fun i => ?_
  cases hv : vs[i]? with
  | some v => exact hget i v hv (Or.inr (hall i v hv))
  | none => exact List.getElem?_eq_none (le_trans hle (List.getElem?_eq_none_iff.mp hv))

end Value

end WinterWind
