import WinterWind.Library.Runs
import WinterWind.Lua.LuaImage

/-!
# The slots `push_json_value` uses (`src/core/lua/luahelper.cpp`)

`pushCalls` lists the calls of the C API that `push_json_value_helper` makes for a value whose
numbers fit, one after the other over its whole recursion; `pushJsonValueHelper_eq_run` says that
they make up the function. So every state of the stack that it passes through is one that some of
them lead to.

* `Within below n L`: what was on the stack before is there unchanged, with at most `n` slots above.

Results:
* `pushCalls_uses`: the slots used are within twice the depth, at every point.
* **`respectsStack`**: and one slot more is left, if so many had been reserved.
* `pushJsonValue_stack`: as `push_json_value` does, or pushes nothing.
-/

namespace WinterWind.Lua

open Library

/-! ## The calls -/

/-- A call that changes the stack. -/
inductive LuaCall where
  | push (x : LuaValue)
  | pushString (s : Bytes)
  | pushValue (index : Nat)
  | rawSetI (n : Nat)
  | rawSet

def LuaCall.perform (L : LuaState) : LuaCall → Except Fault LuaState
  | push x => L.push x
  | pushString s => L.pushString s
  | pushValue index => L.pushValue index
  | rawSetI n => L.rawSetI n
  | rawSet => L.rawSet

/-- A call, if it is not misused. -/
def callStep (L : LuaState) (c : LuaCall) : Option LuaState := (c.perform L).toOption

mutual

/-- The calls that `push_json_value_helper` makes. -/
def pushCalls (nullindex : Nat) : Value → List LuaCall
  | .int i => [.push (.number (some i.toInt))]
  | .uint u => [.push (.number (some u.toNat))]
  | .real r => [.push (.number r)]
  | .string s => [.pushString s]
  | .boolean b => [.push (.boolean b)]
  | .array vs => .push (.table []) :: elementCalls nullindex 0 vs
  | .object ms => .push (.table []) :: memberCalls nullindex ms
  | .null => [.pushValue nullindex]

/-- Those for the elements of an array from an index on. -/
def elementCalls (nullindex index : Nat) : List Value → List LuaCall
  | [] => []
  | v :: vs =>
    pushCalls nullindex v ++ .rawSetI ((index + 1) % 2 ^ 32) ::
      elementCalls nullindex (index + 1) vs

/-- Those for the members of an object. -/
def memberCalls (nullindex : Nat) : List (Bytes × Value) → List LuaCall
  | [] => []
  | (name, v) :: ms =>
    .pushString name :: (pushCalls nullindex v ++ .rawSet :: memberCalls nullindex ms)

end

/-! ## The calls make up the function -/

theorem toOption_bind {α β : Type} (x : Except Fault α) (f : α → Except Fault β) :
    (x >>= f).toOption = x.toOption.bind fun a => (f a).toOption := by
  cases x <;> rfl

theorem toOption_eq_some {α : Type} {x : Except Fault α} {a : α} (h : x.toOption = some a) :
    x = .ok a := by
  cases x with
  | error e => cases h
  | ok b => exact congrArg Except.ok (Option.some.inj h)

theorem run_one (L : LuaState) (c : LuaCall) : run callStep L [c] = (c.perform L).toOption :=
  Option.bind_fun_some _

section Runs

variable {nullindex : Nat}

theorem pushElements_eq_run {vs : List Value} (h : ∀ v ∈ vs, ∀ L,
    (pushJsonValueHelper nullindex v L).toOption = run callStep L (pushCalls nullindex v)) :
    ∀ (index : Nat) (L : LuaState), (pushElements nullindex index vs L).toOption =
      run callStep L (elementCalls nullindex index vs) := by
  induction vs with
  | nil => exact fun _ _ => rfl
  | cons v vs ih =>
    intro index L
    rw [pushElements, elementCalls, run_append, toOption_bind, h v List.mem_cons_self]
    refine Option.bind_congr fun L' _ => ?_
    rw [toOption_bind, run]
    exact Option.bind_congr fun L'' _ => ih (fun w hw => h w (List.mem_cons_of_mem v hw)) _ L''

theorem pushMembers_eq_run {ms : List (Bytes × Value)} (h : ∀ m ∈ ms, ∀ L,
    (pushJsonValueHelper nullindex m.2 L).toOption = run callStep L (pushCalls nullindex m.2)) :
    ∀ L : LuaState, (pushMembers nullindex ms L).toOption =
      run callStep L (memberCalls nullindex ms) := by
  induction ms with
  | nil => exact fun _ => rfl
  | cons m ms ih =>
    obtain ⟨name, v⟩ := m
    intro L
    rw [pushMembers, memberCalls, run, toOption_bind]
    refine Option.bind_congr fun L₁ _ => ?_
    rw [run_append, toOption_bind, h (name, v) List.mem_cons_self]
    refine Option.bind_congr fun L₂ _ => ?_
    rw [toOption_bind, run]
    exact Option.bind_congr fun L₃ _ => ih (fun w hw => h w (List.mem_cons_of_mem _ hw)) L₃

/-- **The calls make up the function**, when every number fits. -/
theorem pushJsonValueHelper_eq_run (v : Value) (hfits : v.All Fits) (L : LuaState) :
    (pushJsonValueHelper nullindex v L).toOption = run callStep L (pushCalls nullindex v) := by
  induction v using Value.induction_on generalizing L with
  | scalar v hscalar =>
    rw [Value.all_scalar hscalar] at hfits
    cases v with
    | int i =>
      rw [pushJsonValueHelper, show asInt i = .ok i.toInt from if_pos hfits, pushCalls, run_one]
      rfl
    | uint u =>
      rw [pushJsonValueHelper, show asUInt u = .ok u.toNat from if_pos hfits, pushCalls, run_one]
      rfl
    | null | real | string | boolean =>
      rw [pushJsonValueHelper, pushCalls, run_one]
      rfl
    | array | object => cases hscalar
  | array vs ih =>
    have helements := pushElements_eq_run fun v hv => ih v hv ((Value.all_array.mp hfits).2 v hv)
    rw [pushJsonValueHelper, pushCalls, run, toOption_bind]
    exact Option.bind_congr fun L' _ => helements 0 L'
  | object ms ih =>
    have hmembers := pushMembers_eq_run fun m hm => ih m hm ((Value.all_object.mp hfits).2 m hm)
    rw [pushJsonValueHelper, pushCalls, run, toOption_bind]
    exact Option.bind_congr fun L' _ => hmembers L'

end Runs

/-! ## What a call does to the stack -/

/-- A call that puts one slot on top. -/
def LuaCall.pushes : LuaCall → Bool
  | rawSetI _ | rawSet => false
  | _ => true

theorem push_stack {L L' : LuaState} {x : LuaValue} (h : L.push x = .ok L') :
    L'.stack = x :: L.stack := by
  unfold LuaState.push at h
  split at h
  · cases h
    rfl
  · cases h

/-- What is pushed comes on top. -/
theorem stack_of_pushes {L L' : LuaState} {c : LuaCall} (hc : c.pushes = true)
    (h : callStep L c = some L') : ∃ x, L'.stack = x :: L.stack := by
  have hok : c.perform L = .ok L' := toOption_eq_some h
  cases c with
  | push x => exact ⟨x, push_stack hok⟩
  | pushString s => exact ⟨_, push_stack hok⟩
  | pushValue index =>
    obtain ⟨x, -, hpush⟩ := bind_eq_ok.mp hok
    exact ⟨x, push_stack hpush⟩
  | rawSetI | rawSet => cases hc

/-- `lua_rawseti` takes the value away, and changes the table below it. -/
theorem stack_of_rawSetI {L L' : LuaState} {n : Nat} {x t : LuaValue} {below : List LuaValue}
    (hstack : L.stack = x :: t :: below) (h : callStep L (.rawSetI n) = some L') :
    ∃ t', L'.stack = t' :: below := by
  obtain ⟨stack, size, limit⟩ := L
  obtain rfl : stack = x :: t :: below := hstack
  cases t with
  | table entries =>
    obtain rfl := Option.some.inj h
    exact ⟨_, rfl⟩
  | _ => cases h

/-- `lua_rawset` takes the key away, too. -/
theorem stack_of_rawSet {L L' : LuaState} {x k t : LuaValue} {below : List LuaValue}
    (hstack : L.stack = x :: k :: t :: below) (h : callStep L .rawSet = some L') :
    ∃ t', L'.stack = t' :: below := by
  obtain ⟨stack, size, limit⟩ := L
  obtain rfl : stack = x :: k :: t :: below := hstack
  cases t with
  | table entries =>
    cases hkey : k.key? with
    | none =>
      simp only [callStep, LuaCall.perform, LuaState.rawSet, hkey] at h
      cases h
    | some key =>
      simp only [callStep, LuaCall.perform, LuaState.rawSet, hkey] at h
      obtain rfl := Option.some.inj h
      exact ⟨_, rfl⟩
  | _ => cases h

/-! ## The slots used -/

/-- What was on the stack is there, with at most `n` slots above it. -/
def Within (below : List LuaValue) (n : Nat) (L : LuaState) : Prop :=
  ∃ above, L.stack = above ++ below ∧ above.length ≤ n

/-- There is one slot more. -/
def OneMore (below : List LuaValue) (L : LuaState) : Prop := ∃ x, L.stack = x :: below

theorem OneMore.within {below : List LuaValue} {L : LuaState} (h : OneMore below L) {n : Nat}
    (hn : 1 ≤ n) : Within below n L := by
  obtain ⟨x, hx⟩ := h
  exact ⟨[x], hx, hn⟩

/-- What lies above a part of the stack lies above the rest of it. -/
theorem Within.below (first : List LuaValue) {below : List LuaValue} {m n : Nat} {L : LuaState}
    (h : Within (first ++ below) m L) (hn : m + first.length ≤ n) : Within below n L := by
  obtain ⟨above, hstack, hle⟩ := h
  refine ⟨above ++ first, by rw [hstack, List.append_assoc], ?_⟩
  rw [List.length_append]
  omega

/-- The calls stay within some slots and leave one. -/
abbrev Uses (n : Nat) (below : List LuaValue) (L : LuaState) (calls : List LuaCall) : Prop :=
  Through callStep (Within below n) (OneMore below) L calls

section Uses

variable {nullindex n : Nat}

theorem elementCalls_uses {vs : List Value} (below : List LuaValue)
    (h : ∀ v ∈ vs, 2 * pushJsonValueGetdepth v + 1 ≤ n ∧
      ∀ L, Uses (2 * pushJsonValueGetdepth v) L.stack L (pushCalls nullindex v)) :
    ∀ (index : Nat) (L : LuaState), 1 ≤ n → OneMore below L →
      Uses n below L (elementCalls nullindex index vs) := by
  induction vs with
  | nil => exact fun _ L hn hL => through_nil (hL.within hn) hL
  | cons v vs ih =>
    intro index L hn hL
    obtain ⟨hdepth, hcalls⟩ := h v List.mem_cons_self
    obtain ⟨t, ht⟩ := hL
    have hcalls := hcalls L
    rw [ht] at hcalls
    rw [elementCalls]
    refine (hcalls.mono fun L' hL' => hL'.below [t] hdepth).append fun L₁ hL₁ => ?_
    obtain ⟨x, hx⟩ := hL₁
    refine through_cons ⟨[x, t], hx, ?_⟩ fun L₂ hset => ?_
    · have hpos := getdepth_pos v
      simp only [List.length_cons, List.length_nil]
      omega
    · exact ih (fun w hw => h w (List.mem_cons_of_mem v hw)) _ L₂ hn (stack_of_rawSetI hx hset)

theorem memberCalls_uses {ms : List (Bytes × Value)} (below : List LuaValue)
    (h : ∀ m ∈ ms, 2 * pushJsonValueGetdepth m.2 + 2 ≤ n ∧
      ∀ L, Uses (2 * pushJsonValueGetdepth m.2) L.stack L (pushCalls nullindex m.2)) :
    ∀ L : LuaState, 1 ≤ n → OneMore below L →
      Uses n below L (memberCalls nullindex ms) := by
  induction ms with
  | nil => exact fun L hn hL => through_nil (hL.within hn) hL
  | cons m ms ih =>
    obtain ⟨name, v⟩ := m
    intro L hn hL
    obtain ⟨hdepth, hcalls⟩ := h (name, v) List.mem_cons_self
    have hpos := getdepth_pos v
    dsimp only at hdepth hcalls
    obtain ⟨t, ht⟩ := hL
    rw [memberCalls]
    refine through_cons (OneMore.within ⟨t, ht⟩ hn) fun L₁ hname => ?_
    obtain ⟨k, hk⟩ := stack_of_pushes rfl hname
    rw [ht] at hk
    have hcalls := hcalls L₁
    rw [hk] at hcalls
    refine (hcalls.mono fun L' hL' => hL'.below [k, t] hdepth).append fun L₂ hL₂ => ?_
    obtain ⟨x, hx⟩ := hL₂
    refine through_cons ⟨[x, k, t], hx, ?_⟩ fun L₃ hset => ?_
    · simp only [List.length_cons, List.length_nil]
      omega
    · exact ih (fun w hw => h w (List.mem_cons_of_mem _ hw)) L₃ hn (stack_of_rawSet hx hset)

/-- **The slots used**: twice the depth is enough, at every point. -/
theorem pushCalls_uses (v : Value) (L : LuaState) :
    Uses (2 * pushJsonValueGetdepth v) L.stack L (pushCalls nullindex v) := by
  have hstart : ∀ m, Within L.stack m L := fun m => ⟨[], rfl, Nat.zero_le m⟩
  induction v using Value.induction_on generalizing L with
  | scalar v hscalar =>
    obtain ⟨c, hc, hpushes⟩ : ∃ c, pushCalls nullindex v = [c] ∧ c.pushes = true := by
      cases v with
      | array | object => cases hscalar
      | _ => exact ⟨_, rfl, rfl⟩
    have hpos := getdepth_pos v
    rw [hc]
    refine through_cons (hstart _) fun L' hL' => ?_
    have hone : OneMore L.stack L' := stack_of_pushes hpushes hL'
    exact through_nil (hone.within (by omega)) hone
  | array vs ih =>
    have hpos := getdepth_pos (.array vs)
    rw [pushCalls]
    refine through_cons (hstart _) fun L' hL' => ?_
    refine elementCalls_uses L.stack (fun v hv => ⟨?_, fun L => ih v hv L fun m => ?_⟩) 0 L'
      (by omega) (stack_of_pushes rfl hL')
    · have hlt := getdepth_element hv
      omega
    · exact ⟨[], rfl, Nat.zero_le m⟩
  | object ms ih =>
    have hpos := getdepth_pos (.object ms)
    rw [pushCalls]
    refine through_cons (hstart _) fun L' hL' => ?_
    refine memberCalls_uses L.stack (fun m hm => ⟨?_, fun L => ih m hm L fun n => ?_⟩) L'
      (by omega) (stack_of_pushes rfl hL')
    · have hlt := getdepth_member hm
      omega
    · exact ⟨[], rfl, Nat.zero_le n⟩

end Uses

/-! ## The reserved stack -/

/-- `push_json_value_helper` keeps what is on the stack, stays within twice the depth of the value,
and, if so many slots are reserved, leaves one more. -/
structure RespectsStack (nullindex : Nat) (v : Value) (L : LuaState) : Prop where
  calls : (pushJsonValueHelper nullindex v L).toOption = run callStep L (pushCalls nullindex v)
  within : Everywhere callStep (Within L.stack (2 * pushJsonValueGetdepth v)) L
    (pushCalls nullindex v)
  oneMore : L.getTop + 2 * pushJsonValueGetdepth v ≤ L.size →
    ∃ x, pushJsonValueHelper nullindex v L = .ok { L with stack := x :: L.stack }

theorem le_getTop_of_slot {L : LuaState} {index : Nat} {x : LuaValue} (h : L.slot index = some x) :
    index ≤ L.getTop := by
  unfold LuaState.slot at h
  split at h
  · cases h
  · obtain ⟨hlt, -⟩ := List.getElem?_eq_some_iff.mp h
    rw [List.length_reverse] at hlt
    rw [LuaState.getTop]
    omega

theorem pushJsonValueHelper_oneMore {v : Value} (hfits : v.All Fits) {L : LuaState}
    {nullindex : Nat} (hnull : v.All IsNotNull ∨ (L.slot nullindex).isSome)
    (hroom : L.getTop + 2 * pushJsonValueGetdepth v ≤ L.size) :
    ∃ x, pushJsonValueHelper nullindex v L = .ok { L with stack := x :: L.stack } := by
  obtain ⟨null, hnull⟩ : ∃ null, v.All IsNotNull ∨
      nullindex ≤ L.getTop ∧ L.slot nullindex = some null := by
    rcases hnull with hnone | hslot
    · exact ⟨.nil, .inl hnone⟩
    · obtain ⟨null, hnull⟩ := Option.isSome_iff_exists.mp hslot
      exact ⟨null, .inr ⟨le_getTop_of_slot hnull, hnull⟩⟩
  have himage := push_image v L hnull (Nat.le_succ_of_le hroom)
  exact ⟨_, himage.1 hfits⟩

/-- **Pushing respects the reserved stack**, for a value whose numbers fit and a slot to copy for
its nulls, if it has any. -/
theorem respectsStack {v : Value} (hfits : v.All Fits) {L : LuaState} {nullindex : Nat}
    (hnull : v.All IsNotNull ∨ (L.slot nullindex).isSome) : RespectsStack nullindex v L where
  calls := pushJsonValueHelper_eq_run v hfits L
  within := (pushCalls_uses v L).1
  oneMore := pushJsonValueHelper_oneMore hfits hnull

/-- `{"a": [null]}`, over one slot. -/
theorem respectsStack_object :
    RespectsStack 1 (.object [([97], .array [.null])]) ⟨[.boolean true], 20, 1000000⟩ :=
  respectsStack (by simp [Value.All, Value.AllMembers, Value.AllElements, Fits]) (.inr rfl)

/-- What `push_json_value` leaves: nothing is pushed if the slots cannot be reserved, and one slot
is if they can. A negative index counts from the top. -/
theorem pushJsonValue_stack {v : Value} (hfits : v.All Fits) {L : LuaState} {index : Int}
    {nullindex : Nat}
    (hindex : (if index < 0 then L.getTop + 1 + index else index) = (nullindex : Int))
    (hnull : v.All IsNotNull ∨ (L.slot nullindex).isSome) :
    pushJsonValue L v index = .ok (false, L) ∨
      ∃ x size, pushJsonValue L v index = .ok (true, ⟨x :: L.stack, size, L.limit⟩) := by
  by_cases hlimit : L.getTop + pushJsonValueGetdepth v * 2 ≤ L.limit
  · right
    have hcheck : L.checkStack (pushJsonValueGetdepth v * 2) =
        (true, { L with size := max L.size (L.getTop + pushJsonValueGetdepth v * 2) }) :=
      if_pos hlimit
    have hroom : L.getTop + 2 * pushJsonValueGetdepth v ≤
        max L.size (L.getTop + pushJsonValueGetdepth v * 2) := by
      rw [Nat.mul_comm]
      exact Nat.le_max_right _ _
    obtain ⟨x, hpush⟩ := pushJsonValueHelper_oneMore hfits (L := { L with
      size := max L.size (L.getTop + pushJsonValueGetdepth v * 2) }) hnull hroom
    refine ⟨x, max L.size (L.getTop + pushJsonValueGetdepth v * 2), ?_⟩
    simp only [pushJsonValue, hcheck, hindex, Int.toNat_natCast, hpush, bind, Except.bind]
    rfl
  · left
    have hcheck : L.checkStack (pushJsonValueGetdepth v * 2) = (false, L) := if_neg hlimit
    simp only [pushJsonValue, hcheck]
    rfl

end WinterWind.Lua
