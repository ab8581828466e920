import WinterWind.Lua.LuaHelper
import WinterWind.Library.Updates

/-!
# What `push_json_value` pushes (`src/core/lua/luahelper.cpp`)

* `image null v` is the value in Lua, with `null` where the value has a null: `push_json_value`
  copies a slot of the stack there. Strings and names are cut at their first NUL, as
  `lua_pushstring` does, and a member or an element that is nil takes its entry out of the table.
* A table is filled by `setEntry`, one entry after the other.

Results:
* **`push_image`**: pushing needs no more slots than were reserved, and throws exactly when a number
  does not fit.
* `fits_of_push`, `not_null_of_push`: what is known when a push has returned.
-/

namespace WinterWind.Lua

open Library

/-- A number that `asInt` or `asUInt` takes. -/
def Fits : Value → Prop
  | .int i => -2 ^ 31 ≤ i.toInt ∧ i.toInt < 2 ^ 31
  | .uint u => u.toNat < 2 ^ 32
  | _ => True

/-- There is a value. -/
def IsNotNull (v : Value) : Prop := v ≠ .null

mutual

/-- The value in Lua, with `null` for its nulls. -/
def image (null : LuaValue) : Value → LuaValue
  | .null => null
  | .int i => .number (some i.toInt)
  | .uint u => .number (some u.toNat)
  | .real r => .number r
  | .string s => .string (cStr s)
  | .boolean b => .boolean b
  | .array vs => .table (imageElements null 0 vs [])
  | .object ms => .table (imageMembers null ms [])

/-- The entries after those of the elements from an index on. -/
def imageElements (null : LuaValue) (index : Nat) : List Value → List Entry → List Entry
  | [], acc => acc
  | v :: vs, acc =>
    imageElements null (index + 1) vs
      (setEntry (.number ((index + 1) % 2 ^ 32 : Nat)) (image null v) acc)

/-- The entries after those of the members. -/
def imageMembers (null : LuaValue) : List (Bytes × Value) → List Entry → List Entry
  | [], acc => acc
  | (name, v) :: ms, acc =>
    imageMembers null ms (setEntry (.string (cStr name)) (image null v) acc)

end

/-! ## Depth -/

theorem maxdepthElements_le {n : Nat} {vs : List Value} :
    maxdepthElements vs ≤ n ↔ ∀ v ∈ vs, pushJsonValueGetdepth v ≤ n := by
  induction vs with
  | nil => simp [maxdepthElements]
  | cons v vs ih => simp [maxdepthElements, ih]

theorem maxdepthMembers_le {n : Nat} {ms : List (Bytes × Value)} :
    maxdepthMembers ms ≤ n ↔ ∀ m ∈ ms, pushJsonValueGetdepth m.2 ≤ n := by
  induction ms with
  | nil => simp [maxdepthMembers]
  | cons m ms ih => simp [maxdepthMembers, ih]

theorem getdepth_pos (v : Value) : 0 < pushJsonValueGetdepth v := by
  cases v <;> simp [pushJsonValueGetdepth]

theorem getdepth_element {vs : List Value} {v : Value} (h : v ∈ vs) :
    pushJsonValueGetdepth v < pushJsonValueGetdepth (.array vs) := by
  have hle := maxdepthElements_le.mp le_rfl v h
  rw [pushJsonValueGetdepth]
  omega

theorem getdepth_member {ms : List (Bytes × Value)} {m : Bytes × Value} (h : m ∈ ms) :
    pushJsonValueGetdepth m.2 < pushJsonValueGetdepth (.object ms) := by
  have hle := maxdepthMembers_le.mp le_rfl m h
  rw [pushJsonValueGetdepth]
  omega

/-! ## The stack -/

/-- The slots that pushing a value takes are there. -/
def Room (L : LuaState) (v : Value) : Prop :=
  L.getTop + 2 * pushJsonValueGetdepth v ≤ L.size + 1

/-- What a push does: it pushes the image, or a number does not fit. -/
def PushesImage (null : LuaValue) (nullindex : Nat) (v : Value) (L : LuaState) : Prop :=
  (v.All Fits → pushJsonValueHelper nullindex v L =
    .ok { L with stack := image null v :: L.stack }) ∧
  (¬ v.All Fits → pushJsonValueHelper nullindex v L = .error .logicError)

section Push

variable {null : LuaValue} {nullindex : Nat}

/-- A scalar: `null` is in the slot, unless it is not needed. -/
theorem push_image_scalar {v : Value} (hscalar : v.isScalar = true) {L : LuaState}
    (hnull : IsNotNull v ∨ L.slot nullindex = some null) (hroom : Room L v) :
    PushesImage null nullindex v L := by
  have hpush : ∀ x, L.push x = .ok { L with stack := x :: L.stack } := fun x => by
    refine LuaState.push_ok ?_ x
    have hpos := getdepth_pos v
    rw [Room] at hroom
    omega
  unfold PushesImage
  rw [Value.all_scalar hscalar]
  cases v with
  | int i =>
    constructor
    · intro hfits
      rw [pushJsonValueHelper, show asInt i = .ok i.toInt from if_pos hfits]
      exact hpush _
    · intro hn
      rw [pushJsonValueHelper, show asInt i = .error .logicError from if_neg hn]
      rfl
  | uint u =>
    constructor
    · intro hfits
      rw [pushJsonValueHelper, show asUInt u = .ok u.toNat from if_pos hfits]
      exact hpush _
    · intro hn
      rw [pushJsonValueHelper, show asUInt u = .error .logicError from if_neg hn]
      rfl
  | null =>
    refine ⟨fun _ => ?_, fun hn => absurd trivial hn⟩
    rw [pushJsonValueHelper, LuaState.pushValue,
      show L.slot nullindex = some null from hnull.resolve_left fun h => h rfl]
    exact hpush _
  | real r => exact ⟨fun _ => hpush _, fun hn => absurd trivial hn⟩
  | string s => exact ⟨fun _ => hpush _, fun hn => absurd trivial hn⟩
  | boolean b => exact ⟨fun _ => hpush _, fun hn => absurd trivial hn⟩
  | array | object => cases hscalar

variable {size limit : Nat} {below : List LuaValue}

/-- The elements, after some are in the table. -/
theorem pushElements_image {vs : List Value}
    (hpushes : ∀ v ∈ vs, ∀ x, PushesImage null nullindex v ⟨x :: below, size, limit⟩) :
    ∀ (index : Nat) (acc : List Entry),
      ((∀ v ∈ vs, v.All Fits) → pushElements nullindex index vs ⟨.table acc :: below, size, limit⟩ =
        .ok ⟨.table (imageElements null index vs acc) :: below, size, limit⟩) ∧
      (¬ (∀ v ∈ vs, v.All Fits) →
        pushElements nullindex index vs ⟨.table acc :: below, size, limit⟩ =
          .error .logicError) := by
  induction vs with
  | nil => exact fun _ _ => ⟨fun _ => rfl, fun hn => absurd (fun _ h => nomatch h) hn⟩
  | cons v vs ih =>
    intro index acc
    have hv := hpushes v List.mem_cons_self (.table acc)
    by_cases hfits : v.All Fits
    · obtain ⟨hok, herror⟩ := ih (fun w hw => hpushes w (List.mem_cons_of_mem v hw)) (index + 1)
        (setEntry (.number ((index + 1) % 2 ^ 32 : Nat)) (image null v) acc)
      simp only [pushElements, hv.1 hfits, bind, Except.bind, LuaState.rawSetI_eq]
      refine ⟨fun h => ?_, fun hn => herror fun h => hn ?_⟩
      · rw [hok fun w hw => h w (List.mem_cons_of_mem v hw), imageElements]
      · exact List.forall_mem_cons.mpr ⟨hfits, h⟩
    · rw [pushElements, hv.2 hfits]
      exact ⟨fun h => absurd (h v List.mem_cons_self) hfits, fun _ => rfl⟩

/-- The members, after some are in the table. -/
theorem pushMembers_image (hsize : below.length + 1 < size) {ms : List (Bytes × Value)}
    (hpushes : ∀ m ∈ ms, ∀ x y, PushesImage null nullindex m.2 ⟨x :: y :: below, size, limit⟩) :
    ∀ acc : List Entry,
      ((∀ m ∈ ms, m.2.All Fits) → pushMembers nullindex ms ⟨.table acc :: below, size, limit⟩ =
        .ok ⟨.table (imageMembers null ms acc) :: below, size, limit⟩) ∧
      (¬ (∀ m ∈ ms, m.2.All Fits) →
        pushMembers nullindex ms ⟨.table acc :: below, size, limit⟩ = .error .logicError) := by
  induction ms with
  | nil => exact fun _ => ⟨fun _ => rfl, fun hn => absurd (fun _ h => nomatch h) hn⟩
  | cons m ms ih =>
    obtain ⟨name, v⟩ := m
    intro acc
    have hv : PushesImage null nullindex v
        ⟨(LuaKey.string (cStr name)).value :: .table acc :: below, size, limit⟩ :=
      hpushes (name, v) List.mem_cons_self _ _
    have hname : (LuaState.mk (.table acc :: below) size limit).pushString name =
        .ok ⟨(LuaKey.string (cStr name)).value :: .table acc :: below, size, limit⟩ :=
      LuaState.push_ok (L := ⟨.table acc :: below, size, limit⟩) hsize _
    by_cases hfits : v.All Fits
    · obtain ⟨hok, herror⟩ := ih (fun w hw => hpushes w (List.mem_cons_of_mem _ hw))
        (setEntry (.string (cStr name)) (image null v) acc)
      simp only [pushMembers, hname, hv.1 hfits, bind, Except.bind, LuaState.rawSet_eq]
      refine ⟨fun h => ?_, fun hn => herror fun h => hn ?_⟩
      · rw [hok fun w hw => h w (List.mem_cons_of_mem _ hw), imageMembers]
      · exact List.forall_mem_cons.mpr ⟨hfits, h⟩
    · rw [pushMembers, hname]
      refine ⟨fun h => absurd (h (name, v) List.mem_cons_self) hfits, fun _ => ?_⟩
      simp only [bind, Except.bind, hv.2 hfits]

/-- **Pushing a value** pushes its image, unless a number does not fit. -/
theorem push_image (v : Value) (L : LuaState)
    (hnull : v.All IsNotNull ∨ nullindex ≤ L.getTop ∧ L.slot nullindex = some null)
    (hroom : Room L v) : PushesImage null nullindex v L := by
  induction v using Value.induction_on generalizing L with
  | scalar v hscalar =>
    rw [Value.all_scalar hscalar] at hnull
    exact push_image_scalar hscalar (hnull.imp_right And.right) hroom
  | array vs ih =>
    have hsize : L.getTop < L.size := by
      rw [Room, pushJsonValueGetdepth] at hroom
      omega
    have hpushes : ∀ w ∈ vs, ∀ x,
        PushesImage null nullindex w ⟨x :: L.stack, L.size, L.limit⟩ := by
      intro w hw x
      refine ih w hw _ (hnull.imp (fun h => (Value.all_array.mp h).2 w hw) fun h => ?_) ?_
      · exact ⟨Nat.le_succ_of_le h.1, (LuaState.slot_append [x] L.stack h.1).trans h.2⟩
      · have hlt := getdepth_element hw
        simp only [Room, LuaState.getTop, List.length_cons] at hroom ⊢
        omega
    obtain ⟨hok, herror⟩ := pushElements_image hpushes 0 []
    constructor
    · intro hfits
      rw [pushJsonValueHelper, LuaState.push_ok hsize]
      exact hok (Value.all_array.mp hfits).2
    · intro hn
      rw [pushJsonValueHelper, LuaState.push_ok hsize]
      exact herror fun h => hn (Value.all_array.mpr ⟨trivial, h⟩)
  | object ms ih =>
    have hsize : L.getTop < L.size := by
      rw [Room, pushJsonValueGetdepth] at hroom
      omega
    have hpushes : ∀ m ∈ ms, ∀ x y,
        PushesImage null nullindex m.2 ⟨x :: y :: L.stack, L.size, L.limit⟩ := by
      intro m hm x y
      refine ih m hm _ (hnull.imp (fun h => (Value.all_object.mp h).2 m hm) fun h => ?_) ?_
      · exact ⟨Nat.le_succ_of_le (Nat.le_succ_of_le h.1),
          (LuaState.slot_append [x, y] L.stack h.1).trans h.2⟩
      · have hlt := getdepth_member hm
        simp only [Room, LuaState.getTop, List.length_cons] at hroom ⊢
        omega
    have hmembers : ((∀ m ∈ ms, m.2.All Fits) →
          pushMembers nullindex ms ⟨.table [] :: L.stack, L.size, L.limit⟩ =
            .ok ⟨.table (imageMembers null ms []) :: L.stack, L.size, L.limit⟩) ∧
        (¬ (∀ m ∈ ms, m.2.All Fits) →
          pushMembers nullindex ms ⟨.table [] :: L.stack, L.size, L.limit⟩ =
            .error .logicError) := by
      cases ms with
      | nil => exact ⟨fun _ => rfl, fun hn => absurd (fun _ h => nomatch h) hn⟩
      | cons m ms =>
        refine pushMembers_image ?_ hpushes []
        have hlt := getdepth_member (List.mem_cons_self (a := m) (l := ms))
        have hpos := getdepth_pos m.2
        simp only [Room, LuaState.getTop] at hroom
        omega
    constructor
    · intro hfits
      rw [pushJsonValueHelper, LuaState.push_ok hsize]
      exact hmembers.1 (Value.all_object.mp hfits).2
    · intro hn
      rw [pushJsonValueHelper, LuaState.push_ok hsize]
      exact hmembers.2 fun h => hn (Value.all_object.mpr ⟨trivial, h⟩)

/-! ## What is known when a push has returned -/

theorem exists_push_element {vs : List Value} {v : Value} (hv : v ∈ vs) :
    ∀ {index : Nat} {L L' : LuaState}, pushElements nullindex index vs L = .ok L' →
      ∃ L₁ L₂, pushJsonValueHelper nullindex v L₁ = .ok L₂ := by
  induction vs with
  | nil => cases hv
  | cons w vs ih =>
    intro index L L' h
    rw [pushElements] at h
    obtain ⟨L₁, hpush, h⟩ := bind_eq_ok.mp h
    obtain ⟨L₂, -, h⟩ := bind_eq_ok.mp h
    rcases List.mem_cons.mp hv with rfl | hv
    · exact ⟨L, L₁, hpush⟩
    · exact ih hv h

theorem exists_push_member {ms : List (Bytes × Value)} {m : Bytes × Value} (hm : m ∈ ms) :
    ∀ {L L' : LuaState}, pushMembers nullindex ms L = .ok L' →
      ∃ L₁ L₂, pushJsonValueHelper nullindex m.2 L₁ = .ok L₂ := by
  induction ms with
  | nil => cases hm
  | cons m' ms ih =>
    obtain ⟨name, v⟩ := m'
    intro L L' h
    rw [pushMembers] at h
    obtain ⟨L₁, -, h⟩ := bind_eq_ok.mp h
    obtain ⟨L₂, hpush, h⟩ := bind_eq_ok.mp h
    obtain ⟨L₃, -, h⟩ := bind_eq_ok.mp h
    rcases List.mem_cons.mp hm with rfl | hm
    · exact ⟨L₁, L₂, hpush⟩
    · exact ih hm h

/-- What holds of every scalar that can be pushed, and of every container, holds of all that is
inside a value that was pushed. -/
theorem all_of_push {P : Value → Prop}
    (hscalar : ∀ v, v.isScalar = true → ∀ L L', pushJsonValueHelper nullindex v L = .ok L' → P v)
    (hcontainer : ∀ v, v.isScalar = false → P v) (v : Value) :
    ∀ {L L' : LuaState}, pushJsonValueHelper nullindex v L = .ok L' → v.All P := by
  induction v using Value.induction_on with
  | scalar v hs =>
    intro L L' h
    exact (Value.all_scalar hs).mpr (hscalar v hs L L' h)
  | array vs ih =>
    intro L L' h
    rw [pushJsonValueHelper] at h
    obtain ⟨L₁, -, h⟩ := bind_eq_ok.mp h
    refine Value.all_array.mpr ⟨hcontainer _ rfl, fun v hv => ?_⟩
    obtain ⟨L₂, L₃, hpush⟩ := exists_push_element hv h
    exact ih v hv hpush
  | object ms ih =>
    intro L L' h
    rw [pushJsonValueHelper] at h
    obtain ⟨L₁, -, h⟩ := bind_eq_ok.mp h
    refine Value.all_object.mpr ⟨hcontainer _ rfl, fun m hm => ?_⟩
    obtain ⟨L₂, L₃, hpush⟩ := exists_push_member hm h
    exact ih m hm hpush

/-- Its numbers fit. -/
theorem fits_of_push {v : Value} {L L' : LuaState}
    (h : pushJsonValueHelper nullindex v L = .ok L') : v.All Fits := by
  refine all_of_push (fun v hs L L' h => ?_) (fun v hs => ?_) v h
  · cases v with
    | int i =>
      obtain ⟨n, hn, -⟩ := bind_eq_ok.mp h
      by_contra hnot
      rw [show asInt i = .error .logicError from if_neg hnot] at hn
      cases hn
    | uint u =>
      obtain ⟨n, hn, -⟩ := bind_eq_ok.mp h
      by_contra hnot
      rw [show asUInt u = .error .logicError from if_neg hnot] at hn
      cases hn
    | array | object => cases hs
    | _ => trivial
  · cases v with
    | array | object => trivial
    | _ => cases hs

/-- It has no null, if `nullindex` was not a slot. -/
theorem not_null_of_push {v : Value} {L L' : LuaState} (h : pushJsonValueHelper 0 v L = .ok L') :
    v.All IsNotNull := by
  refine all_of_push (fun v hs L L' h => ?_) (fun v hs => ?_) v h
  · rintro rfl
    obtain ⟨x, hx, -⟩ := bind_eq_ok.mp h
    cases hx
  · rintro rfl
    cases hs

end Push

end WinterWind.Lua
