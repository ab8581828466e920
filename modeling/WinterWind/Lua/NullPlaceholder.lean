import WinterWind.Lua.LuaImage
import Mathlib.Algebra.Order.Ring.Rat
import Mathlib.Data.Nat.Cast.Order.Ring

/-!
# The placeholder for null (`src/core/lua/luahelper.cpp`)

`LuaHelper::write<Json::Value>` pushes, for every null of the value, a copy of what is on top of the
stack at the call: the URL in `l_get_json`, the HTTP code in `JIRA_RETURN_JSON`, the second argument
in `l_read_json`, or the nil it has pushed itself.

* A null shows if nothing later takes its entry: a member whose name is the same up to the first
  NUL, or an element whose index is the same in 32 bits.

Results:
* `image_eq_iff`: the image depends on the placeholder exactly if a null shows.
* **`sameImage_iff`**: two stacks give the same image, with nil for null, exactly if both have nil
  on top, no null shows, or one of the calls does not push.
* `readJson_image`: without a null argument `l_read_json` pushes nil for null.
-/

namespace WinterWind.Lua

open Library

/-! ## The nulls that show -/

/-- A null that nothing later takes the place of. -/
inductive Shows : Value → Prop
  | null : Shows .null
  | element (before : List Value) {v : Value} {after : List Value} (hlast : after.length < 2 ^ 32)
      (h : Shows v) : Shows (.array (before ++ v :: after))
  | member (before : List (Bytes × Value)) {name : Bytes} {v : Value}
      {after : List (Bytes × Value)} (hlast : ∀ m ∈ after, cStr m.1 ≠ cStr name) (h : Shows v) :
      Shows (.object (before ++ (name, v) :: after))

/-- A value in a table: nil is none. -/
def LuaValue.present : LuaValue → Option LuaValue
  | .nil => none
  | x => some x

theorem present_inj {x y : LuaValue} : x.present = y.present ↔ x = y := by
  refine ⟨fun h => ?_, congrArg _⟩
  cases x <;> cases y <;> simp_all [LuaValue.present]

theorem setEntry_eq_update (key : LuaKey) (x : LuaValue) (entries : List Entry) :
    setEntry key x entries = update key x.present entries := by
  cases x <;> rfl

/-- The key of the element at an index. -/
def indexKey (p : Value × Nat) : LuaKey := .number ((p.2 + 1) % 2 ^ 32 : Nat)

/-- The key of a member. -/
def nameKey (m : Bytes × Value) : LuaKey := .string (cStr m.1)

theorem imageElements_eq_updates (null : LuaValue) : ∀ (vs : List Value) (index : Nat)
    (acc : List Entry), imageElements null index vs acc =
      updates indexKey (fun p => (image null p.1).present) (vs.zipIdx index) acc
  | [], _, _ => rfl
  | v :: vs, index, acc => by
    rw [imageElements, imageElements_eq_updates null vs, setEntry_eq_update]
    rfl

theorem imageMembers_eq_updates (null : LuaValue) : ∀ (ms : List (Bytes × Value))
    (acc : List Entry), imageMembers null ms acc =
      updates nameKey (fun m => (image null m.2).present) ms acc
  | [], _ => rfl
  | (name, v) :: ms, acc => by
    rw [imageMembers, imageMembers_eq_updates null ms, setEntry_eq_update]
    rfl

/-- No later element has the key of an element, in 32 bits. -/
theorem last_index_iff {v : Value} {index : Nat} {after : List Value} :
    (∀ c ∈ after.zipIdx (index + 1), indexKey c ≠ indexKey (v, index)) ↔
      after.length < 2 ^ 32 := by
  have hkey : ∀ p : Value × Nat, indexKey p = indexKey (v, index) ↔
      (p.2 + 1) % 2 ^ 32 = (index + 1) % 2 ^ 32 := fun p => by
    rw [indexKey, indexKey, LuaKey.number.injEq, Nat.cast_inj]
  constructor
  · intro h
    by_contra hge
    have hlt : 2 ^ 32 - 1 < after.length := by omega
    refine h (after[2 ^ 32 - 1], index + 1 + (2 ^ 32 - 1)) ?_ ((hkey _).mpr ?_)
    · refine List.mk_mem_zipIdx_iff_le_and_getElem?_sub.mpr ⟨by omega, ?_⟩
      rw [Nat.add_sub_cancel_left]
      exact List.getElem?_eq_getElem hlt
    · omega
  · rintro hlt ⟨w, i⟩ hc heq
    have hbound := List.mem_zipIdx hc
    have hmod := (hkey (w, i)).mp heq
    dsimp only at hmod
    omega

theorem shows_array {vs : List Value} :
    Shows (.array vs) ↔
      ∃ before v after, vs = before ++ v :: after ∧ after.length < 2 ^ 32 ∧ Shows v := by
  constructor
  · intro h
    cases h with
    | element before hlast h => exact ⟨before, _, _, rfl, hlast, h⟩
  · rintro ⟨before, v, after, rfl, hlast, h⟩
    exact .element before hlast h

theorem shows_object {ms : List (Bytes × Value)} :
    Shows (.object ms) ↔
      ∃ before m after, ms = before ++ m :: after ∧ (∀ c ∈ after, nameKey c ≠ nameKey m) ∧
        Shows m.2 := by
  have hkey : ∀ c m : Bytes × Value, nameKey c ≠ nameKey m ↔ cStr c.1 ≠ cStr m.1 := fun c m =>
    not_congr (by rw [nameKey, nameKey, LuaKey.string.injEq])
  constructor
  · intro h
    cases h with
    | member before hlast h =>
      exact ⟨before, _, _, rfl, fun c hc => (hkey c _).mpr (hlast c hc), h⟩
  · rintro ⟨before, m, after, rfl, hlast, h⟩
    exact .member before (fun c hc => (hkey c m).mp (hlast c hc)) h

/-- The images of an array agree where the elements that stay agree. -/
theorem imageElements_eq_iff {x y : LuaValue} {vs : List Value} :
    imageElements x 0 vs [] = imageElements y 0 vs [] ↔
      ∀ before v after, vs = before ++ v :: after → after.length < 2 ^ 32 →
        image x v = image y v := by
  rw [imageElements_eq_updates, imageElements_eq_updates, updates_eq_iff]
  constructor
  · rintro h before v after rfl hlast
    have hsplit : (before ++ v :: after).zipIdx =
        before.zipIdx ++ (v, before.length) :: after.zipIdx (before.length + 1) := by
      rw [List.zipIdx_append, List.zipIdx_cons, Nat.zero_add]
    exact present_inj.mp (h _ _ _ hsplit (last_index_iff.mpr hlast))
  · rintro h before ⟨v, index⟩ after hsplit hlast
    obtain ⟨vs₁, vs₂, rfl, -, hcons⟩ := List.zipIdx_eq_append_iff.mp hsplit
    obtain ⟨w, vs₃, rfl, hw, rfl⟩ := List.zipIdx_eq_cons_iff.mp hcons.symm
    obtain ⟨rfl, rfl⟩ := Prod.mk.inj hw
    exact present_inj.mpr (h vs₁ v vs₃ rfl (last_index_iff.mp hlast))

/-- The images of an object agree where the members that stay agree. -/
theorem imageMembers_eq_iff {x y : LuaValue} {ms : List (Bytes × Value)} :
    imageMembers x ms [] = imageMembers y ms [] ↔
      ∀ before m after, ms = before ++ m :: after → (∀ c ∈ after, nameKey c ≠ nameKey m) →
        image x m.2 = image y m.2 := by
  rw [imageMembers_eq_updates, imageMembers_eq_updates, updates_eq_iff]
  simp only [present_inj]

/-- **The image depends on the placeholder** exactly if a null shows. -/
theorem image_eq_iff {x y : LuaValue} (v : Value) :
    image x v = image y v ↔ x = y ∨ ¬Shows v := by
  by_cases hxy : x = y
  · rw [hxy]
    exact iff_of_true rfl (.inl rfl)
  rw [or_iff_right hxy]
  induction v using Value.induction_on with
  | scalar v hscalar =>
    cases v with
    | null => exact iff_of_false hxy (not_not.mpr .null)
    | array | object => cases hscalar
    | _ => exact iff_of_true rfl nofun
  | array vs ih =>
    rw [image, image, LuaValue.table.injEq, imageElements_eq_iff, shows_array]
    constructor
    · rintro h ⟨before, v, after, hvs, hlast, hshows⟩
      have hv : v ∈ vs := hvs ▸ List.mem_append_right before List.mem_cons_self
      exact (ih v hv).mp (h before v after hvs hlast) hshows
    · intro h before v after hvs hlast
      have hv : v ∈ vs := hvs ▸ List.mem_append_right before List.mem_cons_self
      exact (ih v hv).mpr fun hshows => h ⟨before, v, after, hvs, hlast, hshows⟩
  | object ms ih =>
    rw [image, image, LuaValue.table.injEq, imageMembers_eq_iff, shows_object]
    constructor
    · rintro h ⟨before, m, after, hms, hlast, hshows⟩
      have hm : m ∈ ms := hms ▸ List.mem_append_right before List.mem_cons_self
      exact (ih m hm).mp (h before m after hms hlast) hshows
    · intro h before m after hms hlast
      have hm : m ∈ ms := hms ▸ List.mem_append_right before List.mem_cons_self
      exact (ih m hm).mpr fun hshows => h ⟨before, m, after, hms, hlast, hshows⟩

/-! ## The calls -/

/-- Where `LuaHelper::write` can push a value: the stack can be extended, the numbers fit, and there
is a slot on top if the value has a null. -/
structure Writable (L : LuaState) (v : Value) : Prop where
  room : L.getTop + 2 * pushJsonValueGetdepth v ≤ L.limit
  fits : v.All Fits
  top : L.stack ≠ [] ∨ v.All IsNotNull

/-- What is on top of the stack. -/
def top (L : LuaState) : LuaValue := L.stack.head?.getD .nil

theorem nullindex_getTop (L : LuaState) :
    (if (L.getTop : Int) < 0 then (L.getTop : Int) + 1 + L.getTop else L.getTop).toNat =
      L.getTop := by
  rw [if_neg (Int.not_lt.mpr (Int.natCast_nonneg _)), Int.toNat_natCast]

/-- **A call that can push** pushes the image with what is on top for null. -/
theorem write_spec {L : LuaState} {v : Value} (hw : Writable L v) :
    ∃ L', write L v = .ok (true, L') ∧ L'.stack = image (top L) v :: L.stack := by
  obtain ⟨stack, size, limit⟩ := L
  have hcheck : (LuaState.mk stack size limit).checkStack (pushJsonValueGetdepth v * 2) =
      (true, ⟨stack, max size (stack.length + pushJsonValueGetdepth v * 2), limit⟩) := by
    have hroom := hw.room
    exact if_pos (by omega)
  have hnull : v.All IsNotNull ∨ stack.length ≤ stack.length ∧
      (LuaState.mk stack (max size (stack.length + pushJsonValueGetdepth v * 2)) limit).slot
        stack.length = some (top ⟨stack, size, limit⟩) := by
    rcases hw.top with hne | hnot
    · obtain ⟨x, below, rfl⟩ := List.exists_cons_of_ne_nil hne
      exact .inr ⟨le_rfl, LuaState.slot_top x below _ limit⟩
    · exact .inl hnot
  have hroom : Room ⟨stack, max size (stack.length + pushJsonValueGetdepth v * 2), limit⟩ v := by
    simp only [Room, LuaState.getTop]
    omega
  have hpush := (push_image v _ hnull hroom).1 hw.fits
  refine ⟨⟨image (top ⟨stack, size, limit⟩) v :: stack,
    max size (stack.length + pushJsonValueGetdepth v * 2), limit⟩, ?_, rfl⟩
  simp only [write, pushJsonValue, hcheck, nullindex_getTop, bind, Except.bind]
  rw [show (LuaState.mk stack size limit).getTop = stack.length from rfl, hpush]
  rfl

/-- A call that has pushed could. -/
theorem writable_of_write {L L' : LuaState} {v : Value} (h : write L v = .ok (true, L')) :
    Writable L v := by
  have hroom : L.getTop + 2 * pushJsonValueGetdepth v ≤ L.limit := by
    by_contra hn
    have hcheck : L.checkStack (pushJsonValueGetdepth v * 2) = (false, L) := if_neg (by omega)
    simp only [write, pushJsonValue, hcheck] at h
    cases h
  have hcheck : L.checkStack (pushJsonValueGetdepth v * 2) =
      (true, { L with size := max L.size (L.getTop + pushJsonValueGetdepth v * 2) }) :=
    if_pos (by omega)
  simp only [write, pushJsonValue, hcheck, nullindex_getTop] at h
  obtain ⟨L₁, hpush, -⟩ := bind_eq_ok.mp h
  refine ⟨hroom, fits_of_push hpush, ?_⟩
  by_cases hstack : L.stack = []
  · right
    rw [LuaState.getTop, hstack] at hpush
    exact not_null_of_push hpush
  · exact .inl hstack

/-! ## Two stacks -/

/-- Where both calls push, they push the same value, with nil for every null. -/
def SameImage (v : Value) (L₁ L₂ : LuaState) : Prop :=
  ∀ L₁' L₂', write L₁ v = .ok (true, L₁') → write L₂ v = .ok (true, L₂') →
    L₁'.stack = image .nil v :: L₁.stack ∧ L₂'.stack = image .nil v :: L₂.stack

/-- **When two stacks give the same image**: unless one of the calls does not push, both have nil on
top, or no null shows. -/
theorem sameImage_iff (v : Value) (L₁ L₂ : LuaState) :
    SameImage v L₁ L₂ ↔
      (Writable L₁ v → Writable L₂ v → (top L₁ = .nil ∧ top L₂ = .nil) ∨ ¬Shows v) := by
  constructor
  · intro h hw₁ hw₂
    obtain ⟨L₁', hwrite₁, hstack₁⟩ := write_spec hw₁
    obtain ⟨L₂', hwrite₂, hstack₂⟩ := write_spec hw₂
    obtain ⟨h₁, h₂⟩ := h L₁' L₂' hwrite₁ hwrite₂
    have himage₁ := (List.cons.inj (hstack₁.symm.trans h₁)).1
    have himage₂ := (List.cons.inj (hstack₂.symm.trans h₂)).1
    rw [image_eq_iff] at himage₁ himage₂
    rcases himage₁ with htop₁ | hshows
    · exact himage₂.imp_left fun htop₂ => ⟨htop₁, htop₂⟩
    · exact .inr hshows
  · intro h L₁' L₂' hwrite₁ hwrite₂
    have hw₁ := writable_of_write hwrite₁
    have hw₂ := writable_of_write hwrite₂
    have himage : ∀ L L', Writable L v → write L v = .ok (true, L') →
        (top L = .nil ∨ ¬Shows v) → L'.stack = image .nil v :: L.stack := by
      intro L L' hw hwrite htop
      obtain ⟨L'', hwrite', hstack⟩ := write_spec hw
      obtain rfl : L'' = L' := (Prod.mk.inj (Except.ok.inj (hwrite'.symm.trans hwrite))).2
      rw [hstack, (image_eq_iff v).mpr htop]
    have hboth := h hw₁ hw₂
    exact ⟨himage L₁ L₁' hw₁ hwrite₁ (hboth.imp_left And.left),
      himage L₂ L₂' hw₂ hwrite₂ (hboth.imp_left And.right)⟩

/-! ## The bindings -/

/-- The stack on which `l_read_json` writes: it pushes nil if there is no second argument. -/
def readJsonStack (L : LuaState) : Except Fault LuaState :=
  if L.getTop < 2 then L.push .nil else .ok L

/-- The stack on which `JIRA_RETURN_JSON` writes. -/
def jiraReturnStack (httpCode : UInt16) (L : LuaState) : Except Fault LuaState :=
  L.push (.number (some httpCode.toNat))

theorem push_eq_ok {L L' : LuaState} {x : LuaValue} (h : L.push x = .ok L') :
    L' = { L with stack := x :: L.stack } := by
  unfold LuaState.push at h
  split at h
  · exact (Except.ok.inj h).symm
  · cases h

/-- Without a null argument, `l_read_json` pushes nil for null. -/
theorem readJson_image {L L₁ L₂ : LuaState} {v : Value} (harguments : L.getTop < 2)
    (hstack : readJsonStack L = .ok L₁) (hwrite : write L₁ v = .ok (true, L₂)) :
    L₂.stack = image .nil v :: .nil :: L.stack := by
  rw [readJsonStack, if_pos harguments] at hstack
  obtain rfl := push_eq_ok hstack
  obtain ⟨L', hwrite', hstack'⟩ := write_spec (writable_of_write hwrite)
  obtain rfl : L' = L₂ := (Prod.mk.inj (Except.ok.inj (hwrite'.symm.trans hwrite))).2
  exact hstack'

/-- `JIRA_RETURN_JSON` pushes the HTTP code for null. -/
theorem jiraReturn_image {httpCode : UInt16} {L L₁ L₂ : LuaState} {v : Value}
    (hstack : jiraReturnStack httpCode L = .ok L₁) (hwrite : write L₁ v = .ok (true, L₂)) :
    L₂.stack = image (.number (some httpCode.toNat)) v :: L₁.stack := by
  obtain rfl := push_eq_ok hstack
  obtain ⟨L', hwrite', hstack'⟩ := write_spec (writable_of_write hwrite)
  obtain rfl : L' = L₂ := (Prod.mk.inj (Except.ok.inj (hwrite'.symm.trans hwrite))).2
  exact hstack'

/-- `{"a": null}` is written by `l_get_json`, on a client and its URL, and by `JIRA_RETURN_JSON`,
after the code 200. -/
theorem not_sameImage_getJson :
    ¬ SameImage (.object [([97], .null)]) ⟨[.string (ascii "http://a"), .other 0], 20, 1000000⟩
      ⟨[.number (some 200), .other 0], 20, 1000000⟩ := by
  intro h
  obtain ⟨hstack, -⟩ := h _ _ rfl rfl
  have himage : image (.string (ascii "http://a")) (.object [([97], .null)]) =
      image .nil (.object [([97], .null)]) := (List.cons.inj hstack).1
  rcases (image_eq_iff _).mp himage with heq | hshows
  · cases heq
  · exact hshows (.member [] nofun .null)

end WinterWind.Lua
