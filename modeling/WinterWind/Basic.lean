import Mathlib.Data.Finmap
import Mathlib.Data.List.TakeWhile

/-!
# Strings, maps and the ways a call can fail

The types every module shares. A `std::string` is its bytes; a `std::unordered_map` is a finite
map, whose iteration order is not part of the value (`Iteration` carries one order together with
the proof that it lists the map). `Fault` lists how a C++ call can end without returning.
-/

namespace WinterWind

/-- A `std::string`: a sequence of bytes, NUL included. -/
abbrev Bytes := List UInt8

/-- What holds of the 256 values holds of every byte. -/
theorem forall_byte {P : UInt8 → Prop} (h : ∀ n < 256, P (UInt8.ofNat n)) (a : UInt8) : P a := by
  have := h a.toNat a.toNat_lt_size
  rwa [UInt8.ofNat_toNat] at this

/-- The bytes of an ASCII literal. -/
def ascii (s : String) : Bytes := s.toList.map fun c => UInt8.ofNat c.toNat

/-- `operator<` of `std::string`, which compares bytes as `unsigned char`. -/
instance : IsStrictTotalOrder Bytes (· < ·) where

/-- What a C function reads from `s.c_str()`: the bytes before the first NUL. -/
def cStr (s : Bytes) : Bytes := s.takeWhile (· != 0)

theorem cStr_of_not_mem {s : Bytes} (h : 0 ∉ s) : cStr s = s :=
  List.takeWhile_eq_self_iff.mpr fun _ hb => bne_iff_ne.mpr fun e => h (e ▸ hb)

theorem not_mem_cStr (s : Bytes) : 0 ∉ cStr s :=
  fun h => absurd (List.mem_takeWhile_imp h) (by decide)

theorem intercalate_append {sep : Bytes} {m : List Bytes} (hm : m ≠ []) : ∀ {l : List Bytes},
    l ≠ [] → sep.intercalate (l ++ m) = sep.intercalate l ++ sep ++ sep.intercalate m
  | [], h => absurd rfl h
  | [x], _ => by
    rw [List.singleton_append, List.intercalate_cons_of_ne_nil hm, List.intercalate_singleton,
      List.append_assoc]
  | x :: y :: l, _ => by
    have ih := @intercalate_append sep m hm _ (List.cons_ne_nil y l)
    rw [List.cons_append, List.intercalate_cons_of_ne_nil (by simp), ih,
      List.intercalate_cons_cons]
    simp only [List.append_assoc]

/-- A `std::unordered_map`. -/
abbrev UnorderedMap (K V : Type) := Finmap fun _ : K => V

/-- One order in which a range-based `for` may visit `m`. The standard leaves it open, so a
function that iterates takes the order as an argument. -/
structure Iteration {K V : Type} (m : UnorderedMap K V) where
  pairs : List (Σ _ : K, V)
  enumerates : (pairs : Multiset (Σ _ : K, V)) = m.entries

namespace Iteration

variable {K V : Type} {m : UnorderedMap K V}

theorem nodupKeys (it : Iteration m) : it.pairs.NodupKeys := by
  have h := m.nodupKeys
  rwa [← it.enumerates, Multiset.coe_nodupKeys] at h

theorem nonempty (m : UnorderedMap K V) : Nonempty (Iteration m) :=
  ⟨⟨m.entries.toList, Multiset.coe_toList m.entries⟩⟩

/-- An empty map is iterated in no steps. -/
theorem pairs_of_empty (it : Iteration m) (h : m = ∅) : it.pairs = [] := by
  subst h
  exact Multiset.coe_eq_zero _ |>.mp it.enumerates

theorem length_pairs (it : Iteration m) : it.pairs.length = m.entries.card := by
  rw [← it.enumerates, Multiset.coe_card]

variable [DecidableEq K]

/-- Every order finds the same values. -/
theorem dlookup_pairs (it : Iteration m) (k : K) : it.pairs.dlookup k = m.lookup k := by
  induction m using Finmap.induction_on with
  | _ s =>
    have hp : it.pairs.Perm s.entries := Multiset.coe_eq_coe.mp it.enumerates
    rw [Finmap.lookup_toFinmap]
    exact List.perm_dlookup k it.nodupKeys hp

theorem mem_pairs_iff (it : Iteration m) {k : K} {v : V} :
    (⟨k, v⟩ : Σ _ : K, V) ∈ it.pairs ↔ m.lookup k = some v := by
  rw [← it.dlookup_pairs, ← List.mem_dlookup_iff it.nodupKeys]
  rfl

end Iteration

section Insert

variable {K V : Type} [DecidableEq K]

/-- What a map holds after a sequence of assignments comes from one of them. -/
theorem exists_of_lookup_foldl {α : Type} (key : α → K) (value : α → V) {k : K} {v : V} :
    ∀ (l : List α) (acc : UnorderedMap K V),
      (l.foldl (fun m a => m.insert (key a) (value a)) acc).lookup k = some v →
        (∃ a ∈ l, key a = k ∧ value a = v) ∨ acc.lookup k = some v
  | [], acc, h => Or.inr h
  | a :: l, acc, h => by
    rcases exists_of_lookup_foldl key value l _ h with ⟨b, hb, e⟩ | h
    · exact Or.inl ⟨b, List.mem_cons_of_mem a hb, e⟩
    · by_cases hk : k = key a
      · subst hk
        rw [Finmap.lookup_insert] at h
        exact Or.inl ⟨a, List.mem_cons_self, rfl, Option.some.inj h⟩
      · rw [Finmap.lookup_insert_of_ne _ hk] at h
        exact Or.inr h

/-- Assignments to distinct keys. -/
theorem lookup_foldl_insert (value : V → V) (k : K) :
    ∀ (l : List (Σ _ : K, V)) (acc : UnorderedMap K V), l.NodupKeys →
      (l.foldl (fun m p => m.insert p.1 (value p.2)) acc).lookup k =
        ((l.dlookup k).map value).or (acc.lookup k)
  | [], acc, _ => by simp
  | p :: l, acc, h => by
    rw [List.nodupKeys_cons] at h
    rw [List.foldl_cons, lookup_foldl_insert value k l _ h.2]
    by_cases hk : k = p.1
    · subst hk
      have hnone : l.dlookup p.1 = none := List.dlookup_eq_none.mpr h.1
      rw [hnone, Finmap.lookup_insert, List.dlookup_cons_eq]
      rfl
    · rw [Finmap.lookup_insert_of_ne _ hk, List.dlookup_cons_ne _ _ hk]

/-- The last assignment to a key decides. -/
theorem lookup_foldl_last (k : K) (acc : UnorderedMap K V) (l : List (K × V)) :
    (l.foldl (fun m a => m.insert a.1 a.2) acc).lookup k =
      ((l.filter fun a => a.1 = k).map Prod.snd).getLast?.or (acc.lookup k) := by
  induction l using List.reverseRecOn with
  | nil => rfl
  | append_singleton l a ih =>
    rw [List.foldl_append, List.foldl_cons, List.foldl_nil, List.filter_append, List.map_append]
    by_cases h : a.1 = k
    · subst h
      rw [Finmap.lookup_insert]
      simp
    · rw [Finmap.lookup_insert_of_ne _ (Ne.symm h), ih]
      simp [h]

end Insert

/-- How a call can end other than by returning. -/
inductive Fault where
  /-- `Json::LogicError`, thrown by jsoncpp. -/
  | logicError
  /-- Signed overflow, a null dereference, or another undefined behaviour. -/
  | undefinedBehaviour
  /-- A loop of the function never ends. -/
  | endlessLoop
  deriving Repr, DecidableEq

/-- The value of an optional result, or the fault that its absence stands for. -/
def orFault {α : Type} (f : Fault) : Option α → Except Fault α
  | some x => .ok x
  | none => .error f

/-- The conversion of a size to `int`, modulo `2^32`. -/
def toInt (n : Nat) : Int := if n % 2 ^ 32 < 2 ^ 31 then n % 2 ^ 32 else n % 2 ^ 32 - 2 ^ 32

/-- A sequence of two calls returns when both do. -/
theorem bind_eq_ok {α β : Type} {x : Except Fault α} {f : α → Except Fault β} {b : β} :
    x >>= f = .ok b ↔ ∃ a, x = .ok a ∧ f a = .ok b := by
  cases x with
  | error e => simp [bind, Except.bind]
  | ok a => simp [bind, Except.bind]

theorem bind_returns {α β : Type} {x : Except Fault α} {f : α → Except Fault β} :
    (∃ b, x >>= f = .ok b) ↔ ∃ a, x = .ok a ∧ ∃ b, f a = .ok b := by
  simp only [bind_eq_ok]
  exact ⟨fun ⟨b, a, ha, hb⟩ => ⟨a, ha, b, hb⟩, fun ⟨a, ha, b, hb⟩ => ⟨b, a, ha, hb⟩⟩

/-- To wrap what is read changes nothing. -/
theorem map_returns {α β : Type} {x : Except Fault α} {f : α → β} :
    (∃ b, (do return f (← x)) = (.ok b : Except Fault β)) ↔ ∃ a, x = .ok a := by
  rw [bind_returns]
  exact ⟨fun ⟨a, ha, _⟩ => ⟨a, ha⟩, fun ⟨a, ha⟩ => ⟨a, ha, f a, rfl⟩⟩

theorem orFault_eq_ok {α : Type} {f : Fault} {o : Option α} {a : α} :
    orFault f o = .ok a ↔ o = some a := by
  cases o <;> simp [orFault]

end WinterWind
