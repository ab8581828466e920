import Mathlib.Data.List.Nodup
import Mathlib.Data.List.Perm.Basic
import Mathlib.Order.Defs.Unbundled

/-!
# Entries sorted by key

A finite map as the list of its entries, kept in key order, so that maps with the same entries are
equal lists. `insertEntry` assigns one key. The laws of the order are assumed only where they
matter.

Results:
* `insertEntry_map`: an assignment commutes with a map that respects the order of the keys.
* `insertEntry_last`: an assignment past the last key appends.
* `sorted_insertEntry`, `perm_insertEntry`: an assignment keeps the order, and adds an entry.
* **`foldl_insertEntry`**: assigning the entries of a sorted list in any order gives that list.
* `mem_foldl_insertEntry`: after assignments to distinct keys, what was assigned and the old entries
  of the other keys.
-/

namespace WinterWind.Library

variable {K V : Type} [LT K]

/-- The entries are in key order. -/
def Sorted (l : List (K × V)) : Prop := l.Pairwise fun a b => a.1 < b.1

section Order

variable [IsStrictTotalOrder K (· < ·)]

/-- Different entries of a sorted list have different keys. -/
theorem Sorted.nodup {l : List (K × V)} (h : Sorted l) : (l.map Prod.fst).Nodup := by
  rw [List.nodup_iff_pairwise_ne, List.pairwise_map]
  refine List.Pairwise.imp ?_ h
  intro a b hlt heq
  rw [heq] at hlt
  exact irrefl_of (· < ·) _ hlt

/-- Sorted lists with the same entries are equal. -/
theorem Sorted.eq_of_perm {l l' : List (K × V)} (h : Sorted l) (h' : Sorted l')
    (hperm : l.Perm l') : l = l' :=
  hperm.eq_of_pairwise (fun a b _ _ (hab : a.1 < b.1) (hba : b.1 < a.1) =>
    absurd (trans_of (· < ·) hab hba) (irrefl_of (· < ·) a.1)) h h'

theorem Sorted.eq_of_mem_iff {l l' : List (K × V)} (h : Sorted l) (h' : Sorted l')
    (hmem : ∀ e, e ∈ l ↔ e ∈ l') : l = l' :=
  h.eq_of_perm h' ((List.perm_ext_iff_of_nodup (List.Nodup.of_map Prod.fst h.nodup)
    (List.Nodup.of_map Prod.fst h'.nodup)).mpr hmem)

end Order

variable [DecidableEq K] [DecidableLT K]

/-- Assign a key. -/
def insertEntry (key : K) (v : V) : List (K × V) → List (K × V)
  | [] => [(key, v)]
  | (k, w) :: rest =>
    if key = k then (key, v) :: rest
    else if key < k then (key, v) :: (k, w) :: rest
    else (k, w) :: insertEntry key v rest

theorem insertEntry_map {K' V' : Type} [DecidableEq K'] [LT K'] [DecidableLT K'] (f : K → K')
    (g : V → V') (hinj : ∀ a b, f a = f b ↔ a = b) (hlt : ∀ a b, f a < f b ↔ a < b) (key : K)
    (v : V) (l : List (K × V)) : insertEntry (f key) (g v) (l.map (Prod.map f g)) =
      (insertEntry key v l).map (Prod.map f g) := by
  induction l with
  | nil => rfl
  | cons e rest ih =>
    obtain ⟨k, w⟩ := e
    simp only [List.map_cons, Prod.map_apply, insertEntry, hinj, hlt, ih]
    split
    · rfl
    · split <;> rfl

theorem insertEntry_last {key : K} (v : V) {l : List (K × V)}
    (h : ∀ e ∈ l, key ≠ e.1 ∧ ¬ key < e.1) : insertEntry key v l = l ++ [(key, v)] := by
  induction l with
  | nil => rfl
  | cons e rest ih =>
    obtain ⟨k, w⟩ := e
    obtain ⟨hne, hnlt⟩ := h (k, w) List.mem_cons_self
    rw [insertEntry, if_neg hne, if_neg hnlt, List.cons_append,
      ih fun e he => h e (List.mem_cons_of_mem _ he)]

theorem mem_insertEntry {key : K} {v : V} {e : K × V} {l : List (K × V)}
    (h : e ∈ insertEntry key v l) : e = (key, v) ∨ e ∈ l := by
  induction l with
  | nil => exact Or.inl (List.mem_singleton.mp h)
  | cons x rest ih =>
    obtain ⟨k, w⟩ := x
    unfold insertEntry at h
    split at h
    · exact (List.mem_cons.mp h).imp_right (List.mem_cons_of_mem _)
    · split at h
      · exact List.mem_cons.mp h
      · rcases List.mem_cons.mp h with rfl | h
        · exact Or.inr List.mem_cons_self
        · exact (ih h).imp_right (List.mem_cons_of_mem _)

theorem insertEntry_ne_nil (key : K) (v : V) (l : List (K × V)) : insertEntry key v l ≠ [] := by
  unfold insertEntry
  split
  · exact List.cons_ne_nil _ _
  · split
    · exact List.cons_ne_nil _ _
    · split <;> exact List.cons_ne_nil _ _

/-- A new key adds its entry. -/
theorem perm_insertEntry {key : K} (v : V) {l : List (K × V)} (h : ∀ e ∈ l, key ≠ e.1) :
    (insertEntry key v l).Perm ((key, v) :: l) := by
  induction l with
  | nil => exact .refl _
  | cons e rest ih =>
    obtain ⟨k, w⟩ := e
    rw [insertEntry, if_neg (h (k, w) List.mem_cons_self)]
    split
    · exact .refl _
    · have hrest := ih fun e he => h e (List.mem_cons_of_mem (k, w) he)
      exact (hrest.cons _).trans (.swap _ _ _)

section Order

variable [IsStrictTotalOrder K (· < ·)]

theorem sorted_insertEntry (key : K) (v : V) : ∀ {l : List (K × V)}, Sorted l →
    Sorted (insertEntry key v l)
  | [], _ => List.pairwise_singleton _ _
  | (k, w) :: rest, h => by
    obtain ⟨hhead, hrest⟩ := List.pairwise_cons.mp h
    rw [insertEntry]
    split
    · rename_i heq
      subst heq
      exact List.pairwise_cons.mpr ⟨hhead, hrest⟩
    · rename_i hne
      split
      · rename_i hlt
        refine List.pairwise_cons.mpr ⟨fun e he => ?_, h⟩
        rcases List.mem_cons.mp he with rfl | he
        · exact hlt
        · exact trans_of (· < ·) hlt (hhead e he)
      · rename_i hnlt
        have hgt : k < key := by
          by_contra hn
          exact hne (Std.Trichotomous.trichotomous (r := (· < ·)) key k hnlt hn)
        refine List.pairwise_cons.mpr ⟨fun e he => ?_, sorted_insertEntry key v hrest⟩
        rcases mem_insertEntry he with rfl | he
        · exact hgt
        · exact hhead e he

/-- Assigning new keys to a sorted list adds their entries and keeps the order. -/
theorem foldl_insertEntry_spec (todo : List (K × V)) : ∀ acc : List (K × V), Sorted acc →
    ((acc ++ todo).map Prod.fst).Nodup →
      Sorted (todo.foldl (fun acc e => insertEntry e.1 e.2 acc) acc) ∧
        (todo.foldl (fun acc e => insertEntry e.1 e.2 acc) acc).Perm (acc ++ todo) := by
  induction todo with
  | nil =>
    intro acc hacc _
    rw [List.append_nil]
    exact ⟨hacc, .refl _⟩
  | cons e todo ih =>
    intro acc hacc hnodup
    have hnew : ∀ e' ∈ acc, e.1 ≠ e'.1 := by
      intro e' he' heq
      rw [List.map_append, List.map_cons] at hnodup
      exact (List.nodup_append.mp hnodup).2.2 e'.1 (List.mem_map_of_mem he') e.1
        List.mem_cons_self heq.symm
    have hstep : (insertEntry e.1 e.2 acc ++ todo).Perm (acc ++ e :: todo) :=
      ((perm_insertEntry e.2 hnew).append_right todo).trans List.perm_middle.symm
    obtain ⟨hsorted, hall⟩ := ih (insertEntry e.1 e.2 acc) (sorted_insertEntry e.1 e.2 hacc)
      ((hstep.map Prod.fst).nodup_iff.mpr hnodup)
    exact ⟨hsorted, hall.trans hstep⟩

/-- **Assigning the entries of a sorted list, in any order, gives the list.** -/
theorem foldl_insertEntry {l l' : List (K × V)} (hl : Sorted l) (hperm : l'.Perm l) :
    l'.foldl (fun acc e => insertEntry e.1 e.2 acc) [] = l := by
  obtain ⟨hsorted, hall⟩ := foldl_insertEntry_spec l' [] List.Pairwise.nil
    ((hperm.map Prod.fst).nodup_iff.mpr hl.nodup)
  exact hsorted.eq_of_perm hl (hall.trans hperm)

/-- Assignments to different keys commute. -/
theorem insertEntry_comm {a b : K} (hab : a ≠ b) (v w : V) (l : List (K × V)) :
    insertEntry a v (insertEntry b w l) = insertEntry b w (insertEntry a v l) := by
  have hirrefl (x : K) : ¬x < x := irrefl_of (· < ·) x
  have htrans {x y z : K} : x < y → y < z → x < z := trans_of (· < ·)
  have htri {x y : K} : ¬x < y → ¬y < x → x = y :=
    Std.Trichotomous.trichotomous (r := (· < ·)) x y
  induction l with
  | nil =>
    simp only [insertEntry]
    grind
  | cons e rest ih =>
    obtain ⟨k, x⟩ := e
    simp only [insertEntry]
    grind [insertEntry]

/-- An assignment replaces the entry of its key and keeps the others. -/
theorem mem_insertEntry_iff {key k : K} {v w : V} : ∀ {l : List (K × V)}, Sorted l →
    ((k, w) ∈ insertEntry key v l ↔ (k, w) = (key, v) ∨ k ≠ key ∧ (k, w) ∈ l)
  | [], _ => by simp [insertEntry]
  | (k', w') :: rest, h => by
    obtain ⟨hhead, hrest⟩ := List.pairwise_cons.mp h
    have hirrefl (a : K) : ¬a < a := irrefl_of (· < ·) a
    unfold insertEntry
    split
    · rename_i heq
      subst heq
      have hne : (k, w) ∈ rest → k ≠ key := fun hmem heq => hirrefl key (heq ▸ hhead _ hmem)
      simp only [List.mem_cons, Prod.mk.injEq]
      tauto
    · rename_i hne'
      split
      · rename_i hlt
        have hne : (k, w) ∈ (k', w') :: rest → k ≠ key := by
          intro hmem heq
          subst heq
          rcases List.mem_cons.mp hmem with e | hmem
          · exact hne' (congrArg Prod.fst e)
          · exact hirrefl k (trans_of (· < ·) hlt (hhead _ hmem))
        rw [List.mem_cons]
        tauto
      · have ih := @mem_insertEntry_iff key k v w rest hrest
        have hne : (k, w) = (k', w') → k ≠ key := fun e heq =>
          hne' (heq.symm.trans (congrArg Prod.fst e))
        rw [List.mem_cons, ih, List.mem_cons]
        tauto

/-- Assignments keep the order. -/
theorem sorted_foldl_insertEntry (todo : List (K × V)) : ∀ {acc : List (K × V)}, Sorted acc →
    Sorted (todo.foldl (fun acc e => insertEntry e.1 e.2 acc) acc) := by
  induction todo with
  | nil => exact fun h => h
  | cons e todo ih => exact fun h => ih (sorted_insertEntry e.1 e.2 h)

/-- **After assignments to distinct keys** the entries are those assigned and the old ones of the
other keys. -/
theorem mem_foldl_insertEntry {k : K} {w : V} (todo : List (K × V)) :
    ∀ {acc : List (K × V)}, Sorted acc → (todo.map Prod.fst).Nodup →
      ((k, w) ∈ todo.foldl (fun acc e => insertEntry e.1 e.2 acc) acc ↔
        (k, w) ∈ todo ∨ k ∉ todo.map Prod.fst ∧ (k, w) ∈ acc) := by
  induction todo with
  | nil => simp
  | cons e todo ih =>
    intro acc hacc hnodup
    obtain ⟨key, v⟩ := e
    rw [List.map_cons, List.nodup_cons] at hnodup
    have hkey : k = key → (k, w) ∉ todo := fun heq hmem =>
      hnodup.1 (List.mem_map.mpr ⟨(k, w), hmem, heq⟩)
    rw [List.foldl_cons, ih (sorted_insertEntry key v hacc) hnodup.2, mem_insertEntry_iff hacc,
      List.map_cons, List.mem_cons, List.mem_cons]
    have hfst : (k, w) = (key, v) → k = key := congrArg Prod.fst
    have hnot : k = key → k ∉ todo.map Prod.fst := fun heq => heq ▸ hnodup.1
    tauto

end Order

end WinterWind.Library
