import WinterWind.Library.SortedEntries

/-!
# Updates of sorted entries

Assignments that can also take an entry away: `update key none` removes the entry of a key,
`update key (some v)` is `insertEntry`. A sequence of them, `updates`, comes from a list with a key
and an optional value for each of its members.

Results:
* `find_update`: reading after an update.
* `Sorted.ext_find`: sorted entries that read the same are equal.
* **`updates_eq_iff`**: two sequences of updates to the same keys end the same exactly when they
  agree wherever no later update has the key.
-/

namespace WinterWind.Library

variable {K V : Type} [DecidableEq K]

/-- The value of a key. -/
def find (key : K) : List (K × V) → Option V
  | [] => none
  | (k, v) :: rest => if key = k then some v else find key rest

theorem find_eq_none {key : K} {l : List (K × V)} (h : ∀ e ∈ l, e.1 ≠ key) : find key l = none := by
  induction l with
  | nil => rfl
  | cons e rest ih =>
    rw [find, if_neg (Ne.symm (h e List.mem_cons_self))]
    exact ih fun e' he' => h e' (List.mem_cons_of_mem e he')

theorem mem_of_find {key : K} {v : V} {l : List (K × V)} (h : find key l = some v) :
    (key, v) ∈ l := by
  induction l with
  | nil => cases h
  | cons e rest ih =>
    rw [find] at h
    split at h
    · rename_i hkey
      obtain rfl := Option.some.inj h
      exact hkey ▸ List.mem_cons_self
    · exact List.mem_cons_of_mem e (ih h)

theorem find_filter (key k : K) (l : List (K × V)) :
    find k (l.filter fun e => e.1 ≠ key) = if k = key then none else find k l := by
  by_cases h : k = key
  · rw [if_pos h]
    refine find_eq_none fun e he hk => ?_
    simp only [List.mem_filter, decide_eq_true_eq] at he
    exact he.2 (hk.trans h)
  · rw [if_neg h]
    induction l with
    | nil => rfl
    | cons e rest ih =>
      obtain ⟨k', v⟩ := e
      by_cases hk' : k' = key
      · have hne : k ≠ k' := fun e => h (e.trans hk')
        rw [List.filter_cons_of_neg (by simpa using hk'), ih, find, if_neg hne]
      · rw [List.filter_cons_of_pos (by simpa using hk'), find, find, ih]

variable [LT K] [DecidableLT K]

theorem find_insertEntry (key k : K) (v : V) (l : List (K × V)) :
    find k (insertEntry key v l) = if k = key then some v else find k l := by
  induction l with
  | nil => rfl
  | cons e rest ih =>
    obtain ⟨k', w⟩ := e
    rw [insertEntry]
    split
    · rename_i h
      subst h
      simp only [find]
      split <;> rfl
    · rename_i h
      split
      · rfl
      · rw [find, ih, find]
        by_cases hk : k = k'
        · rw [if_pos hk, if_pos hk, if_neg fun e => h (e.symm.trans hk)]
        · rw [if_neg hk, if_neg hk]

/-- Assign a key, or remove it. -/
def update (key : K) (value : Option V) (l : List (K × V)) : List (K × V) :=
  match value with
  | none => l.filter fun e => e.1 ≠ key
  | some v => insertEntry key v l

/-- **Reading after an update.** -/
theorem find_update (key k : K) (value : Option V) (l : List (K × V)) :
    find k (update key value l) = if k = key then value else find k l := by
  cases value with
  | none => exact find_filter key k l
  | some v => exact find_insertEntry key k v l

/-! ## Sequences -/

section Updates

variable {β : Type} (key : β → K) (value : β → Option V)

/-- An update for each member of a list. -/
def updates (l : List β) (acc : List (K × V)) : List (K × V) :=
  l.foldl (fun acc b => update (key b) (value b) acc) acc

variable {key value}

/-- The keys that are not updated keep their values. -/
theorem find_updates_of_ne {k : K} {l : List β} (h : ∀ b ∈ l, key b ≠ k) :
    ∀ acc : List (K × V), find k (updates key value l acc) = find k acc := by
  induction l with
  | nil => exact fun _ => rfl
  | cons b l ih =>
    intro acc
    have hne : k ≠ key b := Ne.symm (h b List.mem_cons_self)
    rw [updates, List.foldl_cons]
    exact (ih (fun c hc => h c (List.mem_cons_of_mem b hc)) _).trans
      (by rw [find_update, if_neg hne])

/-- The last update of a key stays. -/
theorem find_updates_last {before after : List β} {b : β} (h : ∀ c ∈ after, key c ≠ key b)
    (acc : List (K × V)) :
    find (key b) (updates key value (before ++ b :: after) acc) = value b := by
  rw [updates, List.foldl_append, List.foldl_cons]
  exact (find_updates_of_ne h _).trans (by rw [find_update, if_pos rfl])

omit [LT K] [DecidableLT K] in
/-- A key that is updated has a last update. -/
theorem exists_last {k : K} {l : List β} (h : ∃ b ∈ l, key b = k) :
    ∃ before b after, l = before ++ b :: after ∧ key b = k ∧ ∀ c ∈ after, key c ≠ k := by
  induction l with
  | nil => exact absurd h (by simp)
  | cons a l ih =>
    by_cases hlater : ∃ b ∈ l, key b = k
    · obtain ⟨before, b, after, rfl, hb⟩ := ih hlater
      exact ⟨a :: before, b, after, rfl, hb⟩
    · obtain ⟨b, hb, hk⟩ := h
      rcases List.mem_cons.mp hb with rfl | hb
      · exact ⟨[], b, l, rfl, hk, fun c hc hkc => hlater ⟨c, hc, hkc⟩⟩
      · exact absurd ⟨b, hb, hk⟩ hlater

end Updates

section Order

variable [IsStrictTotalOrder K (· < ·)]

omit [DecidableLT K] in
theorem Sorted.find_eq_some_iff {k : K} {v : V} {l : List (K × V)} (h : Sorted l) :
    find k l = some v ↔ (k, v) ∈ l := by
  refine ⟨mem_of_find, fun hmem => ?_⟩
  induction l with
  | nil => cases hmem
  | cons e rest ih =>
    obtain ⟨k', w⟩ := e
    obtain ⟨hhead, hrest⟩ := List.pairwise_cons.mp h
    rw [find]
    rcases List.mem_cons.mp hmem with heq | htail
    · obtain ⟨rfl, rfl⟩ := Prod.mk.inj heq
      rw [if_pos rfl]
    · have hne : k ≠ k' := by
        rintro rfl
        have hlt : k < k := hhead (k, v) htail
        exact irrefl_of (· < ·) k hlt
      rw [if_neg hne]
      exact ih hrest htail

omit [DecidableLT K] in
/-- **Sorted entries that read the same are equal.** -/
theorem Sorted.ext_find {l l' : List (K × V)} (h : Sorted l) (h' : Sorted l')
    (hfind : ∀ k, find k l = find k l') : l = l' :=
  h.eq_of_mem_iff h' fun e => by
    rw [← h.find_eq_some_iff, ← h'.find_eq_some_iff, hfind e.1]

theorem sorted_update (key : K) (value : Option V) {l : List (K × V)} (h : Sorted l) :
    Sorted (update key value l) := by
  cases value with
  | none => exact List.Pairwise.filter _ h
  | some v => exact sorted_insertEntry key v h

theorem sorted_updates {β : Type} (key : β → K) (value : β → Option V) (l : List β) :
    ∀ {acc : List (K × V)}, Sorted acc → Sorted (updates key value l acc) := by
  induction l with
  | nil => exact fun h => h
  | cons b l ih => exact fun h => ih (sorted_update (key b) (value b) h)

/-- **Updates that end the same** agree wherever no later update has the key. -/
theorem updates_eq_iff {β : Type} {key : β → K} {f g : β → Option V} {l : List β} :
    updates key f l [] = updates key g l [] ↔
      ∀ before b after, l = before ++ b :: after → (∀ c ∈ after, key c ≠ key b) → f b = g b := by
  constructor
  · rintro h before b after rfl hlast
    rw [← @find_updates_last K V _ _ _ β key f before after b hlast [], h, find_updates_last hlast]
  · intro h
    have hsorted : Sorted ([] : List (K × V)) := List.Pairwise.nil
    refine (sorted_updates key f l hsorted).ext_find (sorted_updates key g l hsorted) fun k => ?_
    by_cases hk : ∃ b ∈ l, key b = k
    · obtain ⟨before, b, after, rfl, rfl, hlast⟩ := exists_last hk
      rw [find_updates_last hlast, find_updates_last hlast, h before b after rfl hlast]
    · have hne : ∀ b ∈ l, key b ≠ k := fun b hb heq => hk ⟨b, hb, heq⟩
      rw [find_updates_of_ne hne, find_updates_of_ne hne]

end Order

end WinterWind.Library
