import WinterWind.Basic
import WinterWind.Library.Simulation
import Mathlib.Data.List.Nodup

/-!
# The completions of the console (`src/core/console.cpp`)

`add_completion` and `get_completion` of `ConsoleThread`, and the generator that readline calls for
the word at the start of the line.

* Each of the two takes the lock of the console, so a run is any interleaving of whole calls: other
  threads add completions while the generator scans.
* `rl_completion_matches` calls the generator with the state 0, then with other states until it
  returns a null pointer. Its static index lives from call to call, so the calls together are one
  scan. `Completer.scan` is one turn of its loop.
* `list_index` is a `uint32_t`. An empty string ends the scan, whether it is the answer for an index
  past the end or a completion that was added.
* With `2^32` completions the index starts again, and the scan does not end (`Endless`).

Results:
* `scanning_turn`, `scanning_add`: what has been offered, and that an addition keeps it.
* **`offered_at_end`**: when the scan ends, it has offered the completions that are there at that
  time and have the prefix, in order, up to an empty one; none is there twice.
-/

namespace WinterWind.Utils

open Library

/-- `ConsoleThread::get_completion`. -/
def getCompletion (completions : List Bytes) (index : UInt32) : Bytes :=
  completions[index.toNat]?.getD []

/-- `ConsoleThread::add_completion`. -/
def addCompletion (completions : List Bytes) (completion : Bytes) : List Bytes :=
  if completions.contains completion then completions else completions ++ [completion]

/-- `strncmp(s, t, n) == 0`, for C strings. -/
def strncmpEq : Nat → Bytes → Bytes → Bool
  | 0, _, _ => true
  | _ + 1, [], [] => true
  | n + 1, a :: s, b :: t => a == b && strncmpEq n s t
  | _, _, _ => false

/-- The completions of a console, and the last scan of them. -/
structure Completer where
  completions : List Bytes := []
  text : Bytes := []
  listIndex : UInt32 := 0
  len : UInt32 := 0
  offered : List Bytes := []
  finished : Bool := true

namespace Completer

/-- The generator is called with the state 0. -/
def start (s : Completer) (text : Bytes) : Completer :=
  { s with
    text := text
    listIndex := 0
    len := UInt32.ofNat (cStr text).length
    offered := []
    finished := false }

/-- A turn of the loop of `console_rl_generator`. -/
def scan (s : Completer) : Completer :=
  let name := getCompletion s.completions s.listIndex
  if name.isEmpty then { s with finished := true }
  else
    { s with
      listIndex := s.listIndex + 1
      offered :=
        if strncmpEq s.len.toNat (cStr name) (cStr s.text) then s.offered ++ [cStr name]
        else s.offered }

/-- What can happen: a thread adds a completion, the user asks for them, the generator goes on. -/
inductive Event where
  | add (completion : Bytes)
  | start (text : Bytes)
  | turn

/-- One event. -/
inductive Step : Completer → Event → Completer → Prop
  | add (s : Completer) (completion : Bytes) :
    Step s (.add completion) { s with completions := addCompletion s.completions completion }
  | start (s : Completer) (text : Bytes) (h : s.finished = true) :
    Step s (.start text) (s.start text)
  | turn (s : Completer) (h : s.finished = false) : Step s .turn s.scan

/-- The completion has the word as a prefix, as far as `len` says. -/
def Matches (text completion : Bytes) : Prop :=
  (cStr text).take ((cStr text).length % 2 ^ 32) <+: cStr completion

instance (text completion : Bytes) : Decidable (Matches text completion) :=
  inferInstanceAs (Decidable (_ <+: _))

/-- What a scan of some completions offers. -/
def offers (text : Bytes) (completions : List Bytes) : List Bytes :=
  ((completions.takeWhile (!·.isEmpty)).filter (Matches text ·)).map cStr

/-- A scan that has not ended has looked at the first completions, none of them empty. -/
structure Scanning (s : Completer) : Prop where
  within : s.listIndex.toNat ≤ s.completions.length
  full : ∀ c ∈ s.completions.take s.listIndex.toNat, c.isEmpty = false
  len : s.len = UInt32.ofNat (cStr s.text).length
  offered : s.offered =
    ((s.completions.take s.listIndex.toNat).filter (Matches s.text ·)).map cStr

/-- The first `2^32` completions are not empty, so the index of a scan gets past all of them and
starts again. -/
structure Endless (s : Completer) : Prop where
  size : 2 ^ 32 ≤ s.completions.length
  full : ∀ c ∈ s.completions.take (2 ^ 32), c.isEmpty = false

/-- No completion is there twice, and a scan is where it should be or does not end. -/
structure Sound (s : Completer) : Prop where
  nodup : s.completions.Nodup
  scanning : s.finished = false → s.Scanning ∨ s.Endless

end Completer

/-! ## The parts -/

theorem strncmpEq_iff : ∀ {n : Nat} {s t : Bytes}, n ≤ t.length →
    (strncmpEq n s t = true ↔ t.take n <+: s)
  | 0, s, t, _ => by simp [strncmpEq]
  | n + 1, s, [], h => absurd h (Nat.not_succ_le_zero n)
  | n + 1, [], b :: t, _ => by simp [strncmpEq]
  | n + 1, a :: s, b :: t, h => by
    rw [strncmpEq, Bool.and_eq_true, beq_iff_eq, strncmpEq_iff (Nat.le_of_succ_le_succ h),
      List.take_succ_cons, List.cons_prefix_cons]
    exact and_congr_left fun _ => eq_comm

theorem prefix_addCompletion (completions : List Bytes) (completion : Bytes) :
    completions <+: addCompletion completions completion := by
  unfold addCompletion
  split
  · exact List.prefix_refl _
  · exact List.prefix_append _ _

theorem nodup_addCompletion {completions : List Bytes} (h : completions.Nodup)
    (completion : Bytes) : (addCompletion completions completion).Nodup := by
  unfold addCompletion
  split
  · exact h
  · rename_i hnew
    rw [← List.concat_eq_append]
    exact h.concat fun hmem => hnew (List.contains_iff_mem.mpr hmem)

namespace Completer

variable {s : Completer}

theorem scanning_start (s : Completer) (text : Bytes) : (s.start text).Scanning where
  within := Nat.zero_le _
  full _ h := absurd h List.not_mem_nil
  len := rfl
  offered := rfl

/-- An addition leaves what the scan has seen where it was. -/
theorem scanning_add (h : s.Scanning) (completion : Bytes) :
    Scanning { s with completions := addCompletion s.completions completion } := by
  obtain ⟨rest, hrest⟩ := prefix_addCompletion s.completions completion
  have htake : (addCompletion s.completions completion).take s.listIndex.toNat =
      s.completions.take s.listIndex.toNat := by
    rw [← hrest, List.take_append_of_le_length h.within]
  refine ⟨?_, ?_, h.len, ?_⟩
  · rw [← hrest, List.length_append]
    exact h.within.trans (Nat.le_add_right _ _)
  · dsimp only
    rw [htake]
    exact h.full
  · dsimp only
    rw [htake]
    exact h.offered

theorem matches_iff (h : s.Scanning) (name : Bytes) :
    strncmpEq s.len.toNat (cStr name) (cStr s.text) = decide (Matches s.text name) := by
  have hlen : s.len.toNat = (cStr s.text).length % 2 ^ 32 := by
    rw [h.len, UInt32.toNat_ofNat']
  rw [hlen, Bool.eq_iff_iff, strncmpEq_iff (Nat.mod_le _ _), decide_eq_true_iff]
  rfl

theorem completions_scan (s : Completer) : s.scan.completions = s.completions := by
  unfold scan
  dsimp only
  split <;> rfl

theorem endless_add (h : s.Endless) (completion : Bytes) :
    Endless { s with completions := addCompletion s.completions completion } := by
  obtain ⟨rest, hrest⟩ := prefix_addCompletion s.completions completion
  refine ⟨?_, ?_⟩
  · rw [← hrest, List.length_append]
    exact h.size.trans (Nat.le_add_right _ _)
  · dsimp only
    rw [← hrest, List.take_append_of_le_length h.size]
    exact h.full

theorem endless_turn (h : s.Endless) : s.scan.Endless :=
  ⟨completions_scan s ▸ h.size, completions_scan s ▸ h.full⟩

/-- A scan that gets past all completions goes on. -/
theorem unfinished_of_endless (h : s.Endless) (hgoing : s.finished = false) :
    s.scan.finished = false := by
  have hlt : s.listIndex.toNat < 2 ^ 32 := s.listIndex.toNat_lt
  have hget := List.getElem?_eq_getElem (hlt.trans_le h.size)
  have hname : (getCompletion s.completions s.listIndex).isEmpty = false := by
    rw [getCompletion, hget, Option.getD_some]
    exact h.full _ (List.mem_take_iff_getElem.mpr ⟨_, lt_min hlt (hlt.trans_le h.size), rfl⟩)
  unfold scan
  dsimp only
  rw [if_neg (Bool.eq_false_iff.mp hname)]
  exact hgoing

/-- **A turn that offers or skips a completion.** -/
theorem scanning_turn (h : s.Scanning) (hnext : s.scan.finished = false) :
    s.scan.Scanning ∨ s.scan.Endless := by
  unfold scan at hnext ⊢
  dsimp only at hnext ⊢
  split at hnext
  · cases hnext
  · rename_i hname
    rw [if_neg hname]
    -- the answer is not empty, so the index is below the size
    obtain ⟨c, hc⟩ : ∃ c, s.completions[s.listIndex.toNat]? = some c := by
      cases hget : s.completions[s.listIndex.toNat]? with
      | some c => exact ⟨c, rfl⟩
      | none =>
        rw [getCompletion, hget] at hname
        exact absurd rfl hname
    have hlt := (List.getElem?_eq_some_iff.mp hc).1
    have hname' : getCompletion s.completions s.listIndex = c := by
      rw [getCompletion, hc, Option.getD_some]
    have htake : s.completions.take (s.listIndex.toNat + 1) =
        s.completions.take s.listIndex.toNat ++ [c] := by
      rw [List.take_add_one, hc]
      rfl
    rw [hname'] at hname ⊢
    have hfull : ∀ c ∈ s.completions.take (s.listIndex.toNat + 1), c.isEmpty = false := by
      rw [htake]
      exact List.forall_mem_append.mpr
        ⟨h.full, List.forall_mem_singleton.mpr (Bool.eq_false_iff.mpr hname)⟩
    by_cases hwrap : s.listIndex.toNat + 1 = 2 ^ 32
    · -- the index starts again, and so it has seen as many completions as it can
      exact .inr ⟨hwrap ▸ hlt, hwrap ▸ hfull⟩
    have hindex : (s.listIndex + 1).toNat = s.listIndex.toNat + 1 := by
      rw [UInt32.toNat_add]
      exact Nat.mod_eq_of_lt (Nat.lt_of_le_of_ne s.listIndex.toNat_lt hwrap)
    refine .inl ⟨?_, ?_, h.len, ?_⟩
    · rw [hindex]
      exact hlt
    · dsimp only
      rw [hindex]
      exact hfull
    · dsimp only
      rw [hindex, htake, List.filter_append, List.map_append, ← h.offered, matches_iff h]
      by_cases hmatch : Matches s.text c
      · simp [hmatch]
      · simp [hmatch]

/-- **The turn that ends the scan**: all has been offered. -/
theorem offered_of_finished (h : s.Scanning) (hend : s.scan.finished = true)
    (hgoing : s.finished = false) : s.scan.offered = offers s.text s.completions := by
  unfold scan at hend ⊢
  dsimp only at hend ⊢
  split
  · rename_i hname
    have hprefix : s.completions.takeWhile (!·.isEmpty) =
        s.completions.take s.listIndex.toNat := by
      have hrest : (s.completions.drop s.listIndex.toNat).takeWhile (!·.isEmpty) = [] := by
        cases hget : s.completions[s.listIndex.toNat]? with
        | none =>
          rw [List.drop_eq_nil_of_le (List.getElem?_eq_none_iff.mp hget), List.takeWhile_nil]
        | some c =>
          obtain ⟨hlt, hc⟩ := List.getElem?_eq_some_iff.mp hget
          rw [getCompletion, hget, Option.getD_some] at hname
          rw [List.drop_eq_getElem_cons hlt, hc, List.takeWhile_cons_of_neg (by simpa using hname)]
      rw [← List.take_append_drop s.listIndex.toNat s.completions,
        List.takeWhile_append_of_pos fun c hc => by simpa using h.full c hc, hrest,
        List.append_nil, List.take_append_drop]
    rw [offers, hprefix]
    exact h.offered
  · rename_i hname
    rw [if_neg hname, hgoing] at hend
    cases hend

/-- **What every event keeps.** -/
theorem sound_step {s' : Completer} {e : Event} (h : s.Sound) (hstep : Step s e s') :
    s'.Sound := by
  cases hstep with
  | add completion =>
    exact ⟨nodup_addCompletion h.nodup completion, fun hgoing =>
      (h.scanning hgoing).imp (scanning_add · completion) (endless_add · completion)⟩
  | start text _ => exact ⟨h.nodup, fun _ => .inl (scanning_start s text)⟩
  | turn hgoing =>
    refine ⟨completions_scan s ▸ h.nodup, fun hnext => ?_⟩
    rcases h.scanning hgoing with hscanning | hendless
    · exact scanning_turn hscanning hnext
    · exact .inr (endless_turn hendless)

theorem sound_run {s s' : Completer} {es : List Event} (h : s.Sound) (hrun : Trace Step s es s') :
    s'.Sound := by
  induction hrun with
  | nil => exact h
  | cons hstep hrest ih => exact ih (sound_step h hstep)

/-- **The completions that are offered**, in every interleaving of a new console's scans with the
threads that add completions. A scan that ends has offered those that are there at that time and
have the word as a prefix, in order, up to an empty one; and no completion is there twice.

Nothing is missing exactly if no match stands behind an empty completion. -/
theorem offered_at_end {es : List Event} {s : Completer} (hrun : Trace Step {} es s)
    (hgoing : s.finished = false) (hend : s.scan.finished = true) :
    s.completions.Nodup ∧ s.scan.offered = offers s.text s.completions ∧
      (s.scan.offered =
          ((s.completions.filter (!·.isEmpty)).filter (Matches s.text ·)).map cStr ↔
        ∀ c ∈ s.completions.dropWhile (!·.isEmpty), c.isEmpty = false → ¬ Matches s.text c) := by
  have hsound := sound_run ⟨List.nodup_nil, fun h => Bool.noConfusion h⟩ hrun
  have hscanning : s.Scanning := (hsound.scanning hgoing).resolve_right fun hendless =>
    Bool.noConfusion (hend.symm.trans (unfinished_of_endless hendless hgoing))
  have hoffered := offered_of_finished hscanning hend hgoing
  refine ⟨hsound.nodup, hoffered, ?_⟩
  -- the completions behind the first empty one that are not empty themselves
  have hall : s.completions.filter (!·.isEmpty) = s.completions.takeWhile (!·.isEmpty) ++
      (s.completions.dropWhile (!·.isEmpty)).filter (!·.isEmpty) := by
    conv_lhs => rw [← List.takeWhile_append_dropWhile (p := (!·.isEmpty)) (l := s.completions)]
    rw [List.filter_append, List.filter_eq_self.mpr fun c hc =>
      List.mem_takeWhile_imp (p := fun c : Bytes => !c.isEmpty) hc]
  rw [hoffered, offers, hall, List.filter_append, List.map_append, List.self_eq_append_right,
    List.map_eq_nil_iff, List.filter_eq_nil_iff]
  simp only [List.mem_filter, and_imp, decide_eq_true_eq, Bool.not_eq_true']

/-- The scan for `he` among `help` and `halt`, before its last turn. -/
def helpScanned : Completer where
  completions := [ascii "help", ascii "halt"]
  text := ascii "he"
  listIndex := 2
  len := 2
  offered := [ascii "help"]
  finished := false

/-- `halt` is added while the scan goes on, and skipped. -/
theorem offered_at_end_help : helpScanned.scan.offered = [ascii "help"] := by
  have hrun : Trace Step {}
      [.add (ascii "help"), .start (ascii "he"), .turn, .add (ascii "halt"), .turn] helpScanned :=
    .cons (.add _ _) (.cons (.start _ _ rfl) (.cons (.turn _ rfl) (.cons (.add _ _)
      (.cons (.turn _ rfl) (.nil _)))))
  exact (offered_at_end hrun rfl rfl).2.1.trans (by decide)

end Completer

end WinterWind.Utils
