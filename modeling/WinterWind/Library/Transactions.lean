import Mathlib.Tactic.Basic
import Mathlib.Data.List.Basic

/-!
# A server with transactions

`Store` is what a database server holds for one session: the committed data, and the data of the
open transaction, if there is one. A statement that fails aborts its transaction, which then refuses
everything but its end; the end of an aborted transaction succeeds and rolls back.

* Outside a transaction a statement is committed at once.
* `begin` in a transaction and `commit` outside one only warn.
* A commit runs the checks that were put off to it, and rolls back if they fail.
* A statement may do its work and not be answered with success: an empty one, or one that copies
  rows out.
* When the session ends, its transaction is dropped (`Store.drop`).

Results:
* `serve_work`: a statement in a transaction leaves the committed data alone.
* `applyAll_concat`: the data of a transaction, statement by statement.
* **`committed_commit`**: a commit that succeeds commits everything, or nothing if a statement has
  failed; one that fails commits nothing.
-/

namespace WinterWind.Library

/-- A statement: transaction control, or work on the data, which may fail. `check` are the checks
that were put off to the commit; `answered` says that work that is done is answered with success. -/
inductive Command (δ : Type) where
  | begin
  | commit (check : δ → Bool)
  | rollback
  | work (f : δ → Option δ) (answered : Bool)

/-- The statement works on the data. -/
def Command.IsWork {δ : Type} : Command δ → Prop
  | .work .. => True
  | _ => False

theorem Command.IsWork.exists {δ : Type} {c : Command δ} (h : c.IsWork) :
    ∃ f answered, c = .work f answered := by
  cases c with
  | work f answered => exact ⟨f, answered, rfl⟩
  | begin | commit | rollback => exact absurd h id

/-- The statement is answered with success when it has succeeded. -/
def Command.answered {δ : Type} : Command δ → Bool
  | .work _ answered => answered
  | _ => true

/-- The committed data, and that of the open transaction; `some none` is an aborted one. -/
structure Store (δ : Type) where
  committed : δ
  transaction : Option (Option δ) := none

namespace Store

variable {δ : Type}

/-- What a statement does, and whether it is answered with success. -/
def serve (s : Store δ) : Command δ → Bool × Store δ
  | .begin =>
    match s.transaction with
    | none => (true, { s with transaction := some (some s.committed) })
    | some (some _) => (true, s)
    | some none => (false, s)
  | .commit check =>
    match s.transaction with
    | some (some d) => (check d, ⟨if check d then d else s.committed, none⟩)
    | _ => (true, ⟨s.committed, none⟩)
  | .rollback => (true, ⟨s.committed, none⟩)
  | .work f answered =>
    match s.transaction with
    | none =>
      match f s.committed with
      | some d => (answered, ⟨d, none⟩)
      | none => (false, s)
    | some (some d) => ((f d).isSome && answered, { s with transaction := some (f d) })
    | some none => (false, s)

/-- The end of the session. -/
def drop (s : Store δ) : Store δ := { s with transaction := none }

@[simp] theorem committed_drop (s : Store δ) : s.drop.committed = s.committed := rfl

@[simp] theorem transaction_drop (s : Store δ) : s.drop.transaction = none := rfl

/-- The statements of a transaction over its data: the first one that fails ends it. -/
def applyAll : List (δ → Option δ) → δ → Option δ
  | [], d => some d
  | f :: fs, d => (f d).bind (applyAll fs)

theorem applyAll_concat (fs : List (δ → Option δ)) (f : δ → Option δ) (d : δ) :
    applyAll (fs ++ [f]) d = (applyAll fs d).bind f := by
  induction fs generalizing d with
  | nil => cases h : f d <;> simp [applyAll, h]
  | cons g gs ih =>
    rw [List.cons_append, applyAll, applyAll]
    cases g d with
    | none => rfl
    | some d' => exact ih d'

/-- The transaction that was begun over `d`, after these statements. -/
structure Within (d : δ) (works : List (δ → Option δ)) (s : Store δ) : Prop where
  committed : s.committed = d
  transaction : s.transaction = some (applyAll works d)

variable {d : δ} {works : List (δ → Option δ)} {s : Store δ}

theorem within_begin (h : s.transaction = none) : Within s.committed [] (s.serve .begin).2 := by
  rw [serve, h]
  exact ⟨rfl, rfl⟩

/-- **A statement in a transaction** leaves the committed data alone. What is answered with success
at all is so exactly if no statement has failed yet. -/
theorem serve_work (h : Within d works s) (f : δ → Option δ) (answered : Bool) :
    Within d (works ++ [f]) (s.serve (.work f answered)).2 ∧
      (s.serve (.work f answered)).1 = ((applyAll (works ++ [f]) d).isSome && answered) := by
  rw [serve, h.transaction, applyAll_concat]
  cases happly : applyAll works d with
  | none =>
    refine ⟨⟨h.committed, ?_⟩, rfl⟩
    rw [applyAll_concat, h.transaction, happly]
    rfl
  | some d' =>
    refine ⟨⟨h.committed, ?_⟩, rfl⟩
    rw [applyAll_concat, happly]
    rfl

/-- **All or nothing.** A commit that succeeds leaves either what all the statements have made or
what was there before, and one that fails leaves that. -/
theorem committed_commit (h : Within d works s) (check : δ → Bool) :
    (s.serve (.commit check)).2.committed =
      if (s.serve (.commit check)).1 then (applyAll works d).getD d else d := by
  rw [serve, h.transaction]
  cases applyAll works d with
  | none => exact h.committed
  | some d' =>
    rw [h.committed]
    rfl

theorem committed_rollback (h : Within d works s) : (s.serve .rollback).2 = ⟨d, none⟩ := by
  rw [serve, h.committed]

theorem drop_within (h : Within d works s) : s.drop = ⟨d, none⟩ := by
  rw [drop, h.committed]

end Store

end WinterWind.Library
