import Mathlib.Data.List.Basic

/-!
# Programs that call a library

A `Prog` is a program that ends with a value or calls the library and goes on with the answer.
What the library answers is not part of it: `call c k` has a continuation for every answer.

`Guarded` follows a program under a state that the calls and their answers change: every call is
legal, as long as the answers are tolerable; and after an answer that is not, the next call is
illegal.

`exec` runs a program with answers given from outside, and `perform` against a library that answers
from a state of its own. `Ensures` is the weakest precondition of a program over a state that its
calls and their answers change, whatever these are.

Results:
* `perform_bind`, `ensures_bind`: one program after another.
* `Ensures.exec`: what a program ensures holds after every run.
* `Guarded.answer`: a call whose answer is tolerable leaves a guarded program, and any other
  answer leaves an illegal call.
-/

namespace WinterWind.Library

/-- A program over the calls `Call`, the answers to `c` being `Answer c`. -/
inductive Prog (Call : Type) (Answer : Call → Type) (α : Type) : Type where
  | done (a : α)
  | call (c : Call) (k : Answer c → Prog Call Answer α)

namespace Prog

variable {Call : Type} {Answer : Call → Type} {α β : Type}

/-- First one program, then the one its value selects. -/
def bind : Prog Call Answer α → (α → Prog Call Answer β) → Prog Call Answer β
  | done a, f => f a
  | call c k, f => call c fun answer => (k answer).bind f

@[simp] theorem bind_done (a : α) (f : α → Prog Call Answer β) : (done a).bind f = f a := rfl

@[simp] theorem bind_call (c : Call) (k : Answer c → Prog Call Answer α)
    (f : α → Prog Call Answer β) : (call c k).bind f = call c fun answer => (k answer).bind f := rfl

theorem bind_done_right : ∀ p : Prog Call Answer α, p.bind done = p
  | done _ => rfl
  | call c k => by
    simp only [bind_call]
    congr 1
    funext answer
    exact bind_done_right (k answer)

theorem bind_assoc {γ : Type} (f : α → Prog Call Answer β) (g : β → Prog Call Answer γ) :
    ∀ p : Prog Call Answer α, (p.bind f).bind g = p.bind fun a => (f a).bind g
  | done _ => rfl
  | call c k => by
    simp only [bind_call]
    congr 1
    funext answer
    exact bind_assoc f g (k answer)

/-! ## Running a program -/

/-- The answer to the `n`th call, for every call that it can be. -/
abbrev Oracle (Call : Type) (Answer : Call → Type) := Nat → (c : Call) → Answer c

/-- The value of a program, and its calls with their answers. -/
def exec : Prog Call Answer α → Oracle Call Answer → α × List (Σ c, Answer c)
  | done a, _ => (a, [])
  | call c k, oracle =>
    let rest := (k (oracle 0 c)).exec fun n => oracle (n + 1)
    (rest.1, ⟨c, oracle 0 c⟩ :: rest.2)

/-- The value of a program and the state of the library after it. -/
def perform {σ : Type} (serve : σ → (c : Call) → Answer c × σ) : Prog Call Answer α → σ → α × σ
  | done a, s => (a, s)
  | call c k, s => (k (serve s c).1).perform serve (serve s c).2

@[simp] theorem perform_done {σ : Type} (serve : σ → (c : Call) → Answer c × σ) (a : α) (s : σ) :
    (done a).perform serve s = (a, s) := rfl

@[simp] theorem perform_call {σ : Type} (serve : σ → (c : Call) → Answer c × σ) (c : Call)
    (k : Answer c → Prog Call Answer α) (s : σ) :
    (call c k).perform serve s = (k (serve s c).1).perform serve (serve s c).2 := rfl

theorem perform_bind {σ : Type} (serve : σ → (c : Call) → Answer c × σ)
    (f : α → Prog Call Answer β) : ∀ (p : Prog Call Answer α) (s : σ),
      (p.bind f).perform serve s =
        (f (p.perform serve s).1).perform serve (p.perform serve s).2
  | done _, _ => rfl
  | call c k, s => perform_bind serve f (k (serve s c).1) (serve s c).2

/-! ## What a program ensures -/

section Ensures

variable {σ : Type} {next : σ → (c : Call) → Answer c → σ} {Post : α → σ → Prop}

/-- Whatever the answers, the program ends with `Post` of its value and of the state that its calls
and their answers lead to. -/
def Ensures (next : σ → (c : Call) → Answer c → σ) (Post : α → σ → Prop) :
    Prog Call Answer α → σ → Prop
  | done a, s => Post a s
  | call c k, s => ∀ answer, (k answer).Ensures next Post (next s c answer)

theorem ensures_bind {Post : β → σ → Prop} {f : α → Prog Call Answer β} :
    ∀ (p : Prog Call Answer α) (s : σ), (p.bind f).Ensures next Post s ↔
      p.Ensures next (fun a s => (f a).Ensures next Post s) s
  | done _, _ => Iff.rfl
  | call c k, s => forall_congr' fun answer => ensures_bind (k answer) (next s c answer)

theorem Ensures.mono {Post' : α → σ → Prop} (himp : ∀ a s, Post a s → Post' a s) :
    ∀ {p : Prog Call Answer α} {s : σ}, p.Ensures next Post s → p.Ensures next Post' s
  | done a, s, h => himp a s h
  | call _ _, _, h => fun answer => (h answer).mono himp

/-- **What a program ensures holds after every run.** -/
theorem Ensures.exec : ∀ {p : Prog Call Answer α} {s : σ} (oracle : Oracle Call Answer),
    p.Ensures next Post s →
      Post (p.exec oracle).1 ((p.exec oracle).2.foldl (fun s x => next s x.1 x.2) s)
  | done _, _, _, h => h
  | call _ _, _, oracle, h => (h (oracle 0 _)).exec fun n => oracle (n + 1)

end Ensures

/-! ## Legal calls -/

variable {σ : Type} (legal : σ → Call → Prop) (next : σ → (c : Call) → Answer c → σ)
  (tolerable : σ → (c : Call) → Answer c → Prop)

/-- The next call, if there is one, is legal. -/
def NextLegal (s : σ) : Prog Call Answer α → Prop
  | done _ => True
  | call c _ => legal s c

/-- Every call is legal after tolerable answers, and none that follows another answer is. -/
def Guarded : σ → Prog Call Answer α → Prop
  | _, done _ => True
  | s, call c k => legal s c ∧ ∀ answer,
    (tolerable s c answer → Guarded (next s c answer) (k answer)) ∧
      (¬ tolerable s c answer → ¬ NextLegal legal (next s c answer) (k answer))

variable {legal next tolerable}

theorem Guarded.nextLegal {s : σ} : ∀ {p : Prog Call Answer α},
    Guarded legal next tolerable s p → NextLegal legal s p
  | done _, _ => trivial
  | call _ _, h => h.1

/-- **An answer is tolerable exactly if the program stays legal.** -/
theorem Guarded.answer {s : σ} {c : Call} {k : Answer c → Prog Call Answer α}
    (h : Guarded legal next tolerable s (call c k)) (answer : Answer c) :
    (tolerable s c answer → Guarded legal next tolerable (next s c answer) (k answer)) ∧
      (¬ tolerable s c answer → ¬ NextLegal legal (next s c answer) (k answer)) :=
  h.2 answer

end Prog

end WinterWind.Library
