import Mathlib.Tactic.TypeStar

/-!
# Programs that call services

`Proc C R α`: a program that makes calls `c : C`, each answered by a value of `R c`, and returns an
`α`. What the services do is an `exec` on a state `σ`, and `run` performs the whole program on it.
A program whose every call satisfies `P` (`Proc.All`) keeps what such calls keep (`All.run_inv`) and
commutes with a view of the state that such calls respect (`All.run_view`).
-/

/-- A program making calls `c : C` answered in `R c`. -/
inductive Proc (C : Type) (R : C → Type) (α : Type) where
  | ret (a : α)
  | call (c : C) (k : R c → Proc C R α)

namespace Proc

variable {C : Type} {R : C → Type} {α β σ τ : Type}

def bind : Proc C R α → (α → Proc C R β) → Proc C R β
  | .ret a, f => f a
  | .call c k, f => .call c fun r => (k r).bind f

instance : Monad (Proc C R) where
  pure := .ret
  bind := bind

def perform (c : C) : Proc C R (R c) := .call c .ret

def run (exec : (c : C) → σ → R c × σ) : Proc C R α → σ → α × σ
  | .ret a, s => (a, s)
  | .call c k, s => (k (exec c s).1).run exec (exec c s).2

theorem bind_ret (p : Proc C R α) : p >>= .ret = p := by
  induction p with
  | ret a => rfl
  | call c k ih => exact congrArg (Proc.call c) (funext ih)

theorem bind_bind (p : Proc C R α) (f : α → Proc C R β) {γ : Type} (g : β → Proc C R γ) :
    p >>= f >>= g = p >>= fun a => f a >>= g := by
  induction p with
  | ret a => rfl
  | call c k ih => exact congrArg (Proc.call c) (funext ih)

instance : LawfulMonad (Proc C R) :=
  LawfulMonad.mk' _ bind_ret (fun _ _ => rfl) fun p f g => bind_bind p f g

/-- Every call the program can make satisfies `P`, whatever the earlier answers were. -/
inductive All (P : C → Prop) : Proc C R α → Prop
  | ret (a : α) : All P (.ret a)
  | call {c : C} {k : R c → Proc C R α} (hc : P c) (hk : ∀ r, All P (k r)) : All P (.call c k)

theorem All.run_inv {P : C → Prop} {p : Proc C R α} (hp : p.All P) (exec : (c : C) → σ → R c × σ)
    (I : σ → Prop) (hI : ∀ c, P c → ∀ s, I s → I (exec c s).2) :
    ∀ s, I s → I (p.run exec s).2 := by
  induction hp with
  | ret a => exact fun s hs => hs
  | call hc _ ih => exact fun s hs => ih _ _ (hI _ hc s hs)

/-- If the answers and the effect of the calls can be told from a view of the state, so can the
result and the effect of the program. -/
theorem All.run_view {P : C → Prop} {p : Proc C R α} (hp : p.All P)
    (exec : (c : C) → σ → R c × σ) (exec' : (c : C) → τ → R c × τ) (view : σ → τ)
    (h : ∀ c, P c → ∀ s, exec' c (view s) = ((exec c s).1, view (exec c s).2)) :
    ∀ s, p.run exec' (view s) = ((p.run exec s).1, view (p.run exec s).2) := by
  induction hp with
  | ret a => exact fun s => rfl
  | call hc _ ih =>
    intro s
    rw [run, h _ hc s]
    exact ih _ _

end Proc
