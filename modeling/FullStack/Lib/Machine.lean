import Mathlib.Data.List.Induction

/-!
# Runs of a machine that answers its inputs

A machine is a function `step : ι → σ → ω × σ`. `runAll` feeds it a list of inputs and logs each input
with its output. `Guarded.inv` is the rule for an invariant that looks back at the history and that the
steps keep under a guard. `runAll_purge` is the noninterference rule: if the inputs of one party read and
write only that party's view, and the other inputs leave the view alone, the party cannot tell the run
from the one with the other inputs deleted.
-/

namespace Machine

variable {ι σ ω τ : Type}

def runAll (step : ι → σ → ω × σ) : List ι → σ → List (ι × ω) × σ
  | [], s => ([], s)
  | i :: rest, s =>
    let (o, s) := step i s
    let (log, s) := runAll step rest s
    ((i, o) :: log, s)

def after (step : ι → σ → ω × σ) (is : List ι) (s : σ) : σ := (runAll step is s).2

variable {step : ι → σ → ω × σ}

@[simp] theorem after_nil (s : σ) : after step [] s = s := rfl

@[simp] theorem after_cons (i : ι) (is : List ι) (s : σ) :
    after step (i :: is) s = after step is (step i s).2 := rfl

theorem after_append (is js : List ι) (s : σ) :
    after step (is ++ js) s = after step js (after step is s) := by
  induction is generalizing s with
  | nil => rfl
  | cons i is ih => exact ih _

theorem after_concat (is : List ι) (i : ι) (s : σ) :
    after step (is ++ [i]) s = (step i (after step is s)).2 := after_append is [i] s

theorem runAll_append (is js : List ι) (s : σ) :
    (runAll step (is ++ js) s).1 = (runAll step is s).1 ++ (runAll step js (after step is s)).1 := by
  induction is generalizing s with
  | nil => rfl
  | cons i is ih => exact congrArg _ (ih _)

theorem runAll_concat (is : List ι) (i : ι) (s : σ) :
    (runAll step (is ++ [i]) s).1 = (runAll step is s).1 ++ [(i, (step i (after step is s)).1)] :=
  runAll_append is [i] s

/-- Every input of the run from `s` meets the guard `G` at the state it is fed to. -/
def Guarded (step : ι → σ → ω × σ) (G : ι → σ → Prop) (is : List ι) (s : σ) : Prop :=
  ∀ before i rest, is = before ++ i :: rest → G i (after step before s)

theorem Guarded.of_prefix {G : ι → σ → Prop} {p is : List ι} {s : σ} (hg : Guarded step G is s)
    (hp : p <+: is) : Guarded step G p s := by
  obtain ⟨rest', rfl⟩ := hp
  rintro before i rest rfl
  exact hg before i (rest ++ rest') (by simp)

/-- If the guarded steps keep `I`, a statement about the history and the state, a guarded run has it
at its end. -/
theorem Guarded.inv {G : ι → σ → Prop} (I : List ι → σ → Prop)
    (hI : ∀ is i s, I is s → G i s → I (is ++ [i]) (step i s).2) {s : σ} (hs : I [] s) {is : List ι}
    (hg : Guarded step G is s) : I is (after step is s) := by
  induction is using List.reverseRecOn with
  | nil => exact hs
  | append_singleton is i ih =>
    rw [after_concat]
    exact hI is i _ (ih (hg.of_prefix (List.prefix_append is [i]))) (hg is i [] rfl)

/-- Noninterference: `own` marks the inputs of a party that sees `view`. -/
theorem runAll_purge (own : ι → Bool) (view : σ → τ)
    (hown : ∀ i, own i = true → ∀ s s', view s = view s' →
      (step i s).1 = (step i s').1 ∧ view (step i s).2 = view (step i s').2)
    (hother : ∀ i, own i = false → ∀ s, view (step i s).2 = view s) (is : List ι) :
    ∀ s s', view s = view s' →
      (runAll step is s).1.filter (fun e => own e.1) = (runAll step (is.filter own) s').1 ∧
      view (after step is s) = view (after step (is.filter own) s') := by
  induction is with
  | nil => exact fun s s' h => ⟨rfl, h⟩
  | cons i is ih =>
    intro s s' h
    cases hi : own i with
    | true =>
      obtain ⟨ho, hv⟩ := hown i hi s s' h
      obtain ⟨hlog, hfin⟩ := ih _ _ hv
      rw [List.filter_cons_of_pos hi]
      refine ⟨?_, hfin⟩
      simp only [runAll]
      rw [List.filter_cons, if_pos hi, hlog, ho]
    | false =>
      obtain ⟨hlog, hfin⟩ := ih _ _ ((hother i hi s).trans h)
      rw [List.filter_cons_of_neg (by simp [hi])]
      refine ⟨?_, hfin⟩
      simp only [runAll]
      rw [List.filter_cons, if_neg (by simp [hi]), hlog]

end Machine
