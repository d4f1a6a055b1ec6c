import FullStack.Lib.ReadModifyWrite

/-!
# Two parties that may write what they have read

Each of two parties reads a shared value once and later overwrites it with `f i` of what it read, if that
is defined. If both write, a schedule comes to one of two things: the second party reads after the first
has written, or both read the value at the start and the last write stays (`run_cases`).
-/

namespace TwoWriters

open ReadModifyWrite (Phase)

variable {α : Type} {f : Bool → α → Option α}

structure State (α : Type) where
  value : α
  phase : Bool → Phase α
  writers : List Bool

def init (a : α) : State α := ⟨a, fun _ => .idle, []⟩

def step (f : Bool → α → Option α) (st : State α) (i : Bool) : State α :=
  match st.phase i with
  | .idle => { st with phase := Function.update st.phase i (.read st.value) }
  | .read a =>
    match f i a with
    | some b => ⟨b, Function.update st.phase i .written, st.writers ++ [i]⟩
    | none => st
  | .written => st

def run (f : Bool → α → Option α) (schedule : List Bool) (st : State α) : State α := schedule.foldl (step f) st

@[simp] theorem run_nil (st : State α) : run f [] st = st := rfl

@[simp] theorem run_cons (i : Bool) (schedule : List Bool) (st : State α) :
    run f (i :: schedule) st = run f schedule (step f st i) := rfl

section
variable {st : State α} {i : Bool} {a b : α}

theorem step_idle (h : st.phase i = .idle) :
    step f st i = ⟨st.value, Function.update st.phase i (.read st.value), st.writers⟩ := by
  rw [step, h]

theorem step_read (h : st.phase i = .read a) (hf : f i a = some b) :
    step f st i = ⟨b, Function.update st.phase i .written, st.writers ++ [i]⟩ := by
  rw [step, h]
  simp only [hf]

def Stopped (f : Bool → α → Option α) (st : State α) (i : Bool) : Prop :=
  st.phase i = .written ∨ ∃ a, st.phase i = .read a ∧ f i a = none

theorem Stopped.step (h : Stopped f st i) : step f st i = st := by
  rcases h with h | ⟨a, h, hf⟩
  · rw [TwoWriters.step, h]
  · rw [TwoWriters.step, h]
    simp only [hf]

theorem step_not (st : State α) (i : Bool) :
    (step f st (!i)).phase i = st.phase i ∧ (i ∈ (step f st (!i)).writers ↔ i ∈ st.writers) := by
  have hne : i ≠ !i := by cases i <;> decide
  rw [step]
  cases st.phase (!i) with
  | idle => exact ⟨Function.update_of_ne hne _ _, Iff.rfl⟩
  | read a =>
    cases hf : f (!i) a with
    | none =>
      simp only [hf]
      exact ⟨trivial, trivial⟩
    | some b =>
      simp only [hf]
      refine ⟨Function.update_of_ne hne _ _, ?_⟩
      rw [List.mem_append, List.mem_singleton]
      exact or_iff_left hne
  | written => exact ⟨rfl, Iff.rfl⟩

theorem Stopped.of_phase {st' : State α} (h : Stopped f st i) (hphase : st'.phase i = st.phase i) :
    Stopped f st' i := by
  rwa [Stopped, hphase]

theorem Stopped.run (h : Stopped f st i) (schedule : List Bool) :
    i ∈ (run f schedule st).writers ↔ i ∈ st.writers := by
  induction schedule generalizing st with
  | nil => rfl
  | cons j schedule ih =>
    rw [run_cons]
    rcases eq_or_ne j i with rfl | hne
    · rw [h.step]
      exact ih h
    · obtain rfl := Bool.eq_not.2 hne
      rw [ih (h.of_phase (step_not st i).1), (step_not st i).2]

theorem run_of_stopped (h : ∀ i, Stopped f st i) (schedule : List Bool) : run f schedule st = st := by
  induction schedule with
  | nil => rfl
  | cons j schedule ih => rw [run_cons, (h j).step, ih]

/-- The only party that still takes steps has read `a`, and writes in the end. -/
theorem run_last (hother : Stopped f st (!i)) (hread : st.phase i = .read a) (hnew : i ∉ st.writers)
    {schedule : List Bool} (hwrites : i ∈ (run f schedule st).writers) :
    f i a = some (run f schedule st).value := by
  induction schedule with
  | nil => exact absurd hwrites hnew
  | cons j schedule ih =>
    rw [run_cons] at hwrites ⊢
    rcases eq_or_ne j i with rfl | hne
    · cases hf : f j a with
      | none =>
        have hstopped : Stopped f st j := .inr ⟨a, hread, hf⟩
        rw [hstopped.step, hstopped.run] at hwrites
        exact absurd hwrites hnew
      | some b =>
        rw [step_read hread hf]
        have hphase : (!j) ≠ j := by cases j <;> decide
        rw [run_of_stopped]
        intro k
        rcases eq_or_ne k j with rfl | hk
        · exact .inl (Function.update_self ..)
        · obtain rfl := Bool.eq_not.2 hk
          exact hother.of_phase (Function.update_of_ne hphase _ _)
    · obtain rfl := Bool.eq_not.2 hne
      rw [hother.step] at hwrites ⊢
      exact ih hwrites

/-- The only party that still takes steps has not read. -/
theorem run_alone (hother : Stopped f st (!i)) (hidle : st.phase i = .idle) (hnew : i ∉ st.writers)
    {schedule : List Bool} (hwrites : i ∈ (run f schedule st).writers) :
    f i st.value = some (run f schedule st).value := by
  induction schedule with
  | nil => exact absurd hwrites hnew
  | cons j schedule ih =>
    rw [run_cons] at hwrites ⊢
    rcases eq_or_ne j i with rfl | hne
    · have hphase : (!j) ≠ j := by cases j <;> decide
      rw [step_idle hidle] at hwrites ⊢
      refine run_last ?_ (Function.update_self ..) ?_ hwrites
      · exact hother.of_phase (Function.update_of_ne hphase _ _)
      · exact hnew
    · obtain rfl := Bool.eq_not.2 hne
      rw [hother.step] at hwrites ⊢
      exact ih hwrites

end

/-- The party that reads first writes before the other reads. -/
theorem run_ahead {a : α} {i : Bool} {rest : List Bool}
    (hwrites : ∀ k, k ∈ (run f (i :: i :: rest) (init a)).writers) :
    ∃ b, f i a = some b ∧ f (!i) b = some (run f (i :: i :: rest) (init a)).value := by
  have hnot : (!i) ≠ i := by cases i <;> decide
  have hread : Function.update (fun _ => Phase.idle) i (.read a) i = Phase.read a := Function.update_self ..
  rw [run_cons, step_idle (i := i) rfl, run_cons, init] at hwrites ⊢
  cases hf : f i a with
  | none =>
    have hstopped : Stopped f ⟨a, Function.update (fun _ => .idle) i (.read a), []⟩ i := .inr ⟨a, hread, hf⟩
    have hi := hwrites i
    rw [hstopped.step, hstopped.run] at hi
    exact absurd hi List.not_mem_nil
  | some b =>
    refine ⟨b, rfl, ?_⟩
    rw [step_read hread hf] at hwrites ⊢
    refine run_alone ?_ ?_ ?_ (hwrites !i)
    · rw [Bool.not_not]
      exact .inl (Function.update_self ..)
    · simp only [Function.update_of_ne hnot]
    · simp

/-- Both parties read before one of them writes. -/
theorem run_behind {a : α} {i k : Bool} {rest : List Bool}
    (hwrites : ∀ j, j ∈ (run f (i :: (!i) :: k :: rest) (init a)).writers) :
    ∃ b, f k a = some b ∧ f (!k) a = some (run f (i :: (!i) :: k :: rest) (init a)).value := by
  have hnot : ∀ i : Bool, (!i) ≠ i := by decide
  have hidle : (Function.update (fun _ => Phase.idle) i (.read a)) (!i) = Phase.idle :=
    Function.update_of_ne (hnot i) _ _
  have hread : ∀ j, (Function.update (Function.update (fun _ => Phase.idle) i (.read a)) (!i) (.read a)) j =
      Phase.read a := by
    intro j
    rcases eq_or_ne j i with rfl | hj
    · rw [Function.update_of_ne (hnot j).symm, Function.update_self]
    · obtain rfl := Bool.eq_not.2 hj
      rw [Function.update_self]
  rw [run_cons, step_idle (i := i) rfl, run_cons, init, step_idle hidle, run_cons] at hwrites ⊢
  cases hf : f k a with
  | none =>
    have hk := hwrites k
    have hstopped : Stopped f ⟨a, Function.update (Function.update (fun _ => .idle) i (.read a)) (!i) (.read a), []⟩ k :=
      .inr ⟨a, hread k, hf⟩
    rw [hstopped.step, hstopped.run] at hk
    exact absurd hk List.not_mem_nil
  | some b =>
    refine ⟨b, rfl, ?_⟩
    rw [step_read (hread k) hf] at hwrites ⊢
    refine run_last ?_ ?_ ?_ (hwrites !k)
    · rw [Bool.not_not]
      exact .inl (Function.update_self ..)
    · simp only [Function.update_of_ne (hnot k)]
      exact hread (!k)
    · simp

/-- A run in which both parties write: either the second reads what the first has written, or both read
the value at the start, and the party that writes first is overwritten. -/
theorem run_cases {a : α} {schedule : List Bool} (hwrites : ∀ i, i ∈ (run f schedule (init a)).writers) :
    (∃ i rest b, schedule = i :: i :: rest ∧ f i a = some b ∧
      f (!i) b = some (run f schedule (init a)).value) ∨
    ∃ i j rest b, schedule = i :: (!i) :: j :: rest ∧ f j a = some b ∧
      f (!j) a = some (run f schedule (init a)).value := by
  have hnone : ∀ st : State α, st.writers = [] → ¬ ∀ i, i ∈ st.writers := by
    intro st hst h
    exact absurd (hst ▸ h true) List.not_mem_nil
  rcases schedule with _ | ⟨i, _ | ⟨j, rest⟩⟩
  · exact absurd hwrites (hnone _ rfl)
  · exact absurd hwrites (hnone _ rfl)
  rcases eq_or_ne j i with rfl | hne
  · obtain ⟨b, hb, hother⟩ := run_ahead hwrites
    exact .inl ⟨j, rest, b, rfl, hb, hother⟩
  · obtain rfl := Bool.eq_not.2 hne
    rcases rest with _ | ⟨k, rest⟩
    · refine absurd hwrites (hnone _ ?_)
      cases i <;> rfl
    · obtain ⟨b, hb, hother⟩ := run_behind hwrites
      exact .inr ⟨i, k, rest, b, rfl, hb, hother⟩

theorem run_serial {i : Bool} {a b c : α} (hi : f i a = some b) (hother : f (!i) b = some c) :
    (run f [i, i, !i, !i] (init a)).value = c ∧ (run f [i, i, !i, !i] (init a)).writers = [i, !i] := by
  rw [run_cons, step_idle rfl, run_cons, step_read (Function.update_self ..) hi, run_cons, step_idle, run_cons,
    step_read (Function.update_self ..) hother]
  · exact ⟨rfl, rfl⟩
  · simp [init]

theorem run_overlapping {i : Bool} {a b c : α} (hi : f i a = some b) (hother : f (!i) a = some c) :
    (run f [i, !i, i, !i] (init a)).value = c ∧ (run f [i, !i, i, !i] (init a)).writers = [i, !i] := by
  rw [run_cons, step_idle rfl, run_cons, step_idle, run_cons, step_read (a := a) _ hi, run_cons,
    step_read (a := a) _ hother]
  · exact ⟨rfl, rfl⟩
  all_goals simp [init]

end TwoWriters
