import Mathlib.Data.List.Induction
import Mathlib.Logic.Function.Basic

/-!
# Unsynchronised read-modify-write

Parties `ι` share a value. Each reads it once and later overwrites it with `f i` of what it read; a
schedule says whose step comes next. An overwritten value takes with it the writes that led to it, so
the value at the end is `f` folded over the writes on the chain of reads that leads to the last write:
the `survivors` of the schedule (`run_value`). In a `Serial` schedule every write survives
(`mem_survivors_of_serial`).
-/

namespace ReadModifyWrite

variable {ι α β : Type} [DecidableEq ι]

inductive Phase (α : Type) where
  | idle
  | read (a : α)
  | written

structure State (ι α : Type) where
  value : α
  phase : ι → Phase α

def init (a : α) : State ι α := ⟨a, fun _ => .idle⟩

/-- The next step of `i`: a read, then a write, then nothing. -/
def step (f : ι → α → α) (st : State ι α) (i : ι) : State ι α :=
  match st.phase i with
  | .idle => { st with phase := Function.update st.phase i (.read st.value) }
  | .read a => ⟨f i a, Function.update st.phase i .written⟩
  | .written => st

def run (f : ι → α → α) (schedule : List ι) (st : State ι α) : State ι α := schedule.foldl (step f) st

/-- The parties whose writes the value at the end comes from, in order. -/
def survivors (schedule : List ι) : List ι := (run (fun i l => l ++ [i]) schedule (init [])).value

theorem forall_update {R : ι → Phase α → β → Prop} {phase : ι → Phase α} {runs : ι → β}
    (h : ∀ i, R i (phase i) (runs i)) (i : ι) {p : Phase α} {b : β} (hi : R i p b) :
    ∀ j, R j (Function.update phase i p j) (Function.update runs i b j) := by
  intro j
  rcases eq_or_ne j i with rfl | hne
  · rwa [Function.update_self, Function.update_self]
  · rw [Function.update_of_ne hne, Function.update_of_ne hne]
    exact h j

def Phase.map (φ : α → β) : Phase α → Phase β
  | .idle => .idle
  | .read a => .read (φ a)
  | .written => .written

def State.map (φ : α → β) (st : State ι α) : State ι β := ⟨φ st.value, fun i => (st.phase i).map φ⟩

theorem map_update (φ : α → β) (phase : ι → Phase α) (i : ι) (p : Phase α) :
    (fun j => (Function.update phase i p j).map φ) = Function.update (fun j => (phase j).map φ) i (p.map φ) := by
  funext j
  rcases eq_or_ne j i with rfl | hne
  · rw [Function.update_self, Function.update_self]
  · rw [Function.update_of_ne hne, Function.update_of_ne hne]

theorem step_map (φ : α → β) (f : ι → α → α) (g : ι → β → β) (h : ∀ i a, φ (f i a) = g i (φ a))
    (st : State ι α) (i : ι) : (step f st i).map φ = step g (st.map φ) i := by
  have hphase : (st.map φ).phase i = (st.phase i).map φ := rfl
  rw [step, step, hphase]
  cases st.phase i with
  | idle => exact congrArg (State.mk _) (map_update φ st.phase i _)
  | read a => exact congrArg₂ State.mk (h i a) (map_update φ st.phase i _)
  | written => rfl

theorem run_map (φ : α → β) (f : ι → α → α) (g : ι → β → β) (h : ∀ i a, φ (f i a) = g i (φ a))
    (schedule : List ι) (st : State ι α) : (run f schedule st).map φ = run g schedule (st.map φ) := by
  induction schedule generalizing st with
  | nil => rfl
  | cons i schedule ih =>
    rw [run, run, List.foldl_cons, List.foldl_cons, ← step_map φ f g h]
    exact ih _

/-- The value at the end is `f` folded over the survivors. -/
theorem run_value (f : ι → α → α) (schedule : List ι) (a : α) :
    (run f schedule (init a)).value = (survivors schedule).foldl (fun v i => f i v) a := by
  have h := run_map (fun l : List ι => l.foldl (fun v i => f i v) a) (fun i l => l ++ [i]) f
    (fun i l => by rw [List.foldl_append]; rfl) schedule (init [])
  exact (congrArg State.value h).symm

theorem run_concat (f : ι → α → α) (schedule : List ι) (i : ι) (st : State ι α) :
    run f (schedule ++ [i]) st = step f (run f schedule st) i := List.foldl_append ..

def Phase.steps : Phase α → Nat
  | .idle => 0
  | .read _ => 1
  | .written => 2

theorem steps_run (f : ι → α → α) (schedule : List ι) (a : α) (i : ι) :
    ((run f schedule (init a)).phase i).steps = min (schedule.count i) 2 := by
  induction schedule using List.reverseRecOn with
  | nil => rfl
  | append_singleton schedule j ih =>
    rw [run_concat, step, List.count_append]
    rcases eq_or_ne i j with rfl | hne
    · rw [List.count_singleton_self]
      cases hp : (run f schedule (init a)).phase i with
      | idle =>
        rw [hp, Phase.steps] at ih
        simp only [Function.update_self, Phase.steps]
        omega
      | read b =>
        rw [hp, Phase.steps] at ih
        simp only [Function.update_self, Phase.steps]
        omega
      | written =>
        rw [hp, Phase.steps] at ih
        simp only [hp, Phase.steps]
        omega
    · rw [List.count_singleton, if_neg (by simpa using hne.symm), Nat.add_zero, ← ih]
      cases (run f schedule (init a)).phase j with
      | idle => simp only [Function.update_of_ne hne]
      | read b => simp only [Function.update_of_ne hne]
      | written => rfl

theorem written_of_two_le_count (f : ι → α → α) {schedule : List ι} {i : ι} (h : 2 ≤ schedule.count i) (a : α) :
    (run f schedule (init a)).phase i = .written := by
  have hsteps := steps_run f schedule a i
  rw [Nat.min_eq_right h] at hsteps
  cases hp : (run f schedule (init a)).phase i with
  | written => rfl
  | idle => simp [hp, Phase.steps] at hsteps
  | read b => simp [hp, Phase.steps] at hsteps

/-- No party writes between another's read and write: what a party overwrites is what it has read. -/
def Serial (schedule : List ι) : Prop :=
  ∀ before i l, before ++ [i] <+: schedule →
    (run (fun i l => l ++ [i]) before (init [])).phase i = .read l → survivors before = l

theorem Serial.of_prefix {p schedule : List ι} (h : Serial schedule) (hp : p <+: schedule) : Serial p :=
  fun before i l hbefore => h before i l (hbefore.trans hp)

theorem mem_survivors_of_serial {schedule : List ι} (h : Serial schedule) {i : ι}
    (hi : (run (fun i l => l ++ [i]) schedule (init [])).phase i = .written) : i ∈ survivors schedule := by
  induction schedule using List.reverseRecOn with
  | nil => cases hi
  | append_singleton schedule j ih =>
    have hj := h schedule j
    specialize ih (h.of_prefix (List.prefix_append _ _))
    rw [run_concat, step] at hi
    rw [survivors, run_concat, step]
    rw [survivors] at ih hj
    generalize run (fun i l => l ++ [i]) schedule (init []) = st at hi hj ih ⊢
    cases hp : st.phase j with
    | idle =>
      rw [hp] at hi
      refine ih ?_
      rcases eq_or_ne i j with rfl | hne
      · simp only [Function.update_self, reduceCtorEq] at hi
      · simp only [Function.update_of_ne hne] at hi
        exact hi
    | read l =>
      -- the write appends to the value it overwrites
      obtain rfl := hj l List.prefix_rfl hp
      rw [hp] at hi
      rcases eq_or_ne i j with rfl | hne
      · simp
      · simp only [Function.update_of_ne hne] at hi
        exact List.mem_append_left _ (ih hi)
    | written =>
      rw [hp] at hi
      exact ih hi

end ReadModifyWrite
