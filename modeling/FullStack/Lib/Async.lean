import FullStack.Lib.Machine
import FullStack.Lib.Proc

/-!
# Programs that wait for their calls

A program makes operations `o : O`, performed at once on a store, and calls `c : C` that it awaits. A
`System` runs any number of programs over one store: a program runs until it waits, and goes on when its
call settles, which is when the call takes its effect on the environment. `Tracked` programs change a view
of the store only as the answers of their calls say, and `log_inv` is the induction rule for a system of
them: what every settlement keeps holds of the log, the view and the environment after every run.
-/

namespace Async

variable {O C H Ω ε σ τ α : Type} {RO : O → Type} {RC : C → Type}

abbrev Program (RO : O → Type) (RC : C → Type) (α : Type) := Proc (O ⊕ C) (Sum.elim RO RC) α

def operate (o : O) : Program RO RC (RO o) := .call (.inl o) .ret

def await (c : C) : Program RO RC (RC c) := .call (.inr c) .ret

/-- Performs the operations of a program until it waits or returns. -/
def advance (exec : (o : O) → σ → RO o × σ) : Program RO RC α → σ → Program RO RC α × σ
  | .ret a, s => (.ret a, s)
  | .call (.inl o) k, s => advance exec (k (exec o s).1) (exec o s).2
  | .call (.inr c) k, s => (.call (.inr c) k, s)

structure System (ε σ : Type) (RO : O → Type) (RC : C → Type) (α : Type) where
  env : ε
  store : σ
  tasks : List (Program RO RC α)

/-- A handler is started, or the call that a task waits for settles. -/
inductive Event (H Ω : Type) where
  | start (h : H)
  | settle (task : Nat) (outcome : Ω)

structure Settled (C Ω ε : Type) where
  call : C
  outcome : Ω
  env : ε

section
variable (exec : (o : O) → σ → RO o × σ) (answer : (c : C) → Ω → ε → RC c × ε)
  (program : H → Program RO RC α)

def step : Event H Ω → System ε σ RO RC α → Option (Settled C Ω ε) × System ε σ RO RC α
  | .start h, s =>
    let (p, store) := advance exec (program h) s.store
    (none, { s with store := store, tasks := s.tasks ++ [p] })
  | .settle i outcome, s =>
    match s.tasks[i]? with
    | some (.call (.inr c) k) =>
      let (reply, env) := answer c outcome s.env
      let (p, store) := advance exec (k reply) s.store
      (some ⟨c, outcome, s.env⟩, ⟨env, store, s.tasks.set i p⟩)
    | _ => (none, s)

def after (events : List (Event H Ω)) (s : System ε σ RO RC α) : System ε σ RO RC α :=
  Machine.after (step exec answer program) events s

def log (events : List (Event H Ω)) (s : System ε σ RO RC α) : List (Settled C Ω ε) :=
  (Machine.runAll (step exec answer program) events s).1.filterMap Prod.snd

/-- The program waits for `c`, and returns once it has settled. -/
def CallsOnce (c : C) (p : Program RO RC α) : Prop :=
  ∃ k, p = .call (.inr c) k ∧ ∀ r s, ∃ a, (advance exec (k r) s).1 = .ret a

def System.Idle (s : System ε σ RO RC α) : Prop := ∀ p ∈ s.tasks, ∃ a, p = .ret a

theorem step_settle {s : System ε σ RO RC α} {i : Nat} {c : C} {k : RC c → Program RO RC α}
    (h : s.tasks[i]? = some (.call (.inr c) k)) (outcome : Ω) :
    step exec answer program (.settle i outcome) s =
      (some ⟨c, outcome, s.env⟩, ⟨(answer c outcome s.env).2,
        (advance exec (k (answer c outcome s.env).1) s.store).2,
        s.tasks.set i (advance exec (k (answer c outcome s.env).1) s.store).1⟩) := by
  rw [step, h]

theorem step_cases (event : Event H Ω) (s : System ε σ RO RC α) :
    (∃ h, event = .start h ∧ step exec answer program event s =
      (none, ⟨s.env, (advance exec (program h) s.store).2,
        s.tasks ++ [(advance exec (program h) s.store).1]⟩)) ∨
    (∃ i outcome c k, event = .settle i outcome ∧ s.tasks[i]? = some (.call (.inr c) k) ∧
      step exec answer program event s =
        (some ⟨c, outcome, s.env⟩, ⟨(answer c outcome s.env).2,
          (advance exec (k (answer c outcome s.env).1) s.store).2,
          s.tasks.set i (advance exec (k (answer c outcome s.env).1) s.store).1⟩)) ∨
    step exec answer program event s = (none, s) := by
  cases event with
  | start h => exact .inl ⟨h, rfl, rfl⟩
  | settle i outcome =>
    cases hi : s.tasks[i]? with
    | none => exact .inr (.inr (by rw [step, hi]))
    | some p =>
      cases p with
      | ret a => exact .inr (.inr (by rw [step, hi]))
      | call c k =>
        cases c with
        | inl o => exact .inr (.inr (by rw [step, hi]))
        | inr c => exact .inr (.inl ⟨i, outcome, c, k, rfl, hi, step_settle exec answer program hi outcome⟩)

@[simp] theorem after_nil (s : System ε σ RO RC α) : after exec answer program [] s = s := rfl

@[simp] theorem log_nil (s : System ε σ RO RC α) : log exec answer program [] s = [] := rfl

theorem after_concat (events : List (Event H Ω)) (event : Event H Ω) (s : System ε σ RO RC α) :
    after exec answer program (events ++ [event]) s =
      (step exec answer program event (after exec answer program events s)).2 :=
  Machine.after_concat events event s

theorem log_concat (events : List (Event H Ω)) (event : Event H Ω) (s : System ε σ RO RC α) :
    log exec answer program (events ++ [event]) s = log exec answer program events s ++
      (step exec answer program event (after exec answer program events s)).1.toList := by
  have hone : ∀ o : Option (Settled C Ω ε), [(event, o)].filterMap Prod.snd = o.toList := by
    intro o
    cases o <;> rfl
  rw [log, Machine.runAll_concat, List.filterMap_append, hone]
  rfl

variable (view : σ → τ) (effect : (c : C) → RC c → τ → τ)

/-- Each stretch of the program from a settled call to the next changes the view by the call's effect. -/
inductive Tracked : Program RO RC α → Prop
  | ret (a : α) : Tracked (.ret a)
  | call (c : C) (k : RC c → Program RO RC α)
    (hview : ∀ r s, view (advance exec (k r) s).2 = effect c r (view s))
    (hnext : ∀ r s, Tracked (advance exec (k r) s).1) : Tracked (.call (.inr c) k)

theorem Tracked.last (c : C) {k : RC c → Program RO RC α}
    (h : ∀ r s, view (advance exec (k r) s).2 = effect c r (view s) ∧ ∃ a, (advance exec (k r) s).1 = .ret a) :
    Tracked exec view effect (.call (.inr c) k) := by
  refine .call c k (fun r s => (h r s).1) (fun r s => ?_)
  obtain ⟨a, ha⟩ := (h r s).2
  rw [ha]
  exact .ret a

/-- Until it first waits, the program leaves the view alone, and it is tracked from there. -/
def Starts (p : Program RO RC α) : Prop :=
  ∀ s, view (advance exec p s).2 = view s ∧ Tracked exec view effect (advance exec p s).1

variable {exec answer program view effect}

theorem tracked_step (hprogram : ∀ h, Starts exec view effect (program h)) (event : Event H Ω)
    {s : System ε σ RO RC α} (hs : ∀ p ∈ s.tasks, Tracked exec view effect p) :
    ∀ p ∈ (step exec answer program event s).2.tasks, Tracked exec view effect p := by
  intro p hp
  rcases step_cases exec answer program event s with
    ⟨h, -, hstep⟩ | ⟨i, outcome, c, k, -, hi, hstep⟩ | hstep
  · rw [hstep] at hp
    rcases List.mem_append.1 hp with hp | hp
    · exact hs p hp
    · rw [List.mem_singleton.1 hp]
      exact (hprogram h s.store).2
  · rw [hstep] at hp
    rcases List.mem_or_eq_of_mem_set hp with hp | rfl
    · exact hs p hp
    · cases hs _ (List.mem_of_getElem? hi) with
      | call _ _ _ hnext => exact hnext _ _
  · rw [hstep] at hp
    exact hs p hp

/-- What a step does to the log, the view and the environment. -/
theorem view_step (hprogram : ∀ h, Starts exec view effect (program h)) (event : Event H Ω)
    {s : System ε σ RO RC α} (hs : ∀ p ∈ s.tasks, Tracked exec view effect p) :
    ((step exec answer program event s).1 = none ∧
      view (step exec answer program event s).2.store = view s.store ∧
      (step exec answer program event s).2.env = s.env) ∨
    ∃ c outcome, (step exec answer program event s).1 = some ⟨c, outcome, s.env⟩ ∧
      view (step exec answer program event s).2.store =
        effect c (answer c outcome s.env).1 (view s.store) ∧
      (step exec answer program event s).2.env = (answer c outcome s.env).2 := by
  rcases step_cases exec answer program event s with
    ⟨h, -, hstep⟩ | ⟨i, outcome, c, k, -, hi, hstep⟩ | hstep
  · rw [hstep]
    exact .inl ⟨rfl, (hprogram h s.store).1, rfl⟩
  · rw [hstep]
    cases hs _ (List.mem_of_getElem? hi) with
    | call _ _ hview _ => exact .inr ⟨c, outcome, rfl, hview _ _, rfl⟩
  · rw [hstep]
    exact .inl ⟨rfl, rfl, rfl⟩

theorem tracked_after (hprogram : ∀ h, Starts exec view effect (program h)) (events : List (Event H Ω))
    {s : System ε σ RO RC α} (hs : ∀ p ∈ s.tasks, Tracked exec view effect p) :
    ∀ p ∈ (after exec answer program events s).tasks, Tracked exec view effect p := by
  induction events using List.reverseRecOn with
  | nil => exact hs
  | append_singleton events event ih =>
    rw [after_concat]
    exact tracked_step hprogram event ih

/-- The induction rule: what every settlement keeps of the log, the view and the environment, every run keeps. -/
theorem log_inv (hprogram : ∀ h, Starts exec view effect (program h)) {s : System ε σ RO RC α}
    (hs : ∀ p ∈ s.tasks, Tracked exec view effect p) (I : List (Settled C Ω ε) → τ → ε → Prop)
    (h0 : I [] (view s.store) s.env)
    (hI : ∀ l v e c outcome, I l v e →
      I (l ++ [⟨c, outcome, e⟩]) (effect c (answer c outcome e).1 v) (answer c outcome e).2)
    (events : List (Event H Ω)) :
    I (log exec answer program events s) (view (after exec answer program events s).store)
      (after exec answer program events s).env := by
  induction events using List.reverseRecOn with
  | nil => exact h0
  | append_singleton events event ih =>
    rw [log_concat, after_concat]
    rcases view_step hprogram event (tracked_after hprogram events hs) with
      ⟨hnone, hview, henv⟩ | ⟨c, outcome, hsome, hview, henv⟩
    · rw [hnone, hview, henv, Option.toList_none, List.append_nil]
      exact ih
    · rw [hsome, hview, henv]
      exact hI _ _ _ c outcome ih

end

end Async
