import FullStack.Alarm
import FullStack.Lib.ReadModifyWrite

/-!
# Several stacks on one alarm

Each deployed stack runs the set-up handler for its own topic, and nothing keeps a run from reading the
alarm between another's read and put. `Stacks` interleaves the runs call by call; it refines an
unsynchronised read-modify-write of the alarm (`Sim.step`), so the actions at the end are those of the
surviving puts, and the other puts are lost (`subscriptions_iff`). Nothing is lost while no run puts the
alarm between another's read and put (`noneLost_of_serial`).
-/

namespace FullStack

namespace ModifyAlarm

open ReadModifyWrite (Phase survivors forall_update)

/-- A run of the handler for one stack. The stacks share the alarm, not the topic. -/
structure Stack where
  snsTopic : String
  awsRegion : String
  event : Event
  context : Context
  response : Except CallError Nat

def Stack.env (alarmName : String) (stack : Stack) : Env := ⟨alarmName, stack.snsTopic, stack.awsRegion⟩

def Stack.requestType (stack : Stack) : RequestType := stack.event.requestType

def Stack.put (stack : Stack) (alarm : MetricAlarm) : MetricAlarm :=
  (putParams (stack.env alarm.alarmName) stack.requestType alarm).alarm

variable {ι : Type}

def Stack.actions (stack : Stack) (actions : List String) : List String :=
  newActions stack.snsTopic stack.requestType actions

def Stack.Served (stack : Stack) (actions : List String) : Prop :=
  (stack.requestType = .create → stack.snsTopic ∈ actions) ∧ (stack.requestType = .delete → stack.snsTopic ∉ actions)

/-- No subscription is lost: every stack is served, and the actions of no stack are kept. -/
structure NoneLost (deployed : ι → Stack) (before after : List String) : Prop where
  served : ∀ i, (deployed i).Served after
  others : ∀ item ∈ before, (∀ i, item ≠ (deployed i).snsTopic) → item ∈ after

theorem mem_actions_of_ne {stack : Stack} {item : String} (h : item ≠ stack.snsTopic) (actions : List String) :
    item ∈ stack.actions actions ↔ item ∈ actions := by
  rw [Stack.actions, newActions]
  split_ifs <;> simp [h]

theorem served_actions (stack : Stack) (actions : List String) : stack.Served (stack.actions actions) := by
  constructor
  · intro h
    simp [Stack.actions, newActions, h]
  · intro h
    simp [Stack.actions, newActions, h]

section
variable {deployed : ι → Stack} (hinj : Function.Injective fun i => (deployed i).snsTopic)

include hinj in
theorem served_foldl (l : List ι) (actions : List String) (i : ι) :
    (deployed i).Served (l.foldl (fun actions j => (deployed j).actions actions) actions) ↔
      i ∈ l ∨ (deployed i).Served actions := by
  induction l using List.reverseRecOn with
  | nil => simp
  | append_singleton l j ih =>
    rw [List.foldl_append, List.foldl_cons, List.foldl_nil]
    rcases eq_or_ne i j with rfl | hne
    · exact iff_of_true (served_actions _ _) (.inl (by simp))
    · rw [Stack.Served, mem_actions_of_ne (hinj.ne hne), ← Stack.Served, ih]
      simp [hne]

theorem others_foldl (l : List ι) (actions : List String) {item : String} (h : ∀ i, item ≠ (deployed i).snsTopic) :
    item ∈ l.foldl (fun actions j => (deployed j).actions actions) actions ↔ item ∈ actions := by
  induction l generalizing actions with
  | nil => rfl
  | cons j l ih => rw [List.foldl_cons, ih, mem_actions_of_ne (h j)]

end

structure Stacks (ι : Type) where
  alarm : MetricAlarm
  runs : ι → Program Unit

def Stacks.init (deployed : ι → Stack) (alarm : MetricAlarm) : Stacks ι where
  alarm := alarm
  runs i := handler ((deployed i).env alarm.alarmName) (deployed i).event (deployed i).context

variable [DecidableEq ι]

def Stacks.step (deployed : ι → Stack) (st : Stacks ι) (i : ι) : Stacks ι :=
  match st.runs i with
  | .ret _ => st
  | .call c k =>
    let (r, alarm) := execAlarm (deployed i).response c st.alarm
    ⟨alarm, Function.update st.runs i (k r)⟩

def Stacks.run (deployed : ι → Stack) (schedule : List ι) (st : Stacks ι) : Stacks ι :=
  schedule.foldl (Stacks.step deployed) st

/-- Where a run is, by what it has done to the alarm. -/
inductive RunAt (alarmName : String) (stack : Stack) : Phase MetricAlarm → Program Unit → Prop
  | idle : RunAt alarmName stack .idle (handler (stack.env alarmName) stack.event stack.context)
  | read (a : MetricAlarm) (rest : List MetricAlarm) (ha : a.alarmName = alarmName) :
      RunAt alarmName stack (.read a) (afterDescribe (stack.env alarmName) stack.event stack.context (a :: rest))
  | written {p : Program Unit} (hp : p.All fun c => ¬ c.isPut) : RunAt alarmName stack .written p

structure Sim (alarmName : String) (deployed : ι → Stack) (st : Stacks ι)
    (ast : ReadModifyWrite.State ι MetricAlarm) : Prop where
  alarm : st.alarm = ast.value
  name : st.alarm.alarmName = alarmName
  runs : ∀ i, RunAt alarmName (deployed i) (ast.phase i) (st.runs i)

theorem Sim.step {alarmName : String} {deployed : ι → Stack} {st : Stacks ι}
    {ast : ReadModifyWrite.State ι MetricAlarm} (h : Sim alarmName deployed st ast) (i : ι) :
    Sim alarmName deployed (st.step deployed i) (ReadModifyWrite.step (fun i a => (deployed i).put a) ast i) := by
  have hi := h.runs i
  rw [Stacks.step, ReadModifyWrite.step]
  generalize hphase : ast.phase i = phase at hi
  generalize hrun : st.runs i = p at hi
  cases hi with
  | idle =>
    rw [handler_eq]
    simp only [execAlarm, Stack.env, h.name, List.mem_singleton, if_true]
    rw [h.alarm]
    exact ⟨rfl, h.alarm ▸ h.name, forall_update h.runs i (.read ast.value [] (h.alarm ▸ h.name))⟩
  | read a rest ha =>
    have hname : (putParams ((deployed i).env alarmName) (deployed i).event.requestType a).alarmName =
        st.alarm.alarmName := ha.trans h.name.symm
    simp only [afterDescribe, execAlarm, if_pos hname]
    exact ⟨rfl, ha, forall_update h.runs i (.written (afterPut_noPut ..))⟩
  | written hp =>
    cases hp with
    | ret _ => exact h
    | @call c k hc hk =>
      -- the alarm is no longer touched
      have halarm := execAlarm_noPut (deployed i).response hc st.alarm
      refine ⟨halarm.trans h.alarm, (congrArg _ halarm).trans h.name, fun j => ?_⟩
      have hk' : RunAt alarmName (deployed i) (ast.phase i) (k (execAlarm (deployed i).response c st.alarm).1) :=
        hphase ▸ .written (hk _)
      have hj := forall_update h.runs i hk' j
      rwa [Function.update_eq_self] at hj

theorem sim_run (deployed : ι → Stack) (alarm : MetricAlarm) (schedule : List ι) :
    Sim alarm.alarmName deployed (Stacks.run deployed schedule (.init deployed alarm))
      (ReadModifyWrite.run (fun i a => (deployed i).put a) schedule (ReadModifyWrite.init alarm)) :=
  List.foldl_rel (r := Sim alarm.alarmName deployed) ⟨rfl, rfl, fun _ => .idle⟩ fun i _ _ _ h => h.step i

def finalActions (deployed : ι → Stack) (schedule : List ι) (alarm : MetricAlarm) : List String :=
  (Stacks.run deployed schedule (.init deployed alarm)).alarm.alarmActions

theorem finalActions_eq (deployed : ι → Stack) (schedule : List ι) (alarm : MetricAlarm) :
    finalActions deployed schedule alarm =
      (survivors schedule).foldl (fun actions i => (deployed i).actions actions) alarm.alarmActions := by
  rw [finalActions, (sim_run deployed alarm schedule).alarm, ReadModifyWrite.run_value]
  generalize survivors schedule = l
  induction l generalizing alarm with
  | nil => rfl
  | cons i l ih => exact ih ((deployed i).put alarm)

section
variable {deployed : ι → Stack} (hinj : Function.Injective fun i => (deployed i).snsTopic) {schedule : List ι}
  {alarm : MetricAlarm}

include hinj in
theorem noneLost_of_served (h : ∀ i, i ∉ survivors schedule → (deployed i).Served alarm.alarmActions) :
    NoneLost deployed alarm.alarmActions (finalActions deployed schedule alarm) := by
  rw [finalActions_eq]
  refine ⟨fun i => (served_foldl hinj _ _ i).2 ?_, fun item hitem hother => (others_foldl _ _ hother).2 hitem⟩
  by_cases hi : i ∈ survivors schedule
  exacts [.inl hi, .inr (h i hi)]

include hinj in
/-- Nothing is lost if no stack puts the alarm between another's read and put. -/
theorem noneLost_of_serial (hserial : ReadModifyWrite.Serial schedule) (hdone : ∀ i, 2 ≤ schedule.count i) :
    NoneLost deployed alarm.alarmActions (finalActions deployed schedule alarm) := by
  refine noneLost_of_served hinj fun i hi => absurd ?_ hi
  exact ReadModifyWrite.mem_survivors_of_serial hserial (ReadModifyWrite.written_of_two_le_count _ (hdone i) _)

include hinj in
/-- No subscription is lost exactly when every stack whose put is lost had nothing to change. -/
theorem subscriptions_iff : NoneLost deployed alarm.alarmActions (finalActions deployed schedule alarm) ↔
    ∀ i, i ∉ survivors schedule → (deployed i).Served alarm.alarmActions := by
  refine ⟨fun h i hi => ?_, noneLost_of_served hinj⟩
  have hserved := h.served i
  rw [finalActions_eq, served_foldl hinj] at hserved
  exact hserved.resolve_left hi

end

def twoStacks (i : Bool) : Stack where
  snsTopic := if i then "topic 1" else "topic 0"
  awsRegion := "us-east-1"
  event := ⟨.create, ⟨"cloudformation", "/response"⟩, "stack", "request", "resource"⟩
  context := ⟨"log", "now"⟩
  response := .ok 200

/-- One run after the other: five calls each. -/
theorem noneLost_serial : NoneLost twoStacks plainAlarm.alarmActions
    (finalActions twoStacks (List.replicate 5 false ++ List.replicate 5 true) plainAlarm) := by
  refine (subscriptions_iff fun i j h => ?_).2 fun i hi => absurd ?_ hi
  · cases i <;> cases j <;> first | rfl | exact absurd h (by decide)
  · cases i <;> decide

/-- Both runs read the alarm before either puts it: the first topic is lost. -/
theorem not_noneLost_interleaved : ¬ NoneLost twoStacks plainAlarm.alarmActions
    (finalActions twoStacks [false, true, false, true, false, false, false, true, true, true] plainAlarm) := by
  intro h
  have hactions : finalActions twoStacks [false, true, false, true, false, false, false, true, true, true] plainAlarm =
      ["topic 1"] := by
    rw [finalActions_eq]
    decide
  have hserved := (h.served false).1 rfl
  rw [hactions] at hserved
  exact absurd hserved (by decide)

end ModifyAlarm

end FullStack
