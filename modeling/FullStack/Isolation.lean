import FullStack.GoalsApi

/-!
# Tenant isolation of the goals API

Every DynamoDB call of a handler is keyed by the caller's identity (`OwnCall`, `handler_own`). Such a
call reads and writes the caller's partition only (`exec_partition`, `exec_partition_of_ne`), so a
user cannot tell a history from the one with the other users' invocations deleted (`run_isolated`).
-/

namespace FullStack

def OwnRequest (u : String) : Request → Prop
  | .put item => item.userId = u
  | .get k => k.userId = u
  | .query c values => placeholder c.2 values = some (.str u)
  | .update k _ _ => k.userId = u
  | .delete k => k.userId = u

def OwnCall (u : String) : Call → Prop
  | .dynamoDb r => OwnRequest u r
  | .callback _ => True

theorem dbProgram_own {u : String} {r : Request} (h : OwnRequest u r) (reply : r.Answer → Response) :
    (dbProgram r reply).All (OwnCall u) :=
  .call (c := Call.dynamoDb r) h fun _ => .call trivial fun _ => .ret _

theorem Invocation.handler_own (i : Invocation) : i.handler.run.All (OwnCall i.user) := by
  obtain ⟨fn, event, context, outcome⟩ := i
  cases fn with
  | createGoal =>
    rw [Invocation.handler, GoalFunction.handler, CreateGoal.handler_eq]
    cases bodyFields event.body
    exacts [.ret _, dbProgram_own (by rfl) _]
  | updateGoal =>
    rw [Invocation.handler, GoalFunction.handler, UpdateGoal.handler_eq]
    cases bodyFields event.body
    exacts [.ret _, dbProgram_own (by rfl) _]
  | getGoal =>
    rw [Invocation.handler, GoalFunction.handler, GetGoal.handler_eq]
    exact dbProgram_own (by rfl) _
  | listGoals =>
    rw [Invocation.handler, GoalFunction.handler, ListGoals.handler_eq]
    exact dbProgram_own (by rfl) _
  | deleteGoal =>
    rw [Invocation.handler, GoalFunction.handler, DeleteGoal.handler_eq]
    exact dbProgram_own (by rfl) _

section
variable {t : Table} {u : String} {k : Key}

theorem find?_partition (h : k.userId = u) : (userPartition t u).find? k = t.find? k := by
  rw [userPartition, SortedMap.find?_filter, if_pos (by simpa using h)]

theorem partition_partition : userPartition (userPartition t u) u = userPartition t u := by
  refine SortedMap.ext_find? fun k => ?_
  by_cases h : k.userId = u
  · exact find?_partition h
  · simp [userPartition, SortedMap.find?_filter, h]

theorem insert_partition (h : k.userId = u) (a : Attributes) :
    userPartition (t.insert k a) u = (userPartition t u).insert k a := by
  rw [userPartition, SortedMap.filter_insert, if_pos (by simpa using h)]
  rfl

theorem insert_partition_of_ne (h : k.userId ≠ u) (a : Attributes) :
    userPartition (t.insert k a) u = userPartition t u := by
  rw [userPartition, SortedMap.filter_insert, if_neg (by simpa using h)]
  rfl

theorem erase_partition (h : k.userId = u) : userPartition (t.erase k) u = (userPartition t u).erase k := by
  rw [userPartition, SortedMap.filter_erase, if_pos (by simpa using h)]
  rfl

theorem erase_partition_of_ne (h : k.userId ≠ u) : userPartition (t.erase k) u = userPartition t u := by
  rw [userPartition, SortedMap.filter_erase, if_neg (by simpa using h)]
  rfl

end

/-- The partition of `u` determines what a call of `u` answers and does to it. -/
theorem exec_partition {u : String} {r : Request} (h : OwnRequest u r) (outcome : Option AwsError) (t : Table) :
    exec outcome r (userPartition t u) = ((exec outcome r t).1, userPartition (exec outcome r t).2 u) := by
  cases r with
  | put item => cases outcome <;> simp [exec, insert_partition (show Key.userId ⟨_, _⟩ = u from h)]
  | get k => cases outcome <;> simp [exec, find?_partition h]
  | query c values =>
    obtain ⟨name, ph⟩ := c
    have hph : placeholder ph values = some (.str u) := h
    cases outcome with
    | some e => simp [exec]
    | none =>
      simp only [exec, hph, queryOutput, partition_partition]
      split_ifs <;> rfl
  | update k set values =>
    cases outcome with
    | some e => simp [exec]
    | none =>
      cases ha : assignments set values with
      | none => simp [exec, ha]
      | some sets => simp [exec, ha, insert_partition h, find?_partition h]
  | delete k => cases outcome <;> simp [exec, erase_partition h]

/-- A call of another user leaves the partition alone. -/
theorem exec_partition_of_ne {u u' : String} (hne : u' ≠ u) {r : Request} (h : OwnRequest u' r)
    (outcome : Option AwsError) (t : Table) : userPartition (exec outcome r t).2 u = userPartition t u := by
  cases r with
  | put item =>
    cases outcome with
    | some e => rfl
    | none => exact insert_partition_of_ne (show Key.userId ⟨_, _⟩ ≠ u from h ▸ hne) _
  | get k => cases outcome <;> rfl
  | query c values =>
    obtain ⟨name, ph⟩ := c
    have hph : placeholder ph values = some (.str u') := h
    cases outcome with
    | some e => rfl
    | none =>
      simp only [exec, hph]
      split_ifs <;> rfl
  | update k set values =>
    cases outcome with
    | some e => rfl
    | none =>
      cases ha : assignments set values with
      | none => simp only [exec, ha]
      | some sets =>
        simp only [exec, ha]
        exact insert_partition_of_ne (h ▸ hne) _
  | delete k =>
    cases outcome with
    | some e => rfl
    | none => exact erase_partition_of_ne (h ▸ hne)

theorem invoke_partition (i : Invocation) (t : Table) :
    invoke i (userPartition t i.user) = ((invoke i t).1, userPartition (invoke i t).2 i.user) := by
  let view := fun s : Table × List Response => (userPartition s.1 i.user, s.2)
  have hcall : ∀ c, OwnCall i.user c → ∀ s, execCall i.outcome c (view s) =
      ((execCall i.outcome c s).1, view (execCall i.outcome c s).2) := by
    intro c hc s
    cases c with
    | dynamoDb r => simp only [view, execCall, exec_partition hc]
    | callback response => rfl
  have hrun := i.handler_own.run_view (execCall i.outcome) (execCall i.outcome) view hcall (t, [])
  simp only [view] at hrun
  simp only [invoke, hrun]

theorem invoke_partition_of_ne {i : Invocation} {u : String} (hne : i.user ≠ u) (t : Table) :
    userPartition (invoke i t).2 u = userPartition t u := by
  have hcall : ∀ c, OwnCall i.user c → ∀ s : Table × List Response, userPartition s.1 u = userPartition t u →
      userPartition (execCall i.outcome c s).2.1 u = userPartition t u := by
    intro c hc s hs
    cases c with
    | dynamoDb r => exact (exec_partition_of_ne hne hc _ _).trans hs
    | callback response => exact hs
  exact i.handler_own.run_inv (execCall i.outcome) (fun s => userPartition s.1 u = userPartition t u) hcall (t, []) rfl

/-- Deleting the other users' invocations from a history changes neither what `u` is answered nor
what is stored under `u`. -/
theorem run_isolated (t : Table) (h : List Invocation) (u : String) :
    (runAll h t).1.filter (fun e => e.1.user = u) = (runAll (h.filter fun i => i.user = u) t).1 ∧
      userPartition (tableAfter h t) u = userPartition (tableAfter (h.filter fun i => i.user = u) t) u := by
  have hown : ∀ i : Invocation, decide (i.user = u) = true → ∀ s s', userPartition s u = userPartition s' u →
      (invoke i s).1 = (invoke i s').1 ∧ userPartition (invoke i s).2 u = userPartition (invoke i s').2 u := by
    intro i hi s s' hview
    obtain rfl : i.user = u := of_decide_eq_true hi
    have hs := invoke_partition i s
    have hs' := invoke_partition i s'
    rw [hview, hs', Prod.mk.injEq] at hs
    exact ⟨hs.1.symm, hs.2.symm⟩
  have hother : ∀ i : Invocation, decide (i.user = u) = false → ∀ s,
      userPartition (invoke i s).2 u = userPartition s u := by
    intro i hi s
    exact invoke_partition_of_ne (of_decide_eq_false hi) s
  exact Machine.runAll_purge (fun i : Invocation => decide (i.user = u)) (fun t => userPartition t u) hown hother
    h t t rfl

end FullStack
