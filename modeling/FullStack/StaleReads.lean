import FullStack.Isolation
import FullStack.Lib.Replica

/-!
# The goals API on lagging replicas

No handler sets `ConsistentRead`, so a GetItem or a Query may be answered by a replica of the table that has yet
to apply the last writes, of any user. `serve` runs the same handlers against such a table. What a user is
answered is then still explained by that user's own invocations: it is the answer after some prefix of them, from
which no more of the user's writes are missing than the replica lags behind (`answers_explained`). What is stored
does not depend on what the reads saw.
-/

namespace FullStack

namespace StaleReads

open Replica

/-- A request that changes the table; the others read it. -/
def isWrite : Request → Bool
  | .put _ => true
  | .get _ => false
  | .query _ _ => false
  | .update _ _ _ => true
  | .delete _ => true

/-- The calls of a handler whose read is answered by a replica that lags by `lag` writes. -/
def execCall (outcome : Option AwsError) (lag : Nat) :
    (c : Call) → Store Table × List Response → c.Answer × (Store Table × List Response)
  | .dynamoDb r, (st, rs) =>
    if isWrite r then ((exec outcome r st.current).1, (st.write (exec outcome r st.current).2, rs))
    else ((exec outcome r (st.held lag)).1, (st, rs))
  | .callback response, (st, rs) => ((), (st, rs ++ [response]))

def serve (e : Invocation × Nat) (st : Store Table) : Outcome × Store Table :=
  let r := e.1.handler.run.run (execCall e.1.outcome e.2) (st, [])
  ({ thrown := thrownBy r.1, responses := r.2.2 }, r.2.1)

def sendsWrite (i : Invocation) : Bool :=
  match i.fn with
  | .createGoal | .updateGoal => (bodyFields i.event.body).isOk
  | .deleteGoal => true
  | .getGoal | .listGoals => false

theorem invoke_of_not_sendsWrite {i : Invocation} (h : sendsWrite i = false) (t : Table) : (invoke i t).2 = t := by
  refine invoke_of_not_writes (fun hw => ?_) t
  obtain ⟨⟨-, hbody⟩, hfn⟩ := hw
  obtain ⟨fields, hfields⟩ | hdelete : (∃ fields, bodyFields i.event.body = .ok fields) ∨ i.fn = .deleteGoal := by
    rcases hfn with hfn | hfn | hfn
    exacts [.inl (hbody (.inl hfn)), .inl (hbody (.inr hfn)), .inr hfn]
  · rcases hfn with hfn | hfn | hfn <;> simp [sendsWrite, hfn, hfields, Except.isOk, Except.toBool] at h
  · simp [sendsWrite, hdelete] at h

/-- An invocation is a read or a write of the replicated table as a whole. -/
theorem serve_eq (e : Invocation × Nat) (st : Store Table) : serve e st = Replica.serve invoke sendsWrite e st := by
  obtain ⟨⟨fn, event, context, outcome⟩, lag⟩ := e
  cases fn with
  | createGoal =>
    simp only [serve, Replica.serve, sendsWrite, invoke, Invocation.handler, GoalFunction.handler,
      CreateGoal.handler_eq]
    cases bodyFields event.body <;> rfl
  | updateGoal =>
    simp only [serve, Replica.serve, sendsWrite, invoke, Invocation.handler, GoalFunction.handler,
      UpdateGoal.handler_eq]
    cases bodyFields event.body <;> rfl
  | getGoal => cases outcome <;> rfl
  | listGoals => cases outcome <;> rfl
  | deleteGoal => cases outcome <;> rfl

theorem invoke_congr {i : Invocation} {u : String} (hu : i.user = u) (t t' : Table)
    (h : userPartition t u = userPartition t' u) :
    (invoke i t).1 = (invoke i t').1 ∧ userPartition (invoke i t).2 u = userPartition (invoke i t').2 u := by
  subst hu
  have ht := invoke_partition i t
  have ht' := invoke_partition i t'
  rw [h, ht', Prod.mk.injEq] at ht
  exact ⟨ht.1.symm, ht.2.symm⟩

/-- What a user is answered is what some prefix of the user's own invocations explains, from which at most as many
of the user's writes are missing as the replica lags behind; and the table is what the writes made of it. -/
theorem answers_explained (h : List (Invocation × Nat)) (t : Table) :
    (∀ before e rest, h = before ++ e :: rest →
      ∃ seen missed, (before.map Prod.fst).filter (fun i => i.user = e.1.user) = seen ++ missed ∧
        missed.countP sendsWrite ≤ staleness sendsWrite e ∧
        (serve e (Machine.after serve before (.fresh t))).1 = (invoke e.1 (tableAfter seen t)).1) ∧
    (Machine.after serve h (.fresh t)).current = tableAfter (h.map Prod.fst) t := by
  have hserve : serve = Replica.serve invoke sendsWrite := by
    funext e st
    exact serve_eq e st
  have hread : ∀ i, sendsWrite i = false → ∀ s, (invoke i s).2 = s := fun i hi => invoke_of_not_sendsWrite hi
  rw [hserve]
  refine ⟨?_, ?_⟩
  · rintro before e rest -
    exact serve_explained hread (fun i => decide (i.user = e.1.user)) (fun t => userPartition t e.1.user)
      (fun i hi => invoke_congr (of_decide_eq_true hi))
      (fun i hi => invoke_partition_of_ne (of_decide_eq_false hi)) before t (decide_eq_true rfl)
  · exact current_after hread h t

/-- A user may be told that there is no such goal right after creating it. -/
example : let created : Invocation := ⟨.createGoal, ⟨"u", ⟨""⟩, some "\x7b\x7d"⟩, ⟨"g", 0⟩, none⟩
    let get : Invocation := ⟨.getGoal, ⟨"u", ⟨"g"⟩, none⟩, ⟨"", 1⟩, none⟩
    (serve (get, 1) (Machine.after serve [(created, 0)] (.fresh .empty))).1 = succeeded .absent := rfl

end StaleReads

end FullStack
