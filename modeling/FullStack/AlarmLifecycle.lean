import FullStack.Alarm
import FullStack.Lib.Machine

/-!
# The life of an alarm subscription

CloudFormation sends one stack a Create, then Updates, then possibly a Delete, and Lambda may deliver an
event more than once. Handled one at a time, the events act on the alarm's actions alone
(`after_alarmActions`): a Create appends the topic without looking for it, and an Update is handled as a
Delete. So the topic is where it belongs throughout the life exactly when the Create is delivered once
and there is no Update (`subscribed_iff`).
-/

namespace FullStack

namespace ModifyAlarm

/-- A delivery of an event, with the outcome of the request that answers it. -/
structure Delivery where
  event : Event
  context : Context
  response : Except CallError Nat

def Delivery.requestType (d : Delivery) : RequestType := d.event.requestType

def handle (env : Env) (d : Delivery) (alarm : MetricAlarm) : Unit × MetricAlarm :=
  (handler env d.event d.context).run (execAlarm d.response) alarm

def alarmAfter (env : Env) (h : List Delivery) (alarm : MetricAlarm) : MetricAlarm :=
  Machine.after (handle env) h alarm

/-- The topic occurs once if the resource exists after the deliveries `h`, and not at all otherwise; the
other actions are those of the original alarm. -/
def Subscribed (env : Env) (alarm : MetricAlarm) (h : List Delivery) : Prop :=
  let actions := (alarmAfter env h alarm).alarmActions
  actions.count env.snsTopic = (if (h.map Delivery.requestType).getLast? = some .delete then 0 else 1) ∧
    actions.filter (fun item => item ≠ env.snsTopic) = alarm.alarmActions

/-- The subscription is as it should be after every delivery of the history. -/
def SubscribedThroughout (env : Env) (alarm : MetricAlarm) (h : List Delivery) : Prop :=
  ∀ p, p <+: h → p ≠ [] → Subscribed env alarm p

section
variable {env : Env} {alarm : MetricAlarm}

theorem handle_eq (hname : alarm.alarmName = env.alarmName) (d : Delivery) :
    (handle env d alarm).2 = (putParams env d.requestType alarm).alarm := by
  rw [handle, handler_eq, Proc.run]
  simp only [execAlarm, hname, List.mem_singleton, if_true, afterDescribe, Proc.run]
  rw [if_pos (show (putParams env d.event.requestType alarm).alarmName = env.alarmName from hname)]
  exact (afterPut_noPut env d.event d.context).run_inv (execAlarm d.response) (· = _)
    (fun c hc a ha => (execAlarm_noPut d.response hc a).trans ha) _ rfl

/-- The deliveries act on the actions alone, one after the other. -/
theorem after_alarmActions (hname : alarm.alarmName = env.alarmName) (h : List Delivery) :
    (alarmAfter env h alarm).alarmActions =
      (h.map Delivery.requestType).foldl (fun actions t => newActions env.snsTopic t actions) alarm.alarmActions := by
  induction h generalizing alarm with
  | nil => rfl
  | cons d h ih =>
    rw [alarmAfter, Machine.after_cons, ← alarmAfter, handle_eq hname]
    exact ih hname

theorem foldl_deletes (topic : String) {types : List RequestType} (htypes : ∀ t ∈ types, t = .delete)
    (actions : List String) :
    types.foldl (fun actions t => newActions topic t actions) actions =
      if types = [] then actions else actions.filter fun item => item ≠ topic := by
  induction types generalizing actions with
  | nil => rfl
  | cons t types ih =>
    obtain rfl := htypes t List.mem_cons_self
    rw [List.foldl_cons, ih (fun t ht => htypes t (List.mem_cons_of_mem _ ht))]
    simp [newActions]

theorem count_unsubscribed (topic : String) (actions : List String) :
    (actions.filter fun item => item ≠ topic).count topic = 0 := by
  refine List.count_eq_zero.2 fun h => ?_
  simpa using (List.mem_filter.1 h).2

/-- After the first Create, a delivery that is not a Delete leaves the topic there twice or never. -/
theorem not_subscribed_of_second (hname : alarm.alarmName = env.alarmName) {h : List Delivery} {t : RequestType}
    (htypes : h.map Delivery.requestType = [.create, t]) (ht : t ≠ .delete) : ¬ Subscribed env alarm h := by
  rintro ⟨hcount, -⟩
  rw [after_alarmActions hname, htypes] at hcount
  cases t with
  | create => simp [newActions] at hcount
  | update =>
    have hzero := count_unsubscribed env.snsTopic (alarm.alarmActions ++ [env.snsTopic])
    simp only [List.foldl_cons, List.foldl_nil, newActions, if_true, reduceCtorEq, if_false] at hcount
    rw [hzero] at hcount
    simp at hcount
  | delete => exact ht rfl

variable (hname : alarm.alarmName = env.alarmName) (htopic : env.snsTopic ∉ alarm.alarmActions)

include hname htopic in
theorem subscribed_of_deletes {h : List Delivery} {types : List RequestType}
    (htypes : h.map Delivery.requestType = .create :: types) (hdel : ∀ t ∈ types, t = .delete) :
    Subscribed env alarm h := by
  have hfilter : alarm.alarmActions.filter (fun item => item ≠ env.snsTopic) = alarm.alarmActions :=
    List.filter_eq_self.2 fun item hi => decide_eq_true fun h => htopic (h ▸ hi)
  have hboth : (alarm.alarmActions ++ [env.snsTopic]).filter (fun item => item ≠ env.snsTopic) =
      alarm.alarmActions := by
    rw [List.filter_append, hfilter]
    simp
  rw [Subscribed, after_alarmActions hname, htypes, List.foldl_cons, newActions, if_pos rfl, foldl_deletes _ hdel]
  cases types with
  | nil => exact ⟨by simpa using List.count_eq_zero.2 htopic, hboth⟩
  | cons t types =>
    have hlast : (RequestType.create :: t :: types).getLast? = some .delete := by
      rw [List.getLast?_cons_cons, List.getLast?_eq_some_getLast (List.cons_ne_nil t types)]
      exact congrArg some (hdel _ (List.getLast_mem _))
    rw [if_neg (List.cons_ne_nil t types), hlast, if_pos rfl]
    exact ⟨count_unsubscribed _ _, by rw [hboth, hfilter]⟩

include hname htopic in
/-- Throughout the life of a stack the subscription is as it should be exactly when the Create is
delivered once and no Update is. -/
theorem subscribed_iff {creates updates deletes : Nat} {h : List Delivery}
    (hlife : h.map Delivery.requestType = List.replicate (creates + 1) .create ++
      (List.replicate updates .update ++ List.replicate deletes .delete)) :
    SubscribedThroughout env alarm h ↔ creates = 0 ∧ updates = 0 := by
  constructor
  · intro hall
    by_contra hbad
    -- the second delivery is another Create or an Update
    obtain ⟨t, rest, ht, hsecond⟩ : ∃ t rest, t ≠ RequestType.delete ∧
        h.map Delivery.requestType = .create :: t :: rest := by
      cases creates with
      | succ n => exact ⟨.create, _, by simp, hlife⟩
      | zero =>
        cases updates with
        | succ n => exact ⟨.update, _, by simp, hlife⟩
        | zero => exact absurd ⟨rfl, rfl⟩ hbad
    have htake : (h.take 2).map Delivery.requestType = [.create, t] := by rw [List.map_take, hsecond]; rfl
    refine not_subscribed_of_second hname htake ht (hall _ (List.take_prefix 2 h) fun hnil => ?_)
    simp [hnil] at htake
  · rintro ⟨rfl, rfl⟩ p hp hne
    obtain ⟨d, p, rfl⟩ := List.exists_cons_of_ne_nil hne
    have htypes : (d :: p).map Delivery.requestType <+: .create :: List.replicate deletes .delete := by
      simpa [hlife] using hp.map Delivery.requestType
    rw [List.map_cons, List.cons_prefix_cons] at htypes
    refine subscribed_of_deletes hname htopic (by rw [List.map_cons, htypes.1]) fun t ht => ?_
    exact List.eq_of_mem_replicate (htypes.2.subset ht)

end

def delivery (requestType : RequestType) (response : Except CallError Nat) : Delivery :=
  ⟨⟨requestType, ⟨"cloudformation", "/response"⟩, "stack", "request", "resource"⟩, ⟨"log", "now"⟩, response⟩

theorem subscribed_created_deleted : SubscribedThroughout ⟨"alarm", "topic", "us-east-1"⟩ plainAlarm
    [delivery .create (.ok 200), delivery .delete (.ok 200)] := by
  have hlife : [delivery .create (.ok 200), delivery .delete (.ok 200)].map Delivery.requestType =
      List.replicate (0 + 1) .create ++ (List.replicate 0 .update ++ List.replicate 1 .delete) := rfl
  exact (subscribed_iff rfl (by decide) hlife).2 ⟨rfl, rfl⟩

/-- The response to the Create is lost, and the Create is delivered again: the topic is there twice. -/
theorem redelivered_create_not_subscribed :
    ¬ Subscribed ⟨"alarm", "topic", "us-east-1"⟩ plainAlarm
      [delivery .create (.error ⟨"Error", "socket hang up"⟩), delivery .create (.ok 200)] :=
  not_subscribed_of_second rfl rfl (by decide)

end ModifyAlarm

end FullStack
