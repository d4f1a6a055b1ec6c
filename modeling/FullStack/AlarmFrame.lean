import FullStack.AlarmLifecycle

/-!
# What subscribing does to the rest of the alarm

PutMetricAlarm replaces the whole configuration, and the handler puts back the components it names. The
others are reset to their defaults: subscribing and unsubscribing leave the rest of an alarm alone
exactly when these components had their defaults before (`changesOnlyActions_iff`).
-/

namespace FullStack

namespace ModifyAlarm

def MetricAlarm.frame (a : MetricAlarm) : MetricAlarm := { a with alarmActions := [] }

/-- The components that the handler does not put back are not set. -/
structure MetricAlarm.OthersDefault (a : MetricAlarm) : Prop where
  actionsEnabled : a.actionsEnabled = true
  okActions : a.okActions = []
  insufficientDataActions : a.insufficientDataActions = []
  extendedStatistic : a.extendedStatistic = none
  unit : a.unit = none
  treatMissingData : a.treatMissingData = none
  evaluateLowSampleCountPercentile : a.evaluateLowSampleCountPercentile = none
  metrics : a.metrics = []
  thresholdMetricId : a.thresholdMetricId = none

/-- Every event that is handled changes the alarm actions only, and a Create followed by a Delete restores
an alarm that did not have the topic. -/
structure ChangesOnlyActions (snsTopic awsRegion : String) (alarm : MetricAlarm) : Prop where
  frame : ∀ d, (handle ⟨alarm.alarmName, snsTopic, awsRegion⟩ d alarm).2.frame = alarm.frame
  restores : snsTopic ∉ alarm.alarmActions → ∀ create delete : Delivery,
    create.requestType = .create → delete.requestType = .delete →
    alarmAfter ⟨alarm.alarmName, snsTopic, awsRegion⟩ [create, delete] alarm = alarm

theorem MetricAlarm.ext_frame {a b : MetricAlarm} (h : a.frame = b.frame) (ha : a.alarmActions = b.alarmActions) :
    a = b := by
  obtain ⟨⟩ := a
  obtain ⟨⟩ := b
  simp only [frame, mk.injEq] at h ha ⊢
  exact ⟨h.1, h.2.1, h.2.2.1, h.2.2.2.1, ha, h.2.2.2.2.2⟩

/-- A put keeps the rest of the alarm exactly when it has nothing to reset. -/
theorem frame_put_iff (env : Env) (requestType : RequestType) (a : MetricAlarm) :
    (putParams env requestType a).alarm.frame = a.frame ↔ a.OthersDefault := by
  constructor
  · intro h
    have hfield {α : Type} (f : MetricAlarm → α) :
        f (putParams env requestType a).alarm.frame = f a.frame := congrArg f h
    exact ⟨(hfield (·.actionsEnabled)).symm, (hfield (·.okActions)).symm, (hfield (·.insufficientDataActions)).symm,
      (hfield (·.extendedStatistic)).symm, (hfield (·.unit)).symm, (hfield (·.treatMissingData)).symm,
      (hfield (·.evaluateLowSampleCountPercentile)).symm, (hfield (·.metrics)).symm,
      (hfield (·.thresholdMetricId)).symm⟩
  · rintro ⟨h1, h2, h3, h4, h5, h6, h7, h8, h9⟩
    obtain ⟨⟩ := a
    simp only at h1 h2 h3 h4 h5 h6 h7 h8 h9
    subst h1 h2 h3 h4 h5 h6 h7 h8 h9
    rfl

theorem othersDefault_put (env : Env) (requestType : RequestType) (a : MetricAlarm) :
    (putParams env requestType a).alarm.OthersDefault := ⟨rfl, rfl, rfl, rfl, rfl, rfl, rfl, rfl, rfl⟩

theorem frame_alarmAfter {env : Env} {alarm : MetricAlarm} (hname : alarm.alarmName = env.alarmName)
    (h : alarm.OthersDefault) (deliveries : List Delivery) :
    (alarmAfter env deliveries alarm).frame = alarm.frame := by
  induction deliveries generalizing alarm with
  | nil => rfl
  | cons d deliveries ih =>
    have hput := othersDefault_put env d.requestType alarm
    have hput_name : (putParams env d.requestType alarm).alarm.alarmName = env.alarmName := hname
    rw [alarmAfter, Machine.after_cons, ← alarmAfter, handle_eq hname, ih hput_name hput, frame_put_iff]
    exact h

theorem actions_create_delete {env : Env} {alarm : MetricAlarm} (hname : alarm.alarmName = env.alarmName)
    (htopic : env.snsTopic ∉ alarm.alarmActions) {create delete : Delivery} (hc : create.requestType = .create)
    (hd : delete.requestType = .delete) :
    (alarmAfter env [create, delete] alarm).alarmActions = alarm.alarmActions := by
  have hkeep : ∀ item ∈ alarm.alarmActions, item ≠ env.snsTopic := fun item hi h => htopic (h ▸ hi)
  rw [after_alarmActions hname]
  simpa [hc, hd, newActions] using hkeep

/-- Subscribing and unsubscribing change nothing but the alarm actions exactly when the components that
the handler leaves out are not set. -/
theorem changesOnlyActions_iff (snsTopic awsRegion : String) (alarm : MetricAlarm) :
    ChangesOnlyActions snsTopic awsRegion alarm ↔ alarm.OthersDefault := by
  constructor
  · intro h
    have hframe := h.frame ⟨⟨.create, ⟨"", ""⟩, "", "", ""⟩, ⟨"", ""⟩, .ok 200⟩
    rw [handle_eq rfl, frame_put_iff] at hframe
    exact hframe
  · intro h
    refine ⟨fun d => ?_, fun htopic create delete hc hd => ?_⟩
    · rw [handle_eq rfl, frame_put_iff]
      exact h
    · exact MetricAlarm.ext_frame (frame_alarmAfter rfl h _) (actions_create_delete rfl htopic hc hd)

/-- An alarm that notifies an operator when it recovers: the first subscription drops that. -/
theorem not_changesOnlyActions_okActions :
    ¬ ChangesOnlyActions "topic" "us-east-1" { plainAlarm with okActions := ["operator"] } := by
  intro h
  have hframe := h.frame (delivery .create (.ok 200))
  rw [handle_eq rfl, frame_put_iff] at hframe
  exact absurd hframe.okActions (by decide)

end ModifyAlarm

end FullStack
