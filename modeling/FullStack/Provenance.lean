import FullStack.GoalsApi

/-!
# Where a stored goal comes from

`Provenance h t`: every item of `t` was put there by a CreateGoal of the history `h`, no DeleteGoal of
the item follows that create, and the item carries the create's time. Creates, deletes and updates of
stored items keep it (`Provenance.step`). UpdateItem creates an absent item, so an update of one does
not; a history keeps it throughout exactly when it has no such update (`provenance_iff`).
-/

namespace FullStack

/-- `i` put the item `k` there, at the time that `a` carries. -/
structure Creates (i : Invocation) (k : Key) (a : Attributes) : Prop where
  fn : i.fn = .createGoal
  completes : i.Completes
  user : i.user = k.userId
  requestId : i.context.awsRequestId = k.goalId
  createdAt : a.find? "createdAt" = some (.num ⟨i.context.now, 0⟩)

def Deletes (i : Invocation) (k : Key) : Prop := i.fn = .deleteGoal ∧ i.Completes ∧ i.key = k

def Provenance (h : List Invocation) (t : Table) : Prop :=
  ∀ k a, t.find? k = some a →
    ∃ before i after, h = before ++ i :: after ∧ Creates i k a ∧ ∀ j ∈ after, ¬ Deletes j k

/-- If `i` is an update that completes, it names an item of `t`. -/
def UpdatesStored (i : Invocation) (t : Table) : Prop :=
  i.fn = .updateGoal → i.Completes → ∃ a, t.find? i.key = some a

/-- Every update of a history from the empty table names an item stored at that time. -/
def UpdatesExisting (h : List Invocation) : Prop := Machine.Guarded invoke UpdatesStored h .empty

theorem provenance_empty : Provenance [] .empty := fun _ _ h => absurd h (by simp)

theorem Creates.congr {i : Invocation} {k : Key} {a a' : Attributes} (h : Creates i k a)
    (ha : a'.find? "createdAt" = a.find? "createdAt") : Creates i k a' :=
  ⟨h.fn, h.completes, h.user, h.requestId, ha.trans h.createdAt⟩

section
variable {h : List Invocation} {t : Table} {i : Invocation} {k : Key} {a a' : Attributes}

theorem Provenance.extend (hp : Provenance h t) (hk : t.find? k = some a)
    (ha : a'.find? "createdAt" = a.find? "createdAt") (hi : ¬ Deletes i k) :
    ∃ before c after, h ++ [i] = before ++ c :: after ∧ Creates c k a' ∧ ∀ j ∈ after, ¬ Deletes j k := by
  obtain ⟨before, c, after, rfl, hc, hafter⟩ := hp k a hk
  refine ⟨before, c, after ++ [i], by simp, hc.congr ha, fun j hj => ?_⟩
  rcases List.mem_append.1 hj with hj | hj
  · exact hafter j hj
  · rwa [List.mem_singleton.1 hj]

theorem Provenance.step (hp : Provenance h t) (hi : UpdatesStored i t) :
    Provenance (h ++ [i]) (invoke i t).2 := by
  intro k a hk
  rcases i.table_cases t with ⟨ht, hnd⟩ | ⟨fields, hfn, hdone, -, ht⟩ | ⟨fields, hfn, hdone, -, ht⟩ |
    ⟨hfn, hdone, ht⟩ <;> rw [ht] at hk
  · exact hp.extend hk rfl fun hd => hnd ⟨hd.1, hd.2.1⟩
  · -- a create puts the item there itself, or leaves it alone
    rw [SortedMap.find?_insert] at hk
    split_ifs at hk with hkey
    · subst hkey
      obtain rfl := Option.some.inj hk
      exact ⟨h, i, [], rfl, ⟨hfn, hdone, rfl, rfl, by simp⟩, by simp⟩
    · exact hp.extend hk rfl fun hd => by simp [hd.1] at hfn
  · -- an update of a stored item keeps its time
    have hnd : ¬ Deletes i k := fun hd => by simp [hd.1] at hfn
    rw [SortedMap.find?_insert] at hk
    split_ifs at hk with hkey
    · subst hkey
      obtain ⟨b, hb⟩ := hi hfn hdone
      rw [hb, Option.getD_some] at hk
      obtain rfl := Option.some.inj hk
      exact hp.extend hb (find?_updated _ _ (by decide) (by decide)) hnd
    · exact hp.extend hk rfl hnd
  · rw [SortedMap.find?_erase] at hk
    split_ifs at hk with hkey
    exact hp.extend hk rfl fun hd => hkey hd.2.2.symm

/-- An update of an absent item stores one without a time of creation. -/
theorem createdAt_of_update_absent (hfn : i.fn = .updateGoal) (hdone : i.Completes) (hk : t.find? i.key = none) :
    ∃ a, (invoke i t).2.find? i.key = some a ∧ a.find? "createdAt" = none := by
  rcases i.table_cases t with ⟨-, hnd⟩ | ⟨_, hfn', -⟩ | ⟨fields, -, -, -, ht⟩ | ⟨hfn', -⟩
  · obtain ⟨houtcome, hbody⟩ := hdone
    obtain ⟨fields, hf⟩ := hbody (.inr hfn)
    obtain ⟨fn, event, context, outcome⟩ := i
    obtain rfl : fn = .updateGoal := hfn
    obtain rfl : outcome = none := houtcome
    rw [invoke_updateGoal, hf]
    refine ⟨_, SortedMap.find?_insert_self _ _ _, ?_⟩
    have hnone : t.find? ⟨event.identity, event.pathParameters.id⟩ = none := hk
    rw [find?_updated _ _ (by decide) (by decide), hnone]
    rfl
  · simp [hfn] at hfn'
  · refine ⟨_, by rw [ht, SortedMap.find?_insert_self], ?_⟩
    rw [find?_updated _ _ (by decide) (by decide), hk]
    rfl
  · simp [hfn] at hfn'

end

theorem provenance_of_updatesExisting {h : List Invocation} (hu : UpdatesExisting h) :
    Provenance h (tableAfter h .empty) :=
  hu.inv Provenance (fun _ _ _ => Provenance.step) provenance_empty

/-- Every state of a history from the empty table has the provenance property exactly when no update
names an item that is not stored. -/
theorem provenance_iff (h : List Invocation) :
    (∀ p, p <+: h → Provenance p (tableAfter p .empty)) ↔ UpdatesExisting h := by
  constructor
  · intro hp before i after hsplit hfn hdone
    by_contra habsent
    have hnone : (tableAfter before .empty).find? i.key = none :=
      Option.eq_none_iff_forall_not_mem.2 fun a ha => habsent ⟨a, ha⟩
    -- the state right after the update has an item without a time of creation
    obtain ⟨a, hk, htime⟩ := createdAt_of_update_absent hfn hdone hnone
    have hprefix : before ++ [i] <+: h := ⟨after, by rw [hsplit, List.append_assoc]; rfl⟩
    have hstate := hp _ hprefix
    rw [tableAfter, Machine.after_concat] at hstate
    obtain ⟨-, c, -, -, hc, -⟩ := hstate _ a hk
    rw [hc.createdAt] at htime
    cases htime
  · intro hu p hp
    exact provenance_of_updatesExisting (hu.of_prefix hp)

def runBody : String := (Json.obj [("title", .str "run"), ("content", .str "5 km")]).stringify

theorem bodyFields_runBody : bodyFields (some runBody) = .ok (some (.str "run"), some (.str "5 km")) := by
  rw [bodyFields, runBody, jsonParse_stringify]
  rfl

def createThenDelete : List Invocation :=
  [⟨.createGoal, ⟨"u", ⟨""⟩, some runBody⟩, ⟨"g", 1⟩, none⟩, ⟨.deleteGoal, ⟨"u", ⟨"g"⟩, none⟩, ⟨"r2", 2⟩, none⟩]

def lateUpdate : Invocation := ⟨.updateGoal, ⟨"u", ⟨"g"⟩, some runBody⟩, ⟨"r3", 3⟩, none⟩

theorem tableAfter_createThenDelete : (tableAfter createThenDelete .empty).find? lateUpdate.key = none := by
  simp only [tableAfter, createThenDelete, Machine.after_cons, Machine.after_nil, invoke_createGoal, invoke_deleteGoal,
    bodyFields_runBody]
  exact SortedMap.find?_erase_self _ _

/-- The deleted goal is back, without its time of creation. -/
theorem lateUpdate_not_provenance :
    ((createThenDelete ++ [lateUpdate]).map fun i => i.context.awsRequestId).Nodup ∧
      ¬ Provenance (createThenDelete ++ [lateUpdate]) (tableAfter (createThenDelete ++ [lateUpdate]) .empty) := by
  refine ⟨by decide +kernel, fun hp => ?_⟩
  rw [tableAfter, Machine.after_concat] at hp
  obtain ⟨a, hk, hnone⟩ := createdAt_of_update_absent (i := lateUpdate) rfl
    ⟨rfl, fun _ => ⟨_, bodyFields_runBody⟩⟩ tableAfter_createThenDelete
  obtain ⟨-, c, -, -, hc, -⟩ := hp _ a hk
  exact absurd (hnone.symm.trans hc.createdAt) (by simp)

end FullStack
