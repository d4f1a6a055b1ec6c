import FullStack.Editor
import FullStack.GoalUpdate
import FullStack.Lib.TwoWriters

/-!
# Two editors of one goal

A session opens a stored goal, types into its fields and submits once; the submit sends the title and the
content as they stand in the form, typed or loaded. Two sessions are interleaved call by call. They are two
parties that read the goal and write it whole (`Sim.step`), so if both have loaded it before either saves,
what the first one changed is taken back unless the second types there too (`serialisable_iff`).
-/

namespace FullStack

namespace ConcurrentEdits

open AddEditGoal (ApiRequest State Goal Field hasLength isNonEmpty)
open Client (Tab invocation apiResult responseData apiResult_succeeded)
open ReadModifyWrite (Phase forall_update)

/-- What the user types in a session, and the context that its calls are served in. -/
structure EditSession where
  edits : List (Field × String)
  context : Context

abbrev Program := Proc ApiRequest (fun _ => Option JsVal) Tab

def typed (tab : Tab) (edit : Field × String) : Tab :=
  if tab.accepts (.change edit.1 edit.2) then
    tab.setState (AddEditGoal.handle tab.props tab.state (.change edit.1 edit.2)).1
  else tab

def submit (tab : Tab) : Program :=
  if tab.accepts .submit then
    let (state, request) := AddEditGoal.handleSubmit tab.props tab.state
    .call request fun result => .ret ((tab.setState state).onResult request result)
  else .ret tab

def afterLoad (edits : List (Field × String)) (tab : Tab) (request : ApiRequest) (result : Option JsVal) : Program :=
  submit (edits.foldl typed (tab.onResult request result))

def editSession (user goalId : String) (edits : List (Field × String)) : Program :=
  let (state, request) := AddEditGoal.componentDidMount (some goalId) AddEditGoal.initialState
  let tab := Tab.setState ⟨user, some goalId, AddEditGoal.initialState, true⟩ state
  match request with
  | none => .ret tab
  | some request => .call request (afterLoad edits tab request)

abbrev Fields := Field → JsVal

def fieldKey : Field → String
  | .title => "title"
  | .content => "content"

def goalFields (goal : Goal) : Fields
  | .title => goal.title
  | .content => goal.content

def typeField (fields : Fields) (edit : Field × String) : Fields :=
  Function.update fields edit.1 (some (.str edit.2))

def canSubmit (fields : Fields) : Bool := isNonEmpty (fields .title) && isNonEmpty (fields .content)

def canShow (fields : Fields) : Bool := hasLength (fields .title) && hasLength (fields .content)

/-- What the session saves if it loads these fields: nothing, unless it can be submitted. -/
def EditSession.saves (session : EditSession) (fields : Fields) : Option Fields :=
  if canShow fields && canSubmit (session.edits.foldl typeField fields) then some (session.edits.foldl typeField fields)
  else none

def EditSession.text (session : EditSession) (field : Field) : Option String :=
  ((session.edits.filter fun edit => edit.1 = field).getLast?).map Prod.snd

theorem foldl_typeField (edits : List (Field × String)) (fields : Fields) (field : Field) :
    edits.foldl typeField fields field =
      ((((edits.filter fun edit => edit.1 = field).getLast?).map Prod.snd).map Json.str).or (fields field) := by
  induction edits using List.reverseRecOn with
  | nil => rfl
  | append_singleton edits edit ih =>
    rw [List.foldl_append, List.foldl_cons, List.foldl_nil, typeField, List.filter_append]
    rcases eq_or_ne field edit.1 with rfl | hne
    · rw [Function.update_self, List.filter_cons_of_pos (by simp), List.filter_nil, List.getLast?_concat]
      rfl
    · rw [Function.update_of_ne hne, List.filter_cons_of_neg (by simpa using hne.symm), List.filter_nil, List.append_nil]
      exact ih

theorem EditSession.saves_eq_some {session : EditSession} {fields saved : Fields}
    (h : session.saves fields = some saved) (field : Field) :
    saved field = ((session.text field).map Json.str).or (fields field) := by
  rw [saves] at h
  split_ifs at h
  obtain rfl := Option.some.inj h
  exact foldl_typeField session.edits fields field

structure Editing (goalId : String) (fields : Fields) (tab : Tab) : Prop where
  props : tab.props = some goalId
  mounted : tab.mounted = true
  redirect : tab.state.redirect = ""
  loading : tab.state.isLoading = false
  existing : tab.state.isExistingGoal = true
  goal : goalFields tab.state.goal = fields
  shown : canShow fields = true

section
variable {goalId : String} {fields : Fields} {tab : Tab}

theorem Editing.form (h : Editing goalId fields tab) :
    ∃ form, AddEditGoal.renderForm tab.state = .ok form ∧
      AddEditGoal.render tab.state = .ok (.page (some form) tab.state.showDeleteModal) := by
  have hshown := h.shown
  rw [← h.goal] at hshown
  exact AddEditGoal.render_form h.redirect h.loading hshown

theorem Editing.accepts_change (h : Editing goalId fields tab) (field : Field) (value : String) :
    tab.accepts (.change field value) = true := by
  obtain ⟨form, -, hrender⟩ := h.form
  rw [Tab.accepts, hrender]
  exact Bool.and_eq_true_iff.2 ⟨h.mounted, rfl⟩

theorem Editing.accepts_submit (h : Editing goalId fields tab) : tab.accepts .submit = canSubmit fields := by
  obtain ⟨form, hform, hrender⟩ := h.form
  have hshown := h.shown
  rw [← h.goal] at hshown
  have hvalid := (AddEditGoal.validateForm_of_renderForm hform).symm.trans (AddEditGoal.validateForm_eq hshown)
  rw [Tab.accepts, hrender, ← h.goal]
  simp only [h.mounted, Bool.true_and]
  exact Except.ok.inj hvalid

theorem goalFields_handleChange (field : Field) (value : String) (state : State) :
    goalFields (AddEditGoal.handleChange field value state).goal = typeField (goalFields state.goal) (field, value) := by
  funext f
  cases field <;> cases f <;> rfl

theorem canShow_typeField (h : canShow fields = true) (edit : Field × String) :
    canShow (typeField fields edit) = true := by
  obtain ⟨htitle, hcontent⟩ := Bool.and_eq_true_iff.1 h
  obtain ⟨field, value⟩ := edit
  cases field with
  | title => exact Bool.and_eq_true_iff.2 ⟨rfl, hcontent⟩
  | content => exact Bool.and_eq_true_iff.2 ⟨htitle, rfl⟩

theorem Editing.typed (h : Editing goalId fields tab) (edit : Field × String) :
    Editing goalId (typeField fields edit) (typed tab edit) := by
  obtain ⟨field, value⟩ := edit
  obtain ⟨form, -, hrender⟩ := h.form
  have hrenders := Editor.renders_handleChange h.redirect field value (by rw [hrender]; rfl)
  have hgoal := goalFields_handleChange field value tab.state
  rw [h.goal] at hgoal
  rw [ConcurrentEdits.typed, if_pos (h.accepts_change field value)]
  have hmounted := Bool.and_eq_true_iff.2 ⟨h.mounted, hrenders⟩
  cases field with
  | title => exact ⟨h.props, hmounted, h.redirect, h.loading, h.existing, hgoal, canShow_typeField h.shown _⟩
  | content => exact ⟨h.props, hmounted, h.redirect, h.loading, h.existing, hgoal, canShow_typeField h.shown _⟩

theorem Editing.foldl_typed (h : Editing goalId fields tab) (edits : List (Field × String)) :
    Editing goalId (edits.foldl typeField fields) (edits.foldl ConcurrentEdits.typed tab) := by
  induction edits generalizing fields tab with
  | nil => exact h
  | cons edit edits ih => exact ih (h.typed edit)

theorem accepts_gone (h : tab.mounted = false) (input : AddEditGoal.Input) : tab.accepts input = false := by
  rw [Tab.accepts, h]
  cases AddEditGoal.render tab.state <;> rfl

theorem foldl_typed_gone (h : tab.mounted = false) (edits : List (Field × String)) : edits.foldl typed tab = tab := by
  induction edits with
  | nil => rfl
  | cons edit edits ih => rw [List.foldl_cons, typed, accepts_gone h, if_neg Bool.false_ne_true, ih]

/-! ### The program of a session -/

/-- Where a session is, by what it has read of the goal. -/
inductive RunAt (user goalId : String) (session : EditSession) : Phase Fields → Program → Prop
  | idle : RunAt user goalId session .idle (editSession user goalId session.edits)
  | submits {fields : Fields} {goal : Goal} {k : Option JsVal → Program}
    (hsaves : session.saves fields = some (goalFields goal)) (hk : ∀ result, ∃ tab, k result = .ret tab) :
    RunAt user goalId session (.read fields) (.call (.put goalId (AddEditGoal.goalBody goal)) k)
  | stuck {fields : Fields} (hsaves : session.saves fields = none) (tab : Tab) :
    RunAt user goalId session (.read fields) (.ret tab)
  | written (tab : Tab) : RunAt user goalId session .written (.ret tab)

theorem Editing.submit {user : String} {session : EditSession} {loaded : Fields} (hloaded : canShow loaded = true)
    (h : Editing goalId (session.edits.foldl typeField loaded) tab) :
    RunAt user goalId session (.read loaded) (submit tab) := by
  rw [ConcurrentEdits.submit, h.accepts_submit]
  cases hsubmit : canSubmit (session.edits.foldl typeField loaded) with
  | false =>
    refine .stuck ?_ tab
    rw [EditSession.saves, hloaded, hsubmit]
    rfl
  | true =>
    have hrequest : (AddEditGoal.handleSubmit tab.props tab.state).2 = .put goalId (AddEditGoal.goalBody tab.state.goal) := by
      rw [AddEditGoal.handleSubmit, h.existing, AddEditGoal.updateGoal, h.props]
      rfl
    simp only [if_true, hrequest]
    refine .submits ?_ fun result => ⟨_, rfl⟩
    rw [EditSession.saves, hloaded, hsubmit, h.goal]
    rfl

end

def loadingTab (user goalId : String) : Tab :=
  Tab.setState ⟨user, some goalId, AddEditGoal.initialState, true⟩
    { AddEditGoal.initialState with isLoading := true, isExistingGoal := true }

theorem editSession_eq {goalId : String} (hid : goalId ≠ "") (user : String) (edits : List (Field × String)) :
    editSession user goalId edits = .call (.get goalId) (afterLoad edits (loadingTab user goalId) (.get goalId)) := by
  rw [editSession, AddEditGoal.componentDidMount, if_neg hid]
  rfl

theorem runAt_afterLoad (user goalId : String) (session : EditSession) {fields : Fields} {value : JsVal}
    (htitle : prop "title" value = .ok (fields .title)) (hcontent : prop "content" value = .ok (fields .content)) :
    RunAt user goalId session (.read fields)
      (afterLoad session.edits (loadingTab user goalId) (.get goalId) (some value)) := by
  have hresult : (loadingTab user goalId).onResult (.get goalId) (some value) =
      (loadingTab user goalId).setState { (loadingTab user goalId).state with
        isLoading := false
        goal := ⟨some (.str goalId), fields .title, fields .content⟩ } := by
    rw [Tab.onResult, AddEditGoal.onResponse, htitle, hcontent]
    rfl
  have hmounted : ((loadingTab user goalId).onResult (.get goalId) (some value)).mounted = canShow fields := by
    rw [hresult, Tab.setState, AddEditGoal.isOk_render]
    rfl
  rw [afterLoad]
  cases hshow : canShow fields with
  | false =>
    rw [hshow] at hmounted
    rw [foldl_typed_gone hmounted, submit, accepts_gone hmounted, if_neg Bool.false_ne_true]
    refine .stuck ?_ _
    rw [EditSession.saves, hshow]
    rfl
  | true =>
    rw [hshow] at hmounted
    have hediting : Editing goalId fields ((loadingTab user goalId).onResult (.get goalId) (some value)) := by
      refine ⟨?_, hmounted, ?_, ?_, ?_, ?_, hshow⟩
      · rw [hresult]
        rfl
      · rw [hresult]
        rfl
      · rw [hresult]
        rfl
      · rw [hresult]
        rfl
      · rw [hresult]
        funext field
        cases field <;> rfl
    exact (hediting.foldl_typed session.edits).submit hshow

def storedFields (t : Table) (user goalId : String) : Option Fields :=
  (t.find? ⟨user, goalId⟩).map fun a field => a.find? (fieldKey field)

theorem member_itemJson_fieldKey (k : Key) (a : Attributes) (field : Field) :
    (itemJson k a).member (fieldKey field) = a.find? (fieldKey field) := by
  cases field with
  | title => exact member_itemJson (by decide) (by decide)
  | content => exact member_itemJson (by decide) (by decide)

theorem bodyFields_goalBody (goal : Goal) :
    bodyFields (some (AddEditGoal.goalBody goal).stringify) = .ok (goal.title, goal.content) := by
  rw [AddEditGoal.goalBody, bodyFields_of_obj (jsonParse_stringify _)]
  obtain ⟨goalId, title, content⟩ := goal
  cases title <;> cases content <;> rfl

theorem orNull_of_isNonEmpty {v : JsVal} (h : isNonEmpty v = true) : some (UpdateGoal.orNull v) = v := by
  cases v with
  | none => cases h
  | some v =>
    cases v with
    | str s =>
      have hs : s ≠ "" := of_decide_eq_true h
      rw [UpdateGoal.orNull, truthy_str, decide_eq_true hs]
      rfl
    | arr vs => rfl
    | obj ms => rfl
    | null => cases h
    | bool b => cases h
    | num d => cases h

section
variable {t : Table} {user goalId : String} {fields : Fields} (context : Context)

theorem serve_get (hstored : storedFields t user goalId = some fields) :
    ∃ value, apiResult (invoke (invocation user (.get goalId) context none) t).1 = some value ∧
      prop "title" value = .ok (fields .title) ∧ prop "content" value = .ok (fields .content) ∧
      (invoke (invocation user (.get goalId) context none) t).2 = t := by
  obtain ⟨a, ha, rfl⟩ := Option.map_eq_some_iff.1 hstored
  refine ⟨some (itemJson ⟨user, goalId⟩ a), ?_, ?_, ?_, ?_⟩
  · rw [invocation, invoke_getGoal]
    simp only [ha, Option.map_some]
    refine (apiResult_succeeded rfl).trans (congrArg some ?_)
    rw [stringifyBody, responseData, Json.parse_stringify]
    rfl
  · exact congrArg Except.ok (member_itemJson_fieldKey ⟨user, goalId⟩ a .title)
  · exact congrArg Except.ok (member_itemJson_fieldKey ⟨user, goalId⟩ a .content)
  · rw [invocation, invoke_getGoal]

theorem serve_put (hstored : storedFields t user goalId = some fields) {goal : Goal}
    (hsubmit : canSubmit (goalFields goal) = true) :
    storedFields (invoke (invocation user (.put goalId (AddEditGoal.goalBody goal)) context none) t).2 user goalId =
      some (goalFields goal) := by
  obtain ⟨a, ha, rfl⟩ := Option.map_eq_some_iff.1 hstored
  obtain ⟨htitle, hcontent⟩ := Bool.and_eq_true_iff.1 hsubmit
  rw [invocation, invoke_updateGoal, bodyFields_goalBody]
  simp only [ha, Option.getD_some, storedFields, SortedMap.find?_insert_self, Option.map_some, Option.some.injEq]
  funext field
  cases field with
  | title => exact (find?_updated_title _ a).trans (orNull_of_isNonEmpty htitle)
  | content => exact (find?_updated_content _ a).trans (orNull_of_isNonEmpty hcontent)

end

/-- The table, what is left of the two sessions, and which of them have saved. -/
structure Sessions where
  table : Table
  runs : Bool → Program
  saved : List Bool

def Sessions.init (user goalId : String) (sessions : Bool → EditSession) (t : Table) : Sessions :=
  ⟨t, fun i => editSession user goalId (sessions i).edits, []⟩

/-- The next call of session `i` is served and answered. -/
def Sessions.step (user : String) (sessions : Bool → EditSession) (st : Sessions) (i : Bool) : Sessions :=
  match st.runs i with
  | .ret _ => st
  | .call request k =>
    let (o, table) := invoke (invocation user request (sessions i).context none) st.table
    { table := table
      runs := Function.update st.runs i (k (apiResult o))
      saved := if Editor.isSave request then st.saved ++ [i] else st.saved }

def Sessions.run (user : String) (sessions : Bool → EditSession) (schedule : List Bool) (st : Sessions) : Sessions :=
  schedule.foldl (Sessions.step user sessions) st

/-- The two sessions read and write the fields as `TwoWriters` do. -/
structure Sim (user goalId : String) (sessions : Bool → EditSession) (st : Sessions)
    (ast : TwoWriters.State Fields) : Prop where
  stored : storedFields st.table user goalId = some ast.value
  runs : ∀ i, RunAt user goalId (sessions i) (ast.phase i) (st.runs i)
  saved : st.saved = ast.writers

section
variable {user goalId : String} {sessions : Bool → EditSession} {st : Sessions} {ast : TwoWriters.State Fields}

theorem canSubmit_of_saves {session : EditSession} {fields saved : Fields} (h : session.saves fields = some saved) :
    canSubmit saved = true := by
  rw [EditSession.saves] at h
  split_ifs at h with hcan
  obtain rfl := Option.some.inj h
  exact (Bool.and_eq_true_iff.1 hcan).2

theorem Sim.step (hid : goalId ≠ "") (h : Sim user goalId sessions st ast) (i : Bool) :
    Sim user goalId sessions (st.step user sessions i) (TwoWriters.step (fun i => (sessions i).saves) ast i) := by
  have hi := h.runs i
  generalize hphase : ast.phase i = phase at hi
  generalize hrun : st.runs i = p at hi
  cases hi with
  | idle =>
    obtain ⟨value, hresult, htitle, hcontent, htable⟩ := serve_get (sessions i).context h.stored
    rw [editSession_eq hid] at hrun
    rw [Sessions.step, hrun, TwoWriters.step_idle hphase]
    simp only [hresult, htable]
    exact ⟨h.stored, forall_update h.runs i (runAt_afterLoad user goalId (sessions i) htitle hcontent), h.saved⟩
  | @submits fields goal k hsaves hk =>
    obtain ⟨tab, htab⟩ := hk (apiResult (invoke (invocation user (.put goalId (AddEditGoal.goalBody goal))
      (sessions i).context none) st.table).1)
    have hstored := serve_put (sessions i).context h.stored (canSubmit_of_saves hsaves)
    rw [Sessions.step, hrun, TwoWriters.step_read hphase hsaves]
    simp only [htab]
    exact ⟨hstored, forall_update h.runs i (.written tab), congrArg (· ++ [i]) h.saved⟩
  | @stuck fields hsaves tab =>
    have hstopped : TwoWriters.Stopped (fun i => (sessions i).saves) ast i := .inr ⟨fields, hphase, hsaves⟩
    rw [Sessions.step, hrun, hstopped.step]
    exact h
  | written tab =>
    have hstopped : TwoWriters.Stopped (fun i => (sessions i).saves) ast i := .inl hphase
    rw [Sessions.step, hrun, hstopped.step]
    exact h

theorem sim_run (hid : goalId ≠ "") {t : Table} {fields : Fields} (hstored : storedFields t user goalId = some fields)
    (schedule : List Bool) :
    Sim user goalId sessions (Sessions.run user sessions schedule (.init user goalId sessions t))
      (TwoWriters.run (fun i => (sessions i).saves) schedule (TwoWriters.init fields)) :=
  List.foldl_rel (r := Sim user goalId sessions) ⟨hstored, fun _ => .idle, rfl⟩ fun i _ _ _ h => h.step hid i

theorem goalId_ne_of_saved {t : Table} {schedule : List Bool}
    (hsave : ∀ i, i ∈ (Sessions.run user sessions schedule (.init user goalId sessions t)).saved) : goalId ≠ "" := by
  rintro rfl
  have hstill : ∀ schedule, Sessions.run user sessions schedule (.init user "" sessions t) =
      .init user "" sessions t := by
    intro schedule
    induction schedule with
    | nil => rfl
    | cons i schedule ih => exact ih
  have htrue := hsave true
  rw [hstill] at htrue
  exact absurd htrue List.not_mem_nil

end

/-! ### Serialisability -/

def finalFields (user goalId : String) (sessions : Bool → EditSession) (t : Table) (schedule : List Bool) : Option Fields :=
  storedFields (Sessions.run user sessions schedule (.init user goalId sessions t)).table user goalId

/-- The goal ends as if one session had been run after the other. -/
def Serialisable (user goalId : String) (sessions : Bool → EditSession) (t : Table) (schedule : List Bool) : Prop :=
  ∃ i, finalFields user goalId sessions t schedule = finalFields user goalId sessions t [i, i, !i, !i]

def EditSession.Changes (session : EditSession) (fields : Fields) (field : Field) : Prop :=
  ∃ s, session.text field = some s ∧ fields field ≠ some (.str s)

section
variable {user goalId : String} {sessions : Bool → EditSession} {t : Table} {fields : Fields}

theorem finalFields_eq (hid : goalId ≠ "") (hstored : storedFields t user goalId = some fields) (schedule : List Bool) :
    finalFields user goalId sessions t schedule =
      some (TwoWriters.run (fun i => (sessions i).saves) schedule (TwoWriters.init fields)).value :=
  (sim_run hid hstored schedule).stored

theorem finalFields_serial (hid : goalId ≠ "") (hstored : storedFields t user goalId = some fields) {i : Bool}
    {saved final : Fields} (hi : (sessions i).saves fields = some saved)
    (hother : (sessions !i).saves saved = some final) :
    finalFields user goalId sessions t [i, i, !i, !i] = some final := by
  rw [finalFields_eq hid hstored, (TwoWriters.run_serial hi hother).1]

theorem saves_congr {session : EditSession} {a b savedA savedB : Fields} (ha : session.saves a = some savedA)
    (hb : session.saves b = some savedB) (field : Field) (h : session.text field = none → a field = b field) :
    savedA field = savedB field := by
  rw [EditSession.saves_eq_some ha, EditSession.saves_eq_some hb]
  cases htext : session.text field with
  | none => rw [Option.map_none, Option.none_or, Option.none_or, h htext]
  | some s => rfl

theorem saves_of_not_changes {session : EditSession} {saved : Fields} (h : session.saves fields = some saved)
    {field : Field} (hkeep : ¬ session.Changes fields field) : saved field = fields field := by
  rw [EditSession.saves_eq_some h]
  cases htext : session.text field with
  | none => rfl
  | some s =>
    by_contra hne
    exact hkeep ⟨s, htext, fun heq => hne heq.symm⟩

theorem hasLength_of_isNonEmpty {v : JsVal} (h : isNonEmpty v = true) : hasLength v = true := by
  rw [← AddEditGoal.isOk_nonEmpty]
  rw [isNonEmpty] at h
  cases hv : AddEditGoal.nonEmpty v with
  | ok b => rfl
  | error e => rw [hv] at h; cases h

theorem canSubmit_iff {fields : Fields} : canSubmit fields = true ↔ ∀ field, isNonEmpty (fields field) = true := by
  rw [canSubmit, Bool.and_eq_true]
  constructor
  · rintro ⟨htitle, hcontent⟩ (_ | _)
    exacts [htitle, hcontent]
  · exact fun h => ⟨h .title, h .content⟩

theorem saves_after {session other : EditSession} {saved savedOther : Fields} (h : session.saves fields = some saved)
    (hother : other.saves fields = some savedOther) : ∃ both, session.saves savedOther = some both := by
  have hfilled := canSubmit_iff.1 (canSubmit_of_saves h)
  have hfilledOther := canSubmit_iff.1 (canSubmit_of_saves hother)
  have hshow : canShow savedOther = true :=
    Bool.and_eq_true_iff.2 ⟨hasLength_of_isNonEmpty (hfilledOther _), hasLength_of_isNonEmpty (hfilledOther _)⟩
  have hsubmit : canSubmit (session.edits.foldl typeField savedOther) = true := by
    refine canSubmit_iff.2 fun field => ?_
    have hfield := hfilled field
    rw [EditSession.saves_eq_some h, EditSession.text] at hfield
    rw [foldl_typeField]
    cases htext : ((session.edits.filter fun edit => edit.1 = field).getLast?).map Prod.snd with
    | none => exact hfilledOther field
    | some s =>
      rw [htext] at hfield
      exact hfield
  exact ⟨_, if_pos (Bool.and_eq_true_iff.2 ⟨hshow, hsubmit⟩)⟩

/-- If both sessions load what is stored, their saves come to those of a serial run exactly if the one
that saves first changes nothing that the other does not type over. -/
theorem overlapping_iff (hid : goalId ≠ "") (hstored : storedFields t user goalId = some fields) {j : Bool}
    {lost final : Fields} (hlost : (sessions j).saves fields = some lost)
    (hfinal : (sessions !j).saves fields = some final) :
    (∃ i, some final = finalFields user goalId sessions t [i, i, !i, !i]) ↔
      ∀ field, (sessions j).Changes fields field → ((sessions !j).text field).isSome = true := by
  obtain ⟨after, hafter⟩ := saves_after hfinal hlost
  obtain ⟨before, hbefore⟩ := saves_after hlost hfinal
  have hserial := finalFields_serial hid hstored hlost hafter
  have hswapped := finalFields_serial (i := !j) hid hstored hfinal (by rwa [Bool.not_not])
  constructor
  · rintro ⟨i, hi⟩ field ⟨s, htext, hne⟩
    by_contra hnone
    rw [Bool.not_eq_true, Option.isSome_eq_false_iff, Option.isNone_iff_eq_none] at hnone
    -- the change of `j` is in either serial run, and not in the goal
    have hkept : final field = fields field := by
      rw [EditSession.saves_eq_some hfinal, hnone]
      rfl
    rcases eq_or_ne i j with rfl | hij
    · rw [hserial] at hi
      obtain rfl := Option.some.inj hi
      refine hne (hkept.symm.trans ?_)
      rw [EditSession.saves_eq_some hafter, hnone, EditSession.saves_eq_some hlost, htext]
      rfl
    · obtain rfl := Bool.eq_not.2 hij
      rw [hswapped] at hi
      obtain rfl := Option.some.inj hi
      refine hne (hkept.symm.trans ?_)
      rw [EditSession.saves_eq_some hbefore, htext]
      rfl
  · intro hcovered
    refine ⟨j, ?_⟩
    rw [hserial]
    refine congrArg some (funext fun field => saves_congr hfinal hafter field fun hnone => ?_)
    refine (saves_of_not_changes hlost fun hchanges => ?_).symm
    have hsome := hcovered field hchanges
    rw [hnone] at hsome
    cases hsome

/-- A schedule in which both sessions save is serialisable exactly if the second loads the goal after the
first has saved, or what the session that saves first changes is typed over by the other. -/
theorem serialisable_iff (hstored : storedFields t user goalId = some fields) {schedule : List Bool}
    (hsave : ∀ i, i ∈ (Sessions.run user sessions schedule (.init user goalId sessions t)).saved) :
    Serialisable user goalId sessions t schedule ↔
      ∀ i j rest, schedule = i :: (!i) :: j :: rest → ∀ field, (sessions j).Changes fields field →
        ((sessions !j).text field).isSome = true := by
  have hid := goalId_ne_of_saved hsave
  have hwriters : ∀ i, i ∈ (TwoWriters.run (fun i => (sessions i).saves) schedule (TwoWriters.init fields)).writers := by
    intro i
    rw [← (sim_run hid hstored schedule).saved]
    exact hsave i
  rw [Serialisable, finalFields_eq hid hstored]
  have hne : ∀ i : Bool, (!i) ≠ i := by decide
  rcases TwoWriters.run_cases hwriters with ⟨i, rest, b, hschedule, hi, hfinal⟩ | ⟨i, j, rest, b, hschedule, hj, hfinal⟩
  · -- one after the other
    refine iff_of_true ⟨i, ?_⟩ fun i' j rest' hschedule' => ?_
    · exact (finalFields_serial hid hstored hi hfinal).symm
    · rw [hschedule] at hschedule'
      injection hschedule' with hi' hschedule'
      injection hschedule' with hi'' _
      exact absurd (hi''.symm.trans hi') (hne i')
  · rw [overlapping_iff hid hstored hj hfinal]
    constructor
    · intro h i' j' rest' hschedule'
      rw [hschedule] at hschedule'
      injection hschedule' with _ hschedule'
      injection hschedule' with _ hschedule'
      injection hschedule' with hj' _
      subst hj'
      exact h
    · exact fun h => h i j rest hschedule

end

def runFields : Fields
  | .title => some (.str "run")
  | .content => some (.str "5 km")

theorem storedFields_oneGoal : storedFields oneGoal "u" "g" = some runFields := by
  rw [storedFields, oneGoal, SortedMap.find?_insert_self]
  refine congrArg some (funext fun field => ?_)
  cases field with
  | title => exact find?_created_title _ 1
  | content => exact find?_created_content _ 1

def typing (edit : Bool → Field × String) (i : Bool) : EditSession := ⟨[edit i], ⟨"r", 2⟩⟩

theorem saves_typing {edit : Bool → Field × String} {i : Bool} (h : (edit i).2 ≠ "") :
    (typing edit i).saves runFields = some (typeField runFields (edit i)) := by
  refine if_pos (Bool.and_eq_true_iff.2 ⟨rfl, canSubmit_iff.2 fun field => ?_⟩)
  rw [typing, List.foldl_cons, List.foldl_nil, typeField]
  rcases eq_or_ne field (edit i).1 with rfl | hne
  · rw [Function.update_self]
    exact decide_eq_true h
  · rw [Function.update_of_ne hne]
    cases field <;> rfl

theorem typing_overlapping {edit : Bool → Field × String} (h : ∀ i, (edit i).2 ≠ "") :
    (TwoWriters.run (fun i => (typing edit i).saves) [false, true, false, true] (TwoWriters.init runFields)).value =
        typeField runFields (edit true) ∧
      (TwoWriters.run (fun i => (typing edit i).saves) [false, true, false, true] (TwoWriters.init runFields)).writers =
        [false, true] :=
  TwoWriters.run_overlapping (i := false) (saves_typing (h false)) (saves_typing (h true))

/-- Two titles, the second for good. -/
theorem serialisable_titles :
    Serialisable "u" "g" (typing fun i => (.title, if i then "row" else "swim")) oneGoal [false, true, false, true] := by
  refine (serialisable_iff storedFields_oneGoal fun i => ?_).2 fun i j rest hschedule field hchanges => ?_
  · rw [(sim_run (by decide) storedFields_oneGoal _).saved, (typing_overlapping (by decide)).2]
    cases i <;> decide
  · obtain ⟨s, htext, -⟩ := hchanges
    cases field with
    | title => rfl
    | content => cases htext

def titleAndContent (i : Bool) : Field × String := if i then (.content, "1 km") else (.title, "swim")

/-- A title and a content: the title is lost. -/
theorem not_serialisable_title_content :
    ¬ Serialisable "u" "g" (typing titleAndContent) oneGoal [false, true, false, true] := by
  have hid : "g" ≠ "" := by decide
  have htexts : ∀ i, (titleAndContent i).2 ≠ "" := by decide
  have hfinal : finalFields "u" "g" (typing titleAndContent) oneGoal [false, true, false, true] =
      some (typeField runFields (titleAndContent true)) := by
    rw [finalFields_eq hid storedFields_oneGoal, (typing_overlapping htexts).1]
  intro h
  rw [Serialisable, hfinal] at h
  have hcovered := (overlapping_iff (j := false) hid storedFields_oneGoal (saves_typing (htexts false))
    (saves_typing (htexts true))).1 h .title
  exact absurd (hcovered ⟨"swim", rfl, by decide⟩) (by decide)

end ConcurrentEdits

end FullStack
