import FullStack.Client
import FullStack.Isolation
import FullStack.Lib.Places

/-!
# Users of the web client do not see each other

`view u w` is what belongs to the user `u` in a world of many users: the items under `u`, the editors of `u` and
their calls, with editors and calls numbered among those of `u` (`Places.place`). An action of `u` does to this
view what it does in a world that `u` has alone, and an action of anyone else does nothing to it (`view_step`);
so a run looks to `u` like the run of the actions of `u` (`run_private`).
-/

namespace FullStack

namespace ClientIsolation

open AddEditGoal (ApiRequest Props State Input)
open Client (Tab ApiCall World Action send invocation apiResult)
open Places (place)

def ownTab (u : String) (tab : Tab) : Bool := tab.user = u

def ownCall (u : String) (call : ApiCall) : Bool := call.user = u

/-- The call with its editor numbered among those of `u`. -/
def renumber (u : String) (tabs : List Tab) (call : ApiCall) : ApiCall :=
  { call with tab := place (ownTab u) tabs call.tab }

def ownTabs (u : String) (tabs : List Tab) : List Tab := tabs.filter (ownTab u)

def ownCalls (u : String) (tabs : List Tab) (calls : List ApiCall) : List ApiCall :=
  (calls.filter (ownCall u)).map (renumber u tabs)

def view (u : String) (w : World) : World :=
  ⟨userPartition w.table u, ownTabs u w.tabs, ownCalls u w.tabs w.calls⟩

def actor (w : World) : Action → Option String
  | .mount user _ => some user
  | .input i _ => (w.tabs[i]?).map Tab.user
  | .navigate i _ => (w.tabs[i]?).map Tab.user
  | .leave i => (w.tabs[i]?).map Tab.user
  | .serve c _ _ => (w.calls[c]?).map ApiCall.user
  | .lose c => (w.calls[c]?).map ApiCall.user
  | .arrive c => (w.calls[c]?).map ApiCall.user

/-- The action with editors and calls numbered among those of `u`. -/
def translate (u : String) (w : World) : Action → Action
  | .mount user props => .mount user props
  | .input i input => .input (place (ownTab u) w.tabs i) input
  | .navigate i props => .navigate (place (ownTab u) w.tabs i) props
  | .leave i => .leave (place (ownTab u) w.tabs i)
  | .serve c context outcome => .serve (place (ownCall u) w.calls c) context outcome
  | .lose c => .lose (place (ownCall u) w.calls c)
  | .arrive c => .arrive (place (ownCall u) w.calls c)

/-- The actions of `u` in a run, as they are in the world of `u` alone. -/
def ownActions (u : String) : List Action → World → List Action
  | [], _ => []
  | a :: rest, w =>
    (if actor w a = some u then [translate u w a] else []) ++ ownActions u rest (w.step a)

def OfEditor (tabs : List Tab) (call : ApiCall) : Prop := ∃ tab, tabs[call.tab]? = some tab ∧ tab.user = call.user

theorem OfEditor.append {tabs : List Tab} {call : ApiCall} (h : OfEditor tabs call) (tab : Tab) :
    OfEditor (tabs ++ [tab]) call := by
  obtain ⟨tab', htab', huser⟩ := h
  obtain ⟨hlt, -⟩ := List.getElem?_eq_some_iff.1 htab'
  exact ⟨tab', by rw [List.getElem?_append_left hlt, htab'], huser⟩

theorem OfEditor.set {tabs : List Tab} {call : ApiCall} (h : OfEditor tabs call) {i : Nat} {tab tab' : Tab}
    (htab : tabs[i]? = some tab) (huser : tab'.user = tab.user) : OfEditor (tabs.set i tab') call := by
  obtain ⟨tab₁, htab₁, huser₁⟩ := h
  rw [OfEditor, List.getElem?_set]
  split_ifs with heq hlt
  · subst heq
    obtain rfl := Option.some.inj (htab.symm.trans htab₁)
    exact ⟨tab', rfl, huser.trans huser₁⟩
  · exact absurd (List.getElem?_eq_some_iff.1 htab).1 (heq ▸ hlt)
  · exact ⟨tab₁, htab₁, huser₁⟩

def Owners (w : World) : Prop := ∀ call ∈ w.calls, OfEditor w.tabs call

theorem onResult_user (tab : Tab) (request : ApiRequest) (result : Option JsVal) :
    (tab.onResult request result).user = tab.user := by
  cases result with
  | none => rfl
  | some value =>
    rw [Tab.onResult]
    cases AddEditGoal.onResponse tab.props request value tab.state with
    | error e => rfl
    | ok state =>
      simp only
      split_ifs <;> rfl

theorem Owners.step {w : World} (h : Owners w) (a : Action) : Owners (w.step a) := by
  have hdoes := Client.does_step w a
  generalize w.step a = w' at hdoes
  cases hdoes with
  | mount user props =>
    exact Client.forall_mem_send (fun call hcall => (h call hcall).append _) _ _ fun request _ =>
      ⟨Tab.setState ⟨user, props, AddEditGoal.initialState, true⟩ _, List.getElem?_concat_length, rfl⟩
  | @input i tab input htab ha =>
    obtain ⟨hlt, -⟩ := List.getElem?_eq_some_iff.1 htab
    have huser : ∀ state, (tab.setState state).user = tab.user := fun state => rfl
    exact Client.forall_mem_send (fun call hcall => (h call hcall).set htab (huser _)) _ _ fun request _ =>
      ⟨tab.setState (AddEditGoal.handle tab.props tab.state input).1, List.getElem?_set_self hlt, rfl⟩
  | route htab huser hstate => exact fun call hcall => (h call hcall).set htab huser
  | @serve c call context outcome hcall hserved =>
    exact Client.forall_mem_set h c (h call (List.mem_of_getElem? hcall))
  | @lose c call hcall => exact Client.forall_mem_set h c (h call (List.mem_of_getElem? hcall))
  | @arrive c call hcall result hresult =>
    have hmem := List.mem_of_getElem? hcall
    simp only [Owners]
    split
    next tab htab =>
      have huser := onResult_user tab call.request result
      exact Client.forall_mem_set (fun call₁ hcall₁ => (h call₁ hcall₁).set htab huser) c ((h call hmem).set htab huser)
    next => exact Client.forall_mem_set h c (h call hmem)
  | nothing => exact h

section
variable {u : String} {tabs : List Tab} {calls : List ApiCall} {i c : Nat} {tab tab' : Tab} {call call' : ApiCall}

theorem ownTab_of_eq (hu : tab.user = u) : ownTab u tab = true := decide_eq_true hu

theorem ownTab_of_ne (hu : tab.user ≠ u) : ownTab u tab = false := decide_eq_false hu

theorem ownCall_of_eq (hu : call.user = u) : ownCall u call = true := decide_eq_true hu

theorem ownCall_of_ne (hu : call.user ≠ u) : ownCall u call = false := decide_eq_false hu

theorem getElem?_ownTabs (htab : tabs[i]? = some tab) (hu : tab.user = u) :
    (ownTabs u tabs)[place (ownTab u) tabs i]? = some tab := Places.getElem?_place htab (ownTab_of_eq hu)

theorem getElem?_ownCalls (hcall : calls[c]? = some call) (hu : call.user = u) :
    (ownCalls u tabs calls)[place (ownCall u) calls c]? = some (renumber u tabs call) := by
  rw [ownCalls, List.getElem?_map, Places.getElem?_place hcall (ownCall_of_eq hu), Option.map_some]

theorem place_setTab (htab : tabs[i]? = some tab) (huser : tab'.user = tab.user) (j : Nat) :
    place (ownTab u) (tabs.set i tab') j = place (ownTab u) tabs j :=
  Places.place_set htab (by rw [ownTab, ownTab, huser]) j

theorem ownCalls_setTab (htab : tabs[i]? = some tab) (huser : tab'.user = tab.user) :
    ownCalls u (tabs.set i tab') calls = ownCalls u tabs calls := by
  refine List.map_congr_left fun call _ => ?_
  rw [renumber, place_setTab htab huser, renumber]

theorem ownCalls_addTab (h : ∀ call ∈ calls, OfEditor tabs call) (tab : Tab) :
    ownCalls u (tabs ++ [tab]) calls = ownCalls u tabs calls := by
  refine List.map_congr_left fun call hcall => ?_
  obtain ⟨tab', htab', -⟩ := h call (List.mem_of_mem_filter hcall)
  obtain ⟨hlt, -⟩ := List.getElem?_eq_some_iff.1 htab'
  rw [renumber, Places.place_append hlt.le, renumber]

theorem ownCalls_send (request : Option ApiRequest) : ownCalls u tabs (send calls i u request) =
    send (ownCalls u tabs calls) (place (ownTab u) tabs i) u request := by
  cases request with
  | none => rfl
  | some request => simp [ownCalls, send, ownCall, renumber]

theorem ownCalls_send_of_ne {user : String} (hu : user ≠ u) (request : Option ApiRequest) :
    ownCalls u tabs (send calls i user request) = ownCalls u tabs calls := by
  cases request with
  | none => rfl
  | some request => simp [ownCalls, send, ownCall, hu]

theorem ownCalls_set (hcall : calls[c]? = some call) (huser : call'.user = call.user) (hu : call.user = u) :
    ownCalls u tabs (calls.set c call') =
      (ownCalls u tabs calls).set (place (ownCall u) calls c) (renumber u tabs call') := by
  rw [ownCalls, Places.filter_set hcall (ownCall_of_eq hu) (ownCall_of_eq (huser.trans hu)), List.map_set, ownCalls]

theorem ownCalls_set_of_ne (hcall : calls[c]? = some call) (huser : call'.user = call.user) (hu : call.user ≠ u) :
    ownCalls u tabs (calls.set c call') = ownCalls u tabs calls := by
  rw [ownCalls, Places.filter_set_of_not hcall (ownCall_of_ne hu) (ownCall_of_ne (huser ▸ hu)), ownCalls]

theorem ownTabs_set (htab : tabs[i]? = some tab) (huser : tab'.user = tab.user) (hu : tab.user = u) :
    ownTabs u (tabs.set i tab') = (ownTabs u tabs).set (place (ownTab u) tabs i) tab' :=
  Places.filter_set htab (ownTab_of_eq hu) (ownTab_of_eq (huser.trans hu))

theorem ownTabs_set_of_ne (htab : tabs[i]? = some tab) (huser : tab'.user = tab.user) (hu : tab.user ≠ u) :
    ownTabs u (tabs.set i tab') = ownTabs u tabs :=
  Places.filter_set_of_not htab (ownTab_of_ne hu) (ownTab_of_ne (huser ▸ hu))

theorem ownTabs_add (hu : tab.user = u) : ownTabs u (tabs ++ [tab]) = ownTabs u tabs ++ [tab] := by
  rw [ownTabs, List.filter_append, List.filter_cons_of_pos (ownTab_of_eq hu)]
  rfl

theorem ownTabs_add_of_ne (hu : tab.user ≠ u) : ownTabs u (tabs ++ [tab]) = ownTabs u tabs := by
  rw [ownTabs, List.filter_append, List.filter_cons_of_neg (by rw [ownTab_of_ne hu]; simp)]
  exact List.append_nil _

end

section
variable {u : String} {w : World} {i c : Nat} {tab : Tab} {call : ApiCall}

theorem view_mount (h : Owners w) (props : Props) :
    view u (w.step (.mount u props)) = (view u w).step (.mount u props) := by
  have huser : ∀ state, (Tab.setState ⟨u, props, AddEditGoal.initialState, true⟩ state).user = u := fun state => rfl
  simp only [World.step, view]
  rw [ownTabs_add (huser _), ownCalls_send, ownCalls_addTab h, Places.place_append (Nat.le_refl _), Places.place_length]
  rfl

theorem view_input (htab : w.tabs[i]? = some tab) (hu : tab.user = u) (input : Input) :
    view u (w.step (.input i input)) = (view u w).step (.input (place (ownTab u) w.tabs i) input) := by
  have hsame : ∀ state, (tab.setState state).user = tab.user := fun state => rfl
  simp only [World.step, htab, view, getElem?_ownTabs htab hu]
  split_ifs with ha
  · subst hu
    simp only
    rw [ownTabs_set htab (hsame _) rfl, ownCalls_send, ownCalls_setTab htab (hsame _), place_setTab htab (hsame _)]
  · rfl

theorem view_route {tab' : Tab} (htab : w.tabs[i]? = some tab) (huser : tab'.user = tab.user) (hu : tab.user = u) :
    view u { w with tabs := w.tabs.set i tab' } =
      { view u w with tabs := (view u w).tabs.set (place (ownTab u) w.tabs i) tab' } := by
  simp only [view]
  rw [ownTabs_set htab huser hu, ownCalls_setTab htab huser]

theorem view_serve (hcall : w.calls[c]? = some call) (hu : call.user = u) (context : Context)
    (outcome : Option AwsError) : view u (w.step (.serve c context outcome)) =
      (view u w).step (.serve (place (ownCall u) w.calls c) context outcome) := by
  subst hu
  have hown : (invocation call.user call.request context outcome).user = call.user := by
    cases call.request <;> rfl
  have hinvoke := invoke_partition (invocation call.user call.request context outcome) w.table
  rw [hown] at hinvoke
  simp only [World.step, hcall, view, getElem?_ownCalls hcall rfl]
  cases hserved : call.served with
  | true => simp [renumber, hserved]
  | false =>
    simp only [renumber, hserved, Bool.false_eq_true, if_false, hinvoke]
    refine congrArg (World.mk _ _) (ownCalls_set hcall ?_ rfl)
    rfl

theorem view_lose (hcall : w.calls[c]? = some call) (hu : call.user = u) :
    view u (w.step (.lose c)) = (view u w).step (.lose (place (ownCall u) w.calls c)) := by
  simp only [World.step, hcall, view, getElem?_ownCalls hcall hu]
  refine congrArg (World.mk _ _) (ownCalls_set hcall ?_ hu)
  rfl

theorem view_arrive (h : Owners w) (hcall : w.calls[c]? = some call) (hu : call.user = u) :
    view u (w.step (.arrive c)) = (view u w).step (.arrive (place (ownCall u) w.calls c)) := by
  obtain ⟨tab, htab, huser⟩ := h call (List.mem_of_getElem? hcall)
  have hview := getElem?_ownTabs htab (huser.trans hu)
  have hsame := onResult_user tab call.request
  simp only [World.step, hcall, view, getElem?_ownCalls hcall hu, htab]
  cases harrived : call.arrived with
  | true => simp [renumber, harrived]
  | false =>
    cases hresult : call.result with
    | none => simp [renumber, harrived, hresult]
    | some result =>
      simp only [renumber, harrived, hresult, hview]
      rw [ownTabs_set htab (hsame result) (huser.trans hu), ownCalls_setTab htab (hsame result)]
      refine congrArg (World.mk _ _) (ownCalls_set hcall ?_ hu)
      rfl

end

section
variable {u : String} {w : World} {i c : Nat} {tab : Tab} {call : ApiCall}

theorem view_mount_of_ne (h : Owners w) {user : String} (hu : user ≠ u) (props : Props) :
    view u (w.step (.mount user props)) = view u w := by
  simp only [World.step, view]
  rw [ownCalls_send_of_ne hu, ownCalls_addTab h]
  refine congrArg (World.mk _ · _) (ownTabs_add_of_ne ?_)
  exact hu

theorem view_setTab_of_ne {tab' : Tab} (htab : w.tabs[i]? = some tab) (huser : tab'.user = tab.user)
    (hu : tab.user ≠ u) : view u { w with tabs := w.tabs.set i tab' } = view u w := by
  simp only [view]
  rw [ownTabs_set_of_ne htab huser hu, ownCalls_setTab htab huser]

theorem view_setCall_of_ne {call' : ApiCall} (hcall : w.calls[c]? = some call) (huser : call'.user = call.user)
    (hu : call.user ≠ u) : view u { w with calls := w.calls.set c call' } = view u w := by
  simp only [view]
  rw [ownCalls_set_of_ne hcall huser hu]

theorem view_input_of_ne (htab : w.tabs[i]? = some tab) (hu : tab.user ≠ u) (input : Input) :
    view u (w.step (.input i input)) = view u w := by
  simp only [World.step, htab]
  split_ifs with ha
  · have hsame : (tab.setState (AddEditGoal.handle tab.props tab.state input).1).user = tab.user := rfl
    simp only [view]
    rw [ownTabs_set_of_ne htab hsame hu, ownCalls_send_of_ne hu, ownCalls_setTab htab hsame]
  · rfl

theorem view_serve_of_ne (hcall : w.calls[c]? = some call) (hu : call.user ≠ u) (context : Context)
    (outcome : Option AwsError) : view u (w.step (.serve c context outcome)) = view u w := by
  have hother : (invocation call.user call.request context outcome).user ≠ u := by
    cases call.request <;> exact hu
  simp only [World.step, hcall]
  split_ifs
  · rfl
  · simp only [view]
    rw [invoke_partition_of_ne hother]
    refine congrArg (World.mk _ _) (ownCalls_set_of_ne hcall ?_ hu)
    rfl

theorem view_arrive_of_ne (h : Owners w) (hcall : w.calls[c]? = some call) (hu : call.user ≠ u) :
    view u (w.step (.arrive c)) = view u w := by
  obtain ⟨tab, htab, huser⟩ := h call (List.mem_of_getElem? hcall)
  have hsame := onResult_user tab call.request
  simp only [World.step, hcall, htab]
  split
  next result _ hresult =>
    simp only [view]
    rw [ownTabs_set_of_ne htab (hsame _) (huser ▸ hu), ownCalls_setTab htab (hsame _)]
    refine congrArg (World.mk _ _) (ownCalls_set_of_ne hcall ?_ hu)
    rfl
  next => rfl

end

/-! ### Runs -/

/-- An action of `u` shows as it would in a world that `u` has alone, and any other one does not show. -/
theorem view_step {w : World} (h : Owners w) (u : String) (a : Action) :
    view u (w.step a) = if actor w a = some u then (view u w).step (translate u w a) else view u w := by
  cases a with
  | mount user props =>
    by_cases hu : user = u
    · subst hu
      rw [if_pos (by rfl)]
      exact view_mount h props
    · rw [if_neg (by simp [actor, hu])]
      exact view_mount_of_ne h hu props
  | input i input =>
    cases htab : w.tabs[i]? with
    | none => simp [actor, World.step, htab]
    | some tab =>
      by_cases hu : tab.user = u
      · rw [if_pos (by simp [actor, htab, hu])]
        exact view_input htab hu input
      · rw [if_neg (by simp [actor, htab, hu])]
        exact view_input_of_ne htab hu input
  | navigate i props =>
    cases htab : w.tabs[i]? with
    | none => simp [actor, World.step, htab]
    | some tab =>
      by_cases hu : tab.user = u
      · rw [if_pos (by simp [actor, htab, hu])]
        have hown : (view u w).tabs[place (ownTab u) w.tabs i]? = some tab := getElem?_ownTabs htab hu
        simp only [World.step, translate, htab, hown]
        exact view_route htab rfl hu
      · rw [if_neg (by simp [actor, htab, hu])]
        simp only [World.step, htab]
        exact view_setTab_of_ne htab rfl hu
  | leave i =>
    cases htab : w.tabs[i]? with
    | none => simp [actor, World.step, htab]
    | some tab =>
      by_cases hu : tab.user = u
      · rw [if_pos (by simp [actor, htab, hu])]
        have hown : (view u w).tabs[place (ownTab u) w.tabs i]? = some tab := getElem?_ownTabs htab hu
        simp only [World.step, translate, htab, hown]
        exact view_route htab rfl hu
      · rw [if_neg (by simp [actor, htab, hu])]
        simp only [World.step, htab]
        exact view_setTab_of_ne htab rfl hu
  | serve c context outcome =>
    cases hcall : w.calls[c]? with
    | none => simp [actor, World.step, hcall]
    | some call =>
      by_cases hu : call.user = u
      · rw [if_pos (by simp [actor, hcall, hu])]
        exact view_serve hcall hu context outcome
      · rw [if_neg (by simp [actor, hcall, hu])]
        exact view_serve_of_ne hcall hu context outcome
  | lose c =>
    cases hcall : w.calls[c]? with
    | none => simp [actor, World.step, hcall]
    | some call =>
      by_cases hu : call.user = u
      · rw [if_pos (by simp [actor, hcall, hu])]
        exact view_lose hcall hu
      · rw [if_neg (by simp [actor, hcall, hu])]
        simp only [World.step, hcall]
        exact view_setCall_of_ne hcall rfl hu
  | arrive c =>
    cases hcall : w.calls[c]? with
    | none => simp [actor, World.step, hcall]
    | some call =>
      by_cases hu : call.user = u
      · rw [if_pos (by simp [actor, hcall, hu])]
        exact view_arrive h hcall hu
      · rw [if_neg (by simp [actor, hcall, hu])]
        exact view_arrive_of_ne h hcall hu

theorem view_run {w : World} (h : Owners w) (u : String) (actions : List Action) :
    view u (World.run actions w) = World.run (ownActions u actions w) (view u w) := by
  induction actions generalizing w with
  | nil => rfl
  | cons a rest ih =>
    have hrest := ih (h.step a)
    rw [view_step h] at hrest
    change view u (World.run rest (w.step a)) = _
    rw [hrest, ownActions]
    split_ifs
    · rfl
    · rfl

/-- Whatever the other users do in a run, their editors open, their calls served, lost or answered in any order:
the items, the editors and the calls of `u` are those of the run of the actions of `u` alone. -/
theorem run_private (u : String) (actions : List Action) :
    view u (World.run actions .init) = World.run (ownActions u actions .init) .init :=
  view_run (by simp [Owners, World.init]) u actions

end ClientIsolation

end FullStack
