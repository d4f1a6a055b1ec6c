import FullStack.Editor
import Mathlib.Data.Fintype.EquivFin

/-!
# How many goals an editing session creates

An editor in create mode stays enabled while its request is on the way, and every submit sends another
POST, for which the API makes a key from the id of the request. So the session adds at most one item,
however the API serves its open calls, exactly if each submit comes when all earlier requests have been
served and none of them has added an item (`addsAtMostOne_iff`).
-/

namespace FullStack

namespace CreateSession

open AddEditGoal (ApiRequest Props State Input)
open Client (Tab ApiCall World Action Does servedWorld does_step send invocation apiResult TabInv FilledBody
  bodyFields_filled)

def createWorld (user : String) (t : Table) : World := World.step ⟨t, [], []⟩ (.mount user none)

/-- The actions are those of the editor, the API and the network; no other editor is opened. -/
def OneEditor (actions : List Action) : Prop := ∀ user props, Action.mount user props ∉ actions

def Added (before after : Table) (k : Key) : Prop := before.find? k = none ∧ after.find? k ≠ none

def AtMostOneAdded (before after : Table) : Prop := ∀ k k', Added before after k → Added before after k' → k = k'

/-- The editor creates, and every call of it is a POST with two non-empty texts. -/
structure CreateInv (user : String) (w : World) : Prop where
  tabs : ∀ tab ∈ w.tabs, tab.user = user ∧ TabInv tab ∧ tab.state.isExistingGoal = false ∧
    tab.state.showDeleteModal = false
  calls : ∀ call ∈ w.calls, call.user = user ∧ ∃ body, FilledBody body ∧ call.request = .post body

section
variable {user : String} {w w' : World} {a : Action}

theorem CreateInv.init (user : String) (t : Table) : CreateInv user (createWorld user t) := by
  refine ⟨fun tab htab => ?_, fun call hcall => absurd hcall List.not_mem_nil⟩
  rw [List.mem_singleton.1 htab]
  exact ⟨rfl, ⟨.inr ⟨"", rfl⟩, .inr ⟨"", rfl⟩⟩, rfl, rfl⟩

theorem CreateInv.handle (h : CreateInv user w) {tab : Tab} (htab : tab ∈ w.tabs) {input : Input}
    (ha : tab.accepts input = true) :
    (∀ r ∈ (AddEditGoal.handle tab.props tab.state input).2, ∃ body, FilledBody body ∧ r = .post body) ∧
      (AddEditGoal.handle tab.props tab.state input).1.isExistingGoal = false ∧
      (AddEditGoal.handle tab.props tab.state input).1.showDeleteModal = false := by
  obtain ⟨-, hinv, hcreate, hdialog⟩ := h.tabs tab htab
  obtain ⟨-, -, form, hrender, hview⟩ := Client.accepts_cases ha
  have hquiet : ∀ r ∈ (none : Option ApiRequest), ∃ body, FilledBody body ∧ r = .post body := by
    rintro r ⟨⟩
  cases input with
  | change field value => cases field <;> exact ⟨hquiet, hcreate, hdialog⟩
  | submit =>
    refine ⟨fun r hr => ?_, hcreate, hdialog⟩
    have hbody := Client.filledBody_of_accepts hinv.title hinv.content ha
    obtain rfl := Option.some.inj hr
    rw [AddEditGoal.handleSubmit, hcreate]
    exact ⟨_, hbody, rfl⟩
  | cancel => exact ⟨hquiet, hcreate, hdialog⟩
  | openDelete =>
    cases form with
    | none => cases hview
    | some form =>
      have hbutton : form.deleteButton = true := hview
      rw [(Editor.form_of_render hrender).2, hcreate] at hbutton
      cases hbutton
  | closeDelete => exact ⟨hquiet, hcreate, rfl⟩
  | confirmDelete =>
    have hopen : tab.state.showDeleteModal = true := hview
    rw [hdialog] at hopen
    cases hopen

theorem created_onResult {tab : Tab} (h : tab.user = user ∧ TabInv tab ∧ tab.state.isExistingGoal = false ∧
      tab.state.showDeleteModal = false) (body : Json) (result : Option JsVal) :
    (tab.onResult (.post body) result).user = user ∧ TabInv (tab.onResult (.post body) result) ∧
      (tab.onResult (.post body) result).state.isExistingGoal = false ∧
      (tab.onResult (.post body) result).state.showDeleteModal = false := by
  obtain ⟨huser, hinv, hcreate, hdialog⟩ := h
  have hinv' : TabInv (tab.onResult (.post body) result) := Client.tabInv_onResult hinv (by rintro _ _ ⟨⟩)
  rcases Editor.onResult_cases tab (.post body) result with ⟨heq, -⟩ | ⟨value, state, -, hs, -, heq⟩
  · rw [heq] at hinv' ⊢
    exact ⟨huser, hinv', hcreate, hdialog⟩
  · rw [heq] at hinv' ⊢
    cases hs
    exact ⟨huser, hinv', hcreate, hdialog⟩

theorem CreateInv.does (h : CreateInv user w) (hd : Does w a w') (ha : ∀ user props, a ≠ .mount user props) :
    CreateInv user w' := by
  cases hd with
  | mount user props => exact absurd rfl (ha user props)
  | @input i tab input htab hi =>
    have hmem := List.mem_of_getElem? htab
    obtain ⟨huser, hinv, -⟩ := h.tabs tab hmem
    obtain ⟨hsent, hcreate, hdialog⟩ := h.handle hmem hi
    exact ⟨Client.forall_mem_set h.tabs i ⟨huser, Client.tabInv_handle hinv input, hcreate, hdialog⟩,
      Client.forall_mem_send h.calls i tab.user fun r hr => ⟨huser, hsent r hr⟩⟩
  | @route _ i tab tab' htab huser hstate =>
    have hold := h.tabs tab (List.mem_of_getElem? htab)
    refine ⟨Client.forall_mem_set h.tabs i ?_, h.calls⟩
    rw [huser, hstate]
    exact ⟨hold.1, ⟨hstate ▸ hold.2.1.title, hstate ▸ hold.2.1.content⟩, hold.2.2⟩
  | @serve c call context outcome hcall hserved =>
    exact ⟨h.tabs, Client.forall_mem_set h.calls c (h.calls call (List.mem_of_getElem? hcall))⟩
  | @lose c call hcall =>
    exact ⟨h.tabs, Client.forall_mem_set h.calls c (h.calls call (List.mem_of_getElem? hcall))⟩
  | @arrive c call hcall result =>
    have hold := h.calls call (List.mem_of_getElem? hcall)
    refine ⟨?_, Client.forall_mem_set h.calls c hold⟩
    simp only
    split
    next tab htab =>
      obtain ⟨-, body, -, hpost⟩ := hold
      rw [hpost]
      exact Client.forall_mem_set h.tabs _ (created_onResult (h.tabs tab (List.mem_of_getElem? htab)) body result)
    next => exact h.tabs
  | nothing => exact h

theorem invoke_post {body : Json} (hbody : FilledBody body) (user : String) (context : Context)
    (outcome : Option AwsError) (t : Table) :
    ∃ a, (invoke (invocation user (.post body) context outcome) t).2 =
      if outcome.isSome then t else t.insert ⟨user, context.awsRequestId⟩ a := by
  obtain ⟨title, content, -, -, hfields⟩ := bodyFields_filled hbody
  refine ⟨createdAttributes (title, content) context.now, ?_⟩
  rw [invocation, invoke_createGoal, hfields]
  cases outcome <;> rfl

end

/-! ### At most one item -/

/-- Every request has been served, and none has added an item. -/
structure Clear (t : Table) (w : World) : Prop where
  served : ∀ call ∈ w.calls, call.served = true
  none_added : ∀ k, ¬ Added t w.table k

/-- Nothing has been added and at most one request is unserved, or all requests have been served. -/
def OnceInv (t : Table) (w : World) : Prop :=
  (∀ k, ¬ Added t w.table k) ∧ (∃ c, ∀ (i : Nat) (call : ApiCall), w.calls[i]? = some call → call.served = false → i = c) ∨
  AtMostOneAdded t w.table ∧ ∀ call ∈ w.calls, call.served = true

section
variable {user : String} {t : Table} {w w' : World} {a : Action}

theorem atMostOneAdded_of_none (h : ∀ k, ¬ Added t w.table k) : AtMostOneAdded t w.table :=
  fun k _ hk _ => absurd hk (h k)

theorem OnceInv.atMostOneAdded (h : OnceInv t w) : AtMostOneAdded t w.table := by
  rcases h with ⟨hnone, -⟩ | ⟨hone, -⟩
  exacts [atMostOneAdded_of_none hnone, hone]

theorem atMostOneAdded_insert {table : Table} (h : ∀ k, ¬ Added t table k) (k : Key) (a : Attributes) :
    AtMostOneAdded t (table.insert k a) := by
  have honly : ∀ k', Added t (table.insert k a) k' → k' = k := by
    rintro k' ⟨hbefore, hafter⟩
    by_contra hne
    rw [SortedMap.find?_insert_of_ne _ _ hne] at hafter
    exact h k' ⟨hbefore, hafter⟩
  intro k₁ k₂ h₁ h₂
  rw [honly k₁ h₁, honly k₂ h₂]

theorem OnceInv.set (h : OnceInv t w) {c : Nat} {call call' : ApiCall} (hcall : w.calls[c]? = some call)
    (hserved : call'.served = call.served) (tabs : List Tab) : OnceInv t ⟨w.table, tabs, w.calls.set c call'⟩ := by
  rcases h with ⟨hnone, c₀, hunserved⟩ | ⟨hone, hall⟩
  · refine Or.inl ⟨hnone, c₀, fun i x hi hx => ?_⟩
    rcases eq_or_ne c i with rfl | hne
    · rw [List.getElem?_set_self (List.getElem?_eq_some_iff.1 hcall).1] at hi
      obtain rfl := Option.some.inj hi
      exact hunserved c call hcall (hserved.symm.trans hx)
    · rw [List.getElem?_set_ne hne] at hi
      exact hunserved i x hi hx
  · refine Or.inr ⟨hone, Client.forall_mem_set hall c ?_⟩
    rw [hserved]
    exact hall call (List.mem_of_getElem? hcall)

theorem OnceInv.submit (h : Clear t w) (tabs : List Tab) (call : ApiCall) :
    OnceInv t ⟨w.table, tabs, w.calls ++ [call]⟩ := by
  refine Or.inl ⟨h.none_added, w.calls.length, fun j x hx hunserved => ?_⟩
  by_contra hne
  have hj := (List.getElem?_eq_some_iff.1 hx).1
  simp only [List.length_append, List.length_singleton] at hj
  have hlt : j < w.calls.length := by omega
  have hold : w.calls[j]? = some x := by
    rw [← hx]
    exact (List.getElem?_append_left hlt).symm
  have hserved := h.served x (List.mem_of_getElem? hold)
  rw [hunserved] at hserved
  cases hserved

theorem OnceInv.serve (h : OnceInv t w) (hc : CreateInv user w) {c : Nat} {call : ApiCall}
    (hcall : w.calls[c]? = some call) (hserved : call.served = false) (context : Context) (outcome : Option AwsError) :
    OnceInv t (servedWorld w c call context outcome) := by
  obtain ⟨huser, body, hbody, hpost⟩ := hc.calls call (List.mem_of_getElem? hcall)
  rcases h with ⟨hnone, c₀, hunserved⟩ | ⟨-, hall⟩
  · obtain ⟨a, htable⟩ := invoke_post hbody call.user context outcome w.table
    right
    refine ⟨?_, fun x hx => ?_⟩
    · simp only [servedWorld, hpost, htable]
      split_ifs
      · exact atMostOneAdded_of_none hnone
      · exact atMostOneAdded_insert hnone _ _
    · -- the call that was open is served now
      obtain ⟨i, hi⟩ := List.mem_iff_getElem?.1 hx
      rcases eq_or_ne c i with rfl | hne
      · simp only [servedWorld, List.getElem?_set_self (List.getElem?_eq_some_iff.1 hcall).1] at hi
        rw [← Option.some.inj hi]
      · simp only [servedWorld, List.getElem?_set_ne hne] at hi
        by_contra hopen
        exact hne ((hunserved c call hcall hserved).trans (hunserved i x hi (Bool.eq_false_iff.2 hopen)).symm)
  · exact absurd (hall call (List.mem_of_getElem? hcall)) (by rw [hserved]; decide)

theorem OnceInv.does (h : OnceInv t w) (hc : CreateInv user w) (hd : Does w a w')
    (ha : ∀ user props, a ≠ .mount user props)
    (hsafe : ∀ i tab, a = .input i .submit → w.tabs[i]? = some tab → tab.accepts .submit = true → Clear t w) :
    OnceInv t w' := by
  cases hd with
  | mount user props => exact absurd rfl (ha user props)
  | @input i tab input htab hi =>
    have hhandle := (hc.handle (List.mem_of_getElem? htab) hi).1
    cases input with
    | submit => exact .submit (hsafe i tab rfl htab hi) _ _
    | confirmDelete =>
      obtain ⟨body, -, hpost⟩ := hhandle _ rfl
      cases hpost
    | _ => exact h
  | route htab huser hstate => exact h
  | serve context outcome hcall hserved => exact h.serve hc hcall hserved context outcome
  | lose hcall =>
    refine h.set hcall ?_ _
    rfl
  | arrive hcall result =>
    refine h.set hcall ?_ _
    rfl
  | nothing => exact h

end

def runFrom (user : String) (t : Table) (actions : List Action) : World := World.run actions (createWorld user t)

/-- Every submit comes when all earlier requests have been served and none of them has added an item. -/
def SafeSubmits (user : String) (t : Table) (actions : List Action) : Prop :=
  ∀ before i rest tab, actions = before ++ .input i .submit :: rest → (runFrom user t before).tabs[i]? = some tab →
    tab.accepts .submit = true → Clear t (runFrom user t before)

def IsServe (a : Action) : Prop := ∃ c context outcome, a = .serve c context outcome

/-- In every state of the run at most one item has been added, and at most one will be however the API
serves the open calls. -/
def AddsAtMostOne (user : String) (t : Table) (actions : List Action) : Prop :=
  ∀ p, p <+: actions → ∀ serves, (∀ a ∈ serves, IsServe a) → AtMostOneAdded t (runFrom user t (p ++ serves)).table

section
variable {user : String} {t : Table}

theorem runFrom_append (actions actions' : List Action) :
    runFrom user t (actions ++ actions') = World.run actions' (runFrom user t actions) := List.foldl_append

theorem createInv_run {actions : List Action} (hone : OneEditor actions) : CreateInv user (runFrom user t actions) := by
  induction actions using List.reverseRecOn with
  | nil => exact .init user t
  | append_singleton actions a ih =>
    rw [runFrom_append]
    refine (ih fun u props hmem => hone u props (List.mem_append_left _ hmem)).does (does_step _ a) ?_
    rintro u props rfl
    exact hone u props (List.mem_append_right _ (List.mem_singleton_self _))

theorem onceInv_run {actions : List Action} (hone : OneEditor actions) (hsafe : SafeSubmits user t actions) :
    OnceInv t (runFrom user t actions) := by
  induction actions using List.reverseRecOn with
  | nil =>
    refine Or.inl ⟨?_, 0, fun i call hcall => ?_⟩
    · rintro k ⟨hnone, hsome⟩
      exact hsome hnone
    · cases hcall
  | append_singleton actions a ih =>
    have hone' : OneEditor actions := fun u props hmem => hone u props (List.mem_append_left _ hmem)
    have hsafe' : SafeSubmits user t actions := by
      rintro before i rest tab rfl
      exact hsafe before i (rest ++ [a]) tab (by simp)
    rw [runFrom_append]
    refine (ih hone' hsafe').does (createInv_run hone') (does_step _ a) ?_ ?_
    · rintro u props rfl
      exact hone u props (List.mem_append_right _ (List.mem_singleton_self _))
    · rintro i tab rfl htab ha
      exact hsafe actions i [] tab rfl htab ha

/-- Serving an open POST puts an item under the id of the request. -/
theorem serve_post {w : World} (hc : CreateInv user w) {c : Nat} {call : ApiCall} (hcall : w.calls[c]? = some call)
    (hserved : call.served = false) (context : Context) :
    (∃ a, (w.step (.serve c context none)).table = w.table.insert ⟨user, context.awsRequestId⟩ a) ∧
      ∃ call', (w.step (.serve c context none)).calls = w.calls.set c call' := by
  obtain ⟨huser, body, hbody, hpost⟩ := hc.calls call (List.mem_of_getElem? hcall)
  obtain ⟨a, htable⟩ := invoke_post hbody call.user context none w.table
  rw [← hpost, huser] at htable
  have hstep : w.step (.serve c context none) = servedWorld w c call context none := by
    simp only [World.step, hcall, hserved, Bool.false_eq_true, if_false]
    rfl
  rw [hstep, servedWorld, huser]
  exact ⟨⟨a, htable⟩, _, rfl⟩

theorem exists_fresh (t : Table) (user : String) (avoid : List String) :
    ∃ id, t.find? ⟨user, id⟩ = none ∧ id ∉ avoid := by
  obtain ⟨id, hid⟩ := Infinite.exists_notMem_finset (t.entries.map (fun e => e.1.goalId) ++ avoid).toFinset
  rw [List.mem_toFinset, List.mem_append, not_or] at hid
  refine ⟨id, ?_, hid.2⟩
  cases hfind : t.find? ⟨user, id⟩ with
  | none => rfl
  | some a => exact absurd (List.mem_map.2 ⟨_, SortedMap.mem_entries_iff.2 hfind, rfl⟩) hid.1

theorem find?_insert_ne_none {table : Table} {k k' : Key} (a : Attributes) (h : k' = k ∨ table.find? k' ≠ none) :
    (table.insert k a).find? k' ≠ none := by
  rcases eq_or_ne k' k with rfl | hne
  · rw [SortedMap.find?_insert_self]
    exact Option.some_ne_none a
  · rw [SortedMap.find?_insert_of_ne _ _ hne]
    exact h.resolve_left hne

theorem step_submit {w : World} {i : Nat} {tab : Tab} (htab : w.tabs[i]? = some tab) (ha : tab.accepts .submit = true) :
    (w.step (.input i .submit)).table = w.table ∧
      ∃ call : ApiCall, (w.step (.input i .submit)).calls = w.calls ++ [call] ∧ call.served = false := by
  simp only [World.step, htab, if_pos ha]
  exact ⟨trivial, _, rfl, rfl⟩

theorem OneEditor.append_serves {p serves : List Action} (hone : OneEditor p) (hserves : ∀ a ∈ serves, IsServe a) :
    OneEditor (p ++ serves) := by
  intro u props hmem
  rcases List.mem_append.1 hmem with hmem | hmem
  · exact hone u props hmem
  · obtain ⟨c, context, outcome, hserve⟩ := hserves _ hmem
    cases hserve

theorem SafeSubmits.append_serves {p serves : List Action} (hsafe : SafeSubmits user t p)
    (hserves : ∀ a ∈ serves, IsServe a) : SafeSubmits user t (p ++ serves) := by
  intro before i rest tab hsplit htab ha
  have hnot : ∀ l, serves ≠ l ++ .input i .submit :: rest := by
    rintro l rfl
    obtain ⟨c, context, outcome, hserve⟩ := hserves (.input i .submit) (by simp)
    cases hserve
  rcases List.append_eq_append_iff.1 hsplit with ⟨l, -, hl⟩ | ⟨l, hl, hr⟩
  · exact absurd hl (hnot l)
  · rcases l with _ | ⟨a, l⟩
    · exact absurd hr.symm (hnot [])
    · injection hr with hhead _
      subst hhead
      exact hsafe before i l tab hl htab ha

theorem serve_two {p : List Action} (hone : OneEditor p) {c c' : Nat} (hne : c ≠ c') {call call' : ApiCall}
    (hcall : (runFrom user t p).calls[c]? = some call) (hserved : call.served = false)
    (hcall' : (runFrom user t p).calls[c']? = some call') (hserved' : call'.served = false)
    (context context' : Context) :
    ∃ a a', (runFrom user t (p ++ [.serve c context none, .serve c' context' none])).table =
      ((runFrom user t p).table.insert ⟨user, context.awsRequestId⟩ a).insert ⟨user, context'.awsRequestId⟩ a' := by
  have hserve : ∀ a ∈ [Action.serve c context none], IsServe a := fun a ha => ⟨_, _, _, List.mem_singleton.1 ha⟩
  obtain ⟨⟨a, htable⟩, x, hcalls⟩ := serve_post (createInv_run hone) hcall hserved context
  have hrun : runFrom user t (p ++ [.serve c context none]) = (runFrom user t p).step (.serve c context none) :=
    runFrom_append _ _
  rw [← hrun] at htable hcalls
  have hstill : (runFrom user t (p ++ [.serve c context none])).calls[c']? = some call' := by
    rw [hcalls, List.getElem?_set_ne hne, hcall']
  obtain ⟨⟨a', htable'⟩, -⟩ := serve_post (createInv_run (hone.append_serves hserve)) hstill hserved' context'
  refine ⟨a, a', ?_⟩
  rw [← htable, ← htable', runFrom_append, runFrom_append]
  rfl

theorem not_atMostOneAdded_of_two {table : Table} {id id' : String} (hid : t.find? ⟨user, id⟩ = none)
    (hid' : t.find? ⟨user, id'⟩ = none) (hne : id' ≠ id) (a a' : Attributes) :
    ¬ AtMostOneAdded t ((table.insert ⟨user, id⟩ a).insert ⟨user, id'⟩ a') := by
  intro h
  have hkey := h ⟨user, id⟩ ⟨user, id'⟩
    ⟨hid, find?_insert_ne_none a' (.inr (find?_insert_ne_none a (.inl rfl)))⟩
    ⟨hid', find?_insert_ne_none a' (.inl rfl)⟩
  injection hkey with _ hids
  exact hne hids.symm

/-- If a submit comes while an earlier request is open, both may add an item. -/
theorem served_of_addsAtMostOne {p : List Action} (hone : OneEditor p)
    (h : ∀ serves, (∀ a ∈ serves, IsServe a) → AtMostOneAdded t (runFrom user t (p ++ serves)).table)
    {c c' : Nat} (hne : c ≠ c') {call call' : ApiCall} (hcall : (runFrom user t p).calls[c]? = some call)
    (hserved : call.served = false) (hcall' : (runFrom user t p).calls[c']? = some call') : call'.served = true := by
  by_contra hopen
  rw [Bool.not_eq_true] at hopen
  obtain ⟨id, hid, -⟩ := exists_fresh t user []
  obtain ⟨id', hid', hfresh⟩ := exists_fresh t user [id]
  obtain ⟨a, a', htable⟩ := serve_two hone hne hcall hserved hcall' hopen ⟨id, 0⟩ ⟨id', 0⟩
  have hboth := h [.serve c ⟨id, 0⟩ none, .serve c' ⟨id', 0⟩ none] (by
    intro b hb
    rcases List.mem_cons.1 hb with rfl | hb
    · exact ⟨_, _, _, rfl⟩
    · exact ⟨_, _, _, List.mem_singleton.1 hb⟩)
  rw [htable] at hboth
  exact not_atMostOneAdded_of_two hid hid' (fun hids => hfresh (List.mem_singleton.2 hids)) a a' hboth

/-- If a submit comes when an item has been added, its request may add another. -/
theorem none_added_of_addsAtMostOne {p : List Action} (hone : OneEditor p)
    (h : ∀ serves, (∀ a ∈ serves, IsServe a) → AtMostOneAdded t (runFrom user t (p ++ serves)).table)
    {c : Nat} {call : ApiCall} (hcall : (runFrom user t p).calls[c]? = some call) (hserved : call.served = false)
    (k : Key) : ¬ Added t (runFrom user t p).table k := by
  rintro ⟨hbefore, hafter⟩
  obtain ⟨id, hid, hfresh⟩ := exists_fresh t user [k.goalId]
  obtain ⟨⟨a, htable⟩, -⟩ := serve_post (createInv_run hone) hcall hserved ⟨id, 0⟩
  have hboth := h [.serve c ⟨id, 0⟩ none] fun b hb => ⟨_, _, _, List.mem_singleton.1 hb⟩
  have hfinal : (runFrom user t (p ++ [.serve c ⟨id, 0⟩ none])).table = (runFrom user t p).table.insert ⟨user, id⟩ a := by
    rw [← htable, runFrom_append]
    rfl
  rw [hfinal] at hboth
  have hkey := hboth ⟨user, id⟩ k ⟨hid, find?_insert_ne_none a (.inl rfl)⟩ ⟨hbefore, find?_insert_ne_none a (.inr hafter)⟩
  exact hfresh (by rw [← hkey]; exact List.mem_singleton_self _)

end

/-- An editing session adds at most one item, however the API serves its open calls, exactly if every submit
comes when all earlier requests have been served and none of them has added an item. -/
theorem addsAtMostOne_iff {user : String} {t : Table} {actions : List Action} (hone : OneEditor actions) :
    AddsAtMostOne user t actions ↔ SafeSubmits user t actions := by
  have hopens : ∀ p, p <+: actions → OneEditor p := fun p hp u props hmem => hone u props (hp.subset hmem)
  constructor
  · rintro h before i rest tab hactions htab ha
    have hp : before ++ [.input i .submit] <+: actions := ⟨rest, by rw [hactions, List.append_assoc]; rfl⟩
    have hrun : runFrom user t (before ++ [.input i .submit]) = (runFrom user t before).step (.input i .submit) :=
      runFrom_append _ _
    obtain ⟨htable, call, hcalls, hopen⟩ := step_submit htab ha
    rw [← hrun] at htable hcalls
    have hnew : (runFrom user t (before ++ [.input i .submit])).calls[(runFrom user t before).calls.length]? =
        some call := by
      rw [hcalls, List.getElem?_concat_length]
    refine ⟨fun x hx => ?_, fun k hk => ?_⟩
    · obtain ⟨c, hc⟩ := List.mem_iff_getElem?.1 hx
      have hlt := (List.getElem?_eq_some_iff.1 hc).1
      refine served_of_addsAtMostOne (hopens _ hp) (h _ hp) (Nat.ne_of_gt hlt) hnew hopen ?_
      rw [hcalls, List.getElem?_append_left hlt, hc]
    · refine none_added_of_addsAtMostOne (hopens _ hp) (h _ hp) hnew hopen k ?_
      rwa [htable]
  · intro hsafe p hp serves hserves
    have hsafe' : SafeSubmits user t p := by
      rintro before i rest tab rfl
      obtain ⟨rest', rfl⟩ := hp
      exact hsafe before i (rest ++ rest') tab (by simp)
    exact (onceInv_run ((hopens p hp).append_serves hserves) (hsafe'.append_serves hserves)).atMostOneAdded

def fillIn : List Action := [.input 0 (.change .title "run"), .input 0 (.change .content "5 km")]

/-- One submit. -/
theorem addsAtMostOne_submit : AddsAtMostOne "u" .empty (fillIn ++ [.input 0 .submit]) := by
  refine (addsAtMostOne_iff ?_).2 fun before i rest tab hactions htab ha => ?_
  · intro user props hmem
    simp [fillIn] at hmem
  · obtain rfl : before = fillIn := by
      rcases before with _ | ⟨a, _ | ⟨b, _ | ⟨c, before⟩⟩⟩
      · cases hactions
      · cases hactions
      · cases hactions
        rfl
      · have hlength := congrArg List.length hactions
        simp [fillIn] at hlength
    exact ⟨List.forall_mem_nil _, fun k hk => hk.2 hk.1⟩

def twoClicks : List Action := fillIn ++ [.input 0 .submit, .input 0 .submit]

theorem calls_twoClicks : ∃ call call' : ApiCall, (runFrom "u" .empty twoClicks).calls = [call, call'] ∧
    call.served = false ∧ call'.served = false := ⟨_, _, rfl, rfl, rfl⟩

/-- Two clicks before the first response, and each adds an item. -/
theorem not_atMostOneAdded_two_clicks :
    ¬ AtMostOneAdded .empty
      (runFrom "u" .empty (twoClicks ++ [.serve 0 ⟨"r0", 0⟩ none, .serve 1 ⟨"r1", 1⟩ none])).table := by
  have hone : OneEditor twoClicks := by
    intro user props hmem
    simp [twoClicks, fillIn] at hmem
  obtain ⟨call, call', hcalls, hserved, hserved'⟩ := calls_twoClicks
  have hcall : (runFrom "u" .empty twoClicks).calls[0]? = some call := by rw [hcalls]; rfl
  have hcall' : (runFrom "u" .empty twoClicks).calls[1]? = some call' := by rw [hcalls]; rfl
  obtain ⟨a, a', htable⟩ := serve_two hone Nat.zero_ne_one hcall hserved hcall' hserved' ⟨"r0", 0⟩ ⟨"r1", 1⟩
  rw [htable]
  exact not_atMostOneAdded_of_two rfl rfl (by decide) a a'

end CreateSession

end FullStack
