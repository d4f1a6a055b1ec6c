import FullStack.Home
import FullStack.SessionFlag

/-!
# The pages of the app

A document as the browser loads it: `App` with its session check, `Routes`, and the mounted page. `Home` asks for
the goals when it is mounted, if the user is signed in by then, and never again. So what it shows depends on what has
become of its own request (`home_screen`): a list was asked for after the last sign-out, and a `Home` that was
mounted signed out shows a spinner for ever once the flag is set.
-/

namespace FullStack

open Authentication (Store OpAnswer AuthCall AuthAnswer Rejection)
open Authentication.SessionFlag (Input flag flagEffect)

namespace Routes

inductive Page where
  | home
  | login
  | signup
  | goal (id : Option String)
  | notFound
deriving DecidableEq

/-- An `exact` path: the case of the letters does not matter, and neither does a slash at the end. -/
def matchesPath (path pathname : List Char) : Bool :=
  pathname.map Char.toLower = path || pathname.map Char.toLower = path ++ ['/']

/-- The segment that `/goal/:id?` finds after `/goal/`. -/
def goalSegment (pathname : List Char) : Option (List Char) :=
  let segment := (pathname.drop 6).takeWhile fun c => c ≠ '/'
  let rest := (pathname.drop 6).dropWhile fun c => c ≠ '/'
  if (pathname.take 6).map Char.toLower = ['/', 'g', 'o', 'a', 'l', '/'] ∧ segment ≠ [] ∧
    (rest = [] ∨ rest = ['/']) then some segment else none

/-- The first route of `Routes` that matches. -/
def page (pathname : String) : Page :=
  if matchesPath [] pathname.toList then .home
  else if matchesPath ['/', 'l', 'o', 'g', 'i', 'n'] pathname.toList then .login
  else if matchesPath ['/', 's', 'i', 'g', 'n', 'u', 'p'] pathname.toList then .signup
  else if matchesPath ['/', 'g', 'o', 'a', 'l'] pathname.toList then .goal none
  else match goalSegment pathname.toList with
    | some segment => .goal (some (String.ofList segment))
    | none => .notFound

end Routes

namespace Home

structure State where
  isLoading : Bool
  goals : JsVal
  redirect : Bool

def initialState : State where
  isLoading := true
  goals := some (.arr [])
  redirect := false

inductive Screen where
  | landing
  | spinner
  | list (rows : List Row)

mutual
/-- React renders no object, and no array with an object in it. -/
def isChild : Json → Bool
  | .arr vs => areChildren vs
  | .obj _ => false
  | _ => true

def areChildren : List Json → Bool
  | [] => true
  | v :: vs => isChild v && areChildren vs
end

def Row.isRendered (row : Row) : Bool := (row.title.map isChild).getD true

/-- The table of the goals, as far as React renders its rows. -/
def renderList (goals : JsVal) : Except JsError Screen := do
  let rows ← renderGoalsList goals
  if rows.all Row.isRendered then return .list rows
  else throw .invariantViolation

/-- `render` where it does not redirect. -/
def render (isAuthenticated : Bool) (state : State) : Except JsError Screen :=
  if isAuthenticated then
    if state.isLoading then .ok .spinner
    else renderList state.goals
  else .ok .landing

def onCreate (state : State) : State := { state with redirect := true }

/-- The rest of `componentDidMount`, when the request has settled. -/
def onGoals (result : Except String JsVal) (state : State) : State :=
  match result with
  | .ok goals => { state with goals := goals, isLoading := false }
  | .error _ => { state with isLoading := false }

end Home

namespace Pages

open Routes (Page)

/-! ### The document -/

inductive Component where
  | home (state : Home.State)
  | login
  | signup
  | goal
  | notFound

structure Mounted where
  id : Nat
  component : Component

/-- What has happened to the requests for the goals, by the number of the `Home` that made them. -/
inductive Entry where
  | signedOut
  | sent (id : Nat)
  | answered (id : Nat) (result : Except String JsVal)

abbrev AuthEvent := Authentication.SessionFlag.Event

def authStep (event : AuthEvent) (w : Authentication.SessionFlag.World) :
    Option Authentication.SessionFlag.Settled × Authentication.SessionFlag.World :=
  Async.step Authentication.exec Authentication.SessionFlag.answer Authentication.SessionFlag.program event w

structure Document where
  auth : Authentication.SessionFlag.World
  pathname : String
  mounted : Option Mounted
  next : Nat
  trace : List Entry
  crashed : Bool

namespace Document
variable (doc : Document)

def isAuthenticated : Bool := flag doc.auth.store

def component : Page → Component
  | .home => .home Home.initialState
  | .login => .login
  | .signup => .signup
  | .goal _ => .goal
  | .notFound => .notFound

/-- A page of the same component keeps the instance. -/
def keeps : Component → Page → Bool
  | .home _, .home => true
  | .login, .login => true
  | .signup, .signup => true
  | .goal, .goal _ => true
  | .notFound, .notFound => true
  | _, _ => false

/-- A new instance; `componentDidMount` of `Home` asks for the goals of a user who is signed in. -/
def mount (page : Page) : Document :=
  { doc with
    mounted := some ⟨doc.next, component page⟩
    next := doc.next + 1
    trace := doc.trace ++ if page = .home ∧ doc.isAuthenticated then [.sent doc.next] else [] }

/-- `App.render` and `Routes`. -/
def commit : Document :=
  if doc.auth.store.app.isAuthenticating then { doc with mounted := none }
  else match doc.mounted with
    | some m => if keeps m.component (Routes.page doc.pathname) then doc else doc.mount (Routes.page doc.pathname)
    | none => doc.mount (Routes.page doc.pathname)

def redirect : Option String :=
  match doc.mounted with
  | some ⟨id, .login⟩ => if (doc.auth.store.login id).redirect then some "/" else none
  | some ⟨id, .signup⟩ => if (doc.auth.store.signup id).redirect then some "/" else none
  | some ⟨_, .home state⟩ => if state.redirect then some "/goal/" else none
  | _ => none

/-- An exception in `render` takes the whole app down. -/
def guard : Document :=
  match doc.mounted with
  | some ⟨_, .home state⟩ =>
    match Home.render doc.isAuthenticated state with
    | .ok _ => doc
    | .error _ => { doc with mounted := none, crashed := true }
  | _ => doc

def render : Document :=
  if doc.crashed then doc
  else match doc.commit.redirect with
    | some pathname => guard (commit { doc.commit with pathname := pathname })
    | none => guard doc.commit

def showsLogin (i : Nat) : Bool :=
  match doc.mounted with
  | some ⟨id, .login⟩ => id = i
  | _ => false

def showsSignup (i : Nat) : Bool :=
  match doc.mounted with
  | some ⟨id, .signup⟩ => id = i
  | _ => false

/-- The button or the form that starts the handler is there. -/
def accepts : Input → Bool
  | .logout => doc.mounted.isSome && doc.isAuthenticated
  | .changeLogin i _ _ => doc.showsLogin i
  | .login i _ => doc.showsLogin i
  | .changeSignup i _ _ => doc.showsSignup i
  | .signup i _ => doc.showsSignup i
  | .confirm i => doc.showsSignup i

def signOutEntry : Option Authentication.SessionFlag.Settled → List Entry
  | some ⟨.signOut, .reject _, _⟩ => []
  | some ⟨.signOut, _, _⟩ => [.signedOut]
  | _ => []

/-- A handler goes on until it waits; `history.push` changes the pathname. -/
def authenticate (event : AuthEvent) : Document :=
  let (settled, auth) := authStep event doc.auth
  { doc with
    auth := auth
    pathname := ((auth.store.path.drop doc.auth.store.path.length).getLast?).getD doc.pathname
    trace := doc.trace ++ signOutEntry settled }

def createGoal : Document :=
  match doc.mounted with
  | some ⟨id, .home state⟩ =>
    if doc.isAuthenticated then { doc with mounted := some ⟨id, .home (Home.onCreate state)⟩ } else doc
  | _ => doc

end Document

def sends (id : Nat) (trace : List Entry) : Nat :=
  trace.countP fun e => match e with
    | .sent i => i = id
    | _ => false

def answers (id : Nat) (trace : List Entry) : List (Except String JsVal) :=
  trace.filterMap fun e => match e with
    | .answered i result => if i = id then some result else none
    | _ => none

namespace Document
variable (doc : Document)

def pending (id : Nat) : Bool := sends id doc.trace ≠ 0 && (answers id doc.trace).isEmpty

/-- `setState` of an instance that is mounted no more does nothing. -/
def setGoals (id : Nat) (result : Except String JsVal) : Option Mounted :=
  match doc.mounted with
  | some ⟨i, .home state⟩ => some ⟨i, .home (if i = id then Home.onGoals result state else state)⟩
  | m => m

def alert (message : String) : Authentication.SessionFlag.World :=
  { doc.auth with store := { doc.auth.store with alerts := doc.auth.store.alerts ++ [message] } }

def settleGoals (id : Nat) (result : Except String JsVal) : Document :=
  { doc with
    auth := match result with
      | .ok _ => doc.auth
      | .error e => doc.alert e
    mounted := doc.setGoals id result
    trace := doc.trace ++ [.answered id result] }

end Document

/-- `navigate` is the browser's back and forward within the document, and a redirect of the editor. -/
inductive Event where
  | auth (event : AuthEvent)
  | navigate (pathname : String)
  | create
  | settle (id : Nat) (result : Except String JsVal)

def step (doc : Document) : Event → Document
  | .auth (.start input) => if doc.accepts input then (doc.authenticate (.start input)).render else doc
  | .auth (.settle i outcome) => (doc.authenticate (.settle i outcome)).render
  | .navigate pathname => { doc with pathname := pathname }.render
  | .create => doc.createGoal.render
  | .settle id result => if doc.pending id then (doc.settleGoals id result).render else doc

/-- The document is loaded; `held` says whether `Auth` holds a session. -/
def load (held : Bool) (pathname : String) : Document where
  auth := Authentication.SessionFlag.mounted held
  pathname := pathname
  mounted := none
  next := 0
  trace := []
  crashed := false

def run (held : Bool) (pathname : String) (events : List Event) : Document := events.foldl step (load held pathname)

def flagAndPath (s : Store) : Bool × List String := (flag s, s.path)

def appEffect (c : AuthCall) (r : AuthAnswer c) (v : Bool × List String) : Bool × List String :=
  (flagEffect c r v.1, match c, r with
    | .signOut, .ok _ => v.2 ++ ["/login"]
    | _, _ => v.2)

theorem starts_program (input : Input) :
    Async.Starts Authentication.exec flagAndPath appEffect (Authentication.SessionFlag.program input) := by
  intro s
  cases input with
  | logout =>
    refine ⟨rfl, .last Authentication.exec flagAndPath appEffect AuthCall.signOut fun r s => ?_⟩
    cases r <;> exact ⟨rfl, _, rfl⟩
  | changeLogin i field value => exact ⟨rfl, .ret _⟩
  | login i event =>
    obtain ⟨_ | _⟩ := event
    · exact ⟨rfl, .ret _⟩
    · refine ⟨rfl, .last Authentication.exec flagAndPath appEffect (AuthCall.signIn _ _) fun r s => ?_⟩
      cases r <;> exact ⟨rfl, _, rfl⟩
  | changeSignup i field value => exact ⟨rfl, .ret _⟩
  | signup i event =>
    obtain ⟨_ | _⟩ := event
    · exact ⟨rfl, .ret _⟩
    · refine ⟨rfl, .last Authentication.exec flagAndPath appEffect (AuthCall.signUp _ _) fun r s => ?_⟩
      cases r <;> exact ⟨rfl, _, rfl⟩
  | confirm i =>
    refine ⟨rfl, .call (AuthCall.confirmSignUp _ _) _ (fun r s => ?_) (fun r s => ?_)⟩
    · cases r <;> rfl
    · cases r with
      | error e => exact .ret _
      | ok _ =>
        refine .last Authentication.exec flagAndPath appEffect (AuthCall.signIn _ _) fun r s => ?_
        cases r <;> exact ⟨rfl, _, rfl⟩

/-- The program changes neither the flag nor the path, and does not wait. -/
def Silent (p : Async.Program OpAnswer AuthAnswer (Except Rejection Unit)) : Prop :=
  ∀ s, flagAndPath (Async.advance Authentication.exec p s).2 = appEffect .currentSession (.ok false) (flagAndPath s) ∧
    ∃ a, (Async.advance Authentication.exec p s).1 = .ret a

theorem silent_ite {c : Prop} [Decidable c] {p q : Authentication.Handler Unit}
    {f : Except Rejection Unit → Async.Program OpAnswer AuthAnswer (Except Rejection Unit)}
    (hp : Silent (p.run >>= f)) (hq : Silent (q.run >>= f)) : Silent ((if c then p else q).run >>= f) := by
  split
  · exact hp
  · exact hq

theorem tracked_load (held : Bool) (pathname : String) :
    ∀ p ∈ (load held pathname).auth.tasks, Async.Tracked Authentication.exec flagAndPath appEffect p := by
  intro p hp
  rw [List.mem_singleton.1 hp]
  refine .last Authentication.exec flagAndPath appEffect AuthCall.currentSession fun r s => ?_
  cases r with
  | error e =>
    refine silent_ite (c := e ≠ .text "No current user")
      (p := Authentication.perform (.alert e.shown)) ?_ ?_ s
    · exact fun s => ⟨rfl, _, rfl⟩
    · exact fun s => ⟨rfl, _, rfl⟩
  | ok session => cases session <;> exact ⟨rfl, _, rfl⟩

section
variable (id i : Nat) (trace : List Entry) (result : Except String JsVal)

@[simp] theorem sends_nil : sends id [] = 0 := rfl

@[simp] theorem answers_nil : answers id [] = [] := rfl

theorem sends_append (rest : List Entry) : sends id (trace ++ rest) = sends id trace + sends id rest :=
  List.countP_append

theorem answers_append (rest : List Entry) : answers id (trace ++ rest) = answers id trace ++ answers id rest :=
  List.filterMap_append

@[simp] theorem sends_sent : sends id [.sent i] = if i = id then 1 else 0 := by
  by_cases h : i = id <;> simp [sends, h]

@[simp] theorem sends_signedOut : sends id [.signedOut] = 0 := rfl

@[simp] theorem sends_answered : sends id [.answered i result] = 0 := rfl

@[simp] theorem answers_sent : answers id [.sent i] = [] := rfl

@[simp] theorem answers_signedOut : answers id [.signedOut] = [] := rfl

@[simp] theorem answers_answered : answers id [.answered i result] = if i = id then [result] else [] := by
  by_cases h : i = id <;> simp [answers, h]

end

/-! ### The invariant -/

/-- The request was sent, and nobody has signed out since. -/
def SentSince (id : Nat) (trace : List Entry) : Prop :=
  ∃ before after, trace = before ++ .sent id :: after ∧ .signedOut ∉ after

/-- What a `Home` whose request was sent has, by the answers to the request. -/
def Reflects (state : Home.State) : List (Except String JsVal) → Prop
  | [] => state = { Home.initialState with redirect := state.redirect }
  | result :: _ => state = Home.onGoals result { Home.initialState with redirect := state.redirect }

/-- The `Home` with the number `id` either never asked for the goals, or it has what its request came to. -/
def HomeInv (doc : Document) (id : Nat) (state : Home.State) : Prop :=
  sends id doc.trace = 0 ∧ state.isLoading = true ∨
    doc.isAuthenticated = true ∧ SentSince id doc.trace ∧ Reflects state (answers id doc.trace)

/-- A request is sent once, by an instance that has been mounted, and answered after that. -/
structure TraceInv (doc : Document) : Prop where
  once : ∀ id, sends id doc.trace ≤ if id < doc.next then 1 else 0
  answered : ∀ id, sends id doc.trace = 0 → answers id doc.trace = []
  mounted : ∀ m, doc.mounted = some m → m.id < doc.next
  crashed : doc.crashed = true → doc.mounted = none
  tracked : ∀ p ∈ doc.auth.tasks, Async.Tracked Authentication.exec flagAndPath appEffect p

/-- The app may be rendered: a `Home` that stays mounted is as it should be. -/
structure Ready (doc : Document) : Prop extends TraceInv doc where
  home : ∀ id state, doc.mounted = some ⟨id, .home state⟩ → Routes.page doc.pathname = .home → HomeInv doc id state

/-- The app has been rendered. -/
structure Inv (doc : Document) : Prop extends TraceInv doc where
  home : ∀ id state, doc.mounted = some ⟨id, .home state⟩ → HomeInv doc id state ∧ state.redirect = false ∧
    ∃ screen, Home.render doc.isAuthenticated state = .ok screen

section
variable {doc : Document}

theorem HomeInv.congr {doc' : Document} {id : Nat} {state : Home.State} (h : HomeInv doc id state)
    (hflag : doc.isAuthenticated = true → doc'.isAuthenticated = true) (htrace : doc'.trace = doc.trace) :
    HomeInv doc' id state := by
  unfold HomeInv at h ⊢
  rw [htrace]
  rcases h with h | ⟨hauth, h⟩
  · exact .inl h
  · exact .inr ⟨hflag hauth, h⟩

theorem TraceInv.sends_next (h : TraceInv doc) : sends doc.next doc.trace = 0 := by
  have honce := h.once doc.next
  rw [if_neg (lt_irrefl _)] at honce
  omega

theorem TraceInv.navigate (h : TraceInv doc) (pathname : String) : TraceInv { doc with pathname := pathname } :=
  ⟨h.once, h.answered, h.mounted, h.crashed, h.tracked⟩

theorem sends_mount (doc : Document) (page : Page) (id : Nat) :
    sends id (doc.mount page).trace ≤ sends id doc.trace + if doc.next = id then 1 else 0 := by
  change sends id (doc.trace ++ _) ≤ _
  rw [sends_append]
  refine Nat.add_le_add_left ?_ _
  by_cases hsent : page = .home ∧ doc.isAuthenticated = true
  · rw [if_pos hsent, sends_sent]
  · rw [if_neg hsent]
    exact Nat.zero_le _

theorem answers_mount (page : Page) (id : Nat) : answers id (doc.mount page).trace = answers id doc.trace := by
  unfold Document.mount
  split_ifs <;> simp [answers_append]

theorem TraceInv.mount (h : TraceInv doc) (hcrashed : doc.crashed = false) (page : Page) :
    TraceInv (doc.mount page) where
  once id := by
    have honce := h.once id
    have hmount := sends_mount doc page id
    change sends id (doc.mount page).trace ≤ if id < doc.next + 1 then 1 else 0
    rcases lt_trichotomy id doc.next with hlt | rfl | hgt
    · rw [if_pos hlt] at honce
      rw [if_neg (by omega)] at hmount
      rw [if_pos (by omega)]
      omega
    · rw [if_neg (lt_irrefl _)] at honce
      rw [if_pos rfl] at hmount
      rw [if_pos (by omega)]
      omega
    · rw [if_neg (by omega)] at honce hmount
      omega
  answered id hsends := by
    rw [answers_mount]
    refine h.answered id ?_
    unfold Document.mount at hsends
    rw [sends_append] at hsends
    omega
  mounted m hm := by
    cases hm
    exact Nat.lt_succ_self _
  crashed hc := by
    rw [show (doc.mount page).crashed = doc.crashed from rfl, hcrashed] at hc
    cases hc
  tracked := h.tracked

/-- A new `Home` has asked for the goals if the user is signed in. -/
theorem TraceInv.homeInv_mount (h : TraceInv doc) : HomeInv (doc.mount .home) doc.next Home.initialState := by
  have hsends := h.sends_next
  have hanswers := h.answered doc.next hsends
  unfold HomeInv Document.mount
  by_cases hflag : doc.isAuthenticated = true
  · rw [if_pos ⟨rfl, hflag⟩]
    refine .inr ⟨hflag, ⟨doc.trace, [], rfl, List.not_mem_nil⟩, ?_⟩
    rw [answers_append, hanswers]
    rfl
  · rw [if_neg fun hand => hflag hand.2, List.append_nil]
    exact .inl ⟨hsends, rfl⟩

theorem commit_cases (doc : Document) :
    doc.commit = { doc with mounted := none } ∨
    (∃ m, doc.mounted = some m ∧ Document.keeps m.component (Routes.page doc.pathname) = true ∧ doc.commit = doc) ∨
    doc.commit = doc.mount (Routes.page doc.pathname) := by
  unfold Document.commit
  split_ifs with hauth
  · exact .inl rfl
  · cases hm : doc.mounted with
    | none => exact .inr (.inr rfl)
    | some m =>
      by_cases hkeeps : Document.keeps m.component (Routes.page doc.pathname) = true
      · exact .inr (.inl ⟨m, rfl, hkeeps, if_pos hkeeps⟩)
      · exact .inr (.inr (if_neg hkeeps))

theorem keeps_home {state : Home.State} {page : Page} (h : Document.keeps (.home state) page = true) :
    page = .home := by
  cases page with
  | home => rfl
  | _ => cases h

theorem component_eq_home {page : Page} {state : Home.State} (h : Document.component page = .home state) :
    page = .home ∧ state = Home.initialState := by
  cases page with
  | home => cases h; exact ⟨rfl, rfl⟩
  | _ => cases h

theorem Ready.traceInv_commit (h : Ready doc) (hcrashed : doc.crashed = false) : TraceInv doc.commit := by
  rcases commit_cases doc with hcommit | ⟨m, -, -, hcommit⟩ | hcommit
  · rw [hcommit]
    refine ⟨h.once, h.answered, fun m hm => ?_, fun _ => rfl, h.tracked⟩
    cases hm
  · rw [hcommit]
    exact h.toTraceInv
  · rw [hcommit]
    exact h.toTraceInv.mount hcrashed _

/-- After a render a `Home` is as it should be, and it is there because of the pathname. -/
theorem Ready.home_commit (h : Ready doc) {id : Nat} {state : Home.State}
    (hm : doc.commit.mounted = some ⟨id, .home state⟩) : HomeInv doc.commit id state ∧
      Routes.page doc.pathname = .home ∧ (doc.mounted = some ⟨id, .home state⟩ ∨ state = Home.initialState) := by
  rcases commit_cases doc with hcommit | ⟨m, hmounted, hkeeps, hcommit⟩ | hcommit
  · rw [hcommit] at hm
    cases hm
  · rw [hcommit] at hm ⊢
    obtain rfl : m = ⟨id, .home state⟩ := Option.some.inj (hmounted.symm.trans hm)
    have hpage := keeps_home hkeeps
    exact ⟨h.home id state hm hpage, hpage, .inl hm⟩
  · rw [hcommit] at hm ⊢
    have hmount := Option.some.inj hm
    obtain ⟨hpage, rfl⟩ := component_eq_home (congrArg Mounted.component hmount)
    obtain rfl : doc.next = id := congrArg Mounted.id hmount
    rw [hpage]
    exact ⟨h.toTraceInv.homeInv_mount, rfl, .inr rfl⟩

theorem commit_pathname (doc : Document) : doc.commit.pathname = doc.pathname ∧ doc.commit.crashed = doc.crashed := by
  rcases commit_cases doc with hcommit | ⟨m, -, -, hcommit⟩ | hcommit <;> rw [hcommit] <;> exact ⟨rfl, rfl⟩

section
variable {id : Nat} {state : Home.State} (hm : doc.mounted = some ⟨id, .home state⟩)
include hm

theorem redirect_of_home : doc.redirect = if state.redirect then some "/goal/" else none := by
  unfold Document.redirect
  rw [hm]

theorem guard_of_ok {screen : Home.Screen} (h : Home.render doc.isAuthenticated state = .ok screen) :
    doc.guard = doc := by
  unfold Document.guard
  rw [hm]
  simp only [h]

theorem guard_of_error {e : JsError} (h : Home.render doc.isAuthenticated state = .error e) :
    doc.guard = { doc with mounted := none, crashed := true } := by
  unfold Document.guard
  rw [hm]
  simp only [h]

end

theorem guard_of_not_home (h : ∀ id state, doc.mounted ≠ some ⟨id, .home state⟩) : doc.guard = doc := by
  unfold Document.guard
  cases hm : doc.mounted with
  | none => rfl
  | some m =>
    obtain ⟨id, component⟩ := m
    cases component with
    | home state => exact absurd hm (h id state)
    | _ => rfl

theorem inv_guard (h : TraceInv doc) (hhome : ∀ id state, doc.mounted = some ⟨id, .home state⟩ →
    HomeInv doc id state ∧ state.redirect = false) : Inv doc.guard := by
  by_cases hmounted : ∃ id state, doc.mounted = some ⟨id, .home state⟩
  · obtain ⟨id, state, hm⟩ := hmounted
    cases hrender : Home.render doc.isAuthenticated state with
    | ok screen =>
      rw [guard_of_ok hm hrender]
      refine ⟨h, fun id' state' hm' => ?_⟩
      cases hm.symm.trans hm'
      exact ⟨(hhome id state hm).1, (hhome id state hm).2, screen, hrender⟩
    | error e =>
      rw [guard_of_error hm hrender]
      refine ⟨⟨h.once, h.answered, fun m hm => ?_, fun _ => rfl, h.tracked⟩, fun id state hm => ?_⟩
      · cases hm
      · cases hm
  · have hnone : ∀ id state, doc.mounted ≠ some ⟨id, .home state⟩ := fun id state hm => hmounted ⟨id, state, hm⟩
    rw [guard_of_not_home hnone]
    exact ⟨h, fun id state hm => absurd hm (hnone id state)⟩

theorem page_goal : Routes.page "/goal/" = .goal none := by decide +kernel

theorem page_login : Routes.page "/login" = .login := by decide +kernel

theorem Ready.render (h : Ready doc) : Inv doc.render := by
  unfold Document.render
  by_cases hcrashed : doc.crashed = true
  · rw [if_pos hcrashed]
    refine ⟨h.toTraceInv, fun id state hm => ?_⟩
    rw [h.crashed hcrashed] at hm
    cases hm
  rw [if_neg hcrashed]
  rw [Bool.not_eq_true] at hcrashed
  have htrace := h.traceInv_commit hcrashed
  obtain ⟨-, hcommitted⟩ := commit_pathname doc
  cases hredirect : doc.commit.redirect with
  | none =>
    refine inv_guard htrace fun id state hm => ⟨(h.home_commit hm).1, ?_⟩
    by_contra hstate
    rw [redirect_of_home hm, if_pos (by simpa using hstate)] at hredirect
    cases hredirect
  | some pathname =>
    have hready : Ready { doc.commit with pathname := pathname } := by
      refine ⟨htrace.navigate pathname, fun id state hm hpage => ?_⟩
      exact (h.home_commit hm).1
    refine inv_guard (hready.traceInv_commit (hcommitted.trans hcrashed)) fun id state hm => ?_
    obtain ⟨hhome, hpage, hkept | rfl⟩ := hready.home_commit hm
    · -- `Home` redirects to another page
      have hkept : doc.commit.mounted = some ⟨id, .home state⟩ := hkept
      rw [redirect_of_home hkept] at hredirect
      split_ifs at hredirect with hstate
      obtain rfl := Option.some.inj hredirect
      rw [page_goal] at hpage
      cases hpage
    · exact ⟨hhome, rfl⟩

/-! ### Steps -/

theorem Inv.ready (h : Inv doc) : Ready doc := ⟨h.toTraceInv, fun id state hm _ => (h.home id state hm).1⟩

theorem Inv.navigate (h : Inv doc) (pathname : String) : Inv { doc with pathname := pathname }.render := by
  refine Ready.render ⟨h.toTraceInv.navigate pathname, fun id state hm _ => ?_⟩
  exact (h.home id state hm).1

theorem reflects_onCreate {state : Home.State} {results : List (Except String JsVal)} (h : Reflects state results) :
    Reflects (Home.onCreate state) results := by
  cases results with
  | nil =>
    unfold Reflects at h ⊢
    rw [h]
    rfl
  | cons result rest =>
    unfold Reflects at h ⊢
    rw [h]
    cases result <;> rfl

theorem Inv.create (h : Inv doc) : Inv doc.createGoal.render := by
  have hsame : doc.createGoal = doc ∨ ∃ id state, doc.mounted = some ⟨id, .home state⟩ ∧
      doc.createGoal = { doc with mounted := some ⟨id, .home (Home.onCreate state)⟩ } := by
    unfold Document.createGoal
    cases hm : doc.mounted with
    | none => exact .inl rfl
    | some m =>
      obtain ⟨id, component⟩ := m
      cases component with
      | home state =>
        by_cases hauth : doc.isAuthenticated = true
        · exact .inr ⟨id, state, rfl, if_pos hauth⟩
        · exact .inl (if_neg hauth)
      | _ => exact .inl rfl
  rcases hsame with hsame | ⟨id, state, hm, hcreate⟩
  · rw [hsame]
    exact h.ready.render
  · rw [hcreate]
    refine Ready.render ⟨⟨h.once, h.answered, fun m hm' => ?_, fun hcrashed => ?_, h.tracked⟩,
      fun id' state' hm' _ => ?_⟩
    · cases hm'
      exact h.mounted ⟨id, .home state⟩ hm
    · cases hm.symm.trans (h.crashed hcrashed)
    · cases hm'
      rcases (h.home id state hm).1 with hnone | ⟨hauth, hsince, hreflects⟩
      · exact .inl hnone
      · exact .inr ⟨hauth, hsince, reflects_onCreate hreflects⟩

theorem SentSince.concat {id : Nat} {trace : List Entry} (h : SentSince id trace) {e : Entry} (he : e ≠ .signedOut) :
    SentSince id (trace ++ [e]) := by
  obtain ⟨before, after, rfl, hafter⟩ := h
  refine ⟨before, after ++ [e], by simp, fun hmem => ?_⟩
  rcases List.mem_append.1 hmem with hmem | hmem
  · exact hafter hmem
  · exact he (List.mem_singleton.1 hmem).symm

theorem isAuthenticated_settleGoals (id : Nat) (result : Except String JsVal) :
    (doc.settleGoals id result).isAuthenticated = doc.isAuthenticated := by
  cases result <;> rfl

theorem HomeInv.settleGoals {i : Nat} {state : Home.State} (h : HomeInv doc i state) {id : Nat}
    (hpending : doc.pending id = true) (result : Except String JsVal) :
    HomeInv (doc.settleGoals id result) i (if i = id then Home.onGoals result state else state) := by
  have hsent : sends id doc.trace ≠ 0 ∧ answers id doc.trace = [] := by
    simpa [Document.pending] using hpending
  have htrace : (doc.settleGoals id result).trace = doc.trace ++ [.answered id result] := rfl
  unfold HomeInv
  rw [htrace, sends_append, answers_append, isAuthenticated_settleGoals, sends_answered, Nat.add_zero,
    answers_answered]
  rcases h with ⟨hnone, hloading⟩ | ⟨hauth, hsince, hreflects⟩
  · have hne : i ≠ id := by
      rintro rfl
      exact hsent.1 hnone
    rw [if_neg hne]
    exact .inl ⟨hnone, hloading⟩
  · refine .inr ⟨hauth, hsince.concat (by simp), ?_⟩
    by_cases hid : i = id
    · subst hid
      rw [hsent.2] at hreflects ⊢
      unfold Reflects at hreflects
      rw [if_pos rfl, if_pos rfl, hreflects]
      cases result <;> rfl
    · rw [if_neg hid, if_neg (Ne.symm hid), List.append_nil]
      exact hreflects

theorem setGoals_cases (doc : Document) (id : Nat) (result : Except String JsVal) :
    doc.setGoals id result = doc.mounted ∧ (∀ i state, doc.mounted ≠ some ⟨i, .home state⟩) ∨
    ∃ i state, doc.mounted = some ⟨i, .home state⟩ ∧
      doc.setGoals id result = some ⟨i, .home (if i = id then Home.onGoals result state else state)⟩ := by
  unfold Document.setGoals
  cases hm : doc.mounted with
  | none => exact .inl ⟨rfl, fun i state => by simp⟩
  | some m =>
    obtain ⟨i, component⟩ := m
    cases component with
    | home state => exact .inr ⟨i, state, rfl, rfl⟩
    | _ => exact .inl ⟨rfl, fun i state => by simp⟩

theorem Inv.settle (h : Inv doc) {id : Nat} (hpending : doc.pending id = true) (result : Except String JsVal) :
    Inv (doc.settleGoals id result).render := by
  have hsent : sends id doc.trace ≠ 0 := by
    simp only [Document.pending, Bool.and_eq_true, decide_eq_true_eq] at hpending
    exact hpending.1
  have hcases := setGoals_cases doc id result
  refine Ready.render ⟨⟨fun i => ?_, fun i hsends => ?_, fun m hm => ?_, fun hcrashed => ?_, ?_⟩,
    fun i state hm _ => ?_⟩
  · change sends i (doc.trace ++ [.answered id result]) ≤ _
    rw [sends_append, sends_answered]
    exact h.once i
  · change sends i (doc.trace ++ [.answered id result]) = 0 at hsends
    change answers i (doc.trace ++ [.answered id result]) = []
    rw [sends_append, sends_answered, Nat.add_zero] at hsends
    have hne : id ≠ i := by
      rintro rfl
      exact hsent hsends
    rw [answers_append, answers_answered, if_neg hne, h.answered i hsends]
    rfl
  · change doc.setGoals id result = some m at hm
    rcases hcases with ⟨hsame, -⟩ | ⟨i, state, hmounted, hset⟩
    · exact h.mounted m (hsame ▸ hm)
    · rw [hset] at hm
      cases hm
      exact h.mounted ⟨i, .home state⟩ hmounted
  · change doc.setGoals id result = none
    rw [Document.setGoals, h.crashed hcrashed]
  · cases result with
    | ok goals => exact h.tracked
    | error e => exact h.tracked
  · change doc.setGoals id result = some ⟨i, .home state⟩ at hm
    rcases hcases with ⟨hsame, hnone⟩ | ⟨i', state', hmounted, hset⟩
    · exact absurd (hsame.symm.trans hm) (hnone i state)
    · rw [hset] at hm
      cases hm
      exact (h.home _ _ hmounted).1.settleGoals hpending result

section
variable {w : Authentication.SessionFlag.World}
  (htracked : ∀ p ∈ w.tasks, Async.Tracked Authentication.exec flagAndPath appEffect p)
include htracked

theorem tracked_authStep (event : AuthEvent) :
    ∀ p ∈ (authStep event w).2.tasks, Async.Tracked Authentication.exec flagAndPath appEffect p :=
  @Async.tracked_step _ _ _ _ _ _ _ _ _ _ _ Authentication.SessionFlag.answer _ _ _ starts_program event _ htracked

theorem authStep_cases (event : AuthEvent) :
    ((authStep event w).1 = none ∧ flagAndPath (authStep event w).2.store = flagAndPath w.store) ∨
    ∃ c outcome, (authStep event w).1 = some ⟨c, outcome, w.env⟩ ∧ flagAndPath (authStep event w).2.store =
      appEffect c (Authentication.SessionFlag.answer c outcome w.env).1 (flagAndPath w.store) := by
  have hview := @Async.view_step _ _ _ _ _ _ _ _ _ _ _ Authentication.SessionFlag.answer _ _ _ starts_program event _
    htracked
  rcases hview with ⟨hnone, hview, -⟩ | ⟨c, outcome, hsome, hview, -⟩
  · exact .inl ⟨hnone, hview⟩
  · exact .inr ⟨c, outcome, hsome, hview⟩

end

theorem appEffect_cases (c : AuthCall) (outcome : Authentication.SessionFlag.Outcome) (held : Bool)
    (v : Bool × List String) :
    (Document.signOutEntry (some ⟨c, outcome, held⟩) = [.signedOut] ∧
      appEffect c (Authentication.SessionFlag.answer c outcome held).1 v = (false, v.2 ++ ["/login"])) ∨
    (Document.signOutEntry (some ⟨c, outcome, held⟩) = [] ∧
      (v.1 = true → (appEffect c (Authentication.SessionFlag.answer c outcome held).1 v).1 = true) ∧
      (appEffect c (Authentication.SessionFlag.answer c outcome held).1 v).2 = v.2) := by
  cases c with
  | signOut =>
    cases outcome with
    | reject e => exact .inr ⟨rfl, id, rfl⟩
    | _ => exact .inl ⟨rfl, rfl⟩
  | currentSession =>
    cases outcome with
    | reject e => exact .inr ⟨rfl, id, rfl⟩
    | _ => cases held <;> exact .inr ⟨rfl, fun h => by first | exact h | rfl, rfl⟩
  | signIn email password => cases outcome <;> exact .inr ⟨rfl, fun h => by first | exact h | rfl, rfl⟩
  | signUp username password => cases outcome <;> exact .inr ⟨rfl, id, rfl⟩
  | confirmSignUp username code => cases outcome <;> exact .inr ⟨rfl, id, rfl⟩

theorem authenticate_trace (event : AuthEvent) : (doc.authenticate event).trace =
    doc.trace ++ Document.signOutEntry (authStep event doc.auth).1 := rfl

theorem authenticate_pathname {event : AuthEvent} (pushed : List String)
    (h : (authStep event doc.auth).2.store.path = doc.auth.store.path ++ pushed) :
    (doc.authenticate event).pathname = pushed.getLast?.getD doc.pathname := by
  change ((List.drop _ (authStep event doc.auth).2.store.path).getLast?).getD doc.pathname = _
  rw [h, List.drop_left]

/-- What a step of the authentication does to the app. -/
theorem authenticate_cases
    (htracked : ∀ p ∈ doc.auth.tasks, Async.Tracked Authentication.exec flagAndPath appEffect p) (event : AuthEvent) :
    ((doc.authenticate event).trace = doc.trace ++ [.signedOut] ∧ (doc.authenticate event).pathname = "/login") ∨
    ((doc.authenticate event).trace = doc.trace ∧ (doc.authenticate event).pathname = doc.pathname ∧
      (doc.isAuthenticated = true → (doc.authenticate event).isAuthenticated = true)) := by
  rcases authStep_cases htracked event with ⟨hnone, hview⟩ | ⟨c, outcome, hsome, hview⟩
  · have hflag : (doc.authenticate event).isAuthenticated = doc.isAuthenticated := congrArg Prod.fst hview
    have hpath := authenticate_pathname [] ((congrArg Prod.snd hview).trans (List.append_nil _).symm)
    refine .inr ⟨?_, hpath, fun h => hflag.trans h⟩
    rw [authenticate_trace, hnone]
    exact List.append_nil _
  · have heffect := appEffect_cases c outcome doc.auth.env (flagAndPath doc.auth.store)
    rcases heffect with ⟨hentry, heffect⟩ | ⟨hentry, hflag, hpath⟩
    · rw [heffect] at hview
      have hpath := authenticate_pathname ["/login"] (congrArg Prod.snd hview)
      refine .inl ⟨?_, hpath⟩
      rw [authenticate_trace, hsome, hentry]
    · rw [← hview] at hflag hpath
      have hpath := authenticate_pathname [] (hpath.trans (List.append_nil _).symm)
      refine .inr ⟨?_, hpath, hflag⟩
      rw [authenticate_trace, hsome, hentry]
      exact List.append_nil _

theorem Inv.authenticate (h : Inv doc) (event : AuthEvent) :
    Inv (doc.authenticate event).render := by
  have htracked := tracked_authStep h.tracked event
  have hsignedOut : ∀ id, sends id (doc.trace ++ [.signedOut]) = sends id doc.trace ∧
      answers id (doc.trace ++ [.signedOut]) = answers id doc.trace := by
    intro id
    rw [sends_append, answers_append, sends_signedOut, answers_signedOut, List.append_nil]
    exact ⟨rfl, rfl⟩
  rcases authenticate_cases h.tracked event with ⟨htrace, hpathname⟩ | ⟨htrace, hpathname, hflag⟩
  · refine Ready.render ⟨⟨fun id => ?_, fun id => ?_, h.mounted, h.crashed, htracked⟩, fun id state hm hpage => ?_⟩
    · rw [htrace, (hsignedOut id).1]
      exact h.once id
    · rw [htrace, (hsignedOut id).1, (hsignedOut id).2]
      exact h.answered id
    · rw [hpathname, page_login] at hpage
      cases hpage
  · refine Ready.render ⟨⟨fun id => ?_, fun id => ?_, h.mounted, h.crashed, htracked⟩, fun id state hm _ => ?_⟩
    · rw [htrace]
      exact h.once id
    · rw [htrace]
      exact h.answered id
    · exact (h.home id state hm).1.congr hflag htrace

theorem Inv.step (h : Inv doc) (event : Event) : Inv (step doc event) := by
  cases event with
  | auth event =>
    cases event with
    | start input =>
      by_cases haccepts : doc.accepts input = true
      · rw [Pages.step, if_pos haccepts]
        exact h.authenticate _
      · rw [Pages.step, if_neg haccepts]
        exact h
    | settle i outcome => exact h.authenticate _
  | navigate pathname => exact h.navigate pathname
  | create => exact h.create
  | settle id result =>
    by_cases hpending : doc.pending id = true
    · rw [Pages.step, if_pos hpending]
      exact h.settle hpending result
    · rw [Pages.step, if_neg hpending]
      exact h

end

theorem inv_load (held : Bool) (pathname : String) : Inv (load held pathname) where
  once id := Nat.zero_le _
  answered id _ := rfl
  mounted m hm := by cases hm
  crashed _ := rfl
  tracked := tracked_load held pathname
  home id state hm := by cases hm

theorem inv_run (held : Bool) (pathname : String) (events : List Event) : Inv (run held pathname events) := by
  induction events using List.reverseRecOn with
  | nil => exact inv_load held pathname
  | append_singleton events event ih =>
    rw [run, List.foldl_append, ← run]
    exact ih.step event

def screenOf : List (Except String JsVal) → Except JsError Home.Screen
  | [] => .ok .spinner
  | .ok goals :: _ => Home.renderList goals
  | .error _ :: _ => .ok (.list [])

/-- What a `Home` should show, by what has become of its own request. -/
def expected (isAuthenticated : Bool) (id : Nat) (trace : List Entry) : Except JsError Home.Screen :=
  if sends id trace = 0 then .ok (if isAuthenticated then .spinner else .landing)
  else screenOf (answers id trace)

/-- `Home` shows what it should, and if it has asked for the goals, then once, and nobody has signed out since. -/
structure ShowsOwnGoals (doc : Document) (id : Nat) (state : Home.State) : Prop where
  screen : Home.render doc.isAuthenticated state = expected doc.isAuthenticated id doc.trace
  renders : ∃ screen, Home.render doc.isAuthenticated state = .ok screen
  once : sends id doc.trace ≤ 1
  since : sends id doc.trace ≠ 0 → doc.isAuthenticated = true ∧ SentSince id doc.trace

theorem render_reflects {state : Home.State} {results : List (Except String JsVal)} (h : Reflects state results) :
    Home.render true state = screenOf results := by
  cases results with
  | nil =>
    rw [h]
    rfl
  | cons result rest =>
    rw [h]
    cases result <;> rfl

/-- In every run of a document. -/
theorem home_screen {held : Bool} {pathname : String} {events : List Event} {id : Nat} {state : Home.State}
    (h : (run held pathname events).mounted = some ⟨id, .home state⟩) :
    ShowsOwnGoals (run held pathname events) id state := by
  have hinv := inv_run held pathname events
  obtain ⟨hhome, -, hrenders⟩ := hinv.home id state h
  have honce : sends id (run held pathname events).trace ≤ 1 := by
    have hle := hinv.once id
    split_ifs at hle <;> omega
  rcases hhome with ⟨hnone, hloading⟩ | ⟨hauth, hsince, hreflects⟩
  · refine ⟨?_, hrenders, honce, fun hsent => absurd hnone hsent⟩
    rw [expected, if_pos hnone, Home.render, hloading]
    cases (run held pathname events).isAuthenticated <;> rfl
  · refine ⟨?_, hrenders, honce, fun _ => ⟨hauth, hsince⟩⟩
    have hsent : sends id (run held pathname events).trace ≠ 0 := by
      obtain ⟨before, after, htrace, -⟩ := hsince
      rw [htrace, List.append_cons, sends_append, sends_append, sends_sent, if_pos rfl]
      omega
    rw [expected, if_neg hsent, hauth]
    exact render_reflects hreflects

/-- A user goes back to `/` while the login is pending. -/
def backRun : List Event :=
  [.auth (.settle 0 (.reject (.text "No current user"))), .auth (.start (.changeLogin 0 .email "ada@example.org")),
    .auth (.start (.login 0 ⟨true⟩)), .navigate "/", .auth (.settle 2 .resolve)]

/-- The login succeeds, and `Home` shows a spinner although it has asked for nothing. -/
theorem backRun_screen :
    ShowsOwnGoals (run false "/login" backRun) 1 Home.initialState ∧ sends 1 (run false "/login" backRun).trace = 0 ∧
      Home.render (run false "/login" backRun).isAuthenticated Home.initialState = .ok .spinner :=
  ⟨home_screen rfl, rfl, rfl⟩

end Pages

end FullStack
