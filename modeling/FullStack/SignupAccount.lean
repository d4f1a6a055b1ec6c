import FullStack.Confirmation

/-!
# Which account is confirmed

The sign-up form stays editable while a call to `Auth.signUp` is pending, and `onConfirm` reads the e-mail
and the password from the state again. Once a response has set the user the two can not be edited any more.
So what is confirmed and signed in is the account that was created exactly when the response that switches
the component finds the credentials of its call in the form (`keepsAccount_iff`).
-/

namespace FullStack

namespace Authentication

namespace SignupAccount

open Confirmation (submitted afterConfirmSignUp afterSignIn onConfirm_eq)

inductive Input where
  | change (field : Signup.Field) (value : String)
  | signup (event : FormEvent)
  | confirm

def handler (i : Nat) : Input → Handler Unit
  | .change field value => Signup.onChange i field value
  | .signup event => Signup.onSignup i event
  | .confirm => Signup.onConfirm i

/-- The rendered form has the input, or the submit button. -/
def offers (state : SignupState) : Input → Bool
  | .change .confirmationCode _ => Signup.render state = .confirmationForm
  | .change _ _ => Signup.render state = .signupForm
  | .signup _ => Signup.render state = .signupForm
  | .confirm => Signup.render state = .confirmationForm

/-- What happens on an input to the instance `i`: nothing, if the form on screen does not offer it. -/
def program (i : Nat) (input : Input) : Async.Program OpAnswer AuthAnswer (Except Rejection Unit) := do
  let state : SignupState ← Async.operate (Op.getSignup i)
  if offers state input then (dispatched (handler i input)).run else return .ok ()

def answer : (c : AuthCall) → Except Rejection CognitoUser → Unit → AuthAnswer c × Unit
  | .signUp _ _, outcome, _ => (outcome, ())
  | .signIn _ _, outcome, _ => (outcome, ())
  | .currentSession, outcome, _ => (outcome.map fun _ => true, ())
  | .signOut, outcome, _ => (outcome.map fun _ => (), ())
  | .confirmSignUp _ _, outcome, _ => (outcome.map fun _ => (), ())

abbrev World := Async.System Unit Store OpAnswer AuthAnswer (Except Rejection Unit)

abbrev Event := Async.Event Input (Except Rejection CognitoUser)

abbrev Settled := Async.Settled AuthCall (Except Rejection CognitoUser) Unit

def start : World := ⟨(), initialStore, []⟩

def step (i : Nat) (event : Event) (w : World) : Option Settled × World :=
  Async.step exec answer (program i) event w

def after (i : Nat) (events : List Event) : World := Async.after exec answer (program i) events start

def settled (i : Nat) (events : List Event) : List Settled := Async.log exec answer (program i) events start

def created (e : Settled) : Option (String × String) :=
  match e.call, e.outcome with
  | .signUp email password, .ok _ => some (email, password)
  | _, _ => none

/-- The credentials of the call whose success switched the component to the confirmation form: the first. -/
def switch (i : Nat) (events : List Event) : Option (String × String) := (settled i events).findSome? created

/-- The call is about the account that was created with these credentials. -/
def About (account : Option (String × String)) : AuthCall → Prop
  | .confirmSignUp email _ => account.map Prod.fst = some email
  | .signIn email password => account = some (email, password)
  | _ => True

/-- Every call that the component waits for is about the account that switched it. -/
def CallsMatch (i : Nat) (events : List Event) : Prop :=
  ∀ p ∈ (after i events).tasks, ∀ c k, p = .call (.inr c) k → About (switch i events) c

/-- The calls match at every moment of the run, and, once the component has switched, whatever follows. -/
def KeepsAccount (i : Nat) (events : List Event) : Prop :=
  ∀ p, p <+: events → ∀ more, (switch i p).isSome ∨ more = [] → CallsMatch i (p ++ more)

/-- If the event is the response that switches the component, the form holds the credentials of its call. -/
def FindsCredentials (i : Nat) (event : Event) (w : World) : Prop :=
  ∀ task user email password k, event = .settle task (.ok user) → (w.store.signup i).user = none →
    w.tasks[task]? = some (.call (.inr (.signUp email password)) k) →
      (w.store.signup i).email = email ∧ (w.store.signup i).password = password

def afterSignUp (i : Nat) : AuthAnswer (.signUp "" "") → Async.Program OpAnswer AuthAnswer (Except Rejection Unit)
  | .error e => ExceptT.run do
    perform (.alert e.message)
    perform (.setSignup i fun state => { state with loading := false })
  | .ok user => ExceptT.run do
    perform (.setSignup i fun state => { state with user := some user, loading := false })

/-- What a task can wait for: calls after the switch carry the credentials in the form. -/
inductive TaskOk (i : Nat) (state : SignupState) :
  Async.Program OpAnswer AuthAnswer (Except Rejection Unit) → Prop
  | done (r : Except Rejection Unit) : TaskOk i state (.ret r)
  | signUp (email password : String) : TaskOk i state (.call (.inr (.signUp email password)) (afterSignUp i))
  | confirmSignUp (code : String) (h : state.user ≠ none) :
    TaskOk i state (.call (.inr (.confirmSignUp state.email code)) (afterConfirmSignUp i))
  | signIn (h : state.user ≠ none) :
    TaskOk i state (.call (.inr (.signIn state.email state.password)) (afterSignIn i))

/-- The component has not switched, and credentials that can not be edited stay. -/
structure SameUser (state state' : SignupState) : Prop where
  user : state'.user = state.user
  redirect : state.user = none → state'.redirect = state.redirect
  email : state.user ≠ none → state'.email = state.email
  password : state.user ≠ none → state'.password = state.password

theorem SameUser.refl (state : SignupState) : SameUser state state :=
  ⟨rfl, fun _ => rfl, fun _ => rfl, fun _ => rfl⟩

theorem SameUser.trans {state state' state'' : SignupState} (h : SameUser state state')
    (h' : SameUser state' state'') : SameUser state state'' where
  user := h'.user.trans h.user
  redirect hn := (h'.redirect (h.user.trans hn)).trans (h.redirect hn)
  email hs := (h'.email (h.user ▸ hs)).trans (h.email hs)
  password hs := (h'.password (h.user ▸ hs)).trans (h.password hs)

section
variable {i : Nat} {state state' : SignupState} {p : Async.Program OpAnswer AuthAnswer (Except Rejection Unit)}

theorem TaskOk.congr (h : TaskOk i state p) (huser : state.user ≠ none → state'.user ≠ none)
    (hemail : state.user ≠ none → state'.email = state.email)
    (hpassword : state.user ≠ none → state'.password = state.password) : TaskOk i state' p := by
  cases h with
  | done r => exact .done r
  | signUp email password => exact .signUp email password
  | confirmSignUp code h =>
    rw [← hemail h]
    exact .confirmSignUp code (huser h)
  | signIn h =>
    rw [← hemail h, ← hpassword h]
    exact .signIn (huser h)

end

/-! ### What a step does -/

theorem advance_program (i : Nat) (input : Input) (s : Store) :
    Async.advance exec (program i input) s =
      if offers (s.signup i) input then Async.advance exec (dispatched (handler i input)).run s
      else (.ret (.ok ()), s) := by
  show Async.advance exec (if offers (s.signup i) input then _ else _) s = _
  split <;> rfl

theorem signupForm_iff (state : SignupState) : Signup.render state = .signupForm ↔ state.user = none := by
  unfold Signup.render Signup.showConfirmationForm
  split_ifs <;> simp_all

theorem advance_onConfirm (i : Nat) (s : Store) : Async.advance exec (dispatched (Signup.onConfirm i)).run s =
    (.call (.inr (.confirmSignUp ((submitted i s).signup i).email ((submitted i s).signup i).confirmationCode))
      (afterConfirmSignUp i), submitted i s) := by
  rw [onConfirm_eq]
  rfl

theorem sameUser_update {i : Nat} {s : Store} {state : SignupState} (h : SameUser (s.signup i) state) :
    SameUser (s.signup i) (Function.update s.signup i state i) := by
  rw [Function.update_self]
  exact h

theorem sameUser_kept {i : Nat} {s : Store} {state : SignupState} (huser : state.user = (s.signup i).user)
    (hredirect : state.redirect = (s.signup i).redirect) (hemail : state.email = (s.signup i).email)
    (hpassword : state.password = (s.signup i).password) :
    SameUser (s.signup i) (Function.update s.signup i state i) :=
  sameUser_update ⟨huser, fun _ => hredirect, fun _ => hemail, fun _ => hpassword⟩

def Started (i : Nat) (s : Store) (r : Async.Program OpAnswer AuthAnswer (Except Rejection Unit) × Store) : Prop :=
  TaskOk i (r.2.signup i) r.1 ∧ SameUser (s.signup i) (r.2.signup i)

section
variable {i : Nat} {s : Store}

theorem started_change {field : Signup.Field} {value : String}
    (hoffers : offers (s.signup i) (.change field value) = true) :
    Started i s (Async.advance exec (dispatched (handler i (.change field value))).run s) := by
  refine ⟨.done (.ok ()), ?_⟩
  show SameUser _ (Function.update s.signup i _ i)
  cases field with
  | confirmationCode => exact sameUser_kept rfl rfl rfl rfl
  | _ =>
    have hnone := (signupForm_iff _).1 (of_decide_eq_true hoffers)
    exact sameUser_update ⟨rfl, fun _ => rfl, absurd hnone, absurd hnone⟩

theorem started_signup (event : FormEvent) :
    Started i s (Async.advance exec (dispatched (handler i (.signup event))).run s) := by
  obtain ⟨_ | _⟩ := event
  · refine ⟨.done (.ok ()), ?_⟩
    show SameUser _ (Function.update s.signup i _ i)
    exact sameUser_kept rfl rfl rfl rfl
  · -- the form is read between two `setState`s
    let s₁ := (exec (.setSignup i fun state => { state with loading := true, validated := true })
      (exec .preventDefault (exec .beginDispatch s).2).2).2
    have hfirst : SameUser (s.signup i) (s₁.signup i) := sameUser_kept rfl rfl rfl rfl
    have hsecond : SameUser (s₁.signup i)
        (Function.update s₁.signup i { s₁.signup i with validated := true } i) :=
      sameUser_kept rfl rfl rfl rfl
    have htask : (Async.advance exec (dispatched (Signup.onSignup i ⟨true⟩)).run s).1 =
        .call (.inr (.signUp (s₁.signup i).email (s₁.signup i).password)) (afterSignUp i) :=
      congrArg (Proc.call _) (funext fun r => by cases r <;> rfl)
    refine ⟨?_, hfirst.trans hsecond⟩
    show TaskOk i _ (Async.advance exec (dispatched (Signup.onSignup i ⟨true⟩)).run s).1
    rw [htask]
    exact .signUp _ _

theorem started_confirm (hoffers : offers (s.signup i) .confirm = true) :
    Started i s (Async.advance exec (dispatched (handler i .confirm)).run s) := by
  have hsome : (s.signup i).user ≠ none := fun h => by
    have hform := of_decide_eq_true hoffers
    rw [(signupForm_iff _).2 h] at hform
    cases hform
  have hsame : SameUser (s.signup i) ((submitted i s).signup i) := by
    show SameUser _ (Function.update s.signup i _ i)
    exact sameUser_kept rfl rfl rfl rfl
  show Started i s (Async.advance exec (dispatched (Signup.onConfirm i)).run s)
  rw [advance_onConfirm]
  exact ⟨.confirmSignUp _ (hsame.user ▸ hsome), hsame⟩

end

theorem start_spec (i : Nat) (input : Input) (s : Store) : Started i s (Async.advance exec (program i input) s) := by
  rw [advance_program]
  split_ifs with hoffers
  · cases input with
    | change field value => exact started_change hoffers
    | signup event => exact started_signup event
    | confirm => exact started_confirm hoffers
  · exact ⟨.done _, .refl _⟩

/-- A task that goes on is right again; the answer switches the component if it is a user, and changes no
credentials. -/
theorem settle_spec {i : Nat} {s : Store} {c : AuthCall}
    {k : AuthAnswer c → Async.Program OpAnswer AuthAnswer (Except Rejection Unit)}
    (h : TaskOk i (s.signup i) (.call (.inr c) k)) (outcome : Except Rejection CognitoUser) :
    let next := Async.advance exec (k (answer c outcome ()).1) s
    TaskOk i (next.2.signup i) next.1 ∧
      ((created ⟨c, outcome, ()⟩ = none ∧ SameUser (s.signup i) (next.2.signup i)) ∨
        ∃ email password user, c = .signUp email password ∧ outcome = .ok user ∧
          next.2.signup i = { s.signup i with user := some user, loading := false }) := by
  cases outcome with
  | error e =>
    -- every rejection ends the task, with the spinner stopped
    cases h <;> exact ⟨.done (.ok ()), .inl ⟨rfl, sameUser_kept rfl rfl rfl rfl⟩⟩
  | ok user =>
    cases h with
    | signUp email password => exact ⟨.done (.ok ()), .inr ⟨email, password, user, rfl, rfl, Function.update_self ..⟩⟩
    | confirmSignUp code h => exact ⟨.signIn h, .inl ⟨rfl, .refl _⟩⟩
    | signIn h =>
      refine ⟨.done (.ok ()), .inl ⟨rfl, ?_⟩⟩
      show SameUser _ (Function.update s.signup i _ i)
      exact sameUser_update ⟨rfl, fun hn => absurd hn h, fun _ => rfl, fun _ => rfl⟩

/-- What every state of a run satisfies, `account` being what switched the component. -/
structure Inv (i : Nat) (account : Option (String × String)) (w : World) : Prop where
  tasks : ∀ p ∈ w.tasks, TaskOk i (w.store.signup i) p
  user : (w.store.signup i).user = none ↔ account = none
  redirect : (w.store.signup i).user = none → (w.store.signup i).redirect = false

def switched (account : Option (String × String)) (r : Option Settled × World) : Option (String × String) :=
  account.or (r.1.bind created)

section
variable {i : Nat} {account : Option (String × String)} {w : World}

/-- A step switches the component if it is the first response with a user, and changes no credentials then. -/
theorem step_spec (h : Inv i account w) (event : Event) :
    (∀ p ∈ (step i event w).2.tasks, TaskOk i ((step i event w).2.store.signup i) p) ∧
      (((step i event w).1.bind created = none ∧
          SameUser (w.store.signup i) ((step i event w).2.store.signup i)) ∨
        ∃ task email password user k, event = .settle task (.ok user) ∧
          w.tasks[task]? = some (.call (.inr (.signUp email password)) k) ∧
          (step i event w).1.bind created = some (email, password) ∧
          (step i event w).2.store.signup i = { w.store.signup i with user := some user, loading := false }) := by
  rcases Async.step_cases exec answer (program i) event w with
    ⟨input, -, hstep⟩ | ⟨task, outcome, c, k, hevent, htask, hstep⟩ | hstep
  · unfold step
    rw [hstep]
    obtain ⟨hnew, hsame⟩ := start_spec i input w.store
    refine ⟨fun p hp => ?_, .inl ⟨rfl, hsame⟩⟩
    rcases List.mem_append.1 hp with hp | hp
    · exact (h.tasks p hp).congr (fun hs => hsame.user ▸ hs) hsame.email hsame.password
    · rw [List.mem_singleton.1 hp]
      exact hnew
  · unfold step
    rw [hstep]
    obtain ⟨hnew, hsame | ⟨email, password, user, rfl, rfl, hstate⟩⟩ :=
      settle_spec (h.tasks _ (List.mem_of_getElem? htask)) outcome
    · refine ⟨fun p hp => ?_, .inl hsame⟩
      rcases List.mem_or_eq_of_mem_set hp with hp | rfl
      · exact (h.tasks p hp).congr (fun hs => hsame.2.user ▸ hs) hsame.2.email hsame.2.password
      · exact hnew
    · refine ⟨fun p hp => ?_, .inr ⟨task, email, password, user, k, hevent, htask, rfl, hstate⟩⟩
      rcases List.mem_or_eq_of_mem_set hp with hp | rfl
      · show TaskOk i (Store.signup _ i) p
        rw [hstate]
        exact (h.tasks p hp).congr (fun _ => Option.some_ne_none _) (fun _ => rfl) (fun _ => rfl)
      · exact hnew
  · unfold step
    rw [hstep]
    exact ⟨h.tasks, .inl ⟨rfl, .refl _⟩⟩

theorem inv_step (h : Inv i account w) (event : Event) :
    Inv i (switched account (step i event w)) (step i event w).2 := by
  obtain ⟨htasks, ⟨hnone, hsame⟩ | ⟨task, email, password, user, k, -, -, hsome, hstate⟩⟩ := step_spec h event
  · have hswitched : switched account (step i event w) = account := by
      rw [switched, hnone, Option.or_none]
    rw [hswitched]
    refine ⟨htasks, hsame.user ▸ h.user, fun hn => ?_⟩
    rw [hsame.user] at hn
    rw [hsame.redirect hn]
    exact h.redirect hn
  · refine ⟨htasks, ?_, ?_⟩
    · rw [hstate, switched, hsome]
      cases account <;> simp
    · rw [hstate]
      exact fun hn => absurd hn (Option.some_ne_none _)

def Matched (i : Nat) (account : Option (String × String)) (w : World) : Prop :=
  ∀ a, account = some a → a = ((w.store.signup i).email, (w.store.signup i).password)

theorem matched_step (h : Inv i account w) (hm : Matched i account w) {event : Event}
    (hfinds : FindsCredentials i event w) : Matched i (switched account (step i event w)) (step i event w).2 := by
  obtain ⟨-, ⟨hnone, hsame⟩ | ⟨task, email, password, user, k, hevent, htask, hsome, hstate⟩⟩ := step_spec h event
  · intro a ha
    rw [switched, hnone, Option.or_none] at ha
    have hs : (w.store.signup i).user ≠ none := fun hn => by
      rw [h.user.1 hn] at ha
      cases ha
    rw [hsame.email hs, hsame.password hs]
    exact hm a ha
  · intro a ha
    rw [hstate]
    cases haccount : account with
    | some b =>
      rw [switched, haccount] at ha
      exact hm a (haccount.trans ha)
    | none =>
      obtain ⟨hemail, hpassword⟩ := hfinds task user email password k hevent (h.user.2 haccount) htask
      rw [switched, haccount, hsome] at ha
      rw [← Option.some.inj ha]
      exact Prod.ext hemail.symm hpassword.symm

/-- Once the component has switched, no event can bring other credentials into the form. -/
theorem findsCredentials_of_switched (h : Inv i account w) (hs : account.isSome) (event : Event) :
    FindsCredentials i event w := by
  intro task user email password k _ hnone _
  rw [h.user.1 hnone] at hs
  cases hs

theorem about_of_taskOk (h : Inv i account w) (hm : Matched i account w) {c : AuthCall}
    {k : AuthAnswer c → Async.Program OpAnswer AuthAnswer (Except Rejection Unit)}
    (hp : .call (.inr c) k ∈ w.tasks) : About account c := by
  have hsome (hs : (w.store.signup i).user ≠ none) :
      account = some ((w.store.signup i).email, (w.store.signup i).password) := by
    obtain ⟨a, ha⟩ := Option.ne_none_iff_exists'.1 fun hn => hs (h.user.2 hn)
    rw [ha, hm a ha]
  cases h.tasks _ hp with
  | signUp email password => trivial
  | confirmSignUp code hs => exact congrArg (Option.map Prod.fst) (hsome hs)
  | signIn hs => exact hsome hs

end

theorem switch_concat (i : Nat) (events : List Event) (event : Event) :
    switch i (events ++ [event]) = switched (switch i events) (step i event (after i events)) := by
  unfold switch settled switched
  rw [Async.log_concat, List.findSome?_append]
  refine congrArg _ ?_
  show _ = (step i event (after i events)).1.bind created
  unfold step after
  cases (Async.step exec answer (program i) event (Async.after exec answer (program i) events start)).1 with
  | none => rfl
  | some e =>
    simp

theorem after_concat (i : Nat) (events : List Event) (event : Event) :
    after i (events ++ [event]) = (step i event (after i events)).2 :=
  Async.after_concat exec answer (program i) events event start

theorem inv_after (i : Nat) (events : List Event) : Inv i (switch i events) (after i events) := by
  induction events using List.reverseRecOn with
  | nil => exact ⟨List.forall_mem_nil _, iff_of_true rfl rfl, fun _ => rfl⟩
  | append_singleton events event ih =>
    rw [switch_concat, after_concat]
    exact inv_step ih event

theorem matched_after {i : Nat} {events : List Event}
    (h : Machine.Guarded (step i) (FindsCredentials i) events start) :
    Matched i (switch i events) (after i events) := by
  induction events using List.reverseRecOn with
  | nil => exact fun a ha => by cases ha
  | append_singleton events event ih =>
    rw [switch_concat, after_concat]
    exact matched_step (inv_after i events) (ih (h.of_prefix (List.prefix_append _ _))) (h events event [] rfl)

theorem matched_append {i : Nat} {p : List Event} (hm : Matched i (switch i p) (after i p))
    (hs : (switch i p).isSome) (more : List Event) :
    (switch i (p ++ more)).isSome ∧ Matched i (switch i (p ++ more)) (after i (p ++ more)) := by
  induction more using List.reverseRecOn with
  | nil => rw [List.append_nil]; exact ⟨hs, hm⟩
  | append_singleton more event ih =>
    obtain ⟨hs', hm'⟩ := ih
    rw [← List.append_assoc, switch_concat, after_concat]
    have hinv := inv_after i (p ++ more)
    refine ⟨?_, matched_step hinv hm' (findsCredentials_of_switched hinv hs' event)⟩
    obtain ⟨a, ha⟩ := Option.isSome_iff_exists.1 hs'
    rw [switched, ha]
    rfl

theorem callsMatch_of_matched {i : Nat} {events : List Event} (hm : Matched i (switch i events) (after i events)) :
    CallsMatch i events := by
  rintro p hp c k rfl
  exact about_of_taskOk (inv_after i events) hm hp

theorem step_confirm {i : Nat} {w : World} (huser : (w.store.signup i).user ≠ none)
    (hredirect : (w.store.signup i).redirect = false) :
    step i (.start .confirm) w = (none, ⟨w.env, submitted i w.store, w.tasks ++
      [.call (.inr (.confirmSignUp ((submitted i w.store).signup i).email
        ((submitted i w.store).signup i).confirmationCode)) (afterConfirmSignUp i)]⟩) := by
  have hoffers : offers (w.store.signup i) .confirm = true := by
    simp [offers, Signup.render, Signup.showConfirmationForm, huser, hredirect]
  show (none, (⟨w.env, (Async.advance exec (program i .confirm) w.store).2,
    w.tasks ++ [(Async.advance exec (program i .confirm) w.store).1]⟩ : World)) = _
  rw [advance_program, if_pos hoffers, handler, advance_onConfirm]

theorem switch_response {i : Nat} {before : List Event} {task : Nat} (user : CognitoUser) {email password : String}
    {k : AuthAnswer (.signUp email password) → Async.Program OpAnswer AuthAnswer (Except Rejection Unit)}
    (hnone : ((after i before).store.signup i).user = none)
    (htask : (after i before).tasks[task]? = some (.call (.inr (.signUp email password)) k)) :
    switch i (before ++ [.settle task (.ok user)]) = some (email, password) ∧
      (after i (before ++ [.settle task (.ok user)])).store.signup i =
        { (after i before).store.signup i with user := some user, loading := false } := by
  have hinv := inv_after i before
  have hcreated : (step i (.settle task (.ok user)) (after i before)).1.bind created = some (email, password) := by
    unfold step
    rw [Async.step_settle exec answer (program i) htask]
    rfl
  rw [switch_concat, after_concat, switched, hcreated, hinv.user.1 hnone]
  refine ⟨rfl, ?_⟩
  obtain ⟨-, ⟨hno, -⟩ | ⟨_, _, _, user', _, hevent, -, -, hstate⟩⟩ := step_spec hinv (.settle task (.ok user))
  · rw [hcreated] at hno
    cases hno
  · cases hevent
    exact hstate

theorem credentials_of_callsMatch {i : Nat} {events : List Event} {email password : String}
    (hswitch : switch i events = some (email, password))
    (huser : ((after i events).store.signup i).user ≠ none)
    (hredirect : ((after i events).store.signup i).redirect = false)
    (h : ∀ more, CallsMatch i (events ++ more)) :
    ((after i events).store.signup i).email = email ∧ ((after i events).store.signup i).password = password := by
  let w := after i events
  let state := (submitted i w.store).signup i
  let waiting : World := ⟨w.env, submitted i w.store,
    w.tasks ++ [.call (.inr (.confirmSignUp state.email state.confirmationCode)) (afterConfirmSignUp i)]⟩
  let accepted : Event := .settle w.tasks.length (.ok ⟨none⟩)
  have hwaiting : after i (events ++ [.start .confirm]) = waiting := by
    rw [after_concat, step_confirm huser hredirect]
  have hswitched : switch i (events ++ [.start .confirm]) = some (email, password) := by
    rw [switch_concat, step_confirm huser hredirect, hswitch]
    rfl
  have hstep : step i accepted waiting = (some ⟨.confirmSignUp state.email state.confirmationCode, .ok ⟨none⟩, ()⟩,
      ⟨(), submitted i w.store, waiting.tasks.set w.tasks.length
        (.call (.inr (.signIn state.email state.password)) (afterSignIn i))⟩) :=
    Async.step_settle exec answer (program i) (s := waiting) List.getElem?_concat_length (.ok ⟨none⟩)
  have hsignIn := h [.start .confirm, accepted]
  rw [List.append_cons, CallsMatch, after_concat, switch_concat, hwaiting, hswitched, hstep] at hsignIn
  have habout := hsignIn _ (List.mem_set (by simp [waiting]) _) _ _ rfl
  have hfields : (email, password) = (state.email, state.password) := Option.some.inj habout
  simpa [state, submitted, w, eq_comm] using hfields

theorem findsCredentials_of_keepsAccount {i : Nat} {events : List Event} (h : KeepsAccount i events) :
    Machine.Guarded (step i) (FindsCredentials i) events start := by
  rintro before event rest rfl task user email password k rfl hnone htask
  obtain ⟨hswitch, hstate⟩ := switch_response user hnone htask
  have hredirect := (inv_after i before).redirect hnone
  have hstay (more : List Event) : CallsMatch i (before ++ [.settle task (.ok user)] ++ more) :=
    h _ ⟨rest, by simp⟩ more (.inl (by rw [hswitch]; rfl))
  have hfields := credentials_of_callsMatch hswitch (by simp [hstate]) (by simpa [hstate] using hredirect) hstay
  rw [hstate] at hfields
  exact hfields

/-- The calls are about the account that was created exactly when the response that switches the component
finds the credentials of its call in the form. -/
theorem keepsAccount_iff (i : Nat) (events : List Event) :
    KeepsAccount i events ↔ Machine.Guarded (step i) (FindsCredentials i) events start := by
  constructor
  · exact findsCredentials_of_keepsAccount
  · rintro h p hp more (hs | rfl)
    · exact callsMatch_of_matched (matched_append (matched_after (h.of_prefix hp)) hs more).2
    · rw [List.append_nil]
      exact callsMatch_of_matched (matched_after (h.of_prefix hp))

/-- The user mends a typing error in the e-mail while the sign-up is pending. -/
def mendedEmail : List Event :=
  [.start (.change .email "ada@exmaple.org"), .start (.change .password "correct horse"),
    .start (.change .confirmPassword "correct horse"), .start (.signup ⟨true⟩),
    .start (.change .email "ada@example.org"), .settle 3 (.ok ⟨none⟩),
    .start (.change .confirmationCode "123456"), .start .confirm]

/-- One address is signed up, and another one is confirmed. -/
theorem mendedEmail_not_keepsAccount : ¬ CallsMatch 0 mendedEmail := by
  intro hmatch
  have habout : About (switch 0 mendedEmail) (.confirmSignUp "ada@example.org" "123456") :=
    hmatch _ (List.mem_of_getElem? (i := 6) rfl) _ _ rfl
  have hemail : some "ada@exmaple.org" = some "ada@example.org" := habout
  exact absurd hemail (by decide)

end SignupAccount

end Authentication

end FullStack
