import FullStack.Authentication

/-!
# Confirming a sign-up

`onConfirm` confirms the account and then signs in, and one `catch` handles both rejections. An attempt
that confirms the account but does not sign in leaves the form as it was: the next attempt confirms an
account that is confirmed, is rejected, and never gets to sign in (`Stuck`). So a sign-up survives its
failures exactly when the first attempt that confirms the account also signs in (`survives_iff`).
-/

namespace FullStack

namespace Authentication

namespace Signup

inductive View where
  | signupForm
  | confirmationForm
  | redirect
deriving DecidableEq

def showConfirmationForm (state : SignupState) : View :=
  if state.redirect then .redirect else .confirmationForm

def render (state : SignupState) : View :=
  if state.user = none then .signupForm else showConfirmationForm state

end Signup

namespace Confirmation

/-- An account of the user pool, with the code that was sent to its address. -/
structure Account where
  email : String
  password : String
  code : String
  confirmed : Bool

def Account.confirm (a : Account) : Account := { a with confirmed := true }

/-- The transient failures that the calls of an attempt would meet. -/
structure Attempt where
  confirmSignUp : Option Rejection
  signIn : Option Rejection

def rejected (message : String) : Rejection := .error ("Error: " ++ message) message

/-- A call that fails transiently has no effect; of the others, `confirmSignUp` confirms an unconfirmed
account, and `signIn` asks for a confirmed one. -/
def Account.answer (attempt : Attempt) : (c : AuthCall) → Account → AuthAnswer c × Account
  | .confirmSignUp username code, a =>
    match attempt.confirmSignUp with
    | some e => (.error e, a)
    | none =>
      if username ≠ a.email then (.error (rejected "Username/client id combination not found."), a)
      else if a.confirmed then (.error (rejected "User cannot be confirmed. Current status is CONFIRMED"), a)
      else if code ≠ a.code then (.error (rejected "Invalid verification code provided."), a)
      else (.ok (), a.confirm)
  | .signIn username password, a =>
    match attempt.signIn with
    | some e => (.error e, a)
    | none =>
      if ¬ (username = a.email ∧ password = a.password) then
        (.error (rejected "Incorrect username or password."), a)
      else if a.confirmed then (.ok ⟨none⟩, a)
      else (.error (rejected "User is not confirmed."), a)
  | .signUp _ _, a => (.error (rejected "An account with the given email already exists."), a)
  | .currentSession, a => (.error (.text "No current user"), a)
  | .signOut, a => (.ok (), a)

structure World where
  account : Account
  store : Store

def execAttempt (attempt : Attempt) : (c : Op ⊕ AuthCall) → World → Sum.elim OpAnswer AuthAnswer c × World
  | .inl o, w => ((exec o w.store).1, { w with store := (exec o w.store).2 })
  | .inr c, w => ((w.account.answer attempt c).1, { w with account := (w.account.answer attempt c).2 })

/-- One attempt on the instance `i`, if its confirmation form is on screen. -/
def attemptConfirm (i : Nat) (w : World) (attempt : Attempt) : World :=
  if Signup.render (w.store.signup i) = .confirmationForm then
    ((dispatched (Signup.onConfirm i)).run.run (execAttempt attempt) w).2
  else w

def attemptAll (i : Nat) (history : List Attempt) (w : World) : World := history.foldl (attemptConfirm i) w

def submitted (i : Nat) (s : Store) : Store :=
  { s with
    dispatch := ⟨true, false⟩
    signup := Function.update s.signup i { s.signup i with loading := true } }

def caught (i : Nat) (e : Rejection) (s : Store) : Store :=
  { s with
    alerts := s.alerts ++ [e.message]
    signup := Function.update s.signup i { s.signup i with loading := false } }

def completed (i : Nat) (s : Store) : Store :=
  { s with
    app := { s.app with isAuthenticated := true }
    signup := Function.update s.signup i { s.signup i with redirect := true } }

def afterSignIn (i : Nat) : AuthAnswer (.signIn "" "") → Async.Program OpAnswer AuthAnswer (Except Rejection Unit)
  | .error e => ExceptT.run do
    perform (.alert e.message)
    perform (.setSignup i fun state => { state with loading := false })
  | .ok _ => ExceptT.run do
    App.userHasAuthenticated true
    perform (.setSignup i fun state => { state with redirect := true })

def afterConfirmSignUp (i : Nat) :
    AuthAnswer (.confirmSignUp "" "") → Async.Program OpAnswer AuthAnswer (Except Rejection Unit)
  | .error e => ExceptT.run do
    perform (.alert e.message)
    perform (.setSignup i fun state => { state with loading := false })
  | .ok _ => .call (.inl (.getSignup i)) fun (state : SignupState) =>
    .call (.inr (.signIn state.email state.password)) (afterSignIn i)

theorem onConfirm_eq (i : Nat) : (dispatched (Signup.onConfirm i)).run =
    .call (.inl .beginDispatch) fun _ => .call (.inl .preventDefault) fun _ =>
    .call (.inl (.setSignup i fun state => { state with loading := true })) fun _ =>
    .call (.inl (.getSignup i)) fun (state : SignupState) =>
    .call (.inr (.confirmSignUp state.email state.confirmationCode)) (afterConfirmSignUp i) := by
  refine congrArg (Proc.call _) (funext fun _ => congrArg (Proc.call _) (funext fun _ =>
    congrArg (Proc.call _) (funext fun _ => congrArg (Proc.call _) (funext fun state =>
      congrArg (Proc.call _) (funext fun r => ?_)))))
  cases r with
  | error e => rfl
  | ok _ =>
    refine congrArg (Proc.call _) (funext fun state => congrArg (Proc.call _) (funext fun r => ?_))
    cases r <;> rfl

/-- The form of the instance belongs to the account, and the code is the right one. -/
structure Filled (i : Nat) (w : World) : Prop where
  user : (w.store.signup i).user ≠ none
  email : (w.store.signup i).email = w.account.email
  password : (w.store.signup i).password = w.account.password
  code : (w.store.signup i).confirmationCode = w.account.code

/-- The form is on screen, and the account is confirmed or not. -/
structure Shown (i : Nat) (confirmed : Bool) (w : World) : Prop extends Filled i w where
  redirect : (w.store.signup i).redirect = false
  account : w.account.confirmed = confirmed

structure SignedIn (i : Nat) (w : World) : Prop where
  app : w.store.app.isAuthenticated = true
  redirect : (w.store.signup i).redirect = true

section
variable {i : Nat} {attempt : Attempt} {w : World}

theorem Shown.render {confirmed : Bool} (h : Shown i confirmed w) :
    Signup.render (w.store.signup i) = .confirmationForm := by
  unfold Signup.render Signup.showConfirmationForm
  rw [if_neg h.user, h.redirect]
  rfl

theorem Shown.attemptConfirm_eq {confirmed : Bool} (h : Shown i confirmed w) :
    let state := (submitted i w.store).signup i
    let reply := w.account.answer attempt (.confirmSignUp state.email state.confirmationCode)
    attemptConfirm i w attempt =
      ((afterConfirmSignUp i reply.1).run (execAttempt attempt) ⟨reply.2, submitted i w.store⟩).2 := by
  intro state reply
  unfold attemptConfirm
  rw [if_pos h.render, onConfirm_eq]
  rfl

theorem Shown.after_caught {confirmed : Bool} (h : Shown i confirmed w) (e : Rejection) :
    Shown i confirmed ⟨w.account, caught i e (submitted i w.store)⟩ := by
  obtain ⟨⟨huser, hemail, hpassword, hcode⟩, hredirect, haccount⟩ := h
  refine ⟨⟨?_, ?_, ?_, ?_⟩, ?_, haccount⟩ <;> simpa [caught, submitted]

theorem Shown.confirm (h : Shown i false w) : Shown i true { w with account := w.account.confirm } :=
  ⟨⟨h.user, h.email, h.password, h.code⟩, h.redirect, rfl⟩

theorem Shown.attempt_of_unconfirmed {confirmed : Bool} (h : Shown i confirmed w)
    (hfail : attempt.confirmSignUp ≠ none ∨ confirmed = true) :
    Shown i confirmed (attemptConfirm i w attempt) := by
  obtain ⟨e, he⟩ : ∃ e, w.account.answer attempt (.confirmSignUp ((submitted i w.store).signup i).email
      ((submitted i w.store).signup i).confirmationCode) = (.error e, w.account) := by
    unfold Account.answer
    cases hc : attempt.confirmSignUp with
    | some e => exact ⟨e, rfl⟩
    | none =>
      have hconfirmed : w.account.confirmed = true := by simpa [hc, h.account] using hfail
      simp only [submitted, Function.update_self, h.email, ne_eq, not_true_eq_false, if_false, hconfirmed, if_true]
      exact ⟨_, rfl⟩
  rw [h.attemptConfirm_eq, he]
  exact h.after_caught e

theorem Shown.attempt_of_confirmed (h : Shown i false w) (hc : attempt.confirmSignUp = none) :
    let state := (submitted i w.store).signup i
    let reply := w.account.confirm.answer attempt (.signIn state.email state.password)
    attemptConfirm i w attempt =
      ((afterSignIn i reply.1).run (execAttempt attempt) ⟨reply.2, submitted i w.store⟩).2 := by
  intro state reply
  have hconfirmed : w.account.answer attempt (.confirmSignUp state.email state.confirmationCode) =
      (.ok (), w.account.confirm) := by
    unfold Account.answer
    simp [state, hc, submitted, h.email, h.code, h.account]
  rw [h.attemptConfirm_eq, hconfirmed]
  rfl

/-- The account is confirmed and the user is not signed in: the form stays, over an account that no
further attempt can confirm. -/
theorem Shown.stuck (h : Shown i false w) (hc : attempt.confirmSignUp = none) (hs : attempt.signIn ≠ none) :
    Shown i true (attemptConfirm i w attempt) := by
  obtain ⟨e, he⟩ := Option.ne_none_iff_exists'.1 hs
  have hrejected (a : Account) (email password : String) :
      a.answer attempt (.signIn email password) = (.error e, a) := by
    unfold Account.answer
    rw [he]
  rw [h.attempt_of_confirmed hc, hrejected]
  exact h.confirm.after_caught e

theorem Shown.attempt_completed (h : Shown i false w) (hc : attempt.confirmSignUp = none)
    (hs : attempt.signIn = none) :
    attemptConfirm i w attempt = ⟨w.account.confirm, completed i (submitted i w.store)⟩ := by
  have haccepted : w.account.confirm.answer attempt
      (.signIn ((submitted i w.store).signup i).email ((submitted i w.store).signup i).password) =
        (.ok ⟨none⟩, w.account.confirm) := by
    unfold Account.answer
    simp [hs, submitted, Account.confirm, h.email, h.password]
  rw [h.attempt_of_confirmed hc, haccepted]
  rfl

structure Finished (i : Nat) (w : World) : Prop extends SignedIn i w where
  render : Signup.render (w.store.signup i) = .redirect

theorem Shown.finished (h : Shown i false w) (hc : attempt.confirmSignUp = none) (hs : attempt.signIn = none) :
    Finished i (attemptConfirm i w attempt) := by
  rw [h.attempt_completed hc hs]
  refine ⟨⟨rfl, ?_⟩, ?_⟩
  · simp [completed]
  · simp [completed, submitted, Signup.render, Signup.showConfirmationForm, h.user]

theorem Finished.attemptConfirm_eq (h : Finished i w) (attempt : Attempt) : attemptConfirm i w attempt = w := by
  unfold attemptConfirm
  rw [h.render]
  exact if_neg (by decide)

theorem Shown.not_signedIn {confirmed : Bool} (h : Shown i confirmed w) : ¬ SignedIn i w := fun hs =>
  Bool.false_ne_true (h.redirect.symm.trans hs.redirect)

end

section
variable {i : Nat} {w : World}

theorem Finished.attemptAll (h : Finished i w) (history : List Attempt) : Finished i (attemptAll i history w) := by
  induction history with
  | nil => exact h
  | cons attempt history ih =>
    show Finished i (Confirmation.attemptAll i history (attemptConfirm i w attempt))
    rw [h.attemptConfirm_eq]
    exact ih

theorem Shown.attemptAll_of_confirmed (h : Shown i true w) (history : List Attempt) :
    Shown i true (attemptAll i history w) := by
  induction history generalizing w with
  | nil => exact h
  | cons attempt history ih => exact ih (h.attempt_of_unconfirmed (.inr rfl))

def Attempt.confirms (attempt : Attempt) : Bool := attempt.confirmSignUp.isNone

def succeeding : Attempt := ⟨none, none⟩

theorem attemptAll_concat (history : List Attempt) (attempt : Attempt) (w : World) :
    attemptAll i (history ++ [attempt]) w = attemptConfirm i (attemptAll i history w) attempt :=
  List.foldl_append ..

/-- A further attempt ends with the user signed in exactly when the first attempt that confirmed the
account has also signed in. -/
theorem survives_iff (h : Shown i false w) (history : List Attempt) :
    SignedIn i (attemptConfirm i (attemptAll i history w) succeeding) ↔
      ∀ first, history.find? Attempt.confirms = some first → first.signIn = none := by
  induction history generalizing w with
  | nil => exact iff_of_true (h.finished rfl rfl).toSignedIn (by simp)
  | cons attempt history ih =>
    rw [attemptAll, List.foldl_cons, ← attemptAll]
    cases hc : attempt.confirmSignUp with
    | some e =>
      -- the account stays unconfirmed
      have hskip : ¬ attempt.confirms = true := by simp [Attempt.confirms, hc]
      rw [ih (h.attempt_of_unconfirmed (.inl (by simp [hc]))), List.find?_cons_of_neg hskip]
    | none =>
      have hfound : attempt.confirms = true := by simp [Attempt.confirms, hc]
      rw [List.find?_cons_of_pos hfound]
      simp only [Option.some.injEq, forall_eq']
      rw [← attemptAll_concat]
      by_cases hs : attempt.signIn = none
      · exact iff_of_true ((h.finished hc hs).attemptAll _).toSignedIn hs
      · exact iff_of_false ((h.stuck hc hs).attemptAll_of_confirmed _).not_signedIn hs

end

def ada : Account := ⟨"ada@example.org", "correct horse", "123456", false⟩

def codeTyped : World where
  account := ada
  store := { initialStore with
    signup := fun _ => { Signup.initialState with
      email := "ada@example.org", password := "correct horse", confirmPassword := "correct horse"
      confirmationCode := "123456", user := some ⟨none⟩, validated := true } }

theorem shown_codeTyped : Shown 0 false codeTyped := ⟨⟨by decide, rfl, rfl, rfl⟩, rfl, rfl⟩

theorem retry_survives :
    SignedIn 0 (attemptConfirm 0 (attemptAll 0 [⟨some (rejected "Network error"), none⟩] codeTyped) succeeding) :=
  (survives_iff shown_codeTyped [⟨some (rejected "Network error"), none⟩]).2 (by simp [Attempt.confirms])

/-- The sign-in of the first attempt meets a network error: no attempt with this form signs in any more. -/
theorem lost_signIn_not_survives :
    ¬ SignedIn 0 (attemptConfirm 0
      (attemptAll 0 [⟨none, some (rejected "Network error")⟩] codeTyped) succeeding) := by
  have hstuck : Shown 0 true (attemptAll 0 [⟨none, some (rejected "Network error")⟩] codeTyped) :=
    shown_codeTyped.stuck rfl (Option.some_ne_none _)
  exact (hstuck.attemptAll_of_confirmed [succeeding]).not_signedIn

end Confirmation

end Authentication

end FullStack
