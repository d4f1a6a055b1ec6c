import FullStack.Lib.Async

/-!
# Signing in and out

The handlers of `App`, `Login` and `Signup` that call `Auth`. They keep their state in a `Store`, with the
instances of `Login` and `Signup` by number, and wait for `Auth`, whose calls are answered by a value or by a
rejection.
-/

namespace FullStack

namespace Authentication

/-- A user as `Auth.signIn` resolves with it; `challengeName` is set while a challenge is pending. -/
structure CognitoUser where
  challengeName : Option String
deriving DecidableEq

/-- A rejection: a bare string, or an object with a message, of which `alert` shows `shown`. -/
inductive Rejection where
  | text (s : String)
  | error (shown message : String)
deriving DecidableEq

def Rejection.shown : Rejection → String
  | .text s => s
  | .error shown _ => shown

def Rejection.message : Rejection → String
  | .text _ => "undefined"
  | .error _ message => message

structure AppState where
  isAuthenticated : Bool
  isAuthenticating : Bool

structure LoginState where
  loading : Bool
  redirect : Bool
  email : String
  password : String
  isValid : Bool

structure SignupState where
  loading : Bool
  email : String
  password : String
  confirmPassword : String
  confirmationCode : String
  user : Option CognitoUser
  redirect : Bool
  validated : Bool

def App.initialState : AppState where
  isAuthenticated := false
  isAuthenticating := true

def Login.initialState : LoginState where
  loading := false
  redirect := false
  email := ""
  password := ""
  isValid := false

def Signup.initialState : SignupState where
  loading := false
  email := ""
  password := ""
  confirmPassword := ""
  confirmationCode := ""
  user := none
  redirect := false
  validated := false

structure Dispatch where
  defaultPrevented : Bool
  propagationStopped : Bool

structure Store where
  app : AppState
  login : Nat → LoginState
  signup : Nat → SignupState
  dispatch : Dispatch
  alerts : List String
  path : List String

def initialStore : Store where
  app := App.initialState
  login := fun _ => Login.initialState
  signup := fun _ => Signup.initialState
  dispatch := ⟨false, false⟩
  alerts := []
  path := []

inductive Op where
  | setApp (f : AppState → AppState)
  | getLogin (i : Nat)
  | setLogin (i : Nat) (f : LoginState → LoginState)
  | getSignup (i : Nat)
  | setSignup (i : Nat) (f : SignupState → SignupState)
  | beginDispatch
  | preventDefault
  | stopPropagation
  | alert (message : String)
  | push (path : String)

def OpAnswer : Op → Type
  | .getLogin _ => LoginState
  | .getSignup _ => SignupState
  | _ => Unit

def exec : (o : Op) → Store → OpAnswer o × Store
  | .setApp f, s => ((), { s with app := f s.app })
  | .getLogin i, s => (s.login i, s)
  | .setLogin i f, s => ((), { s with login := Function.update s.login i (f (s.login i)) })
  | .getSignup i, s => (s.signup i, s)
  | .setSignup i f, s => ((), { s with signup := Function.update s.signup i (f (s.signup i)) })
  | .beginDispatch, s => ((), { s with dispatch := ⟨false, false⟩ })
  | .preventDefault, s => ((), { s with dispatch := { s.dispatch with defaultPrevented := true } })
  | .stopPropagation, s => ((), { s with dispatch := { s.dispatch with propagationStopped := true } })
  | .alert message, s => ((), { s with alerts := s.alerts ++ [message] })
  | .push path, s => ((), { s with path := s.path ++ [path] })

inductive AuthCall where
  | currentSession
  | signIn (email password : String)
  | signOut
  | signUp (username password : String)
  | confirmSignUp (username code : String)
deriving DecidableEq

/-- What a call resolves with; of a session, whether it is truthy. -/
def Value : AuthCall → Type
  | .currentSession => Bool
  | .signIn _ _ => CognitoUser
  | .signUp _ _ => CognitoUser
  | _ => Unit

abbrev AuthAnswer (c : AuthCall) : Type := Except Rejection (Value c)

abbrev Handler := ExceptT Rejection (Async.Program OpAnswer AuthAnswer)

def perform (o : Op) : Handler (OpAnswer o) := ExceptT.lift (Async.operate o)

def await (c : AuthCall) : Handler (Value c) := ExceptT.mk (Async.await c)

def dispatched (handler : Handler Unit) : Handler Unit := do
  perform .beginDispatch
  handler

/-- The event as a handler reads it: what `event.currentTarget.checkValidity()` returns. -/
structure FormEvent where
  checkValidity : Bool

namespace App

def userHasAuthenticated (authenticated : Bool) : Handler Unit :=
  perform (.setApp fun state => { state with isAuthenticated := authenticated })

def componentDidMount : Handler Unit := do
  try
    let session : Bool ← await .currentSession
    if session then
      userHasAuthenticated true
  catch e =>
    if e ≠ .text "No current user" then
      perform (.alert e.shown)
  perform (.setApp fun state => { state with isAuthenticating := false })

def handleLogout : Handler Unit := do
  await .signOut
  userHasAuthenticated false
  perform (.push "/login")

end App

namespace Login

inductive Field where
  | email
  | password

def onChange (i : Nat) (field : Field) (value : String) : Handler Unit :=
  perform (.setLogin i fun state => match field with
    | .email => { state with email := value }
    | .password => { state with password := value })

def onLogin (i : Nat) (event : FormEvent) : Handler Unit := do
  if event.checkValidity then
    perform .preventDefault
    perform .stopPropagation
    perform (.setLogin i fun state => { state with isValid := true, loading := true })
    try
      let state ← perform (.getLogin i)
      let _user ← await (.signIn state.email state.password)
      App.userHasAuthenticated true
      perform (.setLogin i fun state => { state with redirect := true })
    catch e =>
      perform (.alert e.message)
      perform (.setLogin i fun state => { state with loading := false })

end Login

namespace Signup

inductive Field where
  | email
  | password
  | confirmPassword
  | confirmationCode

def onChange (i : Nat) (field : Field) (value : String) : Handler Unit :=
  perform (.setSignup i fun state => match field with
    | .email => { state with email := value }
    | .password => { state with password := value }
    | .confirmPassword => { state with confirmPassword := value }
    | .confirmationCode => { state with confirmationCode := value })

/-- The promise of `Auth.signUp` is not awaited: the last `setState` of the handler comes before it settles. -/
def onSignup (i : Nat) (event : FormEvent) : Handler Unit := do
  perform .preventDefault
  if event.checkValidity = false then
    perform .stopPropagation
    perform (.setSignup i fun state => { state with validated := true })
  else
    perform (.setSignup i fun state => { state with loading := true, validated := true })
    let state ← perform (.getSignup i)
    perform (.setSignup i fun state => { state with validated := true })
    try
      let user ← await (.signUp state.email state.password)
      perform (.setSignup i fun state => { state with user := some user, loading := false })
    catch e =>
      perform (.alert e.message)
      perform (.setSignup i fun state => { state with loading := false })

def onConfirm (i : Nat) : Handler Unit := do
  perform .preventDefault
  perform (.setSignup i fun state => { state with loading := true })
  try
    let state ← perform (.getSignup i)
    await (.confirmSignUp state.email state.confirmationCode)
    let state ← perform (.getSignup i)
    let _user ← await (.signIn state.email state.password)
    App.userHasAuthenticated true
    perform (.setSignup i fun state => { state with redirect := true })
  catch e =>
    perform (.alert e.message)
    perform (.setSignup i fun state => { state with loading := false })

end Signup

end Authentication

end FullStack
