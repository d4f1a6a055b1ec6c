import FullStack.Alarm
import FullStack.Authentication
import FullStack.Email

/-!
# The login and sign-up forms

Two tests stand before a call to `Auth`: the one that enables the submit button, and the constraint
validation of the browser, which the submit handler asks for. The login form agrees with the browser, and
prevents the native submission, exactly if the browser finds its fields valid; the sign-up form prevents it
always and agrees unless its button accepts an address that HTML does not (`formsAgree_iff`).
-/

namespace FullStack

namespace Authentication

open Email
open ModifyAlarm (jsLength)

inductive InputType where
  | email
  | password

/-- An input with the text that the user has typed into it. -/
structure FormInput where
  type : InputType
  minLength : Nat
  required : Bool
  value : String

def FormInput.valueMissing (input : FormInput) : Bool := input.required && input.value = ""

def FormInput.typeMismatch (input : FormInput) : Bool :=
  match input.type with
  | .email => input.value ≠ "" && !decide (IsHtmlEmail input.value)
  | .password => false

def FormInput.tooShort (input : FormInput) : Bool := input.value ≠ "" && jsLength input.value < input.minLength

def FormInput.isValid (input : FormInput) : Bool :=
  !(input.valueMissing || input.typeMismatch || input.tooShort)

def checkValidity (inputs : List FormInput) : Bool := inputs.all FormInput.isValid

namespace Login

def inputs (state : LoginState) : List FormInput :=
  [⟨.email, 0, true, state.email⟩, ⟨.password, 8, true, state.password⟩]

def validateForm (lower : LowerCase) (state : LoginState) : Bool :=
  test lower state.email && state.password ≠ ""

/-- The submit event, up to the call that it waits for. -/
def submit (i : Nat) (s : Store) : Async.Program OpAnswer AuthAnswer (Except Rejection Unit) × Store :=
  Async.advance exec (dispatched (Login.onLogin i ⟨checkValidity (inputs (s.login i))⟩)).run s

end Login

namespace Signup

def inputs (state : SignupState) : List FormInput :=
  [⟨.email, 5, true, state.email⟩, ⟨.password, 8, true, state.password⟩,
    ⟨.password, 8, true, state.confirmPassword⟩]

def validateSignupForm (lower : LowerCase) (state : SignupState) : Bool :=
  test lower state.email && 8 ≤ jsLength state.confirmPassword && state.password = state.confirmPassword

/-- The submit event, up to the call that it waits for. -/
def submit (i : Nat) (s : Store) : Async.Program OpAnswer AuthAnswer (Except Rejection Unit) × Store :=
  Async.advance exec (dispatched (Signup.onSignup i ⟨checkValidity (inputs (s.signup i))⟩)).run s

end Signup

/-- If the button is enabled, the form is valid and submitting it logs in once; and the browser never submits. -/
def LoginAgrees (lower : LowerCase) (i : Nat) (s : Store) : Prop :=
  (Login.validateForm lower (s.login i) = true → checkValidity (Login.inputs (s.login i)) = true ∧
    Async.CallsOnce exec (.signIn (s.login i).email (s.login i).password) (Login.submit i s).1) ∧
  (Login.submit i s).2.dispatch.defaultPrevented = true

def SignupAgrees (lower : LowerCase) (i : Nat) (s : Store) : Prop :=
  (Signup.validateSignupForm lower (s.signup i) = true → checkValidity (Signup.inputs (s.signup i)) = true ∧
    Async.CallsOnce exec (.signUp (s.signup i).email (s.signup i).password) (Signup.submit i s).1) ∧
  (Signup.submit i s).2.dispatch.defaultPrevented = true

theorem isValid_email {minLength : Nat} {email : String} :
    (FormInput.mk .email minLength true email).isValid = true ↔ IsHtmlEmail email ∧ minLength ≤ jsLength email := by
  by_cases hempty : email = ""
  · subst hempty
    refine iff_of_false Bool.false_ne_true fun h => ?_
    have hnot : ¬ IsHtmlEmail "" := by decide
    exact hnot h.1
  · simp [FormInput.isValid, FormInput.valueMissing, FormInput.typeMismatch, FormInput.tooShort, hempty]

theorem isValid_password {minLength : Nat} {password : String} (h : 0 < minLength) :
    (FormInput.mk .password minLength true password).isValid = true ↔ minLength ≤ jsLength password := by
  by_cases hempty : password = ""
  · subst hempty
    exact iff_of_false Bool.false_ne_true h.not_ge
  · simp [FormInput.isValid, FormInput.valueMissing, FormInput.typeMismatch, FormInput.tooShort, hempty]

theorem checkValidity_login (state : LoginState) :
    checkValidity (Login.inputs state) = true ↔ IsHtmlEmail state.email ∧ 8 ≤ jsLength state.password := by
  rw [checkValidity, Login.inputs, List.all_cons, List.all_cons, List.all_nil, Bool.and_true, Bool.and_eq_true,
    isValid_email, isValid_password (by decide), and_iff_left (Nat.zero_le _)]

theorem length_le_jsLength (s : String) : s.toList.length ≤ jsLength s := by
  have hone : ∀ c, 1 ≤ (Json.utf16 c).length := by
    intro c
    rw [Json.utf16]
    split <;> simp
  rw [jsLength]
  induction s.toList with
  | nil => exact Nat.zero_le _
  | cons c cs ih =>
    rw [List.flatMap_cons, List.length_append, List.length_cons, Nat.add_comm]
    exact Nat.add_le_add (hone c) ih

/-- Where the button is enabled, only the syntax of the address is left to the browser. -/
theorem checkValidity_signup {lower : LowerCase} {state : SignupState}
    (h : Signup.validateSignupForm lower state = true) :
    checkValidity (Signup.inputs state) = true ↔ IsHtmlEmail state.email := by
  rw [Signup.validateSignupForm, Bool.and_eq_true, Bool.and_eq_true, decide_eq_true_eq, decide_eq_true_eq] at h
  obtain ⟨⟨htest, hconfirm⟩, hsame⟩ := h
  rw [checkValidity, Signup.inputs, List.all_cons, List.all_cons, List.all_cons, List.all_nil, Bool.and_true,
    Bool.and_eq_true, Bool.and_eq_true, isValid_email, isValid_password (by decide),
    isValid_password (by decide), hsame]
  constructor
  · exact fun h => h.1.1
  · intro hhtml
    have hlength := (length_of_test htest hhtml).trans (length_le_jsLength _)
    exact ⟨⟨hhtml, Nat.le_of_succ_le hlength⟩, hconfirm, hconfirm⟩

theorem submit_login (i : Nat) (s : Store) :
    (Login.submit i s).2.dispatch.defaultPrevented = checkValidity (Login.inputs (s.login i)) ∧
    (checkValidity (Login.inputs (s.login i)) = true →
      Async.CallsOnce exec (.signIn (s.login i).email (s.login i).password) (Login.submit i s).1) := by
  rw [Login.submit]
  cases hvalid : checkValidity (Login.inputs (s.login i)) with
  | false => exact ⟨rfl, fun h => (Bool.false_ne_true h).elim⟩
  | true =>
    refine ⟨rfl, fun _ => ?_⟩
    -- The handler reads the state back after its own `setState`.
    let state : LoginState :=
      Function.update s.login i { s.login i with isValid := true, loading := true } i
    have hcalls : Async.CallsOnce exec (.signIn state.email state.password)
        (Async.advance exec (dispatched (Login.onLogin i ⟨true⟩)).run s).1 := by
      refine ⟨_, rfl, fun r s' => ?_⟩
      cases r <;> exact ⟨_, rfl⟩
    have hstate : state = { s.login i with isValid := true, loading := true } := Function.update_self ..
    rw [hstate] at hcalls
    exact hcalls

theorem submit_signup (i : Nat) (s : Store) :
    (Signup.submit i s).2.dispatch.defaultPrevented = true ∧
    (checkValidity (Signup.inputs (s.signup i)) = true →
      Async.CallsOnce exec (.signUp (s.signup i).email (s.signup i).password) (Signup.submit i s).1) := by
  rw [Signup.submit]
  cases hvalid : checkValidity (Signup.inputs (s.signup i)) with
  | false => exact ⟨rfl, fun h => (Bool.false_ne_true h).elim⟩
  | true =>
    refine ⟨rfl, fun _ => ?_⟩
    let state : SignupState :=
      Function.update s.signup i { s.signup i with loading := true, validated := true } i
    have hcalls : Async.CallsOnce exec (.signUp state.email state.password)
        (Async.advance exec (dispatched (Signup.onSignup i ⟨true⟩)).run s).1 := by
      refine ⟨_, rfl, fun r s' => ?_⟩
      cases r <;> exact ⟨_, rfl⟩
    have hstate : state = { s.signup i with loading := true, validated := true } := Function.update_self ..
    rw [hstate] at hcalls
    exact hcalls

theorem formsAgree_iff (lower : LowerCase) (i : Nat) (s : Store) :
    (LoginAgrees lower i s ↔ IsHtmlEmail (s.login i).email ∧ 8 ≤ jsLength (s.login i).password) ∧
    (SignupAgrees lower i s ↔
      (Signup.validateSignupForm lower (s.signup i) = true → IsHtmlEmail (s.signup i).email)) := by
  obtain ⟨hprevented, hlogin⟩ := submit_login i s
  obtain ⟨hprevented', hsignup⟩ := submit_signup i s
  constructor
  · rw [← checkValidity_login, LoginAgrees, hprevented]
    constructor
    · exact fun h => h.2
    · exact fun h => ⟨fun _ => ⟨h, hlogin h⟩, h⟩
  · constructor
    · intro h henabled
      exact (checkValidity_signup henabled).1 (h.1 henabled).1
    · intro h
      refine ⟨fun henabled => ?_, hprevented'⟩
      have hvalid := (checkValidity_signup henabled).2 (h henabled)
      exact ⟨hvalid, hsignup hvalid⟩

/-- An address and a short password: the button is enabled, the browser rejects the password, and it submits. -/
theorem not_formsAgree_short_password : ¬ ∀ lower i s, LoginAgrees lower i s ∧ SignupAgrees lower i s := by
  intro h
  let state : LoginState := { Login.initialState with email := "ada@example.org", password := "short" }
  have henabled : Login.validateForm asciiLowerCase state = true := by decide
  have hvalid := ((h asciiLowerCase 0 { initialStore with login := fun _ => state }).1.1 henabled).1
  have hshort : ¬ 8 ≤ jsLength state.password := by decide
  exact hshort ((checkValidity_login state).1 hvalid).2

end Authentication

end FullStack
