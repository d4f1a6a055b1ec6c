import FullStack.Authentication

/-!
# Whether the authentication flag tracks the session

`App` keeps a flag that the session check at the start, logins, confirmations and logouts write when their
calls settle. With no call pending the flag agrees with `Auth` exactly if the last settled call that wrote
it did not leave a challenge instead of a session (`flagTracksSession_iff`): `signIn` resolves for both.
-/

namespace FullStack

namespace Authentication

namespace SessionFlag

/-- How a call settles: a login may resolve with a challenge, which may clear the session `Auth` held. -/
inductive Outcome where
  | resolve
  | challenge (challengeName : String) (cleared : Bool)
  | reject (e : Rejection)

/-- The answer to a call, and whether `Auth` holds a session after it; only a login can meet a challenge. -/
def answer : (c : AuthCall) → Outcome → Bool → AuthAnswer c × Bool
  | _, .reject e, held => (.error e, held)
  | .currentSession, _, held => (if held then .ok true else .error (.text "No current user"), held)
  | .signIn _ _, .challenge challengeName cleared, held => (.ok ⟨some challengeName⟩, held && !cleared)
  | .signIn _ _, .resolve, _ => (.ok ⟨none⟩, true)
  | .signOut, _, _ => (.ok (), false)
  | .signUp _ _, _, held => (.ok ⟨none⟩, held)
  | .confirmSignUp _ _, _, held => (.ok (), held)

inductive Input where
  | logout
  | changeLogin (i : Nat) (field : Login.Field) (value : String)
  | login (i : Nat) (event : FormEvent)
  | changeSignup (i : Nat) (field : Signup.Field) (value : String)
  | signup (i : Nat) (event : FormEvent)
  | confirm (i : Nat)

def handler : Input → Handler Unit
  | .logout => App.handleLogout
  | .changeLogin i field value => Login.onChange i field value
  | .login i event => Login.onLogin i event
  | .changeSignup i field value => Signup.onChange i field value
  | .signup i event => Signup.onSignup i event
  | .confirm i => Signup.onConfirm i

def program (input : Input) : Async.Program OpAnswer AuthAnswer (Except Rejection Unit) :=
  (dispatched (handler input)).run

/-- Whether `Auth` holds a session, the store of the components, and the handlers that have been started. -/
abbrev World := Async.System Bool Store OpAnswer AuthAnswer (Except Rejection Unit)

abbrev Event := Async.Event Input Outcome

abbrev Settled := Async.Settled AuthCall Outcome Bool

def mounted (held : Bool) : World :=
  let (task, store) := Async.advance exec App.componentDidMount.run initialStore
  ⟨held, store, [task]⟩

def after (held : Bool) (events : List Event) : World := Async.after exec answer program events (mounted held)

def settled (held : Bool) (events : List Event) : List Settled :=
  Async.log exec answer program events (mounted held)

def flag (s : Store) : Bool := s.app.isAuthenticated

/-- What the settlement of a call does to the flag. -/
def flagEffect : (c : AuthCall) → AuthAnswer c → Bool → Bool
  | .currentSession, .ok true, _ => true
  | .signIn _ _, .ok _, _ => true
  | .signOut, .ok _, _ => false
  | _, _, flag => flag

theorem starts_program (input : Input) : Async.Starts exec flag flagEffect (program input) := by
  intro s
  cases input with
  | logout =>
    refine ⟨rfl, .last exec flag flagEffect AuthCall.signOut fun r s => ?_⟩
    cases r <;> exact ⟨rfl, _, rfl⟩
  | changeLogin i field value => exact ⟨rfl, .ret _⟩
  | login i event =>
    obtain ⟨_ | _⟩ := event
    · exact ⟨rfl, .ret _⟩
    · refine ⟨rfl, .last exec flag flagEffect (AuthCall.signIn _ _) fun r s => ?_⟩
      cases r <;> exact ⟨rfl, _, rfl⟩
  | changeSignup i field value => exact ⟨rfl, .ret _⟩
  | signup i event =>
    obtain ⟨_ | _⟩ := event
    · exact ⟨rfl, .ret _⟩
    · refine ⟨rfl, .last exec flag flagEffect (AuthCall.signUp _ _) fun r s => ?_⟩
      cases r <;> exact ⟨rfl, _, rfl⟩
  | confirm i =>
    refine ⟨rfl, .call (AuthCall.confirmSignUp _ _) _ (fun r s => ?_) (fun r s => ?_)⟩
    · cases r <;> rfl
    · cases r with
      | error e => exact .ret _
      | ok _ =>
        refine .last exec flag flagEffect (AuthCall.signIn _ _) fun r s => ?_
        cases r <;> exact ⟨rfl, _, rfl⟩

def Quiet (p : Async.Program OpAnswer AuthAnswer (Except Rejection Unit)) : Prop :=
  ∀ s, flag (Async.advance exec p s).2 = flag s ∧ ∃ a, (Async.advance exec p s).1 = .ret a

theorem quiet_ite {c : Prop} [Decidable c] {p q : Handler Unit}
    {f : Except Rejection Unit → Async.Program OpAnswer AuthAnswer (Except Rejection Unit)}
    (hp : Quiet (p.run >>= f)) (hq : Quiet (q.run >>= f)) : Quiet ((if c then p else q).run >>= f) := by
  split
  · exact hp
  · exact hq

theorem tracked_mounted (held : Bool) : ∀ p ∈ (mounted held).tasks, Async.Tracked exec flag flagEffect p := by
  intro p hp
  rw [List.mem_singleton.1 hp]
  refine .last exec flag flagEffect AuthCall.currentSession fun r s => ?_
  cases r with
  | error e =>
    refine quiet_ite (c := e ≠ .text "No current user") (p := perform (.alert e.shown)) ?_ ?_ s
    · exact fun s => ⟨rfl, _, rfl⟩
    · exact fun s => ⟨rfl, _, rfl⟩
  | ok session => cases session <;> exact ⟨rfl, _, rfl⟩

def Outcome.rejects : Outcome → Bool
  | .reject _ => true
  | _ => false

/-- The call wrote the flag: a login or a logout that resolved, or a session check that found a session. -/
def writesFlag (e : Settled) : Bool :=
  !e.outcome.rejects && match e.call with
    | .currentSession => e.env
    | .signIn _ _ => true
    | .signOut => true
    | _ => false

/-- A login that resolved with a challenge, after which `Auth` holds no session. -/
def leavesChallenge (e : Settled) : Bool :=
  match e.call, e.outcome with
  | .signIn _ _, .challenge _ cleared => !e.env || cleared
  | _, _ => false

/-- The last call that wrote the flag left no challenge; if none has written it, `Auth` held no session
at the start. -/
def LastWriteHolds (held : Bool) (log : List Settled) : Prop :=
  match (log.filter writesFlag).getLast? with
  | none => held = false
  | some e => leavesChallenge e = false

section
variable {held : Bool} {log : List Settled} {e : Settled}

theorem lastWriteHolds_concat_of_writes (h : writesFlag e = true) :
    LastWriteHolds held (log ++ [e]) ↔ leavesChallenge e = false := by
  simp only [LastWriteHolds, List.filter_append, List.filter_cons_of_pos h, List.filter_nil,
    List.getLast?_concat]

theorem lastWriteHolds_concat_of_not_writes (h : writesFlag e = false) :
    LastWriteHolds held (log ++ [e]) ↔ LastWriteHolds held log := by
  have hnone : [e].filter writesFlag = [] := by simp [h]
  rw [LastWriteHolds, List.filter_append, hnone, List.append_nil, LastWriteHolds]

/-- A call that writes the flag decides alone whether the flag and the session agree. -/
theorem agree_of_writes (h : writesFlag e = true) (v : Bool) :
    (flagEffect e.call (answer e.call e.outcome e.env).1 v = true ↔ (answer e.call e.outcome e.env).2 = true) ↔
      leavesChallenge e = false := by
  obtain ⟨call, outcome, held⟩ := e
  cases call with
  | currentSession =>
    cases outcome with
    | reject e => cases h
    | _ =>
      obtain rfl : held = true := h
      exact iff_of_true Iff.rfl rfl
  | signIn _ _ =>
    cases outcome with
    | reject e => cases h
    | resolve => exact iff_of_true Iff.rfl rfl
    | challenge _ cleared =>
      have hchallenge : (true = true ↔ (held && !cleared) = true) ↔ (!held || cleared) = false := by
        cases held <;> cases cleared <;> decide
      exact hchallenge
  | signOut =>
    cases outcome with
    | reject e => cases h
    | _ => exact iff_of_true Iff.rfl rfl
  | _ => cases outcome <;> cases h

theorem unchanged_of_not_writes (h : writesFlag e = false) (v : Bool) :
    flagEffect e.call (answer e.call e.outcome e.env).1 v = v ∧ (answer e.call e.outcome e.env).2 = e.env := by
  obtain ⟨call, outcome, held⟩ := e
  cases call with
  | currentSession =>
    cases outcome with
    | reject e => exact ⟨rfl, rfl⟩
    | _ =>
      obtain rfl : held = false := h
      exact ⟨rfl, rfl⟩
  | signIn _ _ =>
    cases outcome with
    | reject e => exact ⟨rfl, rfl⟩
    | _ => cases h
  | signOut =>
    cases outcome with
    | reject e => exact ⟨rfl, rfl⟩
    | _ => cases h
  | _ => cases outcome <;> exact ⟨rfl, rfl⟩

end

theorem flag_iff_lastWriteHolds (held : Bool) (events : List Event) :
    (flag (after held events).store = true ↔ (after held events).env = true) ↔
      LastWriteHolds held (settled held events) := by
  refine Async.log_inv starts_program (tracked_mounted held)
    (fun log v e => (v = true ↔ e = true) ↔ LastWriteHolds held log) ?_ ?_ events
  · have hstart : (flag (mounted held).store = true ↔ held = true) ↔ held = false := by cases held <;> decide
    exact hstart
  · intro log v e c outcome ih
    cases h : writesFlag ⟨c, outcome, e⟩ with
    | true =>
      rw [lastWriteHolds_concat_of_writes h]
      exact agree_of_writes h v
    | false =>
      rw [lastWriteHolds_concat_of_not_writes h]
      obtain ⟨hflag, hsession⟩ := unchanged_of_not_writes h v
      rw [hflag, hsession]
      exact ih

/-- Whenever no call is pending, the flag is true exactly if `Auth` holds a session. -/
def FlagTracksSession (held : Bool) (events : List Event) : Prop :=
  ∀ p, p <+: events → (after held p).Idle →
    ((after held p).store.app.isAuthenticated = true ↔ (after held p).env = true)

theorem flagTracksSession_iff (held : Bool) (events : List Event) :
    FlagTracksSession held events ↔
      ∀ p, p <+: events → (after held p).Idle → LastWriteHolds held (settled held p) := by
  constructor
  · intro h p hp hidle
    exact (flag_iff_lastWriteHolds held p).1 (h p hp hidle)
  · intro h p hp hidle
    exact (flag_iff_lastWriteHolds held p).2 (h p hp hidle)

/-- The first login of a user created by an administrator: it resolves with a challenge, and the flag is set. -/
theorem not_flagTracksSession : ¬ ∀ held events, FlagTracksSession held events := by
  intro h
  have hidle : (after false [.settle 0 .resolve, .start (.changeLogin 0 .email "ada@example.org"),
      .start (.changeLogin 0 .password "temporary"), .start (.login 0 ⟨true⟩),
      .settle 3 (.challenge "NEW_PASSWORD_REQUIRED" false)]).Idle := by
    refine List.forall_mem_cons.2 ⟨⟨_, rfl⟩, List.forall_mem_cons.2 ⟨⟨_, rfl⟩, ?_⟩⟩
    exact List.forall_mem_cons.2 ⟨⟨_, rfl⟩, List.forall_mem_singleton.2 ⟨_, rfl⟩⟩
  have hflag := (h false _ _ List.prefix_rfl hidle).1 rfl
  cases hflag

end SessionFlag

end Authentication

end FullStack
