import FullStack.Email
import FullStack.Js
import FullStack.Lib.Places
import FullStack.Lib.Proc
import FullStack.Lib.Words

/-!
# The service worker

What the page does about its service worker once it has loaded. `isLocalhost` is read off the host name: the name
of the host itself, or an address of the loopback block in decimal (`isLocalhost_iff`). Elsewhere the page just
registers the worker. On the host itself it first asks the server for the script, and where there is none it
unregisters the worker and reloads. Any number of tabs do this at once, and `no_reload_loop` says that they do not
keep each other reloading.
-/

namespace FullStack

namespace ServiceWorker

open Regex Email

def range (lo hi : Char) : Regex Char := .one fun c => lo ≤ c && c ≤ hi

/-- `25[0-5]|2[0-4][0-9]|[01]?[0-9][0-9]?` -/
def octet : Regex Char :=
  alt (seq (letter '2') (seq (letter '5') (range '0' '5')))
    (alt (seq (letter '2') (seq (range '0' '4') (range '0' '9')))
      (seq (opt (range '0' '1')) (seq (range '0' '9') (opt (range '0' '9')))))

def loopback : Regex Char :=
  seq (letter '1') (seq (letter '2') (seq (letter '7') (times (seq (letter '.') octet) 3)))

def isLocalhost (hostname : String) : Bool :=
  hostname == "localhost" || hostname == "[::1]" || loopback.anchored hostname.toList

/-- One to three digits, of a number that fits a byte. -/
def IsOctet (s : List Char) : Prop :=
  s ≠ [] ∧ s.length ≤ 3 ∧ (∀ c ∈ s, c.isDigit = true) ∧ Nat.ofDigitChars 10 s 0 ≤ 255

theorem le_iff_toNat {a b : Char} : a ≤ b ↔ a.toNat ≤ b.toNat := Iff.rfl

theorem beq_iff_toNat {a b : Char} : (a == b) = true ↔ a.toNat = b.toNat := by
  rw [beq_iff_eq, Char.toNat_inj]

theorem isDigit_iff_toNat {c : Char} : c.isDigit = true ↔ 48 ≤ c.toNat ∧ c.toNat ≤ 57 := by
  rw [Char.isDigit, Bool.and_eq_true, decide_eq_true_iff, decide_eq_true_iff]
  exact Iff.rfl

theorem mem_octet {s : List Char} : s ∈ octet.lang ↔ IsOctet s := by
  -- by the length, as no word of the expression has more than three letters
  rcases s with _ | ⟨a, _ | ⟨b, _ | ⟨c, _ | ⟨d, s⟩⟩⟩⟩ <;>
    simp only [octet, letter, range, IsOctet, mem_alt, mem_opt, mem_opt_seq, nil_mem_one, cons_mem_one,
      nil_mem_one_seq, cons_mem_one_seq, Bool.and_eq_true, decide_eq_true_iff, isDigit_iff_toNat, le_iff_toNat,
      beq_iff_toNat, Char.reduceToNat, Nat.ofDigitChars_cons, Nat.ofDigitChars_nil, List.length_cons,
      List.length_nil, List.forall_mem_cons, List.not_mem_nil, reduceCtorEq, false_implies, implies_true, ne_eq,
      not_true_eq_false, not_false_eq_true, and_true, true_and, and_false, false_and, or_false, false_or,
      false_iff]
  · omega
  · omega
  · omega
  · rintro ⟨hlength, -⟩
    omega

theorem isLocalhost_iff (hostname : String) : isLocalhost hostname = true ↔
    hostname = "localhost" ∨ hostname = "[::1]" ∨ ∃ a b c, IsOctet a ∧ IsOctet b ∧ IsOctet c ∧
      hostname.toList = ['.'].intercalate ["127".toList, a, b, c] := by
  rw [isLocalhost, anchored_eq_accepts, Bool.or_eq_true, Bool.or_eq_true, beq_iff_eq, beq_iff_eq, accepts_iff,
    or_assoc]
  refine or_congr_right (or_congr_right ?_)
  simp only [loopback, letter, mem_letter_seq, mem_times]
  constructor
  · rintro ⟨_, ⟨_, ⟨_, ⟨pieces, rfl, hlength, hpieces⟩, rfl⟩, rfl⟩, hname⟩
    obtain ⟨x, y, z, rfl⟩ := List.length_eq_three.1 hlength
    simp only [List.forall_mem_cons] at hpieces
    obtain ⟨⟨a, ha, rfl⟩, ⟨b, hb, rfl⟩, ⟨c, hc, rfl⟩, -⟩ := hpieces
    refine ⟨a, b, c, mem_octet.1 ha, mem_octet.1 hb, mem_octet.1 hc, ?_⟩
    rw [← hname, Words.intercalate_cons]
    rfl
  · rintro ⟨a, b, c, ha, hb, hc, hname⟩
    have hpieces : ∀ piece ∈ ['.' :: a, '.' :: b, '.' :: c], ∃ u ∈ octet.lang, '.' :: u = piece := by
      simp [mem_octet, ha, hb, hc]
    refine ⟨_, ⟨_, ⟨_, ⟨_, rfl, rfl, hpieces⟩, rfl⟩, rfl⟩, ?_⟩
    rw [hname, Words.intercalate_cons]
    rfl

/-- What `register` reads of the page. `publicOrigin` is the origin of `new URL(PUBLIC_URL, location)`, which may
not be a URL. -/
structure Window where
  production : Bool
  supported : Bool
  hostname : String
  origin : String
  publicUrl : String
  publicOrigin : Except JsError String

structure FetchResponse where
  status : Nat
  contentType : Option String

inductive Call where
  | fetch (url : String)
  | ready
  | unregister
  | register (url : String)
  | reload

/-- How the promise of a call settles; of `unregister` and `register`, whether it is fulfilled. -/
def Call.Answer : Call → Type
  | .fetch _ => Option FetchResponse
  | .ready => Unit
  | .unregister => Bool
  | .register _ => Bool
  | .reload => Unit

abbrev Program := Proc Call Call.Answer

def registerValidSW (swUrl : String) : Program Unit := do
  let _ ← Proc.perform (C := Call) (.register swUrl)
  return

/-- `status === 404 || headers.get('content-type').indexOf('javascript') === -1`; a header that is not there is
`null`, which has no `indexOf`. -/
def isMissing (response : FetchResponse) : Option Bool :=
  if response.status = 404 then some true
  else response.contentType.map fun type => !decide ("javascript".toList <:+: type.toList)

def unregisterAndReload : Program Unit := do
  let fulfilled : Bool ← Proc.perform (C := Call) .unregister
  if fulfilled then Proc.perform (C := Call) .reload

def removeServiceWorker : Program Unit := do
  Proc.perform (C := Call) .ready
  unregisterAndReload

/-- What `fetch(swUrl)` goes on with. What it throws is caught and logged, as a failure of `fetch` is. -/
def onFetched (swUrl : String) (response : FetchResponse) : Program Unit :=
  match isMissing response with
  | some true => removeServiceWorker
  | some false => registerValidSW swUrl
  | none => return

def checkValidServiceWorker (swUrl : String) : Program Unit := do
  let some response ← Proc.perform (C := Call) (.fetch swUrl) | return
  onFetched swUrl response

def swUrl (window : Window) : String := window.publicUrl ++ "/service-worker.js"

def onLoad (window : Window) : Program Unit :=
  if isLocalhost window.hostname then checkValidServiceWorker (swUrl window) else registerValidSW (swUrl window)

/-- The listener that is added for the event `load`, if one is. -/
def register (window : Window) : Except JsError (Option (Program Unit)) := do
  if window.production && window.supported then
    if (← window.publicOrigin) ≠ window.origin then return none
    return some (onLoad window)
  return none

def document (window : Window) : Program Unit :=
  match register window with
  | .ok (some listener) => listener
  | _ => .ret ()

/-! ### Tabs -/

/-- A tab on the page: what its document still has to do, and the scripts it has fetched, the registrations it has
made and the times it has reloaded by itself. -/
structure Tab where
  program : Program Unit
  scripts : Nat
  registered : Nat
  reloads : Nat

/-- `worker` says whether there is an active registration, which is what `ready` waits for. -/
structure Browser where
  worker : Bool
  tabs : List Tab
  unregistered : Nat

inductive Outcome where
  | response (response : FetchResponse)
  | fulfilled
  | rejected

/-- A tab is opened, or loads the page anew, or a call settles that it waits for. -/
inductive Event where
  | newTab
  | visit (tab : Nat)
  | settle (tab : Nat) (outcome : Outcome)

/-- The document of the tab goes on with `p`, unless that leaves it. -/
def Tab.goOn (window : Window) (tab : Tab) (p : Program Unit) : Tab :=
  match p with
  | .call .reload _ => { tab with program := document window, reloads := tab.reloads + 1 }
  | p => { tab with program := p }

/-- The tab, and the registration, once a call of the document has settled. -/
def Tab.settle (window : Window) (tab : Tab) : Program Unit → Outcome → Browser → Tab × Browser
  | .call (.fetch _) k, .response response, b =>
    let scripts := if isMissing response = some false then tab.scripts + 1 else tab.scripts
    ({ tab with scripts := scripts }.goOn window (k (some response)), b)
  | .call (.fetch _) k, .rejected, b => (tab.goOn window (k none), b)
  | .call .ready k, .fulfilled, b => (if b.worker then tab.goOn window (k ()) else tab, b)
  | .call .unregister k, .fulfilled, b =>
    (tab.goOn window (k true), { b with worker := false, unregistered := b.unregistered + 1 })
  | .call .unregister k, .rejected, b => (tab.goOn window (k false), b)
  | .call (.register _) k, .fulfilled, b =>
    ({ tab with registered := tab.registered + 1 }.goOn window (k true), { b with worker := true })
  | .call (.register _) k, .rejected, b => (tab.goOn window (k false), b)
  | _, _, b => (tab, b)

def step (window : Window) : Event → Browser → Browser
  | .newTab, b => { b with tabs := b.tabs ++ [⟨document window, 0, 0, 0⟩] }
  | .visit i, b =>
    match b.tabs[i]? with
    | some tab => { b with tabs := b.tabs.set i { tab with program := document window } }
    | none => b
  | .settle i outcome, b =>
    match b.tabs[i]? with
    | some tab =>
      let (settled, b') := tab.settle window tab.program outcome b
      { b' with tabs := b.tabs.set i settled }
    | none => b

def run (window : Window) (worker : Bool) (events : List Event) : Browser :=
  events.foldl (fun b event => step window event b) ⟨worker, [], 0⟩

def Browser.registered (b : Browser) : Nat := (b.tabs.map Tab.registered).sum

/-- What a document of the page still has to do. -/
inductive Chain (window : Window) : Program Unit → Prop
  | checks (h : isLocalhost window.hostname = true) : Chain window (checkValidServiceWorker (swUrl window))
  | removes (h : isLocalhost window.hostname = true) : Chain window removeServiceWorker
  | leaves (h : isLocalhost window.hostname = true) : Chain window unregisterAndReload
  | registers : Chain window (registerValidSW (swUrl window))
  | ends : Chain window (.ret ())

def leaving : Program Unit → Bool
  | .call .unregister _ => true
  | _ => false

def registering : Program Unit → Bool
  | .call (.register _) _ => true
  | _ => false

section
variable {window : Window}

theorem register_cases (window : Window) : (∃ e, register window = .error e) ∨
    register window = .ok none ∨ register window = .ok (some (onLoad window)) := by
  unfold register
  split_ifs with hserved
  · cases window.publicOrigin with
    | error e => exact .inl ⟨e, rfl⟩
    | ok origin =>
      by_cases horigin : origin = window.origin
      · exact .inr (.inr (if_neg (not_not.2 horigin)))
      · exact .inr (.inl (if_pos horigin))
  · exact .inr (.inl rfl)

theorem document_cases (window : Window) : document window = .ret () ∨ document window = onLoad window := by
  rcases register_cases window with ⟨e, h⟩ | h | h
  · exact .inl (by rw [document, h])
  · exact .inl (by rw [document, h])
  · exact .inr (by rw [document, h])

theorem chain_document (window : Window) : Chain window (document window) := by
  rcases document_cases window with h | h
  · rw [h]
    exact .ends
  · rw [h, onLoad]
    split_ifs with hlocal
    · exact .checks hlocal
    · exact .registers

theorem leaving_document (window : Window) : leaving (document window) = false := by
  rcases document_cases window with h | h
  · rw [h]
    rfl
  · rw [h, onLoad]
    split_ifs <;> rfl

theorem registering_document (hlocal : isLocalhost window.hostname = true) :
    registering (document window) = false := by
  rcases document_cases window with h | h
  · rw [h]
    rfl
  · rw [h, onLoad, if_pos hlocal]
    rfl

/-- Everything that the settlement of a call does. -/
theorem settle_cases {p : Program Unit} (hp : Chain window p) (tab : Tab) (outcome : Outcome) (b : Browser) :
    tab.settle window p outcome b = (tab, b) ∨
    (∃ q, Chain window q ∧ leaving q = false ∧ registering q = false ∧
      tab.settle window p outcome b = ({ tab with program := q }, b)) ∨
    (tab.settle window p outcome b =
      ({ tab with program := registerValidSW (swUrl window), scripts := tab.scripts + 1 }, b)) ∨
    (isLocalhost window.hostname = true ∧ b.worker = true ∧
      tab.settle window p outcome b = ({ tab with program := unregisterAndReload }, b)) ∨
    (isLocalhost window.hostname = true ∧ leaving p = true ∧ tab.settle window p outcome b =
      ({ tab with program := document window, reloads := tab.reloads + 1 },
        { b with worker := false, unregistered := b.unregistered + 1 })) ∨
    (registering p = true ∧ tab.settle window p outcome b =
      ({ tab with program := .ret (), registered := tab.registered + 1 }, { b with worker := true })) := by
  cases hp with
  | checks hlocal =>
    cases outcome with
    | response response =>
      have hfetched : tab.settle window (checkValidServiceWorker (swUrl window)) (.response response) b =
          ({ tab with
            scripts := if isMissing response = some false then tab.scripts + 1 else tab.scripts }.goOn window
              (onFetched (swUrl window) response), b) := rfl
      rw [hfetched, onFetched]
      cases isMissing response with
      | none => exact .inr (.inl ⟨.ret (), .ends, rfl, rfl, rfl⟩)
      | some missing =>
        cases missing with
        | true => exact .inr (.inl ⟨removeServiceWorker, .removes hlocal, rfl, rfl, rfl⟩)
        | false => exact .inr (.inr (.inl rfl))
    | fulfilled => exact .inl rfl
    | rejected => exact .inr (.inl ⟨.ret (), .ends, rfl, rfl, rfl⟩)
  | removes hlocal =>
    cases outcome with
    | fulfilled =>
      have hready : tab.settle window removeServiceWorker .fulfilled b =
          (if b.worker then { tab with program := unregisterAndReload } else tab, b) := rfl
      rw [hready]
      by_cases hworker : b.worker = true
      · rw [if_pos hworker]
        exact .inr (.inr (.inr (.inl ⟨hlocal, hworker, rfl⟩)))
      · rw [if_neg hworker]
        exact .inl rfl
    | response response => exact .inl rfl
    | rejected => exact .inl rfl
  | leaves hlocal =>
    cases outcome with
    | fulfilled => exact .inr (.inr (.inr (.inr (.inl ⟨hlocal, rfl, rfl⟩))))
    | response response => exact .inl rfl
    | rejected => exact .inr (.inl ⟨.ret (), .ends, rfl, rfl, rfl⟩)
  | registers =>
    cases outcome with
    | fulfilled => exact .inr (.inr (.inr (.inr (.inr ⟨rfl, rfl⟩))))
    | response response => exact .inl rfl
    | rejected => exact .inr (.inl ⟨.ret (), .ends, rfl, rfl, rfl⟩)
  | ends => exact .inl rfl

/-! ### The reloads that are left -/

/-- With `n` active registrations so far: a tab has reloaded at most once for each of them. While one is active the
tab has a reload left, and a tab that is past `ready` has taken its reload. -/
structure TabInv (window : Window) (n : Nat) (worker : Bool) (tab : Tab) : Prop where
  chain : Chain window tab.program
  spent : tab.reloads + (leaving tab.program).toNat ≤ n
  live : worker = true → tab.reloads < n
  remote : isLocalhost window.hostname = false → tab.reloads = 0
  scripts : isLocalhost window.hostname = true →
    tab.registered + (registering tab.program).toNat ≤ tab.scripts

/-- `first` says whether there was an active registration at first. -/
structure Inv (window : Window) (first : Bool) (b : Browser) : Prop where
  tabs : ∀ tab ∈ b.tabs, TabInv window (first.toNat + b.registered) b.worker tab
  live : b.worker = true → 0 < first.toNat + b.registered
  remote : isLocalhost window.hostname = false → b.unregistered = 0

theorem TabInv.mono {n n' : Nat} {worker worker' : Bool} {tab : Tab} (h : TabInv window n worker tab) (hle : n ≤ n')
    (hlive : worker' = true → worker = true ∨ n < n') : TabInv window n' worker' tab := by
  have hspent := h.spent
  refine ⟨h.chain, by omega, fun hw => ?_, h.remote, h.scripts⟩
  rcases hlive hw with hw | hlt
  · have hreloads := h.live hw
    omega
  · omega

theorem TabInv.document {n : Nat} {worker : Bool} {tab : Tab} (hspent : tab.reloads ≤ n)
    (hlive : worker = true → tab.reloads < n) (hremote : isLocalhost window.hostname = false → tab.reloads = 0)
    (hscripts : isLocalhost window.hostname = true → tab.registered ≤ tab.scripts)
    (hprogram : tab.program = ServiceWorker.document window) : TabInv window n worker tab := by
  refine ⟨?_, ?_, hlive, hremote, fun hlocal => ?_⟩
  · rw [hprogram]
    exact chain_document window
  · rw [hprogram, leaving_document]
    exact hspent
  · rw [hprogram, registering_document hlocal]
    exact hscripts hlocal

namespace Inv
variable {first : Bool} {b : Browser} {i : Nat} {tab : Tab}

/-- One tab changes, and with it possibly the registration. -/
theorem move (h : Inv window first b) (hi : b.tabs[i]? = some tab) {tab' : Tab} {worker : Bool} {unregistered : Nat}
    (hregistered : tab.registered ≤ tab'.registered)
    (hlive : worker = true → b.worker = true ∨ tab.registered < tab'.registered)
    (hremote : isLocalhost window.hostname = false → unregistered = 0)
    (htab : ∀ n, n + tab.registered = first.toNat + b.registered + tab'.registered → TabInv window n worker tab') :
    Inv window first ⟨worker, b.tabs.set i tab', unregistered⟩ := by
  have hsum : Browser.registered ⟨worker, b.tabs.set i tab', unregistered⟩ + tab.registered =
      b.registered + tab'.registered := Places.sum_map_set Tab.registered hi tab'
  refine ⟨fun other hother => ?_, fun hw => ?_, hremote⟩
  · rcases List.mem_or_eq_of_mem_set hother with hother | rfl
    · exact (h.tabs other hother).mono (by omega) fun hw => (hlive hw).imp id fun hlt => by omega
    · exact htab _ (by omega)
  · rcases hlive hw with hw | hlt
    · have hpos := h.live hw
      omega
    · omega

theorem keep (h : Inv window first b) (hi : b.tabs[i]? = some tab) {tab' : Tab}
    (hregistered : tab'.registered = tab.registered)
    (htab : TabInv window (first.toNat + b.registered) b.worker tab') :
    Inv window first { b with tabs := b.tabs.set i tab' } := by
  refine h.move hi hregistered.ge .inl h.remote fun n hn => ?_
  rw [hregistered] at hn
  rwa [Nat.add_right_cancel hn]

theorem settle (h : Inv window first b) (hi : b.tabs[i]? = some tab) (outcome : Outcome) :
    Inv window first { (tab.settle window tab.program outcome b).2 with
      tabs := b.tabs.set i (tab.settle window tab.program outcome b).1 } := by
  have ht := h.tabs tab (List.mem_of_getElem? hi)
  have hspent := ht.spent
  have hreloads : tab.reloads ≤ first.toNat + b.registered := (Nat.le_add_right _ _).trans hspent
  have hscripts : isLocalhost window.hostname = true → tab.registered ≤ tab.scripts := fun hlocal =>
    (Nat.le_add_right _ _).trans (ht.scripts hlocal)
  rcases settle_cases ht.chain tab outcome b with
    hnext | ⟨q, hq, hleaving, hregistering, hnext⟩ | hnext | ⟨hlocal, hworker, hnext⟩ | ⟨hlocal, hp, hnext⟩ |
      ⟨hp, hnext⟩ <;> rw [hnext]
  · exact h.keep hi rfl ht
  · refine h.keep hi rfl ⟨hq, ?_, ht.live, ht.remote, fun hlocal => ?_⟩
    · rw [hleaving]
      exact hreloads
    · rw [hregistering]
      exact hscripts hlocal
  · -- the script that has been fetched is the one that the tab may register
    exact h.keep hi rfl ⟨.registers, hreloads, ht.live, ht.remote, fun hlocal => Nat.succ_le_succ (hscripts hlocal)⟩
  · exact h.keep hi rfl ⟨.leaves hlocal, ht.live hworker, ht.live, ht.remote, hscripts⟩
  · have hremote : isLocalhost window.hostname ≠ false := by simp [hlocal]
    rw [hp] at hspent
    refine h.move hi (Nat.le_refl _) (fun hw => absurd hw Bool.false_ne_true) (fun hr => absurd hr hremote)
      fun n hn => ?_
    rw [Nat.add_right_cancel hn]
    exact .document hspent (fun hw => absurd hw Bool.false_ne_true) (fun hr => absurd hr hremote) hscripts rfl
  · refine h.move hi (Nat.le_succ _) (fun _ => .inr (Nat.lt_succ_self _)) h.remote fun n hn => ?_
    have hn' : n = first.toNat + b.registered + 1 := by
      change n + tab.registered = first.toNat + b.registered + (tab.registered + 1) at hn
      omega
    subst hn'
    refine ⟨.ends, Nat.le_succ_of_le hreloads, fun _ => Nat.lt_succ_of_le hreloads, ht.remote, fun hlocal => ?_⟩
    have hregistered := ht.scripts hlocal
    rw [hp] at hregistered
    exact hregistered

theorem visit (h : Inv window first b) (hi : b.tabs[i]? = some tab) :
    Inv window first { b with tabs := b.tabs.set i { tab with program := document window } } := by
  have ht := h.tabs tab (List.mem_of_getElem? hi)
  exact h.keep hi rfl (.document ((Nat.le_add_right _ _).trans ht.spent) ht.live ht.remote
    (fun hlocal => (Nat.le_add_right _ _).trans (ht.scripts hlocal)) rfl)

theorem newTab (h : Inv window first b) :
    Inv window first { b with tabs := b.tabs ++ [⟨document window, 0, 0, 0⟩] } := by
  have hsum : Browser.registered { b with tabs := b.tabs ++ [⟨document window, 0, 0, 0⟩] } = b.registered := by
    simp [Browser.registered]
  refine ⟨fun tab htab => ?_, ?_, h.remote⟩
  · rw [hsum]
    rcases List.mem_append.1 htab with htab | htab
    · exact h.tabs tab htab
    · obtain rfl := List.mem_singleton.1 htab
      exact .document (Nat.zero_le _) h.live (fun _ => rfl) (fun _ => Nat.le_refl _) rfl
  · rw [hsum]
    exact h.live

theorem step (h : Inv window first b) (event : Event) : Inv window first (step window event b) := by
  cases event with
  | newTab => exact h.newTab
  | visit i =>
    simp only [ServiceWorker.step]
    cases hi : b.tabs[i]? with
    | none => exact h
    | some tab => exact h.visit hi
  | settle i outcome =>
    simp only [ServiceWorker.step]
    cases hi : b.tabs[i]? with
    | none => exact h
    | some tab => exact h.settle hi outcome

theorem run (window : Window) (worker : Bool) (events : List Event) :
    Inv window worker (run window worker events) := by
  induction events using List.reverseRecOn with
  | nil =>
    refine ⟨List.forall_mem_nil _, fun hw => ?_, fun _ => rfl⟩
    rw [show worker = true from hw]
    exact Nat.one_pos
  | append_singleton events event ih =>
    rw [ServiceWorker.run, List.foldl_append]
    exact ih.step event

end Inv

end

/-- However many tabs are on the page, and in whatever order their calls settle: away from the host itself nothing
is unregistered and no tab reloads by itself; there, a tab registers a worker only for a script that the server
has sent it, and each active registration accounts for at most one reload of each tab. -/
theorem no_reload_loop (window : Window) (worker : Bool) (events : List Event) :
    (isLocalhost window.hostname = false → (run window worker events).unregistered = 0) ∧
    ∀ tab ∈ (run window worker events).tabs,
      (isLocalhost window.hostname = false → tab.reloads = 0) ∧
      (isLocalhost window.hostname = true → tab.registered ≤ tab.scripts) ∧
      tab.reloads ≤ worker.toNat + (run window worker events).registered := by
  have hinv := Inv.run window worker events
  refine ⟨hinv.remote, fun tab htab => ?_⟩
  obtain ⟨-, hspent, -, hremote, hscripts⟩ := hinv.tabs tab htab
  exact ⟨hremote, fun hlocal => (Nat.le_add_right _ _).trans (hscripts hlocal), (Nat.le_add_right _ _).trans hspent⟩

end ServiceWorker

end FullStack
