import FullStack.UpdateSearchCluster

/-!
# When a batch is acknowledged

The stream advances past a batch when its invocation returns. The handler looks at no response: it returns
exactly when every request gets one, whatever its status (`processRecords_returns`,
`processRecords_raises`). So a batch with a rejected write is acknowledged unless a connection fails
(`acknowledgedOnlyIfIndexed_iff`).
-/

namespace FullStack

namespace UpdateSearchCluster

/-- The requests of an invocation so far, with what they were answered. -/
abbrev RequestLog := List (EsWrite × Except PyError HttpResponse)

def answerNext (outcomes : Nat → Except PyError HttpResponse) (request : EsWrite) (log : RequestLog) :
    Except PyError HttpResponse × RequestLog :=
  (outcomes log.length, log ++ [(request, outcomes log.length)])

def invocation (url : String) (outcomes : Nat → Except PyError HttpResponse) (records : List StreamRecord) :
    Except PyError String × RequestLog :=
  (handler url records).run.run (answerNext outcomes) []

/-- Elasticsearch accepted the write: 2xx, or 404 where there is nothing to delete. -/
def accepted : EsWrite → HttpResponse → Bool
  | .put _ _, r => 200 ≤ r.statusCode && r.statusCode < 300
  | .delete _, r => 200 ≤ r.statusCode && r.statusCode < 300 || r.statusCode = 404

structure Indexed (url : String) (records : List StreamRecord) (log : RequestLog) : Prop where
  sent : log.map Prod.fst = records.map (recordWrite url)
  accepted : ∀ e ∈ log, ∃ r, e.2 = .ok r ∧ accepted e.1 r

/-- The invocation returns only if the batch is indexed; if it is not, the invocation raises. -/
structure AcknowledgedOnlyIfIndexed (url : String) (records : List StreamRecord)
    (outcomes : Nat → Except PyError HttpResponse) : Prop where
  returns : ∀ text, (invocation url outcomes records).1 = .ok text →
    Indexed url records (invocation url outcomes records).2
  raises : ¬ Indexed url records (invocation url outcomes records).2 →
    ∃ e, (invocation url outcomes records).1 = .error e

def batchLog (url : String) (outcomes : Nat → Except PyError HttpResponse) : Nat → List StreamRecord → RequestLog
  | _, [] => []
  | n, r :: rest => (recordWrite url r, outcomes n) :: batchLog url outcomes (n + 1) rest

section
variable {url : String} {outcomes : Nat → Except PyError HttpResponse}

theorem batchLog_sent (n : Nat) (records : List StreamRecord) :
    (batchLog url outcomes n records).map Prod.fst = records.map (recordWrite url) := by
  induction records generalizing n with
  | nil => rfl
  | cons r rest ih => rw [batchLog, List.map_cons, List.map_cons, ih]

theorem mem_batchLog_iff {n : Nat} {records : List StreamRecord} {e : EsWrite × Except PyError HttpResponse} :
    e ∈ batchLog url outcomes n records ↔ ∃ i r, records[i]? = some r ∧ e = (recordWrite url r, outcomes (n + i)) := by
  induction records generalizing n with
  | nil => simp [batchLog]
  | cons r rest ih =>
    rw [batchLog, List.mem_cons, ih]
    constructor
    · rintro (rfl | ⟨i, r', hr', rfl⟩)
      · exact ⟨0, r, rfl, rfl⟩
      · exact ⟨i + 1, r', hr', by rw [Nat.add_right_comm, Nat.add_assoc]⟩
    · rintro ⟨i, r', hr', rfl⟩
      cases i with
      | zero =>
        obtain rfl := Option.some.inj hr'
        exact .inl rfl
      | succ i => exact .inr ⟨i, r', hr', by rw [Nat.add_right_comm, Nat.add_assoc]⟩

theorem run_processRecords_cons (r : StreamRecord) (rest : List StreamRecord) (count : Nat) (log : RequestLog) :
    (processRecords url count (r :: rest)).run.run (answerNext outcomes) log =
      match outcomes log.length with
      | .ok _ => (processRecords url (count + 1) rest).run.run (answerNext outcomes)
          (log ++ [(recordWrite url r, outcomes log.length)])
      | .error e => (.error e, log ++ [(recordWrite url r, outcomes log.length)]) := by
  rw [processRecords_cons, Proc.run, answerNext]
  cases outcomes log.length <;> rfl

/-- If every request gets a response, the invocation makes them all and returns. -/
theorem processRecords_returns (records : List StreamRecord) (count : Nat) (log : RequestLog)
    (h : ∀ i < records.length, ∃ response, outcomes (log.length + i) = .ok response) :
    ∃ text, (processRecords url count records).run.run (answerNext outcomes) log =
      (.ok text, log ++ batchLog url outcomes log.length records) := by
  induction records generalizing count log with
  | nil => exact ⟨_, by rw [batchLog, List.append_nil]; rfl⟩
  | cons r rest ih =>
    obtain ⟨response, hresponse⟩ := h 0 (Nat.succ_pos _)
    rw [Nat.add_zero] at hresponse
    have hlength : (log ++ [(recordWrite url r, outcomes log.length)]).length = log.length + 1 :=
      List.length_append
    have hrest : ∀ i < rest.length, ∃ response,
        outcomes ((log ++ [(recordWrite url r, outcomes log.length)]).length + i) = .ok response := by
      intro i hi
      rw [hlength, Nat.add_assoc, Nat.add_comm 1]
      exact h (i + 1) (Nat.succ_lt_succ hi)
    obtain ⟨text, htext⟩ := ih (count + 1) _ hrest
    refine ⟨text, ?_⟩
    rw [run_processRecords_cons, hresponse]
    rw [hresponse, List.length_append, List.append_assoc] at htext
    rw [batchLog, hresponse]
    exact htext

theorem processRecords_raises (records : List StreamRecord) (count : Nat) (log : RequestLog) {i : Nat}
    (hi : i < records.length) {e : PyError} (h : outcomes (log.length + i) = .error e) :
    ∃ e, ((processRecords url count records).run.run (answerNext outcomes) log).1 = .error e := by
  induction records generalizing count log i with
  | nil => exact absurd hi (Nat.not_lt_zero _)
  | cons r rest ih =>
    rw [run_processRecords_cons]
    cases hfirst : outcomes log.length with
    | error e => exact ⟨e, rfl⟩
    | ok response =>
      cases i with
      | zero =>
        rw [Nat.add_zero, hfirst] at h
        cases h
      | succ i =>
        refine ih (count + 1) _ (Nat.lt_of_succ_lt_succ hi) ?_
        rw [List.length_append, List.length_singleton, Nat.add_assoc, Nat.add_comm 1]
        exact h

end

/-- A batch is acknowledged only if it was indexed exactly if some request of it gets no response or
every one of its writes is accepted. -/
theorem acknowledgedOnlyIfIndexed_iff (url : String) (records : List StreamRecord)
    (outcomes : Nat → Except PyError HttpResponse) :
    AcknowledgedOnlyIfIndexed url records outcomes ↔
      (∃ i < records.length, ∃ e, outcomes i = .error e) ∨
      ∀ i r, records[i]? = some r → ∃ response, outcomes i = .ok response ∧ accepted (recordWrite url r) response := by
  by_cases hfail : ∃ i < records.length, ∃ e, outcomes i = .error e
  · obtain ⟨i, hi, e, he⟩ := hfail
    obtain ⟨e', he'⟩ : ∃ e, (invocation url outcomes records).1 = .error e :=
      processRecords_raises records 0 [] hi (by rwa [List.length_nil, Nat.zero_add])
    refine ⟨fun _ => .inl ⟨i, hi, e, he⟩, fun _ => ⟨fun text htext => ?_, fun _ => ⟨e', he'⟩⟩⟩
    rw [he'] at htext
    cases htext
  · have hall : ∀ i < records.length, ∃ response, outcomes (List.length ([] : RequestLog) + i) = .ok response := by
      intro i hi
      rw [List.length_nil, Nat.zero_add]
      cases hout : outcomes i with
      | ok response => exact ⟨response, rfl⟩
      | error e => exact absurd ⟨i, hi, e, hout⟩ hfail
    obtain ⟨text, hrun⟩ : ∃ text, invocation url outcomes records = (.ok text, [] ++ batchLog url outcomes 0 records) :=
      processRecords_returns records 0 [] hall
    rw [List.nil_append] at hrun
    rw [or_iff_right hfail]
    constructor
    · intro h i r hr
      have hindexed := h.returns text (by rw [hrun])
      rw [hrun] at hindexed
      have hmem : (recordWrite url r, outcomes i) ∈ batchLog url outcomes 0 records :=
        mem_batchLog_iff.2 ⟨i, r, hr, by rw [Nat.zero_add]⟩
      exact hindexed.accepted _ hmem
    · intro h
      have hindexed : Indexed url records (invocation url outcomes records).2 := by
        rw [hrun]
        refine ⟨batchLog_sent 0 records, fun e he => ?_⟩
        obtain ⟨i, r, hr, rfl⟩ := mem_batchLog_iff.1 he
        rw [Nat.zero_add]
        exact h i r hr
      exact ⟨fun _ _ => hindexed, fun hnot => absurd hindexed hnot⟩

/-- A throttled write is counted as processed. -/
theorem not_acknowledgedOnlyIfIndexed_throttled :
    ¬ AcknowledgedOnlyIfIndexed (url "es") [⟨[("goalId", ⟨.S, "g"⟩)], .insert (.obj [])⟩]
      (fun _ => .ok ⟨429, "Too Many Requests"⟩) := by
  intro h
  obtain ⟨response, hresponse, haccepted⟩ :=
    (h.returns "1 records processed." rfl).accepted _ (List.mem_singleton_self _)
  cases hresponse
  exact absurd haccepted (by decide)

end UpdateSearchCluster

end FullStack
