import FullStack.Elasticsearch
import FullStack.Lib.AtLeastOnce
import FullStack.Lib.Proc
import Mathlib.Data.Multiset.Basic

/-!
# Indexing the table stream

`updateSearchCluster.py` writes each stream record to Elasticsearch, one request a record in order
(`handler_cons`). The event source mapping delivers the shards of the stream batch by batch and
redelivers a batch whose invocation stopped early; `Delivery` runs the handler request by request under
it. A delivery simulates at-least-once delivery of the records' writes (`Sim.step`), so it converges to
the table (`index_mirrors`).
-/

namespace FullStack

namespace UpdateSearchCluster

inductive AttributeType where
  | S
  | N
  | B
deriving DecidableEq

structure AttributeValue where
  type : AttributeType
  text : String
deriving DecidableEq

/-- `eventName`, and the `NewImage` of an INSERT or MODIFY. -/
inductive Change where
  | insert (newImage : Json)
  | modify (newImage : Json)
  | remove
deriving DecidableEq

/-- A record of the table's stream; `keys` in the order in which the dict yields its items. -/
structure StreamRecord where
  keys : List (String × AttributeValue)
  change : Change
deriving DecidableEq

/-- The primary key of the record's item, whatever order its attributes come in. -/
def StreamRecord.primaryKey (r : StreamRecord) : Multiset (String × AttributeValue) := r.keys

def StreamRecord.image (r : StreamRecord) : Option Json :=
  match r.change with
  | .insert newImage => some newImage
  | .modify newImage => some newImage
  | .remove => none

abbrev Handler := ExceptT PyError (Proc EsWrite fun _ => Except PyError HttpResponse)

def generateUUID (record : StreamRecord) : String :=
  (record.keys.foldl (fun (id, i) (_, value) => ((if i > 0 then id ++ "-" else id) ++ value.text, i + 1))
    ("", 0)).1

def url (esEndpoint : String) : String := "https://" ++ esEndpoint ++ "/lambda-index/lambda-type/"

def recordWrite (url : String) (record : StreamRecord) : EsWrite :=
  let id := generateUUID record
  match record.change with
  | .remove => .delete (url ++ id)
  | .insert newImage => .put (url ++ id) newImage
  | .modify newImage => .put (url ++ id) newImage

def processRecord (url : String) (count : Nat) (record : StreamRecord) : Handler Nat := do
  let _r ← ExceptT.mk (Proc.perform (recordWrite url record))
  return count + 1

def processRecords (url : String) (count : Nat) (records : List StreamRecord) : Handler String := do
  let count ← records.foldlM (processRecord url) count
  return toString count ++ " records processed."

def handler (url : String) (records : List StreamRecord) : Handler String := processRecords url 0 records

theorem processRecords_cons (url : String) (count : Nat) (r : StreamRecord) (rest : List StreamRecord) :
    (processRecords url count (r :: rest)).run = .call (recordWrite url r) fun answer =>
      match answer with
      | .ok _ => (processRecords url (count + 1) rest).run
      | .error e => .ret (.error e) := by
  refine congrArg (Proc.call _) (funext fun answer => ?_)
  cases answer <;> rfl

def documentUrl (url : String) (r : StreamRecord) : String := url ++ generateUUID r

theorem find?_write (url : String) (r : StreamRecord) (index : Index) :
    (index.write (recordWrite url r)).2.find? =
      AtLeastOnce.write (documentUrl url) StreamRecord.image index.find? r := by
  funext u
  rw [AtLeastOnce.write, Function.update_apply, StreamRecord.image, recordWrite]
  cases r.change with
  | insert newImage => exact SortedMap.find?_insert _ _ _ _
  | modify newImage => exact SortedMap.find?_insert _ _ _ _
  | remove => exact SortedMap.find?_erase _ _ _

/-- The table after a history of writes and removals from the empty table. -/
def tableAfterStream (hist : List StreamRecord) : Multiset (String × AttributeValue) → Option Json :=
  AtLeastOnce.replay StreamRecord.primaryKey StreamRecord.image hist

/-- `generateUUID` gives each primary key of the run one id, and distinct keys distinct ids. -/
def IdentifiesKeys (hist : List StreamRecord) : Prop :=
  ∀ r ∈ hist, ∀ r' ∈ hist, generateUUID r = generateUUID r' ↔ r.primaryKey = r'.primaryKey

/-- The index holds, under its URL, the latest image of each item of the table, and nothing else. -/
structure Mirrors (url : String) (index : Index) (hist : List StreamRecord) : Prop where
  item : ∀ r ∈ hist, index.find? (documentUrl url r) = tableAfterStream hist r.primaryKey
  nothingElse : ∀ u document, index.find? u = some document → ∃ r ∈ hist, documentUrl url r = u

section
variable {ι : Type} {url : String} {hist : List StreamRecord}

theorem documentUrl_eq_iff {r r' : StreamRecord} :
    documentUrl url r = documentUrl url r' ↔ generateUUID r = generateUUID r' := by
  rw [documentUrl, documentUrl, String.append_right_inj]

theorem filter_documentUrl (hid : IdentifiesKeys hist) {rs : List StreamRecord} (hrs : ∀ r ∈ rs, r ∈ hist)
    {r : StreamRecord} (hr : r ∈ hist) :
    rs.filter (fun r' => documentUrl url r' = documentUrl url r) =
      rs.filter (fun r' => r'.primaryKey = r.primaryKey) := by
  refine List.filter_congr fun r' hr' => ?_
  rw [decide_eq_decide, documentUrl_eq_iff]
  exact hid r' (hrs r' hr') r hr

theorem mem_of_splits {batches : ι → List (List StreamRecord)}
    (hsplit : AtLeastOnce.Splits StreamRecord.primaryKey hist batches) {s : ι} {r : StreamRecord}
    (hr : r ∈ (batches s).flatten) : r ∈ hist := by
  obtain ⟨s₀, hsame, hhome⟩ := hsplit r.primaryKey
  rcases eq_or_ne s s₀ with rfl | hne
  · have hf : r ∈ (batches s).flatten.filter (fun r' => r'.primaryKey = r.primaryKey) :=
      List.mem_filter.2 ⟨hr, decide_eq_true rfl⟩
    rw [hsame] at hf
    exact (List.mem_filter.1 hf).1
  · exact absurd rfl (hhome s hne r hr)

/-- Shards that keep the records of an item together keep those of a document together. -/
theorem splits_documentUrl (hid : IdentifiesKeys hist) {batches : ι → List (List StreamRecord)}
    (hsplit : AtLeastOnce.Splits StreamRecord.primaryKey hist batches) :
    AtLeastOnce.Splits (documentUrl url) hist batches := by
  intro u
  by_cases hu : ∃ r ∈ hist, documentUrl url r = u
  · obtain ⟨r, hr, rfl⟩ := hu
    obtain ⟨s, hsame, hhome⟩ := hsplit r.primaryKey
    refine ⟨s, ?_, fun s' hne r' hr' hurl => ?_⟩
    · rw [filter_documentUrl hid (fun r' hr' => mem_of_splits hsplit hr') hr,
        filter_documentUrl hid (fun r' hr' => hr') hr, hsame]
    · exact hhome s' hne r' hr' ((hid r' (mem_of_splits hsplit hr') r hr).1 (documentUrl_eq_iff.1 hurl))
  · -- no record writes `u`
    obtain ⟨s, -⟩ := hsplit 0
    have hnone : ∀ r ∈ hist, ¬ documentUrl url r = u := fun r hr hurl => hu ⟨r, hr, hurl⟩
    refine ⟨s, ?_, fun s' _ r' hr' => hnone r' (mem_of_splits hsplit hr')⟩
    rw [List.filter_eq_nil_iff.2 fun r hr => by simpa using hnone r (mem_of_splits hsplit hr),
      List.filter_eq_nil_iff.2 fun r hr => by simpa using hnone r hr]

theorem mirrors_of_find?_eq (hid : IdentifiesKeys hist) {index : Index}
    (h : index.find? = AtLeastOnce.replay (documentUrl url) StreamRecord.image hist) : Mirrors url index hist := by
  refine ⟨fun r hr => ?_, fun u document hu => ?_⟩
  · rw [h, tableAfterStream, AtLeastOnce.replay_eq, AtLeastOnce.replay_eq,
      filter_documentUrl hid (fun r' hr' => hr') hr]
  · rw [h, AtLeastOnce.replay_eq] at hu
    by_contra hnone
    rw [List.filter_eq_nil_iff.2 fun r hr => by simpa using fun hurl => hnone ⟨r, hr, hurl⟩] at hu
    simp at hu

end

open AtLeastOnce (Action)

/-- The index, the batches of each shard that have not completed, and the rest of the invocation that
a shard has running, if any. -/
structure Delivery (ι : Type) where
  index : Index
  pending : ι → List (List StreamRecord)
  running : ι → Option (Proc EsWrite (fun _ => Except PyError HttpResponse) (Except PyError String))

variable {ι : Type}

def Delivery.init (batches : ι → List (List StreamRecord)) : Delivery ι := ⟨.empty, batches, fun _ => none⟩

variable [DecidableEq ι]

/-- One step of a shard: its first batch is handed to the handler, the running invocation makes its
next request, its batch is retired when it returns, or the invocation stops and the batch stays. -/
def Delivery.step (url : String) (st : Delivery ι) : Action ι → Delivery ι
  | .start s =>
    match st.pending s, st.running s with
    | batch :: _, none => { st with running := Function.update st.running s (some (handler url batch).run) }
    | _, _ => st
  | .write s =>
    match st.running s with
    | some (.call request k) =>
      { st with
        index := (st.index.write request).2
        running := Function.update st.running s (some (k (.ok (st.index.write request).1))) }
    | _ => st
  | .finish s =>
    match st.pending s, st.running s with
    | _ :: rest, some (.ret (.ok _)) =>
      { st with
        pending := Function.update st.pending s rest
        running := Function.update st.running s none }
    | _, _ => st
  | .abort s => { st with running := Function.update st.running s none }

def Delivery.run (url : String) (actions : List (Action ι)) (st : Delivery ι) : Delivery ι :=
  actions.foldl (Delivery.step url) st

def Runs (url : String)
    (running : Option (Proc EsWrite (fun _ => Except PyError HttpResponse) (Except PyError String))) :
    Option (List StreamRecord × List StreamRecord) → Prop
  | none => running = none
  | some (_, left) => ∃ count, running = some (processRecords url count left).run

structure Sim (url : String) (st : Delivery ι) (ast : AtLeastOnce.State ι StreamRecord String Json) : Prop where
  store : st.index.find? = ast.store
  pending : st.pending = ast.pending
  running : ∀ s, Runs url (st.running s) (ast.attempt s)

section
variable {url : String} {st : Delivery ι} {ast : AtLeastOnce.State ι StreamRecord String Json}

theorem Sim.update (h : Sim url st ast) (s : ι) {running} {attempt} (hrun : Runs url running attempt) :
    ∀ s', Runs url (Function.update st.running s running s') (Function.update ast.attempt s attempt s') := by
  intro s'
  rcases eq_or_ne s' s with rfl | hne
  · rwa [Function.update_self, Function.update_self]
  · rw [Function.update_of_ne hne, Function.update_of_ne hne]
    exact h.running s'

omit [DecidableEq ι] in
theorem Sim.cases (h : Sim url st ast) (s : ι) :
    (st.running s = none ∧ ast.attempt s = none) ∨
    (∃ count applied, st.running s = some (processRecords url count []).run ∧ ast.attempt s = some (applied, [])) ∨
    ∃ count applied r left, st.running s = some (processRecords url count (r :: left)).run ∧
      ast.attempt s = some (applied, r :: left) := by
  have hs := h.running s
  cases ha : ast.attempt s with
  | none =>
    rw [ha] at hs
    exact .inl ⟨hs, rfl⟩
  | some al =>
    rw [ha] at hs
    obtain ⟨applied, _ | ⟨r, left⟩⟩ := al
    · obtain ⟨count, hc⟩ := hs
      exact .inr (.inl ⟨count, applied, hc, rfl⟩)
    · obtain ⟨count, hc⟩ := hs
      exact .inr (.inr ⟨count, applied, r, left, hc, rfl⟩)

theorem Sim.start (h : Sim url st ast) (s : ι) :
    Sim url (st.step url (.start s)) (AtLeastOnce.step (documentUrl url) StreamRecord.image ast (.start s)) := by
  simp only [Delivery.step, AtLeastOnce.step, h.pending]
  cases ast.pending s with
  | nil => exact h
  | cons batch rest =>
    rcases h.cases s with ⟨hr, ha⟩ | ⟨count, applied, hr, ha⟩ | ⟨count, applied, r, left, hr, ha⟩ <;> rw [hr, ha]
    · exact ⟨h.store, rfl, h.update s ⟨0, rfl⟩⟩
    · exact h
    · exact h

theorem Sim.write (h : Sim url st ast) (s : ι) :
    Sim url (st.step url (.write s)) (AtLeastOnce.step (documentUrl url) StreamRecord.image ast (.write s)) := by
  simp only [Delivery.step, AtLeastOnce.step]
  rcases h.cases s with ⟨hr, ha⟩ | ⟨count, applied, hr, ha⟩ | ⟨count, applied, r, left, hr, ha⟩ <;> rw [hr, ha]
  · exact h
  · exact h
  · rw [processRecords_cons]
    refine ⟨?_, h.pending, h.update s ⟨count + 1, rfl⟩⟩
    rw [← h.store]
    exact find?_write url r st.index

theorem Sim.finish (h : Sim url st ast) (s : ι) :
    Sim url (st.step url (.finish s)) (AtLeastOnce.step (documentUrl url) StreamRecord.image ast (.finish s)) := by
  simp only [Delivery.step, AtLeastOnce.step, h.pending]
  cases ast.pending s with
  | nil => exact h
  | cons batch rest =>
    rcases h.cases s with ⟨hr, ha⟩ | ⟨count, applied, hr, ha⟩ | ⟨count, applied, r, left, hr, ha⟩ <;> rw [hr, ha]
    · exact h
    · exact ⟨h.store, rfl, h.update s rfl⟩
    · rw [processRecords_cons]
      exact h

theorem Sim.step (h : Sim url st ast) (a : Action ι) :
    Sim url (st.step url a) (AtLeastOnce.step (documentUrl url) StreamRecord.image ast a) := by
  cases a with
  | start s => exact h.start s
  | write s => exact h.write s
  | finish s => exact h.finish s
  | abort s => exact ⟨h.store, h.pending, h.update s rfl⟩

end

theorem sim_run (url : String) (batches : ι → List (List StreamRecord)) (actions : List (Action ι)) :
    Sim url (Delivery.run url actions (.init batches))
      (AtLeastOnce.run (documentUrl url) StreamRecord.image actions (AtLeastOnce.init batches)) :=
  List.foldl_rel (r := Sim url) ⟨rfl, rfl, fun _ => rfl⟩ fun a _ _ _ h => h.step a

/-- Whatever the shards, the batches, the interleaving and the attempts that stopped early: once every
batch has completed, the index mirrors the table. -/
theorem index_mirrors {url : String} {hist : List StreamRecord} (hid : IdentifiesKeys hist)
    {batches : ι → List (List StreamRecord)}
    (hsplit : AtLeastOnce.Splits StreamRecord.primaryKey hist batches) (actions : List (Action ι))
    (hdone : ∀ s, (Delivery.run url actions (.init batches)).pending s = []) :
    Mirrors url (Delivery.run url actions (.init batches)).index hist := by
  have hsim := sim_run url batches actions
  refine mirrors_of_find?_eq hid ?_
  rw [hsim.store]
  rw [hsim.pending] at hdone
  exact AtLeastOnce.converges (splits_documentUrl hid hsplit) actions hdone

/-- An item is written and removed in one batch, whose first attempt stops after the write; another
item is written in another shard. -/
theorem index_mirrors_redelivered :
    let keys (g : String) : List (String × AttributeValue) := [("userId", ⟨.S, "u"⟩), ("goalId", ⟨.S, g⟩)]
    let a : StreamRecord := ⟨keys "a", .insert (.str "image a")⟩
    let b : StreamRecord := ⟨keys "b", .insert (.str "image b")⟩
    let a' : StreamRecord := ⟨keys "a", .remove⟩
    let batches : Bool → List (List StreamRecord) := fun s => if s then [[a, a']] else [[b]]
    let actions : List (Action Bool) := [.start true, .write true, .start false, .abort true, .write false,
      .finish false, .start true, .write true, .write true, .finish true]
    Mirrors "es/" (Delivery.run "es/" actions (.init batches)).index [a, b, a'] := by
  intro keys a b a' batches actions
  refine index_mirrors (by unfold IdentifiesKeys; decide +kernel) (fun k => ?_) actions
    (by intro s; cases s <;> rfl)
  by_cases hk : k = b.primaryKey
  · subst hk
    refine ⟨false, by decide +kernel, fun s' hne => ?_⟩
    cases s' with
    | false => exact absurd rfl hne
    | true => decide +kernel
  · have hb : ¬ b.primaryKey = k := Ne.symm hk
    refine ⟨true, by simp [batches, List.filter_cons, hb], fun s' hne r hr => ?_⟩
    cases s' with
    | false =>
      obtain rfl : r = b := by simpa [batches] using hr
      exact hb
    | true => exact absurd rfl hne

end UpdateSearchCluster

end FullStack
