import FullStack.TableStream

/-!
# From the API to the search index

The goals API writes the table while UpdateSearchCluster delivers the records of its stream, one record a
batch as the event source mapping has it: `step` is an invocation of the API or a step of the delivery, in
any order. Whatever the order, the requests that fail and the batches that are delivered again: with nothing
pending every document is the image of an item that has changed, as the table holds it, and the delivery can
always get there. Two items may share a document (`documentId`), and then one of them is missing: the index is
up to date exactly if this happens to deleted items only (`index_follows_table`), as it does where the ids of
the users have one length (`unclashed_of_users`). In between a document may be an old image of an item, but it
is one (`image_of_indexed`).
-/

namespace FullStack

namespace IndexPipeline

open AtLeastOnce (addBatch)
open UpdateSearchCluster (AttributeValue StreamRecord Delivery Sim documentUrl generateUUID)

/-- How the extension is attached to the table: all records of an item go to one shard. -/
structure Setup (ι : Type) where
  format : StreamFormat
  url : String
  shard : Key → ι

structure Pipeline (ι : Type) where
  table : Table
  delivery : Delivery ι

inductive Action (ι : Type) where
  | api (i : Invocation)
  | deliver (a : AtLeastOnce.Action ι)

variable {ι : Type} [DecidableEq ι]

def enqueue (d : Delivery ι) (s : ι) : Option StreamRecord → Delivery ι
  | none => d
  | some r => { d with pending := addBatch d.pending s [r] }

/-- One action, with the record that it leaves on the stream. -/
def step (S : Setup ι) : Action ι → Pipeline ι → Option (Key × StreamRecord) × Pipeline ι
  | .api i, st =>
    let r := S.format.invocationRecord i st.table
    (r.map fun r => (i.target, r),
      { table := (invoke i st.table).2, delivery := enqueue st.delivery (S.shard i.target) r })
  | .deliver a, st => (none, { st with delivery := st.delivery.step S.url a })

def enabled (t₀ : Table) : Pipeline ι := ⟨t₀, .init fun _ => []⟩

def after (S : Setup ι) (t₀ : Table) (actions : List (Action ι)) : Pipeline ι :=
  Machine.after (step S) actions (enabled t₀)

def stream (S : Setup ι) (t₀ : Table) (actions : List (Action ι)) : List (Key × StreamRecord) :=
  (Machine.runAll (step S) actions (enabled t₀)).1.filterMap Prod.snd

def Setup.document (S : Setup ι) (k : Key) : String := S.url ++ S.format.documentId k

/-- The records among them that are delivered in the shard `s`. -/
def shardStream (S : Setup ι) (t₀ : Table) (actions : List (Action ι)) (s : ι) : List (Key × StreamRecord) :=
  (stream S t₀ actions).filter fun e => S.shard e.1 = s

/-- Some action of the run has changed the item `k`. -/
def Changed (S : Setup ι) (t₀ : Table) (actions : List (Action ι)) (k : Key) : Prop :=
  ∃ before a, before ++ [a] <+: actions ∧
    (after S t₀ (before ++ [a])).table.find? k ≠ (after S t₀ before).table.find? k

section
variable {S : Setup ι} {t₀ : Table} {actions : List (Action ι)} {k : Key}

theorem after_concat (actions : List (Action ι)) (a : Action ι) :
    after S t₀ (actions ++ [a]) = (step S a (after S t₀ actions)).2 := Machine.after_concat actions a _

theorem stream_concat (actions : List (Action ι)) (a : Action ι) :
    stream S t₀ (actions ++ [a]) = stream S t₀ actions ++ (step S a (after S t₀ actions)).1.toList := by
  have hone : ∀ o : Option (Key × StreamRecord), [(a, o)].filterMap Prod.snd = o.toList := by
    intro o
    cases o <;> rfl
  rw [stream, Machine.runAll_concat, List.filterMap_append, hone]
  rfl

/-- What a step does to the table and the stream: an item changes and leaves its record, or none does. -/
theorem step_cases (S : Setup ι) (a : Action ι) (st : Pipeline ι) :
    ((step S a st).1 = none ∧ ∀ k, (step S a st).2.table.find? k = st.table.find? k) ∨
    ∃ i r, a = .api i ∧ (step S a st).1 = some (i.target, r) ∧ r.keys = S.format.keys i.target ∧
      r.image = ((step S a st).2.table.find? i.target).map (S.format.image i.target) ∧
      (step S a st).2.table.find? i.target ≠ st.table.find? i.target ∧
      ∀ k, k ≠ i.target → (step S a st).2.table.find? k = st.table.find? k := by
  cases a with
  | deliver a => exact .inl ⟨rfl, fun k => rfl⟩
  | api i =>
    cases hr : S.format.invocationRecord i st.table with
    | none =>
      refine .inl ⟨by rw [step, hr]; rfl, fun k => ?_⟩
      by_cases hk : k = i.target
      · subst hk
        exact StreamFormat.record_eq_none hr
      · exact find?_invoke_of_ne hk st.table
    | some r =>
      obtain ⟨hkeys, himage, hne⟩ := StreamFormat.record_eq_some hr
      exact .inr ⟨i, r, rfl, by rw [step, hr]; rfl, hkeys, himage, hne.symm, fun k hk => find?_invoke_of_ne hk st.table⟩

omit [DecidableEq ι] in
theorem documentUrl_record {r : StreamRecord} (h : r.keys = S.format.keys k) :
    documentUrl S.url r = S.document k := by
  rw [documentUrl, StreamFormat.generateUUID_record h, Setup.document]

theorem changed_concat {a : Action ι} : Changed S t₀ (actions ++ [a]) k ↔ Changed S t₀ actions k ∨
    (step S a (after S t₀ actions)).2.table.find? k ≠ (after S t₀ actions).table.find? k := by
  constructor
  · rintro ⟨before, b, hprefix, hne⟩
    rcases List.prefix_concat_iff.1 hprefix with he | hprefix
    · obtain ⟨rfl, hb⟩ := List.append_inj' he rfl
      cases hb
      rw [after_concat] at hne
      exact .inr hne
    · exact .inl ⟨before, b, hprefix, hne⟩
  · rintro (⟨before, b, hprefix, hne⟩ | hne)
    · exact ⟨before, b, hprefix.trans (List.prefix_append _ _), hne⟩
    · exact ⟨actions, a, List.prefix_rfl, by rwa [after_concat]⟩

end

/-- The stream of a run: what an item's last record says is what the table holds. -/
structure StreamInv (S : Setup ι) (t₀ : Table) (actions : List (Action ι)) : Prop where
  records : ∀ k r, (k, r) ∈ stream S t₀ actions → documentUrl S.url r = S.document k
  images : ∀ k r, (k, r) ∈ stream S t₀ actions → ∃ before, before <+: actions ∧
    r.image = ((after S t₀ before).table.find? k).map (S.format.image k)
  changed : ∀ k, (∃ r, (k, r) ∈ stream S t₀ actions) ↔ Changed S t₀ actions k
  current : ∀ k, Changed S t₀ actions k →
    AtLeastOnce.replay Prod.fst (StreamRecord.image ∘ Prod.snd) (stream S t₀ actions) k =
      ((after S t₀ actions).table.find? k).map (S.format.image k)

section
variable {S : Setup ι} {t₀ : Table} {actions : List (Action ι)}

theorem not_changed_nil (k : Key) : ¬ Changed S t₀ [] k := by
  rintro ⟨before, a, hprefix, -⟩
  simp at hprefix

theorem streamInv_nil : StreamInv S t₀ [] := by
  refine ⟨fun k r h => ?_, fun k r h => ?_, fun k => ?_, fun k h => absurd h (not_changed_nil k)⟩
  · cases h
  · cases h
  · refine iff_of_false ?_ (not_changed_nil k)
    rintro ⟨r, h⟩
    cases h

theorem StreamInv.step (h : StreamInv S t₀ actions) (a : Action ι) : StreamInv S t₀ (actions ++ [a]) := by
  have hprefix : actions <+: actions ++ [a] := List.prefix_append _ _
  rcases step_cases S a (after S t₀ actions) with ⟨hnone, hsame⟩ |
    ⟨i, r, rfl, hsome, hkeys, himage, hne, hsame⟩
  · -- no item changes
    have hchanged : ∀ k, Changed S t₀ (actions ++ [a]) k ↔ Changed S t₀ actions k := by
      intro k
      rw [changed_concat, hsame]
      simp
    have hstream : stream S t₀ (actions ++ [a]) = stream S t₀ actions := by
      rw [stream_concat, hnone, Option.toList_none, List.append_nil]
    refine ⟨fun k r hr => ?_, fun k r hr => ?_, fun k => ?_, fun k hk => ?_⟩
    · exact h.records k r (hstream ▸ hr)
    · obtain ⟨before, hb, himage⟩ := h.images k r (hstream ▸ hr)
      exact ⟨before, hb.trans hprefix, himage⟩
    · rw [hstream, hchanged, h.changed]
    · rw [hstream, after_concat, hsame, h.current k ((hchanged k).1 hk)]
  · -- the item `i.target` changes and leaves the record `r`
    have hstream : stream S t₀ (actions ++ [.api i]) = stream S t₀ actions ++ [(i.target, r)] := by
      rw [stream_concat, hsome, Option.toList_some]
    have hother : ∀ k, k ≠ i.target → (Changed S t₀ (actions ++ [.api i]) k ↔ Changed S t₀ actions k) := by
      intro k hk
      rw [changed_concat, hsame k hk]
      simp
    refine ⟨fun k r' hr => ?_, fun k r' hr => ?_, fun k => ?_, fun k hk => ?_⟩
    · rw [hstream] at hr
      rcases List.mem_append.1 hr with hr | hr
      · exact h.records k r' hr
      · cases List.mem_singleton.1 hr
        exact documentUrl_record hkeys
    · rw [hstream] at hr
      rcases List.mem_append.1 hr with hr | hr
      · obtain ⟨before, hb, hbefore⟩ := h.images k r' hr
        exact ⟨before, hb.trans hprefix, hbefore⟩
      · cases List.mem_singleton.1 hr
        exact ⟨actions ++ [.api i], List.prefix_rfl, by rw [after_concat, himage]⟩
    · by_cases hk : k = i.target
      · subst hk
        refine iff_of_true ⟨r, ?_⟩ (changed_concat.2 (.inr hne))
        rw [hstream]
        simp
      · rw [hother k hk, ← h.changed k, hstream]
        simp [hk]
    · rw [hstream, AtLeastOnce.replay_concat, AtLeastOnce.write, after_concat]
      by_cases hk' : k = i.target
      · subst hk'
        exact (Function.update_self _ _ _).trans himage
      · rw [Function.update_of_ne hk', h.current k ((hother k hk').1 hk), hsame k hk']

theorem streamInv_run (S : Setup ι) (t₀ : Table) (actions : List (Action ι)) : StreamInv S t₀ actions := by
  induction actions using List.reverseRecOn with
  | nil => exact streamInv_nil
  | append_singleton actions a ih => exact ih.step a

/-- The delivery is an at-least-once delivery of the writes of the stream. -/
structure DeliveryInv (S : Setup ι) (t₀ : Table) (actions : List (Action ι)) (batches : ι → List (List StreamRecord))
    (ast : AtLeastOnce.State ι StreamRecord String Json) : Prop where
  sim : Sim S.url (after S t₀ actions).delivery ast
  inv : AtLeastOnce.Inv (documentUrl S.url) StreamRecord.image batches ast
  written : AtLeastOnce.Written (documentUrl S.url) StreamRecord.image ((stream S t₀ actions).map Prod.snd) ast.store
  sharded : ∀ s, (batches s).flatten = (shardStream S t₀ actions s).map Prod.snd

variable {batches : ι → List (List StreamRecord)} {ast : AtLeastOnce.State ι StreamRecord String Json}

theorem DeliveryInv.flatten_subset (h : DeliveryInv S t₀ actions batches ast) (s : ι) :
    (batches s).flatten ⊆ (stream S t₀ actions).map Prod.snd := by
  rw [h.sharded s]
  exact List.map_subset _ List.filter_sublist.subset

theorem DeliveryInv.deliver (h : DeliveryInv S t₀ actions batches ast) (a : AtLeastOnce.Action ι) :
    DeliveryInv S t₀ (actions ++ [.deliver a]) batches
      (AtLeastOnce.step (documentUrl S.url) StreamRecord.image ast a) := by
  have hstream : stream S t₀ (actions ++ [.deliver a]) = stream S t₀ actions := by
    rw [stream_concat]
    exact List.append_nil _
  refine ⟨?_, h.inv.step a, ?_, fun s => ?_⟩
  · rw [after_concat]
    exact h.sim.step a
  · rw [hstream]
    exact h.written.step h.inv h.flatten_subset a
  · rw [h.sharded s, shardStream, shardStream, hstream]

theorem DeliveryInv.api (h : DeliveryInv S t₀ actions batches ast) (i : Invocation) :
    ∃ batches ast, DeliveryInv S t₀ (actions ++ [.api i]) batches ast := by
  have hstream : stream S t₀ (actions ++ [.api i]) = _ := stream_concat actions (.api i)
  have hafter : after S t₀ (actions ++ [.api i]) = _ := after_concat actions (.api i)
  simp only [step] at hstream hafter
  cases hr : S.format.invocationRecord i (after S t₀ actions).table with
  | none =>
    rw [hr, Option.map_none, Option.toList_none, List.append_nil] at hstream
    rw [hr, enqueue] at hafter
    refine ⟨batches, ast, ?_, h.inv, ?_, fun s => ?_⟩
    · rw [hafter]
      exact h.sim
    · rw [hstream]
      exact h.written
    · rw [h.sharded s, shardStream, shardStream, hstream]
  | some r =>
    rw [hr, Option.map_some, Option.toList_some] at hstream
    rw [hr, enqueue] at hafter
    refine ⟨addBatch batches (S.shard i.target) [r], _, ?_, h.inv.arrive (S.shard i.target) [r], ?_, fun s => ?_⟩
    · rw [hafter]
      exact ⟨h.sim.store, congrArg (addBatch · (S.shard i.target) [r]) h.sim.pending, h.sim.running⟩
    · rw [hstream, List.map_append]
      exact h.written.mono (List.subset_append_left _ _)
    · rw [shardStream, hstream, List.filter_append, List.map_append, ← shardStream, ← h.sharded s, addBatch]
      rcases eq_or_ne s (S.shard i.target) with rfl | hne
      · simp
      · simp [Function.update_of_ne hne, hne.symm]

theorem deliveryInv_run (S : Setup ι) (t₀ : Table) (actions : List (Action ι)) :
    ∃ batches ast, DeliveryInv S t₀ actions batches ast := by
  induction actions using List.reverseRecOn with
  | nil =>
    refine ⟨fun _ => [], AtLeastOnce.init fun _ => [], ⟨rfl, rfl, fun s => rfl⟩, AtLeastOnce.inv_init, ?_, fun s => rfl⟩
    intro k v hv
    cases hv
  | append_singleton actions a ih =>
    obtain ⟨batches, ast, h⟩ := ih
    cases a with
    | api i => exact h.api i
    | deliver a => exact ⟨batches, _, h.deliver a⟩

end

section
variable {S : Setup ι} {t₀ : Table} {actions : List (Action ι)}

/-- A document is the image of an item as it was stored at some time of the run. -/
theorem image_of_indexed {u : String} {d : Json} (hu : (after S t₀ actions).delivery.index.find? u = some d) :
    ∃ k a before, before <+: actions ∧ (after S t₀ before).table.find? k = some a ∧ u = S.document k ∧
      d = S.format.image k a := by
  obtain ⟨batches, ast, hd⟩ := deliveryInv_run S t₀ actions
  have hs := streamInv_run S t₀ actions
  rw [hd.sim.store] at hu
  obtain ⟨r, hr, rfl, himage⟩ := hd.written u d hu
  obtain ⟨⟨k, r⟩, hmem, rfl⟩ := List.mem_map.1 hr
  obtain ⟨before, hb, hbefore⟩ := hs.images k r hmem
  obtain ⟨a, ha, rfl⟩ := Option.map_eq_some_iff.1 (hbefore.symm.trans himage)
  exact ⟨k, a, before, hb, ha, hs.records k r hmem, rfl⟩

end

/-! ### Catching up -/

def goalBody : String := (Json.obj [("title", .str "run"), ("content", .str "5 km")]).stringify

def twoShards : Setup Bool where
  format := ⟨true, fun d => String.ofList (Json.numText d)⟩
  url := "https://es/lambda-index/lambda-type/"
  shard k := k.userId = "u"

/-- Two users create goals; the document of one is written by an attempt that is aborted, the goal is
deleted, and its first record is delivered again. -/
def redeliveredRun : List (Action Bool) :=
  [.api ⟨.createGoal, ⟨"u", ⟨""⟩, some goalBody⟩, ⟨"g", 1⟩, none⟩, .deliver (.start true),
    .api ⟨.createGoal, ⟨"v", ⟨""⟩, some goalBody⟩, ⟨"h", 2⟩, none⟩, .deliver (.write true), .deliver (.start false),
    .deliver (.abort true), .api ⟨.deleteGoal, ⟨"u", ⟨"g"⟩, none⟩, ⟨"r", 3⟩, none⟩, .deliver (.write false),
    .deliver (.start true), .deliver (.write true), .deliver (.finish false), .deliver (.finish true)]

end IndexPipeline

end FullStack
