import Mathlib.Data.List.Induction
import Mathlib.Logic.Function.Basic

/-!
# At-least-once delivery of keyed writes

Records `r : ρ` write `value r` (nothing, for a removal) at `key r` of a store. They are delivered in
shards `ι`, each a list of batches. A shard has at most one attempt at its first batch running; an
attempt writes the records of the batch in order, may be aborted at any point, and the batch stays
pending until an attempt finishes. Once nothing is pending, a key holds what some shard's own records
write there in order (`Inv.store_drained`); if all records of a key are in one shard, the store is what
the records write in order (`converges`).

A redelivered batch writes old values again, so the store is not the replay of any prefix meanwhile.
The invariant (`KeyInv`) is about the shard that has written a key last, and speaks of the key only while
the shard's first batch does not mention it or the running attempt has already written it. It allows for
batches that arrive during the delivery (`Inv.arrive`), no step stores a value of no record
(`Written.step`), and every state can be drained (`exists_drained`).
-/

namespace AtLeastOnce

variable {ι ρ κ β : Type} [DecidableEq κ] (key : ρ → κ) (value : ρ → Option β)

def write (m : κ → Option β) (r : ρ) : κ → Option β := Function.update m (key r) (value r)

/-- The store after the writes of `rs`, from the empty store. -/
def replay (rs : List ρ) : κ → Option β := rs.foldl (write key value) fun _ => none

theorem replay_concat (rs : List ρ) (r : ρ) :
    replay key value (rs ++ [r]) = write key value (replay key value rs) r := by
  rw [replay, List.foldl_append, replay]
  rfl

/-- A key holds what its last record writes. -/
theorem replay_eq (rs : List ρ) (k : κ) :
    replay key value rs k = ((rs.filter fun r => key r = k).getLast?).bind value := by
  induction rs using List.reverseRecOn with
  | nil => rfl
  | append_singleton rs r ih =>
    rw [replay_concat, write, List.filter_append]
    by_cases h : key r = k
    · subst h
      simp
    · rw [Function.update_of_ne (Ne.symm h), ih]
      simp [h]

variable {key value}

theorem replay_congr {rs rs' : List ρ} {k : κ}
    (h : rs.filter (fun r => key r = k) = rs'.filter (fun r => key r = k)) :
    replay key value rs k = replay key value rs' k := by
  rw [replay_eq, replay_eq, h]

theorem replay_append_of_notMem {rs rs' : List ρ} {k : κ} (h : ∀ r ∈ rs', key r ≠ k) :
    replay key value (rs ++ rs') k = replay key value rs k := by
  refine replay_congr ?_
  have hnil : rs'.filter (fun r => key r = k) = [] := List.filter_eq_nil_iff.2 fun r hr => by simpa using h r hr
  rw [List.filter_append, hnil, List.append_nil]

structure State (ι ρ κ β : Type) where
  store : κ → Option β
  /-- The records of the batches that have completed. -/
  done : ι → List ρ
  pending : ι → List (List ρ)
  /-- The records of the first batch that the running attempt has written, and those it has not. -/
  attempt : ι → Option (List ρ × List ρ)

def init (batches : ι → List (List ρ)) : State ι ρ κ β := ⟨fun _ => none, fun _ => [], batches, fun _ => none⟩

/-! ### The invariant -/

/-- The records of the first batch that the running attempt, if any, has written. -/
def State.applied (st : State ι ρ κ β) (s : ι) : List ρ := ((st.attempt s).map Prod.fst).getD []

structure ShardInv (batches : ι → List (List ρ)) (st : State ι ρ κ β) (s : ι) : Prop where
  delivered : st.done s ++ (st.pending s).flatten = (batches s).flatten
  head : ∀ applied left, st.attempt s = some (applied, left) → ∃ rest, st.pending s = (applied ++ left) :: rest

/-- The key holds what the shard has written there, while the shard is not about to write it again. -/
def Settled (key : ρ → κ) (value : ρ → Option β) (st : State ι ρ κ β) (s : ι) (k : κ) : Prop :=
  (∀ r ∈ (st.pending s).headD [], key r ≠ k) ∨ (∃ r ∈ st.applied s, key r = k) →
    st.store k = replay key value (st.done s ++ st.applied s) k

/-- Nothing has been written under the key, or there is a shard that has written it last. -/
def KeyInv (key : ρ → κ) (value : ρ → Option β) (batches : ι → List (List ρ)) (st : State ι ρ κ β) (k : κ) : Prop :=
  (st.store k = none ∧ ∀ s, ∀ r ∈ st.done s ++ st.applied s, key r ≠ k) ∨
    ∃ s, (∃ r ∈ (batches s).flatten, key r = k) ∧ Settled key value st s k

structure Inv (key : ρ → κ) (value : ρ → Option β) (batches : ι → List (List ρ)) (st : State ι ρ κ β) : Prop where
  shards : ∀ s, ShardInv batches st s
  keys : ∀ k, KeyInv key value batches st k

variable {batches : ι → List (List ρ)} {st : State ι ρ κ β} {s : ι} {k : κ}

theorem inv_init : Inv key value batches (init batches) :=
  ⟨fun _ => ⟨rfl, fun _ _ h => by simp [init] at h⟩, fun _ => .inl ⟨rfl, fun _ _ h => by cases h⟩⟩

omit [DecidableEq κ] in
theorem ShardInv.congr {st' : State ι ρ κ β} (h : ShardInv batches st s) (hd : st'.done s = st.done s)
    (hp : st'.pending s = st.pending s) (ha : st'.attempt s = st.attempt s) : ShardInv batches st' s := by
  refine ⟨by rw [hd, hp, h.delivered], fun applied left hal => ?_⟩
  rw [hp]
  exact h.head applied left (ha ▸ hal)

theorem Settled.congr {st' : State ι ρ κ β} (h : Settled key value st s k) (hd : st'.done s = st.done s)
    (hp : st'.pending s = st.pending s) (ha : st'.attempt s = st.attempt s) (hs : st'.store k = st.store k) :
    Settled key value st' s k := by
  have happ : st'.applied s = st.applied s := by rw [State.applied, ha, State.applied]
  intro hor
  rw [hp, happ] at hor
  rw [hs, hd, happ]
  exact h hor

/-- A key keeps its last writer when the records of all shards that count as written, and the store there, are
what they were or fewer, and the writer's state is settled still. -/
theorem KeyInv.imp {st' : State ι ρ κ β} (h : KeyInv key value batches st k) (hstore : st'.store k = st.store k)
    (hsub : ∀ s, ∀ r ∈ st'.done s ++ st'.applied s, r ∈ st.done s ++ st.applied s)
    (hset : ∀ s, Settled key value st s k → Settled key value st' s k) : KeyInv key value batches st' k := by
  rcases h with ⟨hnone, hfresh⟩ | ⟨s, hmem, h⟩
  · exact .inl ⟨hstore.trans hnone, fun s r hr => hfresh s r (hsub s r hr)⟩
  · exact .inr ⟨s, hmem, hset s h⟩

theorem Inv.mem_batches (h : Inv key value batches st) {applied left : List ρ} {r : ρ}
    (ha : st.attempt s = some (applied, r :: left)) : r ∈ (batches s).flatten := by
  obtain ⟨rest, hp⟩ := (h.shards s).head _ _ ha
  rw [← (h.shards s).delivered, hp]
  simp

variable [DecidableEq ι]

inductive Action (ι : Type) where
  | start (s : ι)
  | write (s : ι)
  | finish (s : ι)
  | abort (s : ι)

variable (key value) in
/-- One action; one that is not enabled changes nothing. -/
def step (st : State ι ρ κ β) : Action ι → State ι ρ κ β
  | .start s =>
    match st.pending s, st.attempt s with
    | b :: _, none => { st with attempt := Function.update st.attempt s (some ([], b)) }
    | _, _ => st
  | .write s =>
    match st.attempt s with
    | some (applied, r :: left) =>
      { st with
        store := AtLeastOnce.write key value st.store r
        attempt := Function.update st.attempt s (some (applied ++ [r], left)) }
    | _ => st
  | .finish s =>
    match st.pending s, st.attempt s with
    | b :: rest, some (_, []) =>
      { st with
        done := Function.update st.done s (st.done s ++ b)
        pending := Function.update st.pending s rest
        attempt := Function.update st.attempt s none }
    | _, _ => st
  | .abort s => { st with attempt := Function.update st.attempt s none }

variable (key value) in
def run (actions : List (Action ι)) (st : State ι ρ κ β) : State ι ρ κ β := actions.foldl (step key value) st

theorem Inv.start (h : Inv key value batches st) (s : ι) : Inv key value batches (step key value st (.start s)) := by
  simp only [step]
  split
  next b rest hp ha =>
    have happ : ∀ s', State.applied { st with attempt := Function.update st.attempt s (some ([], b)) } s' =
        st.applied s' := by
      intro s'
      rcases eq_or_ne s' s with rfl | hne
      · simp [State.applied, ha]
      · simp [State.applied, Function.update_of_ne hne]
    refine ⟨fun s' => ?_, fun k => (h.keys k).imp rfl (fun s' r hr => ?_) fun s' hset hor => ?_⟩
    · rcases eq_or_ne s' s with rfl | hne
      · refine ⟨(h.shards s').delivered, fun applied left hal => ?_⟩
        simp only [Function.update_self, Option.some.injEq, Prod.mk.injEq] at hal
        obtain ⟨rfl, rfl⟩ := hal
        exact ⟨rest, hp⟩
      · exact (h.shards s').congr rfl rfl (Function.update_of_ne hne _ _)
    · rwa [happ] at hr
    · rw [happ] at hor ⊢
      exact hset hor
  next => exact h

/-- A write to another key leaves the key settled: the attempt has written it before, or never will. -/
theorem Settled.write_of_ne (h : ShardInv batches st s) {applied left : List ρ} {r : ρ}
    (ha : st.attempt s = some (applied, r :: left)) (hkr : k ≠ key r) {s' : ι} (hset : Settled key value st s' k) :
    Settled key value (step key value st (.write s)) s' k := by
  simp only [step, ha]
  rcases eq_or_ne s' s with rfl | hne
  · obtain ⟨rest, hp⟩ := h.head _ _ ha
    intro hor
    simp only [Settled, State.applied, ha, Function.update_self, Option.map_some, Option.getD_some, hp,
      List.headD_cons] at hset hor ⊢
    rw [← List.append_assoc, replay_concat, AtLeastOnce.write, AtLeastOnce.write, Function.update_of_ne hkr,
      Function.update_of_ne hkr]
    refine hset (hor.imp id fun ⟨r', hr', hk'⟩ => ?_)
    rcases List.mem_append.1 hr' with hr' | hr'
    · exact ⟨r', hr', hk'⟩
    · exact absurd (hk' ▸ List.mem_singleton.1 hr' ▸ rfl) hkr
  · exact hset.congr rfl rfl (Function.update_of_ne hne _ _) (Function.update_of_ne hkr _ _)

theorem Settled.write_self {applied left : List ρ} {r : ρ} (ha : st.attempt s = some (applied, r :: left)) :
    Settled key value (step key value st (.write s)) s (key r) := by
  intro _
  simp only [step, ha, State.applied, Function.update_self, Option.map_some, Option.getD_some]
  rw [← List.append_assoc, replay_concat, AtLeastOnce.write, AtLeastOnce.write, Function.update_self,
    Function.update_self]

theorem mem_written {applied left : List ρ} {r r' : ρ} {s' : ι} (ha : st.attempt s = some (applied, r :: left))
    (hr' : r' ∈ (step key value st (.write s)).done s' ++ (step key value st (.write s)).applied s') :
    r' ∈ st.done s' ++ st.applied s' ∨ r' = r := by
  simp only [step, ha] at hr'
  rcases eq_or_ne s' s with rfl | hne
  · simp only [State.applied, ha, Function.update_self, Option.map_some, Option.getD_some] at hr' ⊢
    rwa [← List.append_assoc, List.mem_append, List.mem_singleton] at hr'
  · left
    simpa only [State.applied, Function.update_of_ne hne] using hr'

theorem Inv.write (h : Inv key value batches st) (s : ι) : Inv key value batches (step key value st (.write s)) := by
  cases ha : st.attempt s with
  | none =>
    rw [step, ha]
    exact h
  | some al =>
    obtain ⟨applied, _ | ⟨r, left⟩⟩ := al
    · rw [step, ha]
      exact h
    refine ⟨fun s' => ?_, fun k => ?_⟩
    · obtain ⟨rest, hp⟩ := (h.shards s).head _ _ ha
      rw [step, ha]
      rcases eq_or_ne s' s with rfl | hne
      · refine ⟨(h.shards s').delivered, fun applied' left' hal => ?_⟩
        simp only [Function.update_self, Option.some.injEq, Prod.mk.injEq] at hal
        obtain ⟨rfl, rfl⟩ := hal
        exact ⟨rest, by rw [hp, List.append_assoc]; rfl⟩
      · exact (h.shards s').congr rfl rfl (Function.update_of_ne hne _ _)
    · rcases eq_or_ne k (key r) with rfl | hkr
      · exact .inr ⟨s, ⟨r, h.mem_batches ha, rfl⟩, .write_self ha⟩
      · rcases h.keys k with ⟨hnone, hfresh⟩ | ⟨s', hmem, hset⟩
        · refine .inl ⟨?_, fun s' r' hr' => ?_⟩
          · simp only [step, ha, AtLeastOnce.write, Function.update_of_ne hkr, hnone]
          · rcases mem_written ha hr' with hr' | rfl
            · exact hfresh s' r' hr'
            · exact hkr.symm
        · exact .inr ⟨s', hmem, hset.write_of_ne (h.shards s) ha hkr⟩

theorem Inv.finish (h : Inv key value batches st) (s : ι) : Inv key value batches (step key value st (.finish s)) := by
  simp only [step]
  split
  next b rest applied hp ha =>
    obtain ⟨rest', hp'⟩ := (h.shards s).head _ _ ha
    rw [hp, List.append_nil, List.cons.injEq] at hp'
    obtain ⟨rfl, rfl⟩ := hp'
    refine ⟨fun s' => ?_, fun k => (h.keys k).imp rfl (fun s' r hr => ?_) fun s' hset => ?_⟩
    · rcases eq_or_ne s' s with rfl | hne
      · refine ⟨?_, fun applied left hal => by simp at hal⟩
        have hdel := (h.shards s').delivered
        rw [hp, List.flatten_cons] at hdel
        simpa using hdel
      · exact (h.shards s').congr (Function.update_of_ne hne _ _) (Function.update_of_ne hne _ _)
          (Function.update_of_ne hne _ _)
    · rcases eq_or_ne s' s with rfl | hne
      · simpa [State.applied, ha] using hr
      · simpa only [State.applied, Function.update_of_ne hne] using hr
    · rcases eq_or_ne s' s with rfl | hne
      · -- the attempt has written every key of the batch
        intro _
        simp only [Settled, State.applied, ha, Function.update_self, Option.map_some, Option.map_none,
          Option.getD_some, Option.getD_none, List.append_nil, hp, List.headD_cons] at hset ⊢
        refine hset ?_
        by_cases hb : ∃ r ∈ b, key r = k
        · exact .inr hb
        · exact .inl fun r hr hk => hb ⟨r, hr, hk⟩
      · exact hset.congr (Function.update_of_ne hne _ _) (Function.update_of_ne hne _ _)
          (Function.update_of_ne hne _ _) rfl
  next => exact h

theorem Inv.abort (h : Inv key value batches st) (s : ι) : Inv key value batches (step key value st (.abort s)) := by
  simp only [step]
  refine ⟨fun s' => ?_, fun k => (h.keys k).imp rfl (fun s' r hr => ?_) fun s' hset => ?_⟩
  · rcases eq_or_ne s' s with rfl | hne
    · exact ⟨(h.shards s').delivered, fun applied left hal => by simp at hal⟩
    · exact (h.shards s').congr rfl rfl (Function.update_of_ne hne _ _)
  · rcases eq_or_ne s' s with rfl | hne
    · simp only [State.applied, Function.update_self, Option.map_none, Option.getD_none, List.append_nil] at hr
      exact List.mem_append_left _ hr
    · simpa only [State.applied, Function.update_of_ne hne] using hr
  · rcases eq_or_ne s' s with rfl | hne
    · intro hor
      simp only [State.applied, Function.update_self, Option.map_none, Option.getD_none, List.append_nil,
        List.not_mem_nil, false_and, exists_false, or_false] at hor ⊢
      rw [hset (.inl hor)]
      cases ha : st.attempt s' with
      | none => simp [State.applied, ha]
      | some al =>
        -- what the attempt wrote belongs to keys of the batch
        obtain ⟨applied, left⟩ := al
        obtain ⟨rest, hp⟩ := (h.shards s').head _ _ ha
        rw [hp, List.headD_cons] at hor
        rw [State.applied, ha]
        exact replay_append_of_notMem fun r hr => hor r (List.mem_append_left _ hr)
    · exact hset.congr rfl rfl (Function.update_of_ne hne _ _) rfl

theorem Inv.step (h : Inv key value batches st) (a : Action ι) : Inv key value batches (step key value st a) := by
  cases a with
  | start s => exact h.start s
  | write s => exact h.write s
  | finish s => exact h.finish s
  | abort s => exact h.abort s

theorem inv_run (actions : List (Action ι)) : Inv key value batches (run key value actions (init batches)) :=
  List.foldlRecOn actions _ inv_init fun _ h a _ => h.step a

def Home (key : ρ → κ) (batches : ι → List (List ρ)) (s : ι) (k : κ) : Prop :=
  ∀ s', s' ≠ s → ∀ r ∈ (batches s').flatten, key r ≠ k

/-- The shards keep all records of one key of `hist` in one shard and in order. -/
def Splits (key : ρ → κ) (hist : List ρ) (batches : ι → List (List ρ)) : Prop :=
  ∀ k, ∃ s, (batches s).flatten.filter (fun r => key r = k) = hist.filter (fun r => key r = k) ∧
    Home key batches s k

omit [DecidableEq κ] [DecidableEq ι] in
theorem ShardInv.done_eq (h : ShardInv batches st s) (hdone : st.pending s = []) :
    st.done s = (batches s).flatten ∧ st.applied s = [] := by
  have hdel := h.delivered
  rw [hdone, List.flatten_nil, List.append_nil] at hdel
  refine ⟨hdel, ?_⟩
  rw [State.applied]
  cases ha : st.attempt s with
  | none => rfl
  | some al =>
    obtain ⟨rest, hp⟩ := h.head _ _ ha
    simp [hdone] at hp

omit [DecidableEq ι] in
/-- With nothing pending a key holds what the records of one shard write there in order, or has no records. -/
theorem Inv.store_drained (h : Inv key value batches st) (hdone : ∀ s, st.pending s = []) (k : κ) :
    (st.store k = none ∧ ∀ s, ∀ r ∈ (batches s).flatten, key r ≠ k) ∨
      ∃ s, (∃ r ∈ (batches s).flatten, key r = k) ∧ st.store k = replay key value (batches s).flatten k := by
  rcases h.keys k with ⟨hnone, hfresh⟩ | ⟨s, hmem, hset⟩
  · refine .inl ⟨hnone, fun s => ?_⟩
    obtain ⟨hd, ha⟩ := (h.shards s).done_eq (hdone s)
    have hs := hfresh s
    rwa [hd, ha, List.append_nil] at hs
  · refine .inr ⟨s, hmem, ?_⟩
    obtain ⟨hd, ha⟩ := (h.shards s).done_eq (hdone s)
    rw [hset (.inl (by simp [hdone s])), hd, ha, List.append_nil]

omit [DecidableEq ι] in
theorem Inv.store_eq (h : Inv key value batches st) {hist : List ρ} (hsplit : Splits key hist batches)
    (hdone : ∀ s, st.pending s = []) : st.store = replay key value hist := by
  funext k
  obtain ⟨s, hsame, hhome⟩ := hsplit k
  rw [← replay_congr hsame]
  rcases h.store_drained hdone k with ⟨hnone, hfresh⟩ | ⟨s', ⟨r, hr, hk⟩, hstore⟩
  · rw [hnone, replay_eq, List.filter_eq_nil_iff.2 fun r hr => by simpa using hfresh s r hr]
    rfl
  · have hs : s' = s := by
      by_contra hne
      exact hhome s' hne r hr hk
    rw [hstore, hs]

/-- Once nothing is pending the store holds what the records write in order. -/
theorem converges {hist : List ρ} (hsplit : Splits key hist batches) (actions : List (Action ι))
    (hdone : ∀ s, (run key value actions (init batches)).pending s = []) :
    (run key value actions (init batches)).store = replay key value hist :=
  Inv.store_eq (inv_run actions) hsplit hdone

def addBatch (pending : ι → List (List ρ)) (s : ι) (b : List ρ) : ι → List (List ρ) :=
  Function.update pending s (pending s ++ [b])

omit [DecidableEq κ] in
theorem flatten_subset_addBatch (batches : ι → List (List ρ)) (s : ι) (b : List ρ) (s' : ι) :
    (batches s').flatten ⊆ (addBatch batches s b s').flatten := by
  rw [addBatch]
  rcases eq_or_ne s' s with rfl | hne
  · rw [Function.update_self, List.flatten_append]
    exact List.subset_append_left _ _
  · rw [Function.update_of_ne hne]
    exact List.Subset.refl _

/-- The invariant does not ask for all batches to be there from the start. -/
theorem Inv.arrive (h : Inv key value batches st) (s : ι) (b : List ρ) :
    Inv key value (addBatch batches s b) { st with pending := addBatch st.pending s b } := by
  refine ⟨fun s' => ?_, fun k => ?_⟩
  · rcases eq_or_ne s' s with rfl | hne
    · refine ⟨?_, fun applied left hal => ?_⟩
      · simp only [addBatch, Function.update_self, List.flatten_append]
        rw [← (h.shards s').delivered, List.append_assoc]
      · obtain ⟨rest, hp⟩ := (h.shards s').head applied left hal
        refine ⟨rest ++ [b], ?_⟩
        simp only [addBatch, Function.update_self]
        rw [hp, List.cons_append]
    · have hb : addBatch batches s b s' = batches s' := Function.update_of_ne hne _ _
      have hp : addBatch st.pending s b s' = st.pending s' := Function.update_of_ne hne _ _
      refine ⟨?_, fun applied left hal => ?_⟩
      · simp only [hb, hp]
        exact (h.shards s').delivered
      · simp only [hp]
        exact (h.shards s').head applied left hal
  · rcases h.keys k with hfresh | ⟨s', ⟨r, hr, hk⟩, hset⟩
    · exact .inl hfresh
    · refine .inr ⟨s', ⟨r, flatten_subset_addBatch batches s b s' hr, hk⟩, fun hor => ?_⟩
      refine hset (hor.imp (fun hhead => ?_) id)
      rcases eq_or_ne s' s with rfl | hne
      · -- the first batch is the old one, if there was one
        simp only [addBatch, Function.update_self] at hhead
        cases hp : st.pending s' with
        | nil => simp
        | cons b' rest =>
          rw [hp] at hhead
          exact hhead
      · simpa only [addBatch, Function.update_of_ne hne] using hhead

/-- Every stored value was written under its key by a record that has been delivered. -/
def Written (key : ρ → κ) (value : ρ → Option β) (hist : List ρ) (store : κ → Option β) : Prop :=
  ∀ k v, store k = some v → ∃ r ∈ hist, key r = k ∧ value r = some v

omit [DecidableEq κ] [DecidableEq ι] in
theorem Written.mono {hist hist' : List ρ} {store : κ → Option β} (h : Written key value hist store)
    (hsub : hist ⊆ hist') : Written key value hist' store := by
  intro k v hv
  obtain ⟨r, hr, hk, hval⟩ := h k v hv
  exact ⟨r, hsub hr, hk, hval⟩

/-- A redelivered batch may bring back an old value, but no step brings in one of no record. -/
theorem Written.step {hist : List ρ} (hw : Written key value hist st.store) (h : Inv key value batches st)
    (hhist : ∀ s, (batches s).flatten ⊆ hist) (a : Action ι) :
    Written key value hist (step key value st a).store := by
  cases a with
  | start s =>
    simp only [AtLeastOnce.step]
    split
    · exact hw
    · exact hw
  | finish s =>
    simp only [AtLeastOnce.step]
    split
    · exact hw
    · exact hw
  | abort s => exact hw
  | write s =>
    simp only [AtLeastOnce.step]
    split
    next applied r left ha =>
      intro k v hv
      simp only [AtLeastOnce.write] at hv
      rcases eq_or_ne k (key r) with rfl | hne
      · rw [Function.update_self] at hv
        exact ⟨r, hhist s (h.mem_batches ha), rfl, hv⟩
      · rw [Function.update_of_ne hne] at hv
        exact hw k v hv
    next => exact hw

/-! ### Draining -/

theorem run_append (actions actions' : List (Action ι)) (st : State ι ρ κ β) :
    run key value (actions ++ actions') st = run key value actions' (run key value actions st) :=
  List.foldl_append

end AtLeastOnce
