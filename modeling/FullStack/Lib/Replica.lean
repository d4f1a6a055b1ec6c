import FullStack.Lib.Machine
import Mathlib.Data.List.Count

/-!
# Reads from replicas that lag behind

A store that is written in one place and read from replicas. A write goes to the latest state; a read may be
answered by a replica that has yet to apply the last few writes. `serve` is a machine on such a store.

The store after a run, as a replica sees it that lags by `lag`, is the state after a prefix of the run that leaves
out at most `lag` writes (`held_after`). With the noninterference rule of `Machine` this holds of each party alone
(`serve_explained`): what a party is answered is what it would be answered after a prefix of its own inputs.
-/

namespace Replica

variable {ι σ ω τ : Type}

/-- A store with what it held before each write, latest first. -/
structure Store (σ : Type) where
  current : σ
  earlier : List σ

namespace Store

def fresh (s : σ) : Store σ := ⟨s, []⟩

def write (st : Store σ) (s : σ) : Store σ := ⟨s, st.current :: st.earlier⟩

def heldBy : Nat → σ → List σ → σ
  | 0, s, _ => s
  | _ + 1, s, [] => s
  | lag + 1, _, s :: earlier => heldBy lag s earlier

/-- What a replica holds that has yet to apply the last `lag` writes. -/
def held (st : Store σ) (lag : Nat) : σ := heldBy lag st.current st.earlier

@[simp] theorem held_zero (st : Store σ) : st.held 0 = st.current := rfl

@[simp] theorem held_fresh (s : σ) (lag : Nat) : (fresh s).held lag = s := by
  cases lag <;> rfl

@[simp] theorem held_write (st : Store σ) (s : σ) (lag : Nat) : (st.write s).held (lag + 1) = st.held lag := rfl

end Store

/-- One input, a write or a read answered by a replica that lags by the number that comes with it. -/
def serve (step : ι → σ → ω × σ) (writes : ι → Bool) (e : ι × Nat) (st : Store σ) : ω × Store σ :=
  if writes e.1 then ((step e.1 st.current).1, st.write (step e.1 st.current).2)
  else ((step e.1 (st.held e.2)).1, st)

def staleness (writes : ι → Bool) (e : ι × Nat) : Nat := if writes e.1 then 0 else e.2

variable {step : ι → σ → ω × σ} {writes : ι → Bool}

theorem serve_answer (e : ι × Nat) (st : Store σ) :
    (serve step writes e st).1 = (step e.1 (st.held (staleness writes e))).1 := by
  unfold serve staleness
  split_ifs <;> rfl

theorem after_reads (hread : ∀ i, writes i = false → ∀ s, (step i s).2 = s) {is : List ι}
    (his : ∀ i ∈ is, ¬ writes i = true) (s : σ) : Machine.after step is s = s := by
  induction is generalizing s with
  | nil => rfl
  | cons i is ih =>
    have hi : writes i = false := Bool.eq_false_iff.2 (his i List.mem_cons_self)
    rw [Machine.after_cons, hread i hi]
    exact ih (fun j hj => his j (List.mem_cons_of_mem _ hj)) s

/-- A replica that lags by `lag` has seen all of the run but a suffix with at most `lag` writes. -/
theorem held_after (hread : ∀ i, writes i = false → ∀ s, (step i s).2 = s) (h : List (ι × Nat)) (s : σ) (lag : Nat) :
    ∃ seen missed, h.map Prod.fst = seen ++ missed ∧ missed.countP writes ≤ lag ∧
      (Machine.after (serve step writes) h (.fresh s)).held lag = Machine.after step seen s := by
  induction h using List.reverseRecOn generalizing lag with
  | nil => exact ⟨[], [], rfl, Nat.zero_le _, Store.held_fresh s lag⟩
  | append_singleton h e ih =>
    rw [Machine.after_concat, List.map_append, List.map_singleton]
    by_cases hw : writes e.1 = true
    · rw [serve, if_pos hw]
      cases lag with
      | zero =>
        -- no write is missing from what the latest state has seen, so the rest of the run read only
        obtain ⟨seen, missed, hsplit, hcount, hheld⟩ := ih 0
        have hmissed := after_reads hread (List.countP_eq_zero.1 (Nat.le_zero.1 hcount))
        refine ⟨seen ++ missed ++ [e.1], [], by simp [hsplit], Nat.zero_le _, ?_⟩
        rw [Machine.after_concat, Machine.after_append, hmissed, ← hheld]
        rfl
      | succ lag =>
        obtain ⟨seen, missed, hsplit, hcount, hheld⟩ := ih lag
        refine ⟨seen, missed ++ [e.1], by simp [hsplit], ?_, ?_⟩
        · rw [List.countP_append, List.countP_singleton, if_pos hw]
          omega
        · rw [Store.held_write, hheld]
    · obtain ⟨seen, missed, hsplit, hcount, hheld⟩ := ih lag
      refine ⟨seen, missed ++ [e.1], by simp [hsplit], ?_, ?_⟩
      · rw [List.countP_append, List.countP_singleton, if_neg hw]
        omega
      · rw [serve, if_neg hw]
        exact hheld

theorem current_after (hread : ∀ i, writes i = false → ∀ s, (step i s).2 = s) (h : List (ι × Nat)) (s : σ) :
    (Machine.after (serve step writes) h (.fresh s)).current = Machine.after step (h.map Prod.fst) s := by
  obtain ⟨seen, missed, hsplit, hcount, hheld⟩ := held_after hread h s 0
  have hmissed := after_reads hread (List.countP_eq_zero.1 (Nat.le_zero.1 hcount))
  rw [hsplit, Machine.after_append, hmissed, ← hheld, Store.held_zero]

/-- What a party that sees `view` is answered is explained by a prefix of its own inputs, from which at most as
many of its writes are missing as the replica lags behind. -/
theorem serve_explained (hread : ∀ i, writes i = false → ∀ s, (step i s).2 = s) (own : ι → Bool) (view : σ → τ)
    (hown : ∀ i, own i = true → ∀ s s', view s = view s' →
      (step i s).1 = (step i s').1 ∧ view (step i s).2 = view (step i s').2)
    (hother : ∀ i, own i = false → ∀ s, view (step i s).2 = view s)
    (h : List (ι × Nat)) (s : σ) {e : ι × Nat} (he : own e.1 = true) :
    ∃ seen missed, (h.map Prod.fst).filter own = seen ++ missed ∧
      missed.countP writes ≤ staleness writes e ∧
      (serve step writes e (Machine.after (serve step writes) h (.fresh s))).1 =
        (step e.1 (Machine.after step seen s)).1 := by
  obtain ⟨seen, missed, hsplit, hcount, hheld⟩ := held_after hread h s (staleness writes e)
  refine ⟨seen.filter own, missed.filter own, by rw [hsplit, List.filter_append], ?_, ?_⟩
  · exact Nat.le_trans ((List.filter_sublist (p := own)).countP_le) hcount
  · have hview := (Machine.runAll_purge own view hown hother seen s s rfl).2
    rw [serve_answer, hheld]
    exact (hown e.1 he _ _ hview).1

end Replica
