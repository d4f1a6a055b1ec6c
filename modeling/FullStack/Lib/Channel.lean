import Mathlib.Data.List.Perm.Basic
import Mathlib.Data.List.Basic

/-!
# Messages that arrive at least once, in any order

A `Channel` holds the messages in flight. Any of them may be delivered next, and it may stay in flight to be
delivered again. Nothing is lost and nothing is made up: the deliveries and what is in flight are what was
published and what was delivered again (`Accounts`).
-/

/-- The messages in flight, the deliveries so far, and those among them that left their message in flight. -/
structure Channel (μ : Type) where
  inFlight : List μ
  delivered : List μ
  again : List μ

namespace Channel
variable {μ : Type} {ch : Channel μ}

def empty : Channel μ := ⟨[], [], []⟩

def publish (ch : Channel μ) (ms : List μ) : Channel μ := { ch with inFlight := ch.inFlight ++ ms }

def deliver (ch : Channel μ) (i : Nat) (again : Bool) : Channel μ :=
  match ch.inFlight[i]? with
  | none => ch
  | some m =>
    if again then { ch with delivered := ch.delivered ++ [m], again := ch.again ++ [m] }
    else { ch with inFlight := ch.inFlight.eraseIdx i, delivered := ch.delivered ++ [m] }

/-- Each published message is in flight or was delivered once, redeliveries aside. -/
def Accounts (published : List μ) (ch : Channel μ) : Prop :=
  (ch.delivered ++ ch.inFlight).Perm (published ++ ch.again)

theorem accounts_empty : Accounts [] (empty : Channel μ) := .refl _

theorem publish_nil : ch.publish [] = ch := by simp [publish]

theorem Accounts.publish {published : List μ} (h : Accounts published ch) (ms : List μ) :
    Accounts (published ++ ms) (ch.publish ms) := by
  have hadd := h.append_right ms
  have hswap : (published ++ ch.again ++ ms).Perm (published ++ ms ++ ch.again) := by
    rw [List.append_assoc, List.append_assoc]
    exact List.perm_append_comm.append_left published
  rw [List.append_assoc] at hadd
  exact hadd.trans hswap

theorem Accounts.deliver {published : List μ} (h : Accounts published ch) (i : Nat) (again : Bool) :
    Accounts published (ch.deliver i again) := by
  unfold Channel.deliver
  cases hm : ch.inFlight[i]? with
  | none => exact h
  | some m =>
    obtain ⟨hi, rfl⟩ := List.getElem?_eq_some_iff.1 hm
    cases again with
    | true =>
      have hadd := h.append_right [ch.inFlight[i]]
      have hmove : (ch.delivered ++ [ch.inFlight[i]] ++ ch.inFlight).Perm
          (ch.delivered ++ ch.inFlight ++ [ch.inFlight[i]]) := by
        rw [List.append_assoc, List.append_assoc]
        exact List.perm_append_comm.append_left ch.delivered
      rw [List.append_assoc published] at hadd
      exact hmove.trans hadd
    | false =>
      have herase : (ch.inFlight[i] :: ch.inFlight.eraseIdx i).Perm ch.inFlight :=
        List.getElem_cons_eraseIdx_perm hi
      have hmove : (ch.delivered ++ [ch.inFlight[i]] ++ ch.inFlight.eraseIdx i).Perm
          (ch.delivered ++ ch.inFlight) := by
        rw [List.append_assoc]
        exact herase.append_left ch.delivered
      exact hmove.trans h

theorem deliver_delivered (i : Nat) (again : Bool) :
    (ch.deliver i again).delivered = ch.delivered ++ (ch.inFlight[i]?).toList := by
  unfold deliver
  cases ch.inFlight[i]? with
  | none => simp
  | some m => cases again <;> rfl

end Channel
