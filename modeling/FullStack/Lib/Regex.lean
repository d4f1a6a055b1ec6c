import Mathlib.Computability.Language

/-!
# Regular expressions over classes of characters

A `Regex α` is built from classes of letters, each given by its test. `lang` is its language, `accepts` the
matcher by derivatives, and `accepts_iff` says that they agree; so does the matcher by backtracking
(`anchored_eq_accepts`). `Over` and `minLength` are read off the expression and bound the letters and the
length of what it accepts.
-/

open Computability

inductive Regex (α : Type) where
  | empty
  | eps
  | one (p : α → Bool)
  | alt (r t : Regex α)
  | seq (r t : Regex α)
  | star (r : Regex α)

namespace Regex

variable {α : Type} {a : α} {r : Regex α} {s : List α}

def lang : Regex α → Language α
  | empty => 0
  | eps => 1
  | one p => {s | ∃ a, p a = true ∧ s = [a]}
  | alt r t => r.lang + t.lang
  | seq r t => r.lang * t.lang
  | star r => r.lang∗

def opt (r : Regex α) : Regex α := alt eps r

def plus (r : Regex α) : Regex α := seq r (star r)

def times (r : Regex α) : Nat → Regex α
  | 0 => eps
  | n + 1 => seq r (times r n)

def upTo (r : Regex α) : Nat → Regex α
  | 0 => eps
  | n + 1 => opt (seq r (upTo r n))

def nullable : Regex α → Bool
  | empty => false
  | eps => true
  | one _ => false
  | alt r t => r.nullable || t.nullable
  | seq r t => r.nullable && t.nullable
  | star _ => true

def deriv (a : α) : Regex α → Regex α
  | empty => empty
  | eps => empty
  | one p => if p a then eps else empty
  | alt r t => alt (r.deriv a) (t.deriv a)
  | seq r t => if r.nullable then alt (seq (r.deriv a) t) (t.deriv a) else seq (r.deriv a) t
  | star r => seq (r.deriv a) (star r)

def accepts : Regex α → List α → Bool
  | r, [] => r.nullable
  | r, a :: s => (r.deriv a).accepts s

theorem nullable_iff (r : Regex α) : r.nullable = true ↔ [] ∈ r.lang := by
  induction r with
  | empty => exact iff_of_false Bool.false_ne_true (Language.notMem_zero _)
  | eps => exact iff_of_true rfl Language.nil_mem_one
  | one p =>
    refine iff_of_false Bool.false_ne_true ?_
    rintro ⟨a, -, h⟩
    cases h
  | alt r t ihr iht =>
    rw [nullable, Bool.or_eq_true, ihr, iht]
    exact (Language.mem_add _ _ _).symm
  | seq r t ihr iht =>
    rw [nullable, Bool.and_eq_true, ihr, iht, lang, Language.mem_mul]
    constructor
    · rintro ⟨hr, ht⟩
      exact ⟨[], hr, [], ht, rfl⟩
    · rintro ⟨u, hr, v, ht, h⟩
      obtain ⟨rfl, rfl⟩ := List.append_eq_nil_iff.1 h
      exact ⟨hr, ht⟩
  | star r _ => exact iff_of_true rfl (Language.nil_mem_kstar _)

theorem cons_mem_mul {l m : Language α} :
    a :: s ∈ l * m ↔ (∃ u v, u ++ v = s ∧ a :: u ∈ l ∧ v ∈ m) ∨ ([] ∈ l ∧ a :: s ∈ m) := by
  rw [Language.mem_mul]
  constructor
  · rintro ⟨u, hu, v, hv, h⟩
    rcases List.append_eq_cons_iff.1 h with ⟨rfl, rfl⟩ | ⟨u, rfl, rfl⟩
    · exact .inr ⟨hu, hv⟩
    · exact .inl ⟨u, v, rfl, hu, hv⟩
  · rintro (⟨u, v, rfl, hu, hv⟩ | ⟨hl, hm⟩)
    · exact ⟨a :: u, hu, v, hv, rfl⟩
    · exact ⟨[], hl, a :: s, hm, rfl⟩

theorem cons_mem_kstar {l : Language α} :
    a :: s ∈ l∗ ↔ ∃ u v, u ++ v = s ∧ a :: u ∈ l ∧ v ∈ l∗ := by
  rw [Language.mem_kstar_iff_exists_nonempty]
  constructor
  · rintro ⟨pieces, h, hpieces⟩
    cases pieces with
    | nil => cases h
    | cons piece rest =>
      obtain ⟨hpiece, hne⟩ := hpieces piece List.mem_cons_self
      rw [List.flatten_cons] at h
      rcases List.append_eq_cons_iff.1 h.symm with ⟨rfl, -⟩ | ⟨u, rfl, rfl⟩
      · exact absurd rfl hne
      · refine ⟨u, rest.flatten, rfl, hpiece, Language.join_mem_kstar fun y hy => ?_⟩
        exact (hpieces y (List.mem_cons_of_mem _ hy)).1
  · rintro ⟨u, v, rfl, hu, hv⟩
    obtain ⟨rest, rfl, hrest⟩ := Language.mem_kstar_iff_exists_nonempty.1 hv
    refine ⟨(a :: u) :: rest, rfl, fun y hy => ?_⟩
    rcases List.mem_cons.1 hy with rfl | hy
    · exact ⟨hu, List.cons_ne_nil _ _⟩
    · exact hrest y hy

theorem mem_deriv (r : Regex α) : s ∈ (r.deriv a).lang ↔ a :: s ∈ r.lang := by
  induction r generalizing s with
  | empty => exact iff_of_false (Language.notMem_zero _) (Language.notMem_zero _)
  | eps => exact iff_of_false (Language.notMem_zero _) (List.cons_ne_nil _ _)
  | one p =>
    rw [deriv]
    constructor
    · intro h
      split_ifs at h with hp
      · exact ⟨a, hp, congrArg (a :: ·) h⟩
      · exact absurd h (Language.notMem_zero _)
    · rintro ⟨b, hp, h⟩
      cases h
      rw [if_pos hp]
      exact Language.nil_mem_one
  | alt r t ihr iht =>
    rw [deriv, lang, lang, Language.mem_add, Language.mem_add, ihr, iht]
  | seq r t ihr iht =>
    have hleft : s ∈ (seq (r.deriv a) t).lang ↔ ∃ u v, u ++ v = s ∧ a :: u ∈ r.lang ∧ v ∈ t.lang := by
      rw [lang, Language.mem_mul]
      constructor
      · rintro ⟨u, hu, v, hv, h⟩
        exact ⟨u, v, h, ihr.1 hu, hv⟩
      · rintro ⟨u, v, h, hu, hv⟩
        exact ⟨u, ihr.2 hu, v, hv, h⟩
    rw [lang, cons_mem_mul, deriv]
    split_ifs with hnil
    · rw [lang, Language.mem_add, hleft, iht, ← nullable_iff]
      exact or_congr_right (iff_and_self.2 fun _ => hnil)
    · rw [hleft, ← nullable_iff]
      exact (or_iff_left fun h => hnil h.1).symm
  | star r ih =>
    rw [deriv, lang, lang, cons_mem_kstar, Language.mem_mul]
    constructor
    · rintro ⟨u, hu, v, hv, h⟩
      exact ⟨u, v, h, ih.1 hu, hv⟩
    · rintro ⟨u, v, h, hu, hv⟩
      exact ⟨u, ih.2 hu, v, hv, h⟩

theorem accepts_iff (r : Regex α) (s : List α) : r.accepts s = true ↔ s ∈ r.lang := by
  induction s generalizing r with
  | nil => exact nullable_iff r
  | cons a s ih => exact (ih _).trans (mem_deriv r)

/-- One more round of `m`, which must consume, is tried before `k` goes on; `fuel` is the length that is left. -/
def repeated (m : (List α → Bool) → List α → Bool) (k : List α → Bool) : Nat → List α → Bool
  | 0, s => k s
  | fuel + 1, s => m (fun v => v.length < s.length && repeated m k fuel v) s || k s

/-- The matcher that tries the alternatives in turn: `k` is what is to match the rest. -/
def backtrack : Regex α → (List α → Bool) → List α → Bool
  | empty, _, _ => false
  | eps, k, s => k s
  | one _, _, [] => false
  | one p, k, a :: s => p a && k s
  | alt r t, k, s => r.backtrack k s || t.backtrack k s
  | seq r t, k, s => r.backtrack (t.backtrack k) s
  | star r, k, s => repeated r.backtrack k s.length s

/-- The rest of the word that a word of `l` has left is accepted. -/
def Prefixed (l : Language α) (k : List α → Bool) (s : List α) : Prop := ∃ u v, u ++ v = s ∧ u ∈ l ∧ k v = true

theorem repeated_iff {m : (List α → Bool) → List α → Bool} {l : Language α}
    (hm : ∀ k s, m k s = true ↔ Prefixed l k s) (k : List α → Bool) (fuel : Nat) (hfuel : s.length ≤ fuel) :
    repeated m k fuel s = true ↔ Prefixed l∗ k s := by
  induction fuel generalizing s with
  | zero =>
    obtain rfl : s = [] := List.length_eq_zero_iff.1 (Nat.le_zero.1 hfuel)
    constructor
    · exact fun hk => ⟨[], [], rfl, Language.nil_mem_kstar l, hk⟩
    · rintro ⟨u, v, huv, -, hk⟩
      obtain ⟨rfl, rfl⟩ := List.append_eq_nil_iff.1 huv
      exact hk
  | succ fuel ih =>
    rw [repeated, Bool.or_eq_true, hm]
    constructor
    · rintro (⟨u, v, rfl, hu, hv⟩ | hk)
      · obtain ⟨hlt, hrest⟩ := Bool.and_eq_true_iff.1 hv
        have hlt : v.length < (u ++ v).length := of_decide_eq_true hlt
        obtain ⟨w, x, rfl, hw, hk⟩ := (ih (by omega)).1 hrest
        refine ⟨u ++ w, x, List.append_assoc u w x, ?_, hk⟩
        exact (mul_kstar_le_kstar : l * l∗ ≤ l∗) ⟨u, hu, w, hw, rfl⟩
      · exact ⟨[], s, rfl, Language.nil_mem_kstar l, hk⟩
    · rintro ⟨u, v, rfl, hu, hk⟩
      cases u with
      | nil => exact .inr hk
      | cons a u =>
        obtain ⟨w, x, rfl, hw, hx⟩ := cons_mem_kstar.1 hu
        have hshort : (x ++ v).length < (a :: (w ++ x) ++ v).length := by
          simp only [List.cons_append, List.length_cons, List.length_append]
          omega
        have hrest := (ih (by omega)).2 ⟨x, v, rfl, hx, hk⟩
        exact .inl ⟨a :: w, x ++ v, by simp, hw, Bool.and_eq_true_iff.2 ⟨decide_eq_true hshort, hrest⟩⟩

theorem backtrack_iff (r : Regex α) (k : List α → Bool) (s : List α) :
    r.backtrack k s = true ↔ Prefixed r.lang k s := by
  induction r generalizing k s with
  | empty => exact iff_of_false Bool.false_ne_true fun ⟨_, _, _, hu, _⟩ => Language.notMem_zero _ hu
  | eps =>
    constructor
    · exact fun hk => ⟨[], s, rfl, rfl, hk⟩
    · rintro ⟨_, v, rfl, rfl, hk⟩
      exact hk
  | one p =>
    constructor
    · intro h
      cases s with
      | nil => cases h
      | cons a s =>
        obtain ⟨ha, hk⟩ := Bool.and_eq_true_iff.1 h
        exact ⟨[a], s, rfl, ⟨a, ha, rfl⟩, hk⟩
    · rintro ⟨_, v, rfl, ⟨a, ha, rfl⟩, hk⟩
      exact Bool.and_eq_true_iff.2 ⟨ha, hk⟩
  | alt r t ihr iht =>
    rw [backtrack, Bool.or_eq_true, ihr, iht]
    constructor
    · rintro (⟨u, v, h, hu, hk⟩ | ⟨u, v, h, hu, hk⟩)
      · exact ⟨u, v, h, .inl hu, hk⟩
      · exact ⟨u, v, h, .inr hu, hk⟩
    · rintro ⟨u, v, h, hu | hu, hk⟩
      · exact .inl ⟨u, v, h, hu, hk⟩
      · exact .inr ⟨u, v, h, hu, hk⟩
  | seq r t ihr iht =>
    rw [backtrack, ihr]
    constructor
    · rintro ⟨u, _, rfl, hu, hrest⟩
      obtain ⟨v, w, rfl, hv, hk⟩ := (iht k _).1 hrest
      exact ⟨u ++ v, w, List.append_assoc u v w, ⟨u, hu, v, hv, rfl⟩, hk⟩
    · rintro ⟨_, w, rfl, ⟨u, hu, v, hv, rfl⟩, hk⟩
      exact ⟨u, v ++ w, (List.append_assoc u v w).symm, hu, (iht k _).2 ⟨v, w, rfl, hv, hk⟩⟩
  | star r ih => exact repeated_iff ih k s.length le_rfl

def anchored (r : Regex α) (s : List α) : Bool := r.backtrack List.isEmpty s

theorem anchored_eq_accepts (r : Regex α) (s : List α) : r.anchored s = r.accepts s := by
  rw [Bool.eq_iff_iff, accepts_iff, anchored, backtrack_iff]
  constructor
  · rintro ⟨u, v, rfl, hu, hv⟩
    rwa [List.isEmpty_iff.1 hv, List.append_nil]
  · intro hs
    exact ⟨s, [], List.append_nil s, hs, rfl⟩

/-- Every class of the expression holds letters with `P` only. -/
def Over (P : α → Prop) : Regex α → Prop
  | empty => True
  | eps => True
  | one p => ∀ a, p a = true → P a
  | alt r t => r.Over P ∧ t.Over P
  | seq r t => r.Over P ∧ t.Over P
  | star r => r.Over P

theorem Over.opt {P : α → Prop} (h : r.Over P) : (opt r).Over P := ⟨trivial, h⟩

theorem Over.plus {P : α → Prop} (h : r.Over P) : (plus r).Over P := ⟨h, h⟩

theorem Over.upTo {P : α → Prop} (h : r.Over P) (n : Nat) : (upTo r n).Over P := by
  induction n with
  | zero => trivial
  | succ n ih => exact ⟨trivial, h, ih⟩

theorem Over.times {P : α → Prop} (h : r.Over P) (n : Nat) : (times r n).Over P := by
  induction n with
  | zero => trivial
  | succ n ih => exact ⟨h, ih⟩

theorem Over.forall_mem {P : α → Prop} (h : r.Over P) (hs : s ∈ r.lang) : ∀ a ∈ s, P a := by
  induction r generalizing s with
  | empty => exact absurd hs (Language.notMem_zero _)
  | eps =>
    obtain rfl : s = [] := hs
    exact List.forall_mem_nil P
  | one p =>
    obtain ⟨a, hp, rfl⟩ := hs
    exact List.forall_mem_singleton.2 (h a hp)
  | alt r t ihr iht =>
    rcases hs with hs | hs
    · exact ihr h.1 hs
    · exact iht h.2 hs
  | seq r t ihr iht =>
    obtain ⟨u, hu, v, hv, rfl⟩ := hs
    exact List.forall_mem_append.2 ⟨ihr h.1 hu, iht h.2 hv⟩
  | star r ih =>
    obtain ⟨pieces, rfl, hpieces⟩ := Language.mem_kstar.1 hs
    intro a ha
    obtain ⟨piece, hpiece, ha⟩ := List.mem_flatten.1 ha
    exact ih h (hpieces piece hpiece) a ha

def minLength : Regex α → Nat
  | empty => 0
  | eps => 0
  | one _ => 1
  | alt r t => min r.minLength t.minLength
  | seq r t => r.minLength + t.minLength
  | star _ => 0

theorem minLength_le (hs : s ∈ r.lang) : r.minLength ≤ s.length := by
  induction r generalizing s with
  | one p =>
    obtain ⟨a, -, rfl⟩ := hs
    exact le_rfl
  | alt r t ihr iht =>
    rcases hs with hs | hs
    · exact (min_le_left _ _).trans (ihr hs)
    · exact (min_le_right _ _).trans (iht hs)
  | seq r t ihr iht =>
    obtain ⟨u, hu, v, hv, rfl⟩ := hs
    rw [minLength, List.length_append]
    exact Nat.add_le_add (ihr hu) (iht hv)
  | _ => exact Nat.zero_le _

end Regex
